import Gateware.Proofs.Vhdl.Constants
import Gateware.Proofs.Vhdl.Identifier

/-!
# Expressions are read back from their text

Nothing of an expression is lost in its text, whatever VHDL says on how operators group: a reader
that knows no precedence finds its operators, operands and constants again
(`expression_uniquely_readable`).  The reader takes an expression from the start of a text and
leaves what follows it.  So what it reads of a node is a matter of that node alone, given a reader
of its operands (`Reads.unary`, `Reads.operation` and so on).

The head of a text says what kind of node it is: a constant, a word before a parenthesis, a
parenthesis alone, or a name.  Only after a parenthesis alone there may be either an operand or a
unary operator, and no operand starts like one (`Refuses`).

A comment would need two minus signs in a row.  Signs stand before an operand or a number, or
between blanks, and none of these starts or ends with another (`Undashed`).
-/

namespace Gateware.Vhdl

open Hardware (Expr)
open Json (stripWord)

/-! ## Expressions that can be read -/

/-- Whether a number is among those that a type has bits for. -/
def Represents (t : BitType) (n : Int) : Prop :=
  if t.signed then -2 ^ (t.width - 1) ≤ n ∧ n < 2 ^ (t.width - 1) else 0 ≤ n ∧ n < 2 ^ t.width

/-- Expressions of names and of words that their types have bits for, without gaps and without text
of other origin. -/
inductive Readable : Expr → Prop
  | identifier {name : String} (h : isValid name = true) : Readable (.identifier name)
  | literal {value : Int} {width : Nat} {signed : Bool} (hword : FitsWord value)
      (hwidth : 0 < width) (h : Represents ⟨width, signed⟩ value) :
      Readable (.literal value width signed)
  | unary {op : UnaryOp} {e : Expr} (h : Readable e) : Readable (.unary op e)
  | binary {op : BinaryOp} {l r : Expr} (hl : Readable l) (hr : Readable r) :
      Readable (.binary op l r)
  | resize {e : Expr} {width : Nat} (h : Readable e) : Readable (.resize e width)
  | cast {signed : Bool} {e : Expr} (h : Readable e) : Readable (.cast signed e)

lemma number_ofInt {width : Nat} {signed : Bool} {value : Int} (hwidth : 0 < width)
    (h : Represents ⟨width, signed⟩ value) : number signed (BitVec.ofInt width value) = value := by
  cases signed with
  | true =>
      obtain ⟨hlow, hhigh⟩ : -2 ^ (width - 1) ≤ value ∧ value < 2 ^ (width - 1) := h
      exact BitVec.toInt_ofInt_eq_self hwidth hlow hhigh
  | false =>
      obtain ⟨hlow, hhigh⟩ : 0 ≤ value ∧ value < 2 ^ width := h
      simp only [number, Bool.false_eq_true, if_false, BitVec.toNat_ofInt]
      push_cast
      rw [Int.emod_eq_of_lt hlow hhigh, Int.toNat_of_nonneg hlow]

/-- The expression that a constant is. -/
def Constant.expr : Constant → Expr
  | converted signed n width => .literal n width signed
  | spelled signed digits => .literal (spelled signed digits).bits.number digits.length signed

lemma constantOf_expr {value : Int} {width : Nat} {signed : Bool} (hword : FitsWord value)
    (hwidth : 0 < width) (h : Represents ⟨width, signed⟩ value) :
    (constantOf value width signed).expr = .literal value width signed := by
  have hbits := constantOf_bits hword width signed
  unfold constantOf at hbits ⊢
  split_ifs at hbits ⊢
  · rfl
  · have hnumber := number_ofInt hwidth h
    rw [Constant.expr, hbits, length_bitText]
    exact congrArg (Expr.literal · width signed) hnumber

/-! ## The reader -/

/-- What is read from the start of a text, and what follows it. -/
abbrev Reader := List Char → Option (Expr × List Char)

section

variable (read : Reader)

/-- An expression with a text that closes it. -/
def readUpTo (closing : List Char) : Reader := fun cs => do
  let operand ← read cs
  let after ← stripWord closing operand.2
  some (operand.1, after)

/-- The operator with a symbol between its operands. -/
def operatorOf (symbol : List Char) : Option BinaryOp :=
  BinaryOp.all.find? fun op => shiftFunction op == none && (binarySymbol op).toList == symbol

/-- The symbol of an operator up to a blank, and what follows it. -/
def readSymbol (cs : List Char) : Option (BinaryOp × List Char) := do
  let op ← operatorOf (cs.takeWhile (· != ' '))
  let after ← stripWord [' '] (cs.dropWhile (· != ' '))
  some (op, after)

/-- Two operands in parentheses with an operator between them. -/
def readOperation : Reader := fun cs => do
  let cs ← stripWord ['('] cs
  let left ← readUpTo read [' '] cs
  let op ← readSymbol left.2
  let right ← readUpTo read [')'] op.2
  some (.binary op.1 left.1 right.1, right.2)

/-- An operand in parentheses with an operator before it. -/
def readUnary : Reader := fun cs => UnaryOp.all.findSome? fun op => do
  let cs ← stripWord (unaryOpening op).toList cs
  let operand ← readUpTo read [')'] cs
  some (.unary op operand.1, operand.2)

/-- A change of width, after its opening parenthesis. -/
def readResize : Reader := fun cs => do
  let operand ← readUpTo read [',', ' '] cs
  let width ← readNatural operand.2
  let after ← stripWord [')'] width.2
  some (.resize operand.1 width.1, after)

/-- A change of signedness, after its opening parenthesis. -/
def readCast (signed : Bool) : Reader := fun cs => do
  let operand ← readUpTo read [')'] cs
  some (.cast signed operand.1, operand.2)

/-- A shift, after its opening parenthesis. -/
def readShift (op : BinaryOp) : Reader := fun cs => do
  let left ← readUpTo read ", to_integer(".toList cs
  let right ← readUpTo read [')', ')'] left.2
  some (.binary op left.1 right.1, right.2)

/-- A call of a function, after its opening parenthesis. -/
def readCall (function : String) : Reader :=
  if function = "resize" then readResize read
  else match Constant.signednessOf vectorName function with
    | some signed => readCast read signed
    | none => fun cs =>
      (BinaryOp.all.find? fun op => shiftFunction op == some function).bind (readShift read · cs)

/-- A node, given a reader of its operands. -/
def readNode : Reader := fun cs =>
  match Constant.read cs with
  | some constant => some (constant.1.expr, constant.2)
  | none =>
    match (splitWord cs).2 with
    | '(' :: after =>
      if (splitWord cs).1 = "" then (readOperation read cs).or (readUnary read cs)
      else readCall read (splitWord cs).1 after
    | after =>
      if isValid (splitWord cs).1 then some (.identifier (splitWord cs).1, after) else none

end

/-- An expression; `fuel` bounds how deep it may be nested. -/
def readExpression : (fuel : Nat) → Reader
  | 0 => fun _ => none
  | fuel + 1 => readNode (readExpression fuel)

/-- The expression that a whole text is. -/
def readText (text : String) : Option Expr :=
  match readExpression text.length text.toList with
  | some (e, []) => some e
  | _ => none

/-! ## What a node is read as -/

/-- Whether an expression may go on with a character. -/
def continues (c : Char) : Bool := isWordChar c || c == '(' || c == '\''

/-- A text that is no continuation of an expression before it. -/
def Ends (rest : List Char) : Prop := ∀ c ∈ rest.head?, continues c = false

lemma Ends.head {c : Char} {cs : List Char} (h : Ends (c :: cs)) : continues c = false := h c rfl

/-- A reader that finds an expression wherever its text ends. -/
def Reads (read : Reader) (e : Expr) : Prop :=
  ∀ rest, Ends rest → read ((expression e).toList ++ rest) = some (e, rest)

/-- A reader that takes no unary operator for the start of an operand. -/
def Refuses (read : Reader) : Prop :=
  ∀ op cs, read ((unaryOpening op).toList.tail ++ cs) = none

lemma stripWord_append (word cs : List Char) : stripWord word (word ++ cs) = some cs := by
  induction word with
  | nil => rfl
  | cons c word ih => simpa [stripWord] using ih

section

variable {read : Reader} {e l r : Expr}

lemma Reads.upTo (h : Reads read e) (closing : List Char)
    (hclosing : closing.head?.any (!continues ·) = true) (rest : List Char) :
    readUpTo read closing ((expression e).toList ++ (closing ++ rest)) = some (e, rest) := by
  have hends : Ends (closing ++ rest) := by
    cases closing with
    | nil => simp at hclosing
    | cons c closing => exact forall_head? c (by simpa using hclosing) (closing ++ rest)
  simp only [readUpTo, h _ hends, Option.bind_eq_bind, Option.bind_some, stripWord_append]

/-! ### Constants and names -/

lemma Reads.literal {value : Int} {width : Nat} {signed : Bool} (hword : FitsWord value)
    (hwidth : 0 < width) (h : Represents ⟨width, signed⟩ value) :
    Reads (readNode read) (.literal value width signed) := by
  intro rest _
  have hread := Constant.read_text (constantOf_legal value width signed) rest
  rw [constantOf_text] at hread
  simp only [readNode, expression, hread, constantOf_expr hword hwidth h]

/-- A word that nothing continues is a name if it is anything. -/
lemma readNode_word {cs rest : List Char} {word : String} (hsplit : splitWord cs = (word, rest))
    (hrest : Ends rest) :
    readNode read cs = if isValid word then some (.identifier word, rest) else none := by
  have hconstant : Constant.read cs = none := by
    rw [Constant.read, hsplit]
    dsimp only
    split
    · exact absurd hrest.head (by decide)
    · exact absurd hrest.head (by decide)
    · rfl
  simp only [readNode, hconstant, hsplit]
  split
  · exact absurd hrest.head (by decide)
  · rfl

lemma Reads.identifier {name : String} (h : isValid name = true) :
    Reads (readNode read) (.identifier name) := by
  intro rest hrest
  have hword : ∀ c ∈ rest.head?, isWordChar c = false := by
    intro c hc
    have hcontinues := hrest c hc
    simp only [continues, Bool.or_eq_false_iff] at hcontinues
    exact hcontinues.1.1
  rw [expression, readNode_word (splitWord_append (all_allowed_of_isValid h) hword) hrest, if_pos h]

/-! ### Parentheses -/

lemma readNode_group (cs : List Char) : readNode read ('(' :: cs) =
    (readOperation read ('(' :: cs)).or (readUnary read ('(' :: cs)) := by
  have hsplit : splitWord ('(' :: cs) = ("", '(' :: cs) := rfl
  have hconstant : Constant.read ('(' :: cs) = none := by
    simp only [Constant.read, hsplit]
    rfl
  simp only [readNode, hconstant, hsplit, if_true]

lemma operatorOf_symbol {op : BinaryOp} (h : shiftFunction op = none) :
    operatorOf (binarySymbol op).toList = some op := by
  revert h
  cases op <;> decide

lemma readSymbol_text {op : BinaryOp} (hop : shiftFunction op = none) (rest : List Char) :
    readSymbol ((binarySymbol op).toList ++ ' ' :: rest) = some (op, rest) := by
  have hsymbol : ∀ c ∈ (binarySymbol op).toList, (c != ' ') = true := by
    rw [← List.all_eq_true]
    cases op <;> decide
  obtain ⟨htake, hdrop⟩ := Json.takeWhile_run hsymbol (forall_head? ' ' rfl rest)
  simp [readSymbol, htake, hdrop, operatorOf_symbol hop, stripWord]

lemma Reads.operation (hl : Reads read l) (hr : Reads read r) {op : BinaryOp}
    (hop : shiftFunction op = none) : Reads (readNode read) (.binary op l r) := by
  intro rest _
  have htext : (expression (.binary op l r)).toList ++ rest =
      '(' :: ((expression l).toList ++ ([' '] ++ ((binarySymbol op).toList ++
        ' ' :: ((expression r).toList ++ ([')'] ++ rest))))) := by
    simp [expression, binaryText, hop]
  rw [htext, readNode_group]
  simp only [readOperation, Option.bind_eq_bind, Option.bind_some, stripWord, beq_self_eq_true,
    if_true, hl.upTo [' '] rfl, readSymbol_text hop, hr.upTo [')'] rfl, Option.some_or]

lemma stripWord_unaryOpening (op op' : UnaryOp) (cs : List Char) :
    stripWord (unaryOpening op').toList ((unaryOpening op).toList ++ cs) =
      if op' = op then some cs else none := by
  cases op <;> cases op' <;> rfl

lemma readUnary_text (h : Reads read e) (op : UnaryOp) (rest : List Char) :
    readUnary read ((unaryOpening op).toList ++ ((expression e).toList ++ ([')'] ++ rest))) =
      some (.unary op e, rest) := by
  have hoperand := h.upTo [')'] rfl rest
  cases op <;>
    simp only [readUnary, UnaryOp.all, List.findSome?_cons, stripWord_unaryOpening, reduceCtorEq,
      if_true, if_false, Option.bind_eq_bind, Option.bind_none, Option.bind_some, hoperand]

lemma readOperation_unary (hread : Refuses read) (op : UnaryOp) (cs : List Char) :
    readOperation read ((unaryOpening op).toList ++ cs) = none := by
  have hopening : (unaryOpening op).toList = '(' :: (unaryOpening op).toList.tail := by
    cases op <;> rfl
  rw [hopening]
  simp [readOperation, readUpTo, stripWord, hread op cs]

lemma Reads.unary (hread : Refuses read) (h : Reads read e) (op : UnaryOp) :
    Reads (readNode read) (.unary op e) := by
  intro rest _
  have htext : (expression (.unary op e)).toList ++ rest =
      (unaryOpening op).toList ++ ((expression e).toList ++ ([')'] ++ rest)) := by
    simp [expression]
  have hgroup : ∀ cs, readNode read ((unaryOpening op).toList ++ cs) =
      (readOperation read ((unaryOpening op).toList ++ cs)).or
        (readUnary read ((unaryOpening op).toList ++ cs)) := by
    intro cs
    cases op <;> exact readNode_group _
  rw [htext, hgroup, readOperation_unary hread, readUnary_text h, Option.none_or]

/-! ### Calls -/

/-- The functions that are called, other than those of constants. -/
def functions : List String := ["resize", "signed", "unsigned", "shift_left", "shift_right"]

lemma readNode_call {function : String} (h : function ∈ functions) (cs : List Char) :
    readNode read (function.toList ++ '(' :: cs) = readCall read function cs := by
  obtain ⟨hword, hne, hname⟩ : function.toList.all isWordChar = true ∧ function ≠ "" ∧
      Constant.signednessOf (fun signed => "to_" ++ vectorName signed) function = none := by
    revert function
    decide
  have hsplit := splitWord_append hword (forall_head? '(' rfl cs)
  have hconstant : Constant.read (function.toList ++ '(' :: cs) = none := by
    simp only [Constant.read, hsplit, hname, Option.bind_none]
  simp only [readNode, hconstant, hsplit, hne, if_false]

lemma Reads.resize (h : Reads read e) (width : Nat) : Reads (readNode read) (.resize e width) := by
  intro rest _
  have htext : (expression (.resize e width)).toList ++ rest =
      "resize".toList ++ '(' :: ((expression e).toList ++
        ([',', ' '] ++ ((toString width).toList ++ ')' :: rest))) := by
    simp [expression]
  rw [htext, readNode_call (by decide)]
  simp only [readCall, if_true, readResize, Option.bind_eq_bind, Option.bind_some,
    h.upTo [',', ' '] rfl, readNatural_nat (forall_head? ')' rfl rest) width, stripWord,
    beq_self_eq_true]

lemma Reads.cast (h : Reads read e) (signed : Bool) : Reads (readNode read) (.cast signed e) := by
  intro rest _
  have htext : (expression (.cast signed e)).toList ++ rest =
      (vectorName signed).toList ++ '(' :: ((expression e).toList ++ ([')'] ++ rest)) := by
    simp [expression]
  have hfunction : vectorName signed ∈ functions := by
    cases signed <;> decide
  have hcall : readCall read (vectorName signed) = readCast read signed := by
    cases signed <;> rfl
  rw [htext, readNode_call hfunction, hcall]
  simp only [readCast, Option.bind_eq_bind, Option.bind_some, h.upTo [')'] rfl]

lemma shiftFunction_cases {op : BinaryOp} {function : String}
    (h : shiftFunction op = some function) :
    op = .shl ∧ function = "shift_left" ∨ op = .shr ∧ function = "shift_right" := by
  cases op <;> simp_all [shiftFunction]

lemma Reads.shift (hl : Reads read l) (hr : Reads read r) {op : BinaryOp} {function : String}
    (h : shiftFunction op = some function) : Reads (readNode read) (.binary op l r) := by
  intro rest _
  have htext : (expression (.binary op l r)).toList ++ rest =
      function.toList ++ '(' :: ((expression l).toList ++ (", to_integer(".toList ++
        ((expression r).toList ++ ([')', ')'] ++ rest)))) := by
    simp [expression, binaryText, h]
  obtain ⟨hfunction, hcall⟩ : function ∈ functions ∧
      readCall read function = readShift read op := by
    obtain ⟨rfl, rfl⟩ | ⟨rfl, rfl⟩ := shiftFunction_cases h
    · exact ⟨by decide, rfl⟩
    · exact ⟨by decide, rfl⟩
  rw [htext, readNode_call hfunction, hcall, readShift, hl.upTo ", to_integer(".toList rfl]
  simp only [Option.bind_eq_bind, Option.bind_some, hr.upTo [')', ')'] rfl]

end

/-! ## What a text is read as -/

lemma readExpression_refuses (fuel : Nat) : Refuses (readExpression fuel) := by
  intro op cs
  cases fuel with
  | zero => rfl
  | succ fuel =>
      cases op with
      | not =>
          -- the word is reserved, so it is not taken for a name
          have hsplit : splitWord ("not".toList ++ ' ' :: cs) = ("not", ' ' :: cs) :=
            splitWord_append (by decide) (forall_head? ' ' rfl cs)
          exact readNode_word hsplit (forall_head? ' ' rfl cs)
      | neg => exact readNode_word rfl (forall_head? '-' rfl cs)

lemma depth_pos (e : Expr) : 0 < e.depth := by
  cases e <;> simp only [Expr.depth] <;> omega

/-- An expression is read wherever its text stands, if it is not nested too deep. -/
theorem Readable.reads {e : Expr} (h : Readable e) {fuel : Nat} (hfuel : e.depth ≤ fuel) :
    Reads (readExpression fuel) e := by
  induction fuel generalizing e with
  | zero => exact absurd (depth_pos e) (by omega)
  | succ fuel ih =>
      cases h with
      | identifier h => exact .identifier h
      | literal hword hwidth h => exact .literal hword hwidth h
      | unary h =>
          rw [Expr.depth] at hfuel
          exact .unary (readExpression_refuses fuel) (ih h (by omega)) _
      | @binary op l r hl hr =>
          rw [Expr.depth] at hfuel
          have hleft := ih hl (by omega)
          have hright := ih hr (by omega)
          cases hop : shiftFunction op with
          | none => exact hleft.operation hright hop
          | some function => exact hleft.shift hright hop
      | resize h =>
          rw [Expr.depth] at hfuel
          exact (ih h (by omega)).resize _
      | cast h =>
          rw [Expr.depth] at hfuel
          exact (ih h (by omega)).cast _

lemma Readable.depth_le_length {e : Expr} (h : Readable e) :
    e.depth ≤ (expression e).toList.length := by
  induction h with
  | @identifier name h =>
      cases hname : name.toList with
      | nil => simp [isValid, isBasicName, hname] at h
      | cons c cs => simp [Expr.depth, expression, hname]
  | @literal value width signed _ _ =>
      simp only [Expr.depth, expression, ← constantOf_text]
      cases constantOf value width signed with
      | converted signed n width => simp [Constant.text]
      | spelled signed digits =>
          simp [Constant.text]
          omega
  | unary _ ih =>
      simp only [Expr.depth, expression, String.toList_append, List.length_append]
      have hclosing : ")".toList.length = 1 := rfl
      omega
  | @binary op l r _ _ ihl ihr =>
      simp only [Expr.depth, expression, binaryText]
      split <;> simp <;> omega
  | resize _ ih =>
      simp [Expr.depth, expression]
      omega
  | cast _ ih =>
      simp [Expr.depth, expression]
      omega

/-- An expression is the whole of its text. -/
lemma Readable.readText {e : Expr} (h : Readable e) : readText (expression e) = some e := by
  have hread := h.reads h.depth_le_length [] (by simp [Ends])
  rw [List.append_nil] at hread
  simp only [Vhdl.readText]
  rw [← String.length_toList, hread]

/-! ## Comments -/

/-- A text without a comment, and that makes none with a text before or after it. -/
structure Undashed (cs : List Char) : Prop where
  chain : cs.IsChain fun a b => a ≠ '-' ∨ b ≠ '-'
  head : ∀ c ∈ cs.head?, c ≠ '-'
  last : ∀ c ∈ cs.getLast?, c ≠ '-'

namespace Undashed

variable {cs ds : List Char}

lemma append (h : Undashed cs) (h' : Undashed ds) : Undashed (cs ++ ds) where
  chain := List.isChain_append.mpr ⟨h.chain, h'.chain, fun a ha _ _ => .inl (h.last a ha)⟩
  head c hc := by
    cases cs with
    | nil => exact h'.head c hc
    | cons => exact h.head c hc
  last c hc := by
    rw [List.getLast?_append, Option.mem_def, Option.or_eq_some_iff] at hc
    exact hc.elim (h'.last c) fun hc => h.last c hc.2

/-- A sign between other characters. -/
lemma minus {c : Char} (hc : c ≠ '-') (h : Undashed cs) (hne : cs ≠ []) :
    Undashed (c :: '-' :: cs) where
  chain := by
    rw [List.isChain_cons, List.isChain_cons]
    exact ⟨fun _ _ => .inl hc, fun d hd => .inr (h.head d hd), h.chain⟩
  head := by simpa using hc
  last d hd := by
    rw [List.getLast?_cons_of_ne_nil (List.cons_ne_nil _ _), List.getLast?_cons_of_ne_nil hne] at hd
    exact h.last d hd

lemma of_all (h : cs.all (· != '-') = true) : Undashed cs := by
  have hne : ∀ c ∈ cs, c ≠ '-' := by simpa using h
  have hpairs : cs.Pairwise fun a b => a ≠ '-' ∨ b ≠ '-' :=
    List.pairwise_of_forall_mem_list fun a ha _ _ => .inl (hne a ha)
  exact ⟨hpairs.isChain, fun c hc => hne c (List.mem_of_mem_head? hc),
    fun c hc => hne c (List.mem_of_mem_getLast? hc)⟩

lemma of_forall {p : Char → Bool} (hp : p '-' = false) (h : ∀ c ∈ cs, p c = true) :
    Undashed cs := by
  refine of_all (List.all_eq_true.mpr fun c hc => ?_)
  rw [bne_iff_ne]
  rintro rfl
  exact absurd (h _ hc) (by simp [hp])

lemma not_comment (h : Undashed cs) : ¬ ['-', '-'] <:+: cs := by
  intro hcomment
  have hpair := List.IsChain.infix h.chain hcomment
  simp at hpair

end Undashed

lemma undashed_opening : Undashed ['('] := .of_all rfl

lemma undashed_closing : Undashed [')'] := .of_all rfl

lemma undashed_toDigits (n : Nat) : Undashed (Nat.toDigits 10 n) :=
  .of_forall rfl (allDigits_toDigits n)

lemma undashed_nat (n : Nat) : Undashed (toString n).toList := by
  rw [toList_nat]
  exact undashed_toDigits n

lemma undashed_vectorName (signed : Bool) : Undashed (vectorName signed).toList :=
  .of_all (by cases signed <;> rfl)

/-- The sign of a number stands after a parenthesis. -/
lemma undashed_int (n : Int) : Undashed ('(' :: (toString n).toList) := by
  have hdigits := undashed_toDigits n.natAbs
  rw [Json.toList_int]
  split_ifs
  · exact hdigits.minus (by decide) Nat.toDigits_ne_nil
  · exact undashed_opening.append hdigits

lemma undashed_symbol (op : BinaryOp) : Undashed (' ' :: ((binarySymbol op).toList ++ [' '])) := by
  by_cases hop : op = .sub
  · subst hop
    exact .minus (by decide) (.of_all rfl) (List.cons_ne_nil _ _)
  · refine .of_all ?_
    revert hop
    cases op <;> decide

lemma Constant.undashed {c : Constant} (h : c.Legal) : Undashed c.text.toList := by
  cases c with
  | converted signed n width =>
      have htext : (converted signed n width).text.toList =
          "to_".toList ++ ((vectorName signed).toList ++ ('(' :: (toString n).toList ++
            (", ".toList ++ ((toString width).toList ++ [')'])))) := by
        simp [text]
      have hwidth : Undashed (", ".toList ++ ((toString width).toList ++ [')'])) :=
        .append (.of_all rfl) ((undashed_nat width).append undashed_closing)
      rw [htext]
      exact .append (.of_all rfl)
        ((undashed_vectorName signed).append ((undashed_int n).append hwidth))
  | spelled signed digits =>
      have htext : (spelled signed digits).text.toList =
          (vectorName signed).toList ++ ("'(\"".toList ++ (digits ++ "\")".toList)) := by
        simp [text]
      have hbits : ∀ c ∈ digits, isBit c = true := by simpa [isBit, Legal] using h
      rw [htext]
      exact (undashed_vectorName signed).append
        (.append (.of_all rfl) (.append (.of_forall rfl hbits) (.of_all rfl)))

lemma Readable.undashed {e : Expr} (h : Readable e) : Undashed (expression e).toList := by
  induction h with
  | @identifier name h =>
      have hword : ∀ c ∈ name.toList, isWordChar c = true :=
        List.all_eq_true.mp (all_allowed_of_isValid h)
      exact .of_forall rfl hword
  | @literal value width signed _ _ =>
      rw [expression, ← constantOf_text]
      exact Constant.undashed (constantOf_legal value width signed)
  | @unary op e _ ih =>
      rw [expression, String.toList_append, String.toList_append, List.append_assoc]
      have hclosed : Undashed ((expression e).toList ++ [')']) := ih.append undashed_closing
      cases op with
      | not => exact .append (.of_all rfl) hclosed
      | neg => exact hclosed.minus (by decide) (by simp)
  | @binary op l r _ _ ihl ihr =>
      cases hop : shiftFunction op with
      | none =>
          have htext : (expression (.binary op l r)).toList =
              ['('] ++ ((expression l).toList ++ (' ' :: ((binarySymbol op).toList ++ [' ']) ++
                ((expression r).toList ++ [')']))) := by
            simp [expression, binaryText, hop]
          rw [htext]
          exact undashed_opening.append (ihl.append ((undashed_symbol op).append
            (ihr.append undashed_closing)))
      | some function =>
          have htext : (expression (.binary op l r)).toList =
              function.toList ++ (['('] ++ ((expression l).toList ++
                (", to_integer(".toList ++ ((expression r).toList ++ [')', ')'])))) := by
            simp [expression, binaryText, hop]
          have hfunction : Undashed function.toList := by
            obtain ⟨-, rfl⟩ | ⟨-, rfl⟩ := shiftFunction_cases hop
            · exact .of_all rfl
            · exact .of_all rfl
          rw [htext]
          exact hfunction.append (undashed_opening.append (ihl.append
            (.append (.of_all rfl) (ihr.append (.of_all rfl)))))
  | @resize e width _ ih =>
      have htext : (expression (.resize e width)).toList = "resize(".toList ++
          ((expression e).toList ++ (", ".toList ++ ((toString width).toList ++ [')']))) := by
        simp [expression]
      rw [htext]
      exact .append (.of_all rfl) (ih.append (.append (.of_all rfl)
        ((undashed_nat width).append undashed_closing)))
  | @cast signed e _ ih =>
      have htext : (expression (.cast signed e)).toList =
          (vectorName signed).toList ++ (['('] ++ ((expression e).toList ++ [')'])) := by
        simp [expression]
      rw [htext]
      exact (undashed_vectorName signed).append
        (undashed_opening.append (ih.append undashed_closing))

/-! ## Expressions and their texts -/

/-- Where two texts agree up to what ends an expression, the expressions are the same. -/
lemma Readable.eq_of_append_eq {e e' : Expr} (h : Readable e) (h' : Readable e')
    {rest rest' : List Char} (hrest : Ends rest) (hrest' : Ends rest')
    (htext : (expression e').toList ++ rest' = (expression e).toList ++ rest) :
    e' = e ∧ rest' = rest := by
  have hread := h.reads (le_max_left e.depth e'.depth) rest hrest
  have hread' := h'.reads (le_max_right e.depth e'.depth) rest' hrest'
  rw [htext, hread] at hread'
  obtain ⟨rfl, rfl⟩ := Prod.mk.inj (Option.some.inj hread')
  exact ⟨rfl, rfl⟩

/-- **Expressions are uniquely readable.**  An expression is read back from its text, so that no
other one has that text.  Nor does one within a longer text depend on what follows it, as long as
that could not continue it.  And no comment starts in the text. -/
theorem expression_uniquely_readable {e : Expr} (h : Readable e) :
    readText (expression e) = some e ∧
      (∀ e', Readable e' → expression e' = expression e → e' = e) ∧
      (∀ e' rest rest', Readable e' → Ends rest → Ends rest' →
        (expression e').toList ++ rest' = (expression e).toList ++ rest → e' = e ∧ rest' = rest) ∧
      ¬ "--".toList <:+: (expression e).toList := by
  refine ⟨h.readText, fun e' h' htext => ?_,
    fun e' rest rest' h' hrest hrest' htext => h.eq_of_append_eq h' hrest hrest' htext,
    h.undashed.not_comment⟩
  have hread := h'.readText
  rw [htext, h.readText] at hread
  exact (Option.some.inj hread).symm

/-- Signs in a row, and constants of either spelling. -/
def signs : Expr :=
  .binary .sub (.unary .neg (.unary .neg (.identifier "x")))
    (.binary .shl (.resize (.literal (-5) 8 true) 40) (.literal (2 ^ 31) 32 false))

lemma signs_readable : Readable signs := by
  have hname : Readable (.identifier "x") := .identifier (by decide)
  have hsmall : Readable (.literal (-5) 8 true) :=
    .literal (by decide) (by decide) (by norm_num [Represents])
  have hlarge : Readable (.literal (2 ^ 31) 32 false) :=
    .literal (by decide) (by decide) (by norm_num [Represents])
  exact .binary (.unary (.unary hname)) (.binary (.resize hsmall) hlarge)

theorem expression_uniquely_readable_signs :
    Readable signs ∧
      expression signs = "((-(-x)) - shift_left(resize(to_signed(-5, 8), 40), " ++
        "to_integer(unsigned'(\"10000000000000000000000000000000\"))))" ∧
      readText (expression signs) = some signs ∧
      ¬ "--".toList <:+: (expression signs).toList := by
  have h := expression_uniquely_readable signs_readable
  exact ⟨signs_readable, by decide, h.1, h.2.2.2⟩

end Gateware.Vhdl
