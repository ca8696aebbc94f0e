import Gateware.Proofs.Generation.Inversion
import Gateware.Proofs.Lowering.Typing
import Gateware.Proofs.Semantics.Program
import Mathlib.Data.List.Fold
import Mathlib.Data.Option.NAry

/-!
# Lowering keeps the meaning of a member

A member and the expression that it is lowered to compute the same (`lower_keeps_meaning`), for all
inputs.  The program side computes with numbers and converts operands as it goes along; the hardware
side has its conversions written out, computes with rows of bits, joins the operands of associative
operations in another order and takes products at double width.

The induction is over the body.  Its invariant `Agrees` says that an expression and what it was
lowered to come to the same row of bits in the type of the lowered expression, or are both
undefined.  Each kind of operation carries it from the operands to the whole:

* `Agrees.unary`, `coincides_binary` — the operators agree once the operands are converted;
* `Agrees.associative` — a chain computes what the operands give from left to right, because the
  five associative operators are commutative too (`joinRow_comm`, `joinRow_assoc`).
-/

namespace Gateware

open Hardware (Expr Signals)

/-! ## Signals -/

/-- What the names in the entity of a member stand for.  Case makes no difference in them. -/
def Program.Member.signals (m : Program.Member) (values : Program.Assignment) : Signals :=
  fun name => (m.inputs.find? fun input => input.key == Vhdl.identifierKey name).map
    fun input => ⟨input.type, values input⟩

/-- Among items with different keys, the one with the key of an item is that item. -/
lemma find?_key {α : Type} {key : α → String} {xs : List α} {x : α} (h : (xs.map key).Nodup)
    (hx : x ∈ xs) : (xs.find? fun y => key y == key x) = some x := by
  induction xs with
  | nil => simp at hx
  | cons y ys ih =>
      rw [List.map_cons, List.nodup_cons] at h
      rcases List.mem_cons.mp hx with rfl | hx
      · simp
      · have hne : key y ≠ key x := by
          intro heq
          rw [heq] at h
          exact h.1 (List.mem_map_of_mem hx)
        rw [List.find?_cons_of_neg (by simpa using hne)]
        exact ih h.2 hx

/-- The port of an input carries that input and no other. -/
lemma Program.Member.signals_portName {m : Program.Member} (values : Program.Assignment)
    {name : String} {input : Program.Input} (hports : (m.inputs.map Program.Input.key).Nodup)
    (h : m.input? name = some input) :
    m.signals values (portName name) = some ⟨input.type, values input⟩ := by
  obtain ⟨hmem, rfl⟩ := Program.Member.input?_eq_some h
  have hkey : Vhdl.identifierKey (portName input.name) = input.key := rfl
  simp [Program.Member.signals, hkey, find?_key hports hmem]

/-! ## Conversions -/

/-- A converted expression has the converted value. -/
lemma eval_convert {signals : Signals} {e : Expr} {s t : BitType} {row : Option (BitVec s.width)}
    (h : e.eval signals = defined s row) :
    (convert s t e).eval signals = defined t (row.map fun r => Bits.convert t ⟨s, r⟩) := by
  have hresized : (if s.width == t.width then e else .resize e t.width).eval signals
      = defined ⟨t.width, s.signed⟩ (row.map (extended s.signed t.width)) := by
    obtain ⟨width, signed⟩ := s
    split_ifs with hw
    · have hw : width = t.width := by simpa using hw
      subst hw
      have hid : extended signed t.width (w := t.width) = id := funext (extended_self signed)
      rw [h, hid, Option.map_id_fun, id]
    · exact Hardware.eval_resize t.width h
  unfold convert
  dsimp only
  generalize (if s.width == t.width then e else .resize e t.width) = resized at hresized ⊢
  obtain ⟨width, signed⟩ := t
  split_ifs with hs
  · have hs : s.signed = signed := by simpa using hs
    subst hs
    exact hresized
  · exact Hardware.eval_cast signed hresized

/-! ## Chains -/

/-- An associative operation on two rows. -/
def joinRow (op : BinaryOp) {w : Nat} (x y : BitVec w) : BitVec w :=
  match op with
  | .mul => x * y
  | .and => x &&& y
  | .or => x ||| y
  | .xor => x ^^^ y
  | _ => x + y

lemma joinRow_comm (op : BinaryOp) {w : Nat} (x y : BitVec w) :
    joinRow op x y = joinRow op y x := by
  cases op <;>
    simp only [joinRow, BitVec.add_comm x, BitVec.mul_comm x, BitVec.and_comm x,
      BitVec.or_comm x, BitVec.xor_comm x]

lemma joinRow_assoc (op : BinaryOp) {w : Nat} (x y z : BitVec w) :
    joinRow op (joinRow op x y) z = joinRow op x (joinRow op y z) := by
  cases op <;>
    simp only [joinRow, BitVec.add_assoc, BitVec.mul_assoc, BitVec.and_assoc, BitVec.or_assoc,
      BitVec.xor_assoc]

/-- Joining from the left and joining outward from the innermost operand give the same. -/
lemma foldl_joinRow (op : BinaryOp) {w : Nat} (x : BitVec w) (ys : List (BitVec w)) :
    ys.foldl (joinRow op) x = ys.foldr (joinRow op) x := by
  have : Std.Commutative (joinRow op (w := w)) := ⟨joinRow_comm op⟩
  have : Std.Associative (joinRow op (w := w)) := ⟨joinRow_assoc op⟩
  exact List.foldl_eq_foldr

/-- On the program side, an associative operation on a value of its type. -/
lemma operation_joinRow {op : BinaryOp} (hop : op.isAssociative = true) (t : BitType)
    (x : BitVec t.width) (y : Bits) :
    Program.operation op t ⟨t, x⟩ y = .ok (.vector ⟨t, joinRow op x (y.convert t)⟩) := by
  cases op with
  | mul => simp [Program.operation_mul, joinRow]
  | add | and | or | xor =>
      rw [Program.operation_eq_operate rfl (by simp)]
      simp [Hardware.operate, joinRow]
  | _ => simp [BinaryOp.isAssociative] at hop

/-- An operation on operands of one type that always has a value. -/
lemma eval_binary_total {signals : Signals} {op : BinaryOp} {t u : BitType} {l r : Expr}
    {x y : Option (BitVec t.width)} {f : BitVec t.width → BitVec t.width → BitVec u.width}
    (hop : ∀ a b, Hardware.binaryValue op ⟨t, a⟩ ⟨t, b⟩ = .ok (.vector ⟨u, f a b⟩))
    (hl : l.eval signals = defined t x) (hr : r.eval signals = defined t y) :
    (Expr.binary op l r).eval signals = defined u (Option.map₂ f x y) := by
  rw [Hardware.eval_binary op hl hr]
  cases x with
  | none => rfl
  | some x =>
      cases y with
      | none => rfl
      | some y => exact hop x y

/-- The product at double width, cut back to the width of the factors, is the product at that
width. -/
lemma extended_product (signed : Bool) {w : Nat} (x y : BitVec w) :
    extended signed w (extended signed (w + w) x * extended signed (w + w) y) = x * y := by
  have hle : w ≤ w + w := Nat.le_add_left w w
  rw [extended_of_le signed hle, BitVec.setWidth_mul _ _ hle, setWidth_extended signed hle,
    setWidth_extended signed hle]

/-- On the hardware side, one link of a chain. -/
lemma eval_link {signals : Signals} {op : BinaryOp} (hop : op.isAssociative = true) {t : BitType}
    {l r : Expr} {x y : Option (BitVec t.width)} (hl : l.eval signals = defined t x)
    (hr : r.eval signals = defined t y) :
    (link op t.width l r).eval signals = defined t (Option.map₂ (joinRow op) x y) := by
  cases op with
  | mul =>
      -- the product is taken at double width first
      have hwide : (Expr.binary .mul l r).eval signals = defined ⟨t.width + t.width, t.signed⟩
          (Option.map₂ (fun a b => extended t.signed (t.width + t.width) a
            * extended t.signed (t.width + t.width) b) x y) :=
        eval_binary_total (fun a b => Hardware.binaryValue_same rfl t a b) hl hr
      have hcut := Hardware.eval_resize t.width hwide
      rw [Option.map_map₂] at hcut
      simp only [extended_product] at hcut
      exact hcut
  | add | and | or | xor =>
      exact eval_binary_total (fun a b => Hardware.binaryValue_same rfl t a b) hl hr
  | _ => simp [BinaryOp.isAssociative] at hop

/-- On the hardware side, a whole chain. -/
lemma eval_chain {signals : Signals} {op : BinaryOp} (hop : op.isAssociative = true) {t : BitType}
    {e : Expr} {x : Option (BitVec t.width)} (he : e.eval signals = defined t x)
    {es : List Expr} {ys : List (Option (BitVec t.width))}
    (hes : List.Forall₂ (fun e y => e.eval signals = defined t y) es ys) :
    (es.foldr (link op t.width) e).eval signals
      = defined t (ys.foldr (Option.map₂ (joinRow op)) x) := by
  induction hes with
  | nil => exact he
  | cons hl _ ih => exact eval_link hop hl ih

/-- On the program side, operands joined from left to right. -/
lemma operationFrom_joinRow {op : BinaryOp} (hop : op.isAssociative = true) (t : BitType) :
    ∀ (x : BitVec t.width) (ys : List Bits),
      Program.operationFrom op t ⟨t, x⟩ ys
        = .ok (.vector ⟨t, (ys.map (Bits.convert t)).foldl (joinRow op) x⟩)
  | x, [] => rfl
  | x, y :: ys => by
      rw [Program.operationFrom, operation_joinRow hop]
      exact operationFrom_joinRow hop t (joinRow op x (y.convert t)) ys

/-- A fold over options has a value exactly if all of them have. -/
lemma foldr_map₂_some {α : Type} (f : α → α → α) (x : α) (ys : List α) :
    (ys.map some).foldr (Option.map₂ f) (some x) = some (ys.foldr f x) := by
  induction ys with
  | nil => rfl
  | cons y ys ih => simp [ih]

lemma foldr_map₂_none {α : Type} (f : α → α → α) {x : Option α} {ys : List (Option α)}
    (h : none ∈ x :: ys) : ys.foldr (Option.map₂ f) x = none := by
  induction ys with
  | nil => exact (List.mem_singleton.mp h).symm
  | cons y ys ih =>
      rw [List.foldr_cons, Option.map₂_eq_none_iff]
      rcases List.mem_cons.mp h with rfl | h
      · exact Or.inr (ih (by simp))
      · rcases List.mem_cons.mp h with rfl | h
        · exact Or.inl rfl
        · exact Or.inr (ih (by simp [h]))

/-! ## Agreement -/

/-- An expression and what it was lowered to come to the same row of bits, in the type of the
lowered expression, or are both undefined. -/
def Agrees {κ : Type} (signals : Signals) (source : Except Fault Value) (x : Lowered κ) : Prop :=
  ∃ row, source = defined x.type row ∧ x.expr.eval signals = defined x.type row

section

variable {κ : Type} {signals : Signals} {model : CostModel κ} {cost : κ} {t : BitType}

lemma agrees_of_type {source : Except Fault Value} {x : Lowered κ} {row : Option (BitVec t.width)}
    (htype : x.type = t) (hsource : source = defined t row)
    (htarget : x.expr.eval signals = defined t row) : Agrees signals source x := by
  subst htype
  exact ⟨row, hsource, htarget⟩

/-- Bringing the lowered expression to a type takes its value over into that type. -/
lemma Agrees.toType {source : Except Fault Value} {x : Lowered κ} (h : Agrees signals source x)
    (t : BitType) :
    ∃ o, source = outcome o ∧ (x.toType t).eval signals = defined t (o.map (Bits.convert t)) := by
  obtain ⟨row, hsource, htarget⟩ := h
  refine ⟨row.map (Bits.mk x.type), hsource, ?_⟩
  rw [Lowered.toType, eval_convert htarget, Option.map_map]
  rfl

lemma Agrees.unary {op : UnaryOp} {source : Except Fault Value} {x : Lowered κ}
    (h : Agrees signals source x) :
    Agrees signals (source.bind fun v => v.bits.bind fun b =>
      .ok (.vector ⟨t, Program.unaryOperation op t b⟩)) (.unary model op t cost x) := by
  obtain ⟨o, rfl, htarget⟩ := h.toType t
  refine ⟨_, ?_, Hardware.eval_unary htarget⟩
  cases o with
  | none => rfl
  | some b =>
      simp only [outcome, Except.bind, Value.bits, Program.unaryOperation_eq]
      rfl

/-- The operands of an operation, on both sides. -/
lemma agrees_operands {m : Program.Member} {values : Program.Assignment}
    {es : List Program.Expr} {xs : List (Lowered κ)}
    (h : List.Forall₂ (fun e x => Agrees signals (e.eval m values) x) es xs) (t : BitType) :
    ∃ os, List.Forall₂ (fun e o => e.eval m values = outcome o) es os ∧
      List.Forall₂ (fun x o => x.eval signals = defined t (o.map (Bits.convert t)))
        (xs.map fun x => x.toType t) os := by
  induction h with
  | nil => exact ⟨[], .nil, .nil⟩
  | cons hx _ ih =>
      obtain ⟨o, hsource, htarget⟩ := hx.toType t
      obtain ⟨os, hsources, htargets⟩ := ih
      exact ⟨o :: os, .cons hsource hsources, .cons htarget htargets⟩

/-- On the program side, operands have values unless one of them is undefined. -/
lemma evalAll_cases {m : Program.Member} {values : Program.Assignment} {es : List Program.Expr}
    {os : List (Option Bits)}
    (h : List.Forall₂ (fun e o => e.eval m values = outcome o) es os) :
    (∃ xs, os = xs.map some ∧ Program.Expr.evalAll m values es = .ok xs) ∨
      (none ∈ os ∧ Program.Expr.evalAll m values es = .error .undefined) := by
  induction h with
  | nil => exact Or.inl ⟨[], rfl, rfl⟩
  | cons he _ ih =>
      rename_i o es os _
      simp only [Program.Expr.evalAll, except_bind, except_pure, he]
      cases o with
      | none => exact Or.inr ⟨by simp, rfl⟩
      | some x =>
          rcases ih with ⟨xs, rfl, hxs⟩ | ⟨hnone, hfault⟩
          · exact Or.inl ⟨x :: xs, rfl, by simp [hxs, outcome, Except.bind]⟩
          · exact Or.inr ⟨by simp [hnone], by simp [hfault, outcome, Except.bind]⟩

/-- On the program side, an associative operation, written the way its chain computes it. -/
lemma eval_associative {op : BinaryOp} (hop : op.isAssociative = true) {m : Program.Member}
    {values : Program.Assignment} {es : List Program.Expr} {o : Option Bits}
    {os : List (Option Bits)}
    (h : List.Forall₂ (fun e o => e.eval m values = outcome o) es (o :: os)) :
    (Program.Expr.binary op es t).eval m values
      = defined t ((os.map (Option.map (Bits.convert t))).foldr (Option.map₂ (joinRow op))
          (o.map (Bits.convert t))) := by
  simp only [Program.Expr.eval, except_bind]
  rcases evalAll_cases h with ⟨bs, hbs, heval⟩ | ⟨hnone, hfault⟩
  · cases bs with
    | nil => simp at hbs
    | cons b bs =>
        simp only [List.map_cons, List.cons.injEq] at hbs
        obtain ⟨rfl, rfl⟩ := hbs
        have hsome : (bs.map some).map (Option.map (Bits.convert t))
            = (bs.map (Bits.convert t)).map some := by simp [Function.comp_def]
        rw [heval, hsome, Option.map_some, foldr_map₂_some, ← foldl_joinRow]
        simp only [Except.bind, Program.operationAll, hop, if_true, operationFrom_joinRow hop]
        rfl
  · have hmem : none ∈ (o :: os).map (Option.map (Bits.convert t)) :=
      List.mem_map.mpr ⟨none, hnone, rfl⟩
    rw [hfault, foldr_map₂_none (joinRow op) hmem]
    rfl

/-- A chain computes what its operands give from left to right. -/
lemma Agrees.associative {op : BinaryOp} (hop : op.isAssociative = true) {m : Program.Member}
    {values : Program.Assignment} {es : List Program.Expr} {xs : List (Lowered κ)}
    (hne : 0 < es.length)
    (h : List.Forall₂ (fun e x => Agrees signals (e.eval m values) x) es xs) :
    Agrees signals ((Program.Expr.binary op es t).eval m values)
      (.associative model op t cost xs) := by
  obtain ⟨os, hsources, htargets⟩ := agrees_operands h t
  have hlength := h.length_eq
  cases xs with
  | nil =>
      rw [hlength] at hne
      simp at hne
  | cons x xs =>
      rw [List.map_cons] at htargets
      cases htargets with
      | cons hfirst hrest =>
          have hchain := eval_chain hop hfirst (List.forall₂_map_right_iff.mpr hrest)
          refine ⟨_, eval_associative hop hsources, ?_⟩
          simpa [Lowered.associative, chainExpr_cons] using hchain

/-- Except for products and shifts, an operation that is no comparison stays in its type. -/
lemma operate_defined {op : BinaryOp} (hop : op.isAssociative = false) (hshift : op.isShift = false)
    (hcompare : op.isComparison = false) (x y : BitVec t.width) :
    ∃ row, Hardware.operate op t x y = defined t row := by
  cases op with
  | sub => exact ⟨some (x - y), rfl⟩
  | div | mod =>
      simp only [Hardware.operate]
      split_ifs
      · exact ⟨none, rfl⟩
      · exact ⟨some _, rfl⟩
      · exact ⟨some _, rfl⟩
  | _ => simp_all [BinaryOp.isAssociative, BinaryOp.isShift, BinaryOp.isComparison]

/-- A comparison has a truth value. -/
lemma operate_truth {op : BinaryOp} (hcompare : op.isComparison = true) (x y : BitVec t.width) :
    ∃ holds, Hardware.operate op t x y = .ok (.truth holds) := by
  cases op <;> simp_all [BinaryOp.isComparison, Hardware.operate]

/-- On the program side, an operation on two operands. -/
lemma eval_pair {op : BinaryOp} (hop : op.isAssociative = false) {m : Program.Member}
    {values : Program.Assignment} {e f : Program.Expr} {x y : Option Bits}
    (he : e.eval m values = outcome x) (hf : f.eval m values = outcome y) :
    (Program.Expr.binary op [e, f] t).eval m values =
      match x, y with
      | some x, some y => Program.operation op t x y
      | _, _ => .error .undefined := by
  simp only [Program.Expr.eval, Program.Expr.evalAll, except_bind, except_pure, he, hf]
  cases x with
  | none => rfl
  | some x =>
      cases y with
      | none => rfl
      | some y => simp [outcome, Except.bind, Program.operationAll, hop]

/-- An operation comes to the same on both sides, and never to nothing at all: to a truth value if
it is a comparison, and to a row of its type otherwise. -/
structure Coincides (op : BinaryOp) (t : BitType) (source target : Except Fault Value) : Prop where
  same : target = source
  number : op.isComparison = false → ∃ row, source = defined t row
  truth : op.isComparison = true →
    source = .error .undefined ∨ ∃ holds, source = .ok (.truth holds)

lemma coincides_undefined (op : BinaryOp) (t : BitType) :
    Coincides op t (.error .undefined) (.error .undefined) :=
  ⟨rfl, fun _ => ⟨none, rfl⟩, fun _ => Or.inl rfl⟩

section

variable {op : BinaryOp} {m : Program.Member} {values : Program.Assignment} {e f : Program.Expr}
  {l r : Lowered κ}

/-- A shift: the amount is not converted. -/
lemma coincides_shift (model : CostModel κ) (cost : κ) (t : BitType)
    (hop : op.isAssociative = false) (hs : op.isShift = true)
    (hl : Agrees signals (e.eval m values) l) (hr : Agrees signals (f.eval m values) r) :
    Coincides op t ((Program.Expr.binary op [e, f] t).eval m values)
      ((Lowered.binary model op t cost l r).expr.eval signals) := by
  obtain ⟨x, hx, hleft⟩ := hl.toType t
  obtain ⟨row, hrow, hright⟩ := hr
  rw [eval_pair hop hx hrow]
  simp only [Lowered.binary, hs, if_true, Hardware.eval_binary op hleft hright]
  cases x with
  | none => exact coincides_undefined op t
  | some x =>
      cases row with
      | none => exact coincides_undefined op t
      | some row =>
          simp only [Option.map_some, Hardware.binaryValue, hs, if_true,
            Program.operation_shift hs]
          unfold Hardware.shift
          split_ifs
          · exact coincides_undefined op t
          · exact ⟨rfl, fun _ => ⟨some _, rfl⟩, by simp [isComparison_of_shift hs]⟩

/-- An operation on two operands that are both converted to its type. -/
lemma coincides_converted (model : CostModel κ) (cost : κ) (t : BitType)
    (hop : op.isAssociative = false) (hs : op.isShift = false)
    (hl : Agrees signals (e.eval m values) l) (hr : Agrees signals (f.eval m values) r) :
    Coincides op t ((Program.Expr.binary op [e, f] t).eval m values)
      ((Lowered.binary model op t cost l r).expr.eval signals) := by
  obtain ⟨x, hx, hleft⟩ := hl.toType t
  obtain ⟨y, hy, hright⟩ := hr.toType t
  rw [eval_pair hop hx hy]
  simp only [Lowered.binary, hs, Bool.false_eq_true, if_false,
    Hardware.eval_binary op hleft hright]
  cases x with
  | none => exact coincides_undefined op t
  | some x =>
      cases y with
      | none => exact coincides_undefined op t
      | some y =>
          simp only [Option.map_some, Hardware.binaryValue_same hs,
            Program.operation_eq_operate hs (ne_mul_of_not_associative hop)]
          exact ⟨rfl, fun hcompare => operate_defined hop hs hcompare _ _,
            fun hcompare => Or.inr (operate_truth hcompare _ _)⟩

lemma coincides_binary (model : CostModel κ) (cost : κ) (t : BitType)
    (hop : op.isAssociative = false) (hl : Agrees signals (e.eval m values) l)
    (hr : Agrees signals (f.eval m values) r) :
    Coincides op t ((Program.Expr.binary op [e, f] t).eval m values)
      ((Lowered.binary model op t cost l r).expr.eval signals) := by
  cases hs : op.isShift with
  | true => exact coincides_shift model cost t hop hs hl hr
  | false => exact coincides_converted model cost t hop hs hl hr

end

end

/-! ## The whole body -/

section

variable {κ : Type} {model : CostModel κ} {m : Program.Member}

/-- **Lowering keeps values.**  A lowered number agrees with its expression, and a lowered
comparison has the same truth value. -/
theorem lower_agrees (values : Program.Assignment) (hports : checkPorts m = .ok ())
    (e : Program.Expr) : ∀ {top : Bool} {x : Lowered κ}, (lower model m top e).result = .ok x →
      if x.comparison then
        x.expr.eval (m.signals values) = e.eval m values ∧
          (e.eval m values = .error .undefined ∨ ∃ holds, e.eval m values = .ok (.truth holds))
      else Agrees (m.signals values) (e.eval m values) x := by
  induction e using Program.Expr.induction with
  | input name =>
      intro top x h
      obtain ⟨input, hinput, -, rfl⟩ := lower_input.mp h
      have hsignal := Program.Member.signals_portName values (checkPorts_eq_ok.mp hports) hinput
      refine ⟨some (values input), ?_, ?_⟩
      · simp [Program.Expr.eval, hinput]
      · simp [Expr.eval, Expr.evalWith, hsignal]
  | constant value type =>
      intro top x h
      obtain ⟨-, rfl⟩ := lower_constant.mp h
      exact ⟨some (.ofInt type.width value), rfl, rfl⟩
  | unary op operand type ih =>
      intro top x h
      obtain ⟨-, -, cost, -, y, hy, rfl⟩ := lower_unary.mp h
      have hnumber : y.comparison = false := by simpa using (lower_typed operand hy).1
      have hoperand := ih hy
      rw [hnumber] at hoperand
      exact Agrees.unary hoperand
  | binary op operands type ih =>
      intro top x h
      obtain ⟨-, -, hpos, -, cost, -, xs, hxs, hjoin⟩ := lower_binary.mp h
      have hoperands : List.Forall₂
          (fun e x => Agrees (m.signals values) (e.eval m values) x) operands xs := by
        refine ((List.forall₂_and_left operands xs).mpr ⟨ih, hxs⟩).imp ?_
        rintro e y ⟨hagrees, hy⟩
        have hnumber : y.comparison = false := by simpa using (lower_typed e hy).1
        have hoperand := hagrees hy
        rw [hnumber] at hoperand
        exact hoperand
      cases hjoin with
      | associative hop => exact Agrees.associative hop hpos hoperands
      | binary hop =>
          cases hoperands with
          | cons hl hrest =>
              cases hrest with
              | cons hr hnil =>
                  cases hnil
                  obtain ⟨hsame, hnumber, htruth⟩ := coincides_binary model cost type hop hl hr
                  cases hcompare : op.isComparison with
                  | true =>
                      simp only [Lowered.binary, hcompare, if_true] at hsame ⊢
                      exact ⟨hsame, htruth hcompare⟩
                  | false =>
                      obtain ⟨row, hrow⟩ := hnumber hcompare
                      rw [if_neg (by simp [Lowered.binary, hcompare])]
                      exact agrees_of_type (by simp [Lowered.binary, hcompare]) hrow
                        (hsame.trans hrow)

/-- The expression that drives a result of a type: the condition, or the number brought to the
type. -/
def Lowered.driver (x : Lowered κ) (t : BitType) : Expr :=
  if x.comparison then x.expr else x.toType t

/-- **Lowering keeps the meaning of a member.**  For all inputs, the expression that drives the
result has the value that the member computes, and is undefined exactly where that is; neither is
ever malformed. -/
theorem lower_keeps_meaning (model : CostModel κ) (m : Program.Member) (body : Lowered κ)
    (values : Program.Assignment) (hports : checkPorts m = .ok ())
    (hbody : (lower model m true m.body).result = .ok body) :
    (body.driver m.result).eval (m.signals values) = m.meaning values ∧
      m.meaning values ≠ .error .malformed := by
  have hagrees := lower_agrees values hports m.body hbody
  unfold Lowered.driver Program.Member.meaning
  cases hcompare : body.comparison with
  | true =>
      rw [hcompare, if_pos rfl] at hagrees
      obtain ⟨hsame, hundefined | ⟨holds, hholds⟩⟩ := hagrees
      · rw [if_pos rfl, hsame, hundefined]
        exact ⟨rfl, nofun⟩
      · rw [if_pos rfl, hsame, hholds]
        exact ⟨rfl, nofun⟩
  | false =>
      rw [hcompare] at hagrees
      obtain ⟨o, hsource, htarget⟩ := Agrees.toType hagrees m.result
      rw [if_neg (by simp), htarget, hsource]
      refine ⟨?_, ?_⟩
      · cases o with
        | none => rfl
        | some x => rfl
      · cases o with
        | none => exact nofun
        | some x => exact nofun

end

/-- A model in which nothing costs anything. -/
def CostModel.free : CostModel Unit where
  zero := ()
  add _ _ := ()
  later _ _ := ()
  price _ := pure ()

/-- A product of a number with a sign, one without, and a constant, in a type that holds neither
the unsigned factor nor the product, with a wider result. -/
def Program.Member.scaling : Program.Member where
  name := "Scaling"
  inputs := [⟨"a", ⟨8, true⟩⟩, ⟨"b", ⟨16, false⟩⟩]
  result := ⟨24, true⟩
  body := .binary .mul [.input "a", .input "b", .constant 3 ⟨4, false⟩] ⟨16, true⟩

/-- For `a = -3` and `b = 40000` the product wraps around to `-32320`. -/
theorem lower_keeps_meaning_scaling :
    checkPorts .scaling = .ok () ∧
      ∃ body, (lower .free .scaling true Program.Member.scaling.body).result = .ok body ∧
        (body.driver ⟨24, true⟩).eval
            (Program.Member.scaling.signals fun input =>
              if input.name = "a" then .ofInt _ (-3) else .ofInt _ 40000)
          = .ok (.vector ⟨⟨24, true⟩, .ofInt 24 (-32320)⟩) := by
  have hports : checkPorts .scaling = .ok () := rfl
  refine ⟨hports, _, rfl, ?_⟩
  refine (lower_keeps_meaning .free .scaling _ _ hports rfl).1.trans ?_
  rfl

end Gateware
