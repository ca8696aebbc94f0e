import Gateware.Proofs.Generation.Typing
import Gateware.Proofs.Number.RoundTrip
import Gateware.Proofs.Text.Words
import Gateware.Proofs.Vhdl.Identifier

/-!
# The characters of a description

A description consists of visible characters of ASCII, spaces and line ends (`Printable`), whatever
characters the names in a program have.  Names get into it as identifiers only, whose characters
are letters, digits and underscores; types and constants bring in digits, and everything else is
fixed text.

Texts of such characters can be put together (`printable_append`, `Printable.join`,
`Printable.intercalate`) and cut into lines (`Printable.indented`), and fixed ones are checked by
evaluation.
-/

namespace Gateware.Vhdl

/-- A visible character of ASCII, a space or a line end. -/
def IsPrintable (c : Char) : Prop := c = '\n' ∨ 0x20 ≤ c.toNat ∧ c.toNat ≤ 0x7E

instance : DecidablePred IsPrintable := fun _ => inferInstanceAs (Decidable (_ ∨ _ ∧ _))

/-- A text of such characters. -/
def Printable (text : String) : Prop := ∀ c ∈ text.toList, IsPrintable c

instance : DecidablePred Printable := fun text =>
  decidable_of_iff (text.toList.all (fun c => decide (IsPrintable c)) = true) (by simp [Printable])

/-! ## Putting texts together -/

lemma printable_append {s t : String} : Printable (s ++ t) ↔ Printable s ∧ Printable t := by
  simp only [Printable, String.toList_append, List.mem_append, or_imp, forall_and]

lemma Printable.join {texts : List String} (h : ∀ s ∈ texts, Printable s) :
    Printable (String.join texts) := by
  intro c hc
  rw [String.toList_join, List.mem_flatMap] at hc
  obtain ⟨s, hs, hc⟩ := hc
  exact h s hs c hc

lemma Printable.intercalate {separator : String} (hseparator : Printable separator) :
    ∀ {texts : List String}, (∀ s ∈ texts, Printable s) →
      Printable (String.intercalate separator texts)
  | [], _ => by
      rw [String.intercalate_nil]
      decide
  | [s], h => by
      rw [String.intercalate_singleton]
      exact h s List.mem_cons_self
  | s :: t :: texts, h => by
      have hrest := Printable.intercalate hseparator fun u hu => h u (List.mem_cons_of_mem s hu)
      rw [String.intercalate_cons_cons, printable_append, printable_append]
      exact ⟨⟨h s List.mem_cons_self, hseparator⟩, hrest⟩

/-- The lines of a text, each moved to the right. -/
lemma Printable.indented {text : String} (h : Printable text) :
    Printable (Entity.indented text) := by
  refine .join fun line hline => ?_
  obtain ⟨l, hl, rfl⟩ := List.mem_map.mp hline
  unfold Entity.indentedLine
  split_ifs
  · decide
  · simp only [printable_append, and_assoc]
    refine ⟨by decide, fun c hc => ?_, by decide⟩
    rw [String.toList_ofList] at hc
    exact h c ((Text.lined_lines text.toList).mem hl hc)

/-! ## Numbers and identifiers -/

lemma isPrintable_of_isAlphanum {c : Char} (h : c.isAlphanum = true) : IsPrintable c := by
  refine .inr ?_
  simp only [Char.isAlphanum, Char.isAlpha, Char.isUpper, Char.isLower, Char.isDigit,
    Bool.or_eq_true, Bool.and_eq_true, decide_eq_true_eq, ge_iff_le, UInt32.le_iff_toNat_le] at h
  change ((65 ≤ c.toNat ∧ c.toNat ≤ 90) ∨ (97 ≤ c.toNat ∧ c.toNat ≤ 122)) ∨
    (48 ≤ c.toNat ∧ c.toNat ≤ 57) at h
  omega

lemma printable_nat (n : Nat) : Printable (toString n) := by
  intro c hc
  rw [toList_nat] at hc
  refine isPrintable_of_isAlphanum ?_
  rw [Char.isAlphanum, allDigits_toDigits n c hc, Bool.or_true]

lemma printable_int : ∀ n : Int, Printable (toString n)
  | .ofNat n => printable_nat n
  | .negSucc n => printable_append.mpr ⟨by decide, printable_nat (n + 1)⟩

lemma printable_of_isValid {name : String} (h : isValid name = true) : Printable name := by
  intro c hc
  have hallowed := List.all_eq_true.mp (all_allowed_of_isValid h) c hc
  rcases Bool.or_eq_true_iff.mp hallowed with halnum | hunderscore
  · exact isPrintable_of_isAlphanum halnum
  · rw [beq_iff_eq.mp hunderscore]
    decide

/-! ## Expressions -/

lemma printable_vectorName (signed : Bool) : Printable (vectorName signed) := by
  cases signed <;> decide

lemma printable_vectorType (t : BitType) : Printable (vectorType t) := by
  change Printable (vectorName t.signed ++ "(" ++ toString (t.width - 1) ++ " downto 0)")
  simp only [printable_append, and_assoc]
  exact ⟨printable_vectorName t.signed, by decide, printable_nat _, by decide⟩

lemma printable_bitText (value : Int) (width : Nat) : Printable (bitText value width) := by
  intro c hc
  rw [bitText, String.toList_ofList] at hc
  obtain ⟨i, -, rfl⟩ := List.mem_map.mp hc
  split_ifs <;> decide

lemma printable_literal (value : Int) (width : Nat) (signed : Bool) :
    Printable (literal value width signed) := by
  unfold literal
  split_ifs
  · change Printable ("to_" ++ vectorName signed ++ "(" ++ toString value ++ ", " ++ toString width ++
      ")")
    simp only [printable_append, and_assoc]
    exact ⟨by decide, printable_vectorName signed, by decide, printable_int value, by decide,
      printable_nat width, by decide⟩
  · simp only [printable_append, and_assoc]
    exact ⟨printable_vectorName signed, by decide, printable_bitText value width, by decide⟩

lemma printable_binaryText (op : BinaryOp) {left right : String} (hl : Printable left)
    (hr : Printable right) : Printable (binaryText op left right) := by
  unfold binaryText
  cases hshift : shiftFunction op with
  | some function =>
      have hfunction : Printable function := by
        have hall : ∀ op : BinaryOp, ∀ f ∈ shiftFunction op, Printable f := by
          intro op
          cases op <;> decide
        exact hall op function hshift
      simp only [printable_append, and_assoc]
      exact ⟨hfunction, by decide, hl, by decide, hr, by decide⟩
  | none =>
      have hsymbol : Printable (binarySymbol op) := by cases op <;> decide
      simp only [printable_append, and_assoc]
      exact ⟨by decide, hl, by decide, hsymbol, by decide, hr, by decide⟩

lemma printable_unary (op : UnaryOp) {text : String} (h : Printable text) :
    Printable (unaryOpening op ++ text ++ ")") := by
  have hopening : Printable (unaryOpening op) := by cases op <;> decide
  simp only [printable_append, and_assoc]
  exact ⟨hopening, h, by decide⟩

lemma printable_resize {text : String} (h : Printable text) (width : Nat) :
    Printable ("resize(" ++ text ++ ", " ++ toString width ++ ")") := by
  simp only [printable_append, and_assoc]
  exact ⟨by decide, h, by decide, printable_nat width, by decide⟩

lemma printable_cast (signed : Bool) {text : String} (h : Printable text) :
    Printable (vectorName signed ++ "(" ++ text ++ ")") := by
  simp only [printable_append, and_assoc]
  exact ⟨printable_vectorName signed, by decide, h, by decide⟩

end Vhdl

open Vhdl

section

variable {ports : Hardware.Ports} (hports : ∀ port ∈ ports, Printable port.1)

include hports

/-- The text of a well-typed expression, which names ports and nothing else. -/
lemma Hardware.HasType.printable {e : Hardware.Expr} {t : BitType} (h : HasType ports e t) :
    Printable (expression e) := by
  induction h with
  | identifier hport _ => exact hports _ hport
  | literal value signed _ => exact printable_literal value _ signed
  | not _ ih => exact printable_unary .not ih
  | neg _ _ ih => exact printable_unary .neg ih
  | operation _ _ _ _ _ ihl ihr => exact printable_binaryText _ ihl ihr
  | product _ _ ihl ihr => exact printable_resize (printable_binaryText .mul ihl ihr) _
  | shift _ _ _ ihl ihr => exact printable_binaryText _ ihl ihr
  | resize width _ _ ih => exact printable_resize ih width
  | cast signed _ ih => exact printable_cast signed ih

/-- The statement that drives a result. -/
lemma Drives.printable {t : BitType} {statement : String} (h : Drives ports t statement) :
    Printable statement := by
  cases h with
  | number he =>
      simp only [printable_append, and_assoc]
      exact ⟨by decide, he.printable hports, by decide⟩
  | condition he _ =>
      cases he with
      | @comparison op l r _ _ hl hr =>
          have hcondition : Printable (expression (.binary op l r)) :=
            printable_binaryText op (hl.printable hports) (hr.printable hports)
          simp only [printable_append, and_assoc]
          exact ⟨by decide, hcondition, by decide⟩

end

/-! ## Entities -/

namespace Vhdl.Entity

lemma printable_portText {p : EntityPort} (hname : Printable p.name) (htype : Printable p.type) :
    Printable (portText p) := by
  have hkeyword : Printable p.direction.keyword := by cases p.direction <;> decide
  change Printable ("        " ++ p.name ++ " : " ++ p.direction.keyword ++ " " ++ p.type)
  simp only [printable_append, and_assoc]
  exact ⟨by decide, hname, by decide, hkeyword, by decide, htype⟩

lemma printable_portList {ports : List EntityPort}
    (h : ∀ p ∈ ports, Printable p.name ∧ Printable p.type) : Printable (portList ports) := by
  unfold portList
  split_ifs
  · decide
  · have hports : Printable (String.intercalate ";\n" (ports.map portText)) := by
      refine Printable.intercalate (by decide) fun s hs => ?_
      obtain ⟨p, hp, rfl⟩ := List.mem_map.mp hs
      exact printable_portText (h p hp).1 (h p hp).2
    simp only [printable_append, and_assoc]
    exact ⟨by decide, hports, by decide⟩

/-- An entity is printable if all its parts are. -/
lemma printable_render {e : Entity} (hname : Printable e.name)
    (hports : ∀ p ∈ e.ports, Printable p.name ∧ Printable p.type)
    (hdeclarations : ∀ d ∈ e.declarations, Printable d)
    (hstatements : ∀ s ∈ e.statements, Printable s) : Printable e.render := by
  have hdeclared : Printable (String.join (e.declarations.map indented)) := by
    refine .join fun s hs => ?_
    obtain ⟨d, hd, rfl⟩ := List.mem_map.mp hs
    exact (hdeclarations d hd).indented
  have hstated : Printable (String.intercalate "\n" (e.statements.map indented)) := by
    refine Printable.intercalate (by decide) fun s hs => ?_
    obtain ⟨t, ht, rfl⟩ := List.mem_map.mp hs
    exact (hstatements t ht).indented
  change Printable (preamble ++ ("entity " ++ e.name ++ " is\n") ++ portList e.ports ++
    ("end entity " ++ e.name ++ ";\n\n") ++ ("architecture rtl of " ++ e.name ++ " is\n") ++ _ ++
    "begin\n" ++ _ ++ "end architecture rtl;\n")
  simp only [printable_append, and_assoc]
  exact ⟨by decide +kernel, by decide, hname, by decide, printable_portList hports, by decide,
    hname, by decide, by decide, hname, by decide, hdeclared, by decide, hstated, by decide⟩

end Vhdl.Entity

/-! ## The wait counter -/

namespace Vhdl

lemma printable_drive (flag : Flag) (high : Bool) :
    Printable (flag.name ++ " <= " ++ levelText high ++ ";") := by
  cases flag <;> cases high <;> decide

lemma Condition.printable_text (condition : Condition) : Printable condition.text := by
  cases condition with
  | level flag high => cases flag <;> cases high <;> decide
  | exhausted => decide

namespace Action

lemma printable_shifted {line : String} (h : Printable line) : Printable (shifted line) :=
  printable_append.mpr ⟨by decide, h⟩

lemma printable_map_shifted {texts : List String} (h : ∀ line ∈ texts, Printable line) :
    ∀ line ∈ texts.map shifted, Printable line := by
  intro line hline
  obtain ⟨text, htext, rfl⟩ := List.mem_map.mp hline
  exact printable_shifted (h text htext)

lemma printable_if (keyword : String) (hkeyword : Printable keyword) (condition : Condition) :
    Printable (keyword ++ condition.text ++ " then") := by
  simp only [printable_append, and_assoc]
  exact ⟨hkeyword, condition.printable_text, by decide⟩

mutual

lemma printable_lines : ∀ a : Action, ∀ line ∈ a.lines, Printable line
  | .skip => by simp [lines]
  | .drive flag high => by
      simp only [lines, List.mem_singleton, forall_eq]
      exact printable_drive flag high
  | .load => by
      simp only [lines, List.mem_singleton, forall_eq]
      decide
  | .countDown => by
      simp only [lines, List.mem_singleton, forall_eq]
      decide
  | .sequence first second => by
      simp only [lines, List.mem_append, or_imp, forall_and]
      exact ⟨printable_lines first, printable_lines second⟩
  | .choose condition yes no => by
      simp only [lines, List.mem_cons, List.mem_append, or_imp, forall_and, forall_eq]
      exact ⟨printable_if "if " (by decide) condition, printable_map_shifted (printable_lines yes),
        printable_alternative no⟩

lemma printable_alternative : ∀ a : Action, ∀ line ∈ a.alternative, Printable line
  | .skip => by
      simp only [alternative, List.mem_singleton, forall_eq]
      decide
  | .drive flag high => by
      simp only [alternative, List.mem_cons, List.not_mem_nil, or_false, forall_eq_or_imp, forall_eq]
      exact ⟨by decide, printable_shifted (printable_drive flag high), by decide⟩
  | .load => by
      simp only [alternative, List.mem_cons, List.not_mem_nil, or_false, forall_eq_or_imp, forall_eq]
      decide
  | .countDown => by
      simp only [alternative, List.mem_cons, List.not_mem_nil, or_false, forall_eq_or_imp, forall_eq]
      decide
  | .sequence first second => by
      simp only [alternative, List.mem_cons, List.map_append, List.mem_append, List.not_mem_nil,
        or_false, or_imp, forall_and, forall_eq]
      exact ⟨by decide, ⟨printable_map_shifted (printable_lines first),
        printable_map_shifted (printable_lines second)⟩, by decide⟩
  | .choose condition yes no => by
      simp only [alternative, List.mem_cons, List.mem_append, or_imp, forall_and, forall_eq]
      exact ⟨printable_if "elsif " (by decide) condition,
        printable_map_shifted (printable_lines yes), printable_alternative no⟩

end

end Action

namespace Counter

lemma printable_declarations (wait : Nat) :
    ∀ d ∈ declarations wait, Printable d := by
  have hwait : Printable ("constant WAIT_CYCLES : positive := " ++ toString wait ++ ";") := by
    simp only [printable_append, and_assoc]
    exact ⟨by decide, printable_nat wait, by decide⟩
  intro d hd
  simp only [declarations, List.mem_cons, List.not_mem_nil, or_false] at hd
  rcases hd with rfl | rfl | rfl
  · exact hwait
  · decide
  · decide

lemma printable_process : Printable process := by
  refine Printable.intercalate (by decide) fun line hline => ?_
  simp only [List.mem_append] at hline
  rcases hline with (hopening | haction) | hclosing
  · have hfixed : ∀ line ∈ ["process (clk)", "begin", "    if rising_edge(clk) then"],
        Printable line := by decide
    exact hfixed line hopening
  · obtain ⟨text, htext, rfl⟩ := List.mem_map.mp haction
    exact Action.printable_shifted (Action.printable_shifted (Action.printable_lines _ text htext))
  · have hfixed : ∀ line ∈ ["    end if;", "end process;"], Printable line := by decide
    exact hfixed line hclosing

end Counter

end Vhdl

/-! ## Descriptions -/

section

variable {model : CostModel Cycles} {top : String} {m : Program.Member} {entity : Vhdl.Entity}

lemma Program.Member.printable_portTypes (m : Program.Member) :
    ∀ port ∈ m.portTypes, Printable port.1 := by
  intro port hport
  obtain ⟨input, -, rfl⟩ := List.mem_map.mp hport
  exact printable_of_isValid (sanitize_valid _)

/-- The entity of a member, whatever names the member and its inputs have. -/
lemma Program.Member.HasEntity.printable (h : m.HasEntity model top entity) :
    Printable entity.render := by
  obtain ⟨hname, htyped⟩ := h.typed
  obtain ⟨statement, hdrives, hstatements⟩ := htyped.drives
  obtain ⟨-, body, -, hentity⟩ := h
  obtain ⟨-, -, _, -, rfl⟩ := memberEntity_eq_ok.mp hentity
  refine Vhdl.Entity.printable_render ?_ ?_ (Vhdl.Counter.printable_declarations _) ?_
  · rw [hname]
    exact printable_of_isValid (sanitize_valid _)
  · rw [htyped.ports_eq]
    intro p hp
    simp only [List.mem_append, List.mem_cons, List.not_mem_nil, or_false, List.mem_map] at hp
    rcases hp with ((rfl | rfl) | ⟨port, hport, rfl⟩) | (rfl | rfl)
    · decide
    · decide
    · exact ⟨m.printable_portTypes port hport, printable_vectorType _⟩
    · exact ⟨show Printable "result" by decide, printable_vectorType m.result⟩
    · decide
  · rw [hstatements]
    intro s hs
    simp only [List.mem_cons, List.not_mem_nil, or_false] at hs
    rcases hs with rfl | rfl
    · exact hdrives.printable m.printable_portTypes
    · exact Vhdl.Counter.printable_process

end

/-- **Descriptions are printable.** -/
theorem generate_printable {memory : MemorySettings} {c c' : Context}
    (h : (c.generate memory).result = .ok c') :
    ∃ source, c'.description = some ⟨source, .vhdl⟩ ∧ Printable source := by
  obtain ⟨table, entities, hentities, hdescription⟩ := generate_entities h
  refine ⟨_, hdescription, Printable.intercalate (by decide) fun text htext => ?_⟩
  obtain ⟨entity, hentity, rfl⟩ := List.mem_map.mp htext
  obtain ⟨m, -, hm⟩ := exists_of_mem_right hentities hentity
  exact hm.printable

end Gateware
