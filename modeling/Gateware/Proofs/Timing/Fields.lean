import Gateware.Proofs.Number.RoundTrip
import Gateware.Proofs.Text.Words
import Gateware.Proofs.Timing.Table
import Gateware.Timing.Report

/-!
# The fields of a measurement

What the three fields of a line stand for: `NamesOperator`, `NamesType` and, for the delay,
`readFloat`.  Letter case counts in none of them.  `Unreadable` is the first reason for which fields
are not a measurement; they are one exactly unless there is such a reason (`names_or_unreadable`,
`parseFields_of_names`, `parseFields_of_unreadable`).
-/

namespace Gateware

/-! ## Letter case -/

section

variable {c : Char}

lemma toLower_eq_of_isDigit (h : c.toLower.isDigit = true) : c.toLower = c := by
  by_cases hc : c.val ≥ 'A'.val ∧ c.val ≤ 'Z'.val
  · rw [Char.toLower, dif_pos hc] at h
    simp only [Char.isDigit, Bool.and_eq_true, decide_eq_true_eq, UInt32.le_iff_toNat_le,
      ge_iff_le] at h hc
    simp at h hc
    omega
  · rw [Char.toLower, dif_neg hc]

lemma toLower_eq_plus (h : c.toLower = '+') : c = '+' := by
  by_cases hc : c.val ≥ 'A'.val ∧ c.val ≤ 'Z'.val
  · rw [Char.toLower, dif_pos hc] at h
    have hvalue := congrArg (fun c => c.val.toNat) h
    simp [UInt32.le_iff_toNat_le] at hvalue hc
    omega
  · rwa [Char.toLower, dif_neg hc] at h

end

lemma AllDigits.toLower_eq : ∀ {cs : List Char}, AllDigits (cs.map Char.toLower) →
    cs.map Char.toLower = cs
  | [], _ => rfl
  | c :: cs, h => by
      obtain ⟨hc, hcs⟩ := List.forall_mem_cons.mp h
      rw [List.map_cons, toLower_eq_of_isDigit hc, AllDigits.toLower_eq hcs]

lemma AllDigits.map_toLower {cs : List Char} (h : AllDigits cs) : cs.map Char.toLower = cs := calc
  cs.map Char.toLower = cs.map id := List.map_congr_left fun c hc => toLower_of_isDigit (h c hc)
  _ = cs := List.map_id cs

/-! ## Numerals -/

/-- Decimal digits, after a plus sign or not, with their value. -/
inductive Numeral : List Char → ℕ → Prop
  | plain {ds : List Char} : ds ≠ [] → AllDigits ds → Numeral ds (digitsValue ds)
  | plus {ds : List Char} : ds ≠ [] → AllDigits ds → Numeral ('+' :: ds) (digitsValue ds)

lemma readDigits_eq_some_iff {cs : List Char} {n : ℕ} :
    readDigits cs = some n ↔ cs ≠ [] ∧ AllDigits cs ∧ digitsValue cs = n := by
  have hdigits : (!cs.isEmpty && cs.all Char.isDigit) = true ↔ cs ≠ [] ∧ AllDigits cs := by
    simp [AllDigits]
  unfold readDigits
  split_ifs with h
  · obtain ⟨hne, hall⟩ := hdigits.mp h
    simp [hne, hall]
  · rw [hdigits] at h
    constructor
    · intro hnone
      cases hnone
    · rintro ⟨hne, hall, -⟩
      exact absurd ⟨hne, hall⟩ h

lemma numeral_plus_iff {ds : List Char} {n : ℕ} :
    Numeral ('+' :: ds) n ↔ ds ≠ [] ∧ AllDigits ds ∧ digitsValue ds = n := by
  constructor
  · intro h
    cases h with
    | plain _ hall => exact absurd (hall '+' List.mem_cons_self) (by decide)
    | plus hne hall => exact ⟨hne, hall, rfl⟩
  · rintro ⟨hne, hall, rfl⟩
    exact .plus hne hall

lemma numeral_plain_iff {cs : List Char} {n : ℕ} (h : ∀ ds, cs ≠ '+' :: ds) :
    Numeral cs n ↔ cs ≠ [] ∧ AllDigits cs ∧ digitsValue cs = n := by
  constructor
  · intro hn
    cases hn with
    | plain hne hall => exact ⟨hne, hall, rfl⟩
    | plus => exact absurd rfl (h _)
  · rintro ⟨hne, hall, rfl⟩
    exact .plain hne hall

lemma readNat_eq_some_iff {bound : ℕ} {cs : List Char} {n : ℕ} :
    readNat bound cs = some n ↔ Numeral cs n ∧ n ≤ bound := by
  have hbound : ∀ ds : List Char,
      ((readDigits ds).bind fun n => if n ≤ bound then some n else none) = some n ↔
        readDigits ds = some n ∧ n ≤ bound := by
    intro ds
    simp only [Option.bind_eq_some_iff, Option.ite_none_right_eq_some, Option.some.injEq]
    constructor
    · rintro ⟨n', hread, hle, rfl⟩
      exact ⟨hread, hle⟩
    · rintro ⟨hread, hle⟩
      exact ⟨n, hread, hle, rfl⟩
  unfold readNat
  split
  · rw [numeral_plus_iff, ← readDigits_eq_some_iff]
    exact hbound _
  · next hplus =>
      rw [numeral_plain_iff hplus, ← readDigits_eq_some_iff]
      exact hbound _

lemma numeral_toLower {cs : List Char} {n : ℕ} :
    Numeral (cs.map Char.toLower) n ↔ Numeral cs n := by
  constructor
  · intro h
    generalize hcs : cs.map Char.toLower = low at h
    cases h with
    | plain hne hall =>
        subst hcs
        have hsame := hall.toLower_eq
        rw [hsame] at hall hne ⊢
        exact .plain hne hall
    | plus hne hall =>
        obtain ⟨c, cs, rfl, hc, rfl⟩ := List.map_eq_cons_iff.mp hcs
        have hsame := hall.toLower_eq
        rw [hsame] at hall hne ⊢
        rw [toLower_eq_plus hc]
        exact .plus hne hall
  · intro h
    cases h with
    | plain hne hall =>
        rw [hall.map_toLower]
        exact .plain hne hall
    | plus hne hall =>
        rw [List.map_cons, hall.map_toLower]
        exact .plus hne hall

/-! ## Operand types -/

/-- An operand type: the word for its signedness, in any letter case, and its width. -/
def NamesType (cs : List Char) (signed : Bool) (width : ℕ) : Prop :=
  ∃ word digits, cs = word ++ digits ∧ word.map Char.toLower = (signWord signed).toList ∧
    Numeral digits width ∧ 0 < width ∧ width ≤ maxWord

lemma NamesType.bounds {cs : List Char} {signed : Bool} {width : ℕ}
    (h : NamesType cs signed width) : 0 < width ∧ width ≤ maxWord := by
  obtain ⟨_, _, _, _, _, hbounds⟩ := h
  exact hbounds

namespace TimingTable

lemma stripBeginning_eq_some_iff {beginning cs rest : List Char} :
    stripBeginning beginning cs = some rest ↔ cs = beginning ++ rest := by
  unfold stripBeginning
  split_ifs with h
  · rw [List.isPrefixOf_iff_prefix] at h
    obtain ⟨rest', rfl⟩ := h
    simp [eq_comm]
  · rw [List.isPrefixOf_iff_prefix] at h
    constructor
    · intro hnone
      cases hnone
    · rintro rfl
      exact absurd (List.prefix_append _ _) h

/-- The two words differ in their first letter. -/
lemma splitOperandType_eq_some_iff {cs digits : List Char} {signed : Bool} :
    splitOperandType cs = some (signed, digits) ↔ cs = (signWord signed).toList ++ digits := by
  unfold splitOperandType
  cases hunsigned : stripBeginning "unsigned".toList cs with
  | some rest =>
      obtain rfl := stripBeginning_eq_some_iff.mp hunsigned
      cases signed with
      | true => simp [signWord]
      | false => simp [signWord]
  | none =>
      cases signed with
      | true => simp [signWord, stripBeginning_eq_some_iff]
      | false =>
          have hnot : ∀ rest, cs ≠ "unsigned".toList ++ rest := by
            intro rest hcs
            rw [stripBeginning_eq_some_iff.mpr hcs] at hunsigned
            cases hunsigned
          simpa [signWord] using hnot digits

lemma parseOperandType_eq_some_iff {cs : List Char} {signed : Bool} {width : ℕ} :
    parseOperandType cs = some (signed, width) ↔ NamesType cs signed width := by
  have hparse : parseOperandType cs = some (signed, width) ↔
      ∃ digits, cs.map Char.toLower = (signWord signed).toList ++ digits ∧
        Numeral digits width ∧ width ≤ maxWord ∧ 0 < width := by
    simp only [parseOperandType, Option.bind_eq_bind, Option.bind_eq_some_iff, Prod.exists,
      splitOperandType_eq_some_iff, readNat_eq_some_iff]
    constructor
    · rintro ⟨_, digits, hcs, _, ⟨hnumeral, hle⟩, hsome⟩
      split_ifs at hsome with hzero
      cases hsome
      exact ⟨digits, hcs, hnumeral, hle, Nat.pos_of_ne_zero (by simpa using hzero)⟩
    · rintro ⟨digits, hcs, hnumeral, hle, hpos⟩
      exact ⟨signed, digits, hcs, width, ⟨hnumeral, hle⟩, if_neg (by simpa using hpos.ne')⟩
  rw [hparse, NamesType]
  constructor
  · rintro ⟨low, hcs, hnumeral, hle, hpos⟩
    obtain ⟨word, digits, rfl, hword, rfl⟩ := List.map_eq_append_iff.mp hcs
    exact ⟨word, digits, rfl, hword, numeral_toLower.mp hnumeral, hpos, hle⟩
  · rintro ⟨word, digits, rfl, hword, hnumeral, hpos, hle⟩
    refine ⟨digits.map Char.toLower, ?_, numeral_toLower.mpr hnumeral, hle, hpos⟩
    rw [List.map_append, hword]

end TimingTable

/-! ## Operators -/

/-- The mnemonic of an operator, in any letter case. -/
def NamesOperator (cs : List Char) (op : Operator) : Prop :=
  cs.map Char.toLower = op.mnemonic.toList

namespace Operator

lemma ofMnemonic_eq_some_iff {name : String} {op : Operator} :
    ofMnemonic name = some op ↔ op.mnemonic = name := by
  constructor
  · intro h
    rcases Option.or_eq_some_iff.mp h with h | ⟨-, h⟩
    · obtain ⟨b, hb, rfl⟩ := Option.map_eq_some_iff.mp h
      have hname := List.find?_some hb
      exact beq_iff_eq.mp hname
    · obtain ⟨u, hu, rfl⟩ := Option.map_eq_some_iff.mp h
      have hname := List.find?_some hu
      exact beq_iff_eq.mp hname
  · rintro rfl
    cases op with
    | binary b => cases b <;> rfl
    | unary u => cases u <;> rfl

lemma namesOperator_iff {w : List Char} {op : Operator} :
    NamesOperator w op ↔ ofMnemonic (String.ofList (w.map Char.toLower)) = some op := by
  rw [ofMnemonic_eq_some_iff, NamesOperator, ← String.toList_inj, String.toList_ofList, eq_comm]

section

variable {w : List Char}

lemma lowered_trimmed (hw : Text.IsWord w) :
    Text.trimmed (String.ofList w) = String.ofList w ∧
      Text.lowered (String.ofList w) = String.ofList (w.map Char.toLower) := by
  constructor
  · rw [Text.trimmed, String.toList_ofList, hw.trim_eq]
  · rw [← String.toList_inj, Text.lowered, String.toList_map, String.toList_ofList,
      String.toList_ofList]

lemma parse_of_names (hw : Text.IsWord w) {op : Operator} (h : NamesOperator w op) :
    parse (String.ofList w) = .ok op := by
  obtain ⟨htrimmed, hlowered⟩ := lowered_trimmed hw
  rw [parse, htrimmed, hlowered, namesOperator_iff.mp h]

lemma parse_of_not_names (hw : Text.IsWord w) (h : ∀ op, ¬ NamesOperator w op) :
    parse (String.ofList w) = .error (.unknown (String.ofList w)) := by
  obtain ⟨htrimmed, hlowered⟩ := lowered_trimmed hw
  have hnone : ofMnemonic (String.ofList (w.map Char.toLower)) = none := by
    refine Option.eq_none_iff_forall_ne_some.mpr ?_
    intro op hop
    exact h op (namesOperator_iff.mpr hop)
  rw [parse, htrimmed, hlowered, hnone]

end

end Operator

/-! ## Measurements -/

/-- The three fields of a measurement. -/
structure NamesMeasurement (name type number : List Char) (m : Measurement) : Prop where
  operator : NamesOperator name m.operation.operator
  type : NamesType type m.operation.signed m.operation.width
  delay : readFloat number = some m.delay

/-- The first reason for which the fields of a line are not a measurement, in the order in which
they are looked at. -/
inductive Unreadable : List (List Char) → String → Prop
  | count {fields : List (List Char)} : fields ≠ [] → fields.length ≠ 3 →
      Unreadable fields s!"expected 3 fields, found {fields.length}"
  | operator {name type number : List Char} : (∀ op, ¬ NamesOperator name op) →
      Unreadable [name, type, number] s!"unknown operator mnemonic '{String.ofList name}'"
  | type {name type number : List Char} {op : Operator} : NamesOperator name op →
      (∀ signed width, ¬ NamesType type signed width) →
      Unreadable [name, type, number]
        s!"invalid operand type `{String.ofList type}` (expected signed<N> or unsigned<N>)"
  | delay {name type number : List Char} {op : Operator} {signed : Bool} {width : ℕ} :
      NamesOperator name op → NamesType type signed width → readFloat number = none →
      Unreadable [name, type, number] s!"invalid delay `{String.ofList number}`"

lemma Unreadable.ne_nil {fields : List (List Char)} {reason : String}
    (h : Unreadable fields reason) : fields ≠ [] := by
  cases h with
  | count hne _ => exact hne
  | operator => exact List.cons_ne_nil _ _
  | type => exact List.cons_ne_nil _ _
  | delay => exact List.cons_ne_nil _ _

lemma names_or_unreadable {fields : List (List Char)} (hne : fields ≠ []) :
    (∃ name type number m, fields = [name, type, number] ∧ NamesMeasurement name type number m) ∨
      ∃ reason, Unreadable fields reason := by
  by_cases hcount : fields.length = 3
  swap
  · exact .inr ⟨_, .count hne hcount⟩
  obtain ⟨name, type, number, rfl⟩ := List.length_eq_three.mp hcount
  by_cases hname : ∃ op, NamesOperator name op
  swap
  · exact .inr ⟨_, .operator (not_exists.mp hname)⟩
  obtain ⟨op, hop⟩ := hname
  by_cases htype : ∃ signed width, NamesType type signed width
  swap
  · refine .inr ⟨_, .type hop ?_⟩
    intro signed width h
    exact htype ⟨signed, width, h⟩
  obtain ⟨signed, width, htype⟩ := htype
  cases hdelay : readFloat number with
  | none => exact .inr ⟨_, .delay hop htype hdelay⟩
  | some delay =>
      exact .inl ⟨name, type, number, ⟨⟨op, width, signed⟩, delay⟩, rfl, ⟨hop, htype, hdelay⟩⟩

namespace TimingTable

lemma parseFields_of_names {name type number : List Char} {m : Measurement}
    (hword : Text.IsWord name) (h : NamesMeasurement name type number m) :
    parseFields [name, type, number] = .ok m := by
  have hoperator := Operator.parse_of_names hword h.operator
  have htype := parseOperandType_eq_some_iff.mpr h.type
  rw [parseFields, hoperator, htype, h.delay]

lemma parseFields_of_unreadable {fields : List (List Char)} {reason : String}
    (hwords : ∀ w ∈ fields, Text.IsWord w) (h : Unreadable fields reason) :
    parseFields fields = .error reason := by
  cases h with
  | count hne hcount =>
      unfold parseFields
      split
      · exact absurd rfl hcount
      · rfl
  | operator hname =>
      have hoperator := Operator.parse_of_not_names (hwords _ List.mem_cons_self) hname
      rw [parseFields, hoperator]
      rfl
  | @type name type number op hname htype =>
      have hoperator := Operator.parse_of_names (hwords _ List.mem_cons_self) hname
      have hnone : parseOperandType type = none := by
        refine Option.eq_none_iff_forall_ne_some.mpr ?_
        rintro ⟨signed, width⟩ hsome
        exact htype signed width (parseOperandType_eq_some_iff.mp hsome)
      rw [parseFields, hoperator, hnone]
  | delay hname htype hdelay =>
      have hoperator := Operator.parse_of_names (hwords _ List.mem_cons_self) hname
      have hsome := parseOperandType_eq_some_iff.mpr htype
      rw [parseFields, hoperator, hsome, hdelay]

end TimingTable

end Gateware
