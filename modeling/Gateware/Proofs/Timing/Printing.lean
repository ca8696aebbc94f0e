import Gateware.Proofs.Timing.Format

/-!
# Printed timing reports

A measurement is printed as a line of its own: the operation, a space and the delay.  Such a line
says the measurement (`says_printedLine`), so the entries of a table that are printed in any order
are read as the table.
-/

namespace Gateware.TimingTable

open Text (AllBlank IsWord Spaced Lined)

/-! ## Characters that stand for themselves -/

/-- A visible character of ASCII that starts no comment. -/
def IsPlain (c : Char) : Prop := 0x21 ≤ c.toNat ∧ c.toNat ≤ 0x7E ∧ c ≠ '#'

instance : DecidablePred IsPlain := fun _ => inferInstanceAs (Decidable (_ ∧ _ ∧ _))

lemma IsPlain.not_blank {c : Char} (h : IsPlain c) : Text.isBlank c = false := by
  obtain ⟨hlow, hhigh, -⟩ := h
  unfold Text.isBlank
  simp only [Bool.or_eq_false_iff, Bool.and_eq_false_iff, decide_eq_false_iff_not,
    beq_eq_false_iff_ne]
  omega

lemma isPlain_of_isDigit {c : Char} (h : c.isDigit = true) : IsPlain c := by
  refine ⟨?_, ?_, ne_of_isDigit h rfl⟩
  all_goals
    simp only [Char.isDigit, Bool.and_eq_true, decide_eq_true_eq, UInt32.le_iff_toNat_le,
      ge_iff_le] at h
    change 48 ≤ c.toNat ∧ c.toNat ≤ 57 at h
    omega

/-- A word of such characters. -/
def IsPlainWord (w : List Char) : Prop := w ≠ [] ∧ ∀ c ∈ w, IsPlain c

instance : DecidablePred IsPlainWord := fun w =>
  decidable_of_iff (w ≠ [] ∧ w.all (fun c => decide (IsPlain c)) = true) (by simp [IsPlainWord])

lemma IsPlainWord.isWord {w : List Char} (h : IsPlainWord w) : IsWord w :=
  ⟨h.1, fun c hc => (h.2 c hc).not_blank⟩

/-! ## Lines -/

/-- The line of a measurement. -/
def printedLine (m : Measurement) : String := s!"{m.operation.render} {plainText m.delay}"

/-- The lines of measurements. -/
def printed (ms : List Measurement) : String :=
  String.join (ms.map fun m => printedLine m ++ "\n")

def typeText (op : Operation) : List Char :=
  (signWord op.signed).toList ++ Nat.toDigits 10 op.width

lemma printedLine_toList (m : Measurement) :
    (printedLine m).toList = m.operation.operator.mnemonic.toList ++
      ' ' :: (typeText m.operation ++ ' ' :: (plainText m.delay).toList) := by
  show (m.operation.operator.mnemonic ++ " " ++ signWord m.operation.signed ++
    toString m.operation.width ++ " " ++ plainText m.delay).toList = _
  simp only [String.toList_append, toList_nat, typeText, List.append_assoc]
  rfl

lemma isPlainWord_mnemonic (op : Operator) : IsPlainWord op.mnemonic.toList := by
  have hall : ∀ op ∈ Operator.all, IsPlainWord op.mnemonic.toList := by decide +kernel
  exact hall op op.mem_all

lemma isPlainWord_typeText (op : Operation) : IsPlainWord (typeText op) := by
  have hsign : ∀ signed, IsPlainWord (signWord signed).toList := by decide +kernel
  refine ⟨fun hnil => (hsign op.signed).1 (List.append_eq_nil_iff.mp hnil).1, ?_⟩
  intro c hc
  rcases List.mem_append.mp hc with hc | hc
  · exact (hsign op.signed).2 c hc
  · exact isPlain_of_isDigit (allDigits_toDigits _ c hc)

lemma isPlainWord_plainText {x : Float} (hx : IsFinite x) : IsPlainWord (plainText x).toList := by
  constructor
  · intro hnil
    have hread := readFloat_plainText hx
    rw [hnil] at hread
    cases hread
  · intro c hc
    rcases mem_plainText hx hc with hdigit | rfl | rfl
    · exact isPlain_of_isDigit hdigit
    · decide
    · decide

lemma spaced_three {a b c : List Char} (ha : IsWord a) (hb : IsWord b) (hc : IsWord c) :
    Spaced (a ++ ' ' :: (b ++ ' ' :: c)) [a, b, c] := by
  refine .word ha (Text.atGap_cons rfl) (.blank rfl ?_)
  refine .word hb (Text.atGap_cons rfl) (.blank rfl ?_)
  have hlast := Spaced.word hc Text.atGap_nil .nil
  rwa [List.append_nil] at hlast

lemma namesOperator_mnemonic (op : Operator) : NamesOperator op.mnemonic.toList op := by
  have hall : ∀ op ∈ Operator.all, op.mnemonic.toList.map Char.toLower = op.mnemonic.toList := by
    decide +kernel
  exact hall op op.mem_all

lemma namesType_typeText {op : Operation} (hpos : 0 < op.width) (hle : op.width ≤ maxWord) :
    NamesType (typeText op) op.signed op.width := by
  have hlower : ∀ signed, (signWord signed).toList.map Char.toLower = (signWord signed).toList := by
    decide
  have hnumeral : Numeral (Nat.toDigits 10 op.width) op.width := by
    have hplain := Numeral.plain Nat.toDigits_ne_nil (allDigits_toDigits op.width)
    rwa [digitsValue_toDigits] at hplain
  exact ⟨_, _, rfl, hlower op.signed, hnumeral, hpos, hle⟩

lemma IsDelay.isFinite {x : Float} (h : IsDelay x) : IsFinite x := by
  obtain ⟨negative, m, e, hexact, -⟩ := h
  exact ⟨negative, m, e, hexact⟩

section

variable {m : Measurement}

/-- No line end and no comment is printed. -/
lemma mem_printedLine (h : m.Sound) {c : Char} (hc : c ∈ (printedLine m).toList) :
    IsPlain c ∨ c = ' ' := by
  rw [printedLine_toList] at hc
  simp only [List.mem_append, List.mem_cons] at hc
  rcases hc with hc | hc | hc | hc | hc
  · exact .inl ((isPlainWord_mnemonic _).2 c hc)
  · exact .inr hc
  · exact .inl ((isPlainWord_typeText _).2 c hc)
  · exact .inr hc
  · exact .inl ((isPlainWord_plainText (IsDelay.isFinite h.delay)).2 c hc)

lemma not_mem_printedLine (h : m.Sound) {c : Char} (hplain : ¬ IsPlain c) (hspace : c ≠ ' ') :
    c ∉ (printedLine m).toList := by
  intro hc
  rcases mem_printedLine h hc with hc | hc
  · exact hplain hc
  · exact hspace hc

lemma says_printedLine (h : m.Sound) : Says (printedLine m).toList (some m) := by
  have hfinite := IsDelay.isFinite h.delay
  have hbody : body (printedLine m).toList = (printedLine m).toList := by
    refine List.takeWhile_eq_self_iff.mpr ?_
    intro c hc
    rw [bne_iff_ne]
    rintro rfl
    exact not_mem_printedLine h (by decide) (by decide) hc
  have hspaced := spaced_three (isPlainWord_mnemonic m.operation.operator).isWord
    (isPlainWord_typeText m.operation).isWord (isPlainWord_plainText hfinite).isWord
  rw [← printedLine_toList, ← hbody] at hspaced
  exact .measured hspaced ⟨namesOperator_mnemonic _, namesType_typeText h.pos h.le,
    readFloat_plainText hfinite⟩ h.delay

end

/-! ## Reports -/

lemma lined_printed : ∀ {ms : List Measurement}, (∀ m ∈ ms, m.Sound) →
    Lined (printed ms).toList (ms.map fun m => (printedLine m).toList)
  | [], _ => .nil
  | m :: ms, h => by
      obtain ⟨hm, hms⟩ := List.forall_mem_cons.mp h
      have hcons : (printed (m :: ms)).toList =
          (printedLine m).toList ++ '\n' :: (printed ms).toList := by
        simp [printed, String.toList_join]
      rw [hcons]
      refine .feed (not_mem_printedLine hm (by decide) (by decide)) ?_ (lined_printed hms)
      intro hlast
      exact not_mem_printedLine hm (by decide) (by decide) (List.mem_of_getLast? hlast)

lemma reports_printed {ms : List Measurement} (h : ∀ m ∈ ms, m.Sound)
    (hnodup : (operations ms).Nodup) :
    Reports (ms.map fun m => (printedLine m).toList) ms := by
  refine ⟨ms.map some, ?_, ?_, hnodup⟩
  · rw [List.forall₂_map_left_iff, List.forall₂_map_right_iff, List.forall₂_same]
    intro m hm
    exact says_printedLine (h m hm)
  · simp [List.reduceOption]

lemma parse_printed {t : TimingTable} (h : Reached t) {ms : List Measurement}
    (hperm : ms.Perm t.entries) : parse (printed ms) = .ok t := by
  have hsound : ∀ m ∈ ms, m.Sound := fun m hm => h.sound (hperm.mem_iff.mp hm)
  have hnodup : (operations ms).Nodup := (hperm.map _).nodup_iff.mpr h.ascending.nodup
  exact parse_eq_ok_iff.mpr
    ⟨h.ascending, _, ms, lined_printed hsound, reports_printed hsound hnodup, hperm.symm⟩

/-- A report is read exactly as its format says.  It is accepted if each line says nothing or is a
measurement and no operation is measured twice; the table then has the measurements as its entries.
It is refused for the first line that offends, with what is wrong with that line.  The entries of a
table, printed in any order, are read as the table. -/
theorem report_format :
    (∀ source : String,
      ((∃ t, parse source = .ok t) ↔ ∃ ls ms, Lined source.toList ls ∧ Reports ls ms) ∧
      (∀ t, parse source = .ok t ↔ Ascending t.entries ∧
        ∃ ls ms, Lined source.toList ls ∧ Reports ls ms ∧ t.entries.Perm ms) ∧
      (∀ e, parse source = .error e ↔
        ∃ before line after ms, Lined source.toList (before ++ line :: after) ∧ Reports before ms ∧
          Offends (before.length + 1) (operations ms) line e) ∧
      ∀ t, parse source = .ok t → Reached t) ∧
    ∀ t ms, Reached t → ms.Perm t.entries → parse (printed ms) = .ok t := by
  refine ⟨fun source => ⟨parse_accepts_iff, fun t => parse_eq_ok_iff, fun e => parse_eq_error_iff,
    fun t h => Reached.empty.parseLines h⟩, ?_⟩
  intro t ms hreached hperm
  exact parse_printed hreached hperm

def sampleReport : String :=
  "# operator  type        delay\n\tADD  Signed032 1.824 # measured\r\n\nmul unsigned+8 -0"

theorem report_format_sample : ∃ t, parse sampleReport = .ok t ∧ t.size = 2 ∧ Reached t ∧
    parse (printed t.entries.reverse) = .ok t := by
  have hsize : (parse sampleReport).toOption.map size = some 2 := by decide +kernel
  cases hparse : parse sampleReport with
  | error e =>
      rw [hparse] at hsize
      cases hsize
  | ok t =>
      rw [hparse] at hsize
      have hreached := (report_format.1 sampleReport).2.2.2 t hparse
      exact ⟨t, rfl, Option.some.inj hsize, hreached,
        report_format.2 t _ hreached (List.reverse_perm t.entries)⟩

end Gateware.TimingTable
