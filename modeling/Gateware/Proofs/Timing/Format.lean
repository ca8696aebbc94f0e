import Gateware.Proofs.Timing.Fields
import Mathlib.Data.List.ReduceOption

/-!
# The format of timing reports

A line says nothing or is a measurement (`Says`), or it is the line that a report is refused for
(`Offends`).  A report is read as the table of what its lines say (`parse_eq_ok_iff`), or refused
for the first line that offends; what stands before that line counts only for the operations that
are measured there (`parse_eq_error_iff`).
-/

namespace Gateware.TimingTable

open Text (AllBlank IsWord Spaced Lined)

/-! ## Lines -/

/-- The part of a line before a comment. -/
def body (line : List Char) : List Char := line.takeWhile (· != '#')

/-- What a line of a report says: nothing, or the delay of an operation. -/
inductive Says (line : List Char) : Option Measurement → Prop
  | nothing : AllBlank (body line) → Says line none
  | measured {name type number : List Char} {m : Measurement} :
      Spaced (body line) [name, type, number] → NamesMeasurement name type number m →
      IsDelay m.delay → Says line (some m)

/-- What is wrong with a line, with its number, after lines that have measured some operations. -/
inductive Offends (number : ℕ) (seen : List Operation) (line : List Char) : TimingError → Prop
  | unreadable {fields : List (List Char)} {reason : String} :
      Spaced (body line) fields → Unreadable fields reason →
      Offends number seen line (.malformed number reason)
  | repeated {name type delay : List Char} {m : Measurement} :
      Spaced (body line) [name, type, delay] → NamesMeasurement name type delay m →
      m.operation ∈ seen → Offends number seen line (.duplicate number m.operation.render)
  | delay {name type delay : List Char} {m : Measurement} :
      Spaced (body line) [name, type, delay] → NamesMeasurement name type delay m →
      m.operation ∉ seen → ¬ IsDelay m.delay →
      Offends number seen line (.invalidDelay m.operation.render m.delay)

/-- The operations that have been measured. -/
def operations (ms : List Measurement) : List Operation := ms.map (·.operation)

/-- A table with what a line says. -/
def add (t : TimingTable) : Option Measurement → TimingTable
  | none => t
  | some m => ⟨place m t.entries⟩

section

variable {number : ℕ} {seen : List Operation} {line : List Char}

/-- Which operations have been measured counts, but not in which order. -/
lemma Offends.of_mem_iff {seen' : List Operation} {e : TimingError}
    (hseen : ∀ op, op ∈ seen ↔ op ∈ seen') (h : Offends number seen line e) :
    Offends number seen' line e := by
  cases h with
  | unreadable hspaced hreason => exact .unreadable hspaced hreason
  | repeated hspaced hnames hmem => exact .repeated hspaced hnames ((hseen _).mp hmem)
  | delay hspaced hnames hmem hdelay =>
      exact .delay hspaced hnames (fun hmem' => hmem ((hseen _).mpr hmem')) hdelay

lemma says_or_offends (number : ℕ) (seen : List Operation) (line : List Char) :
    (∃ o, Says line o ∧ ∀ m ∈ o, m.operation ∉ seen) ∨ ∃ e, Offends number seen line e := by
  by_cases hblank : AllBlank (body line)
  · exact .inl ⟨none, .nothing hblank, by simp⟩
  have hspaced := Text.spaced_words (body line)
  rw [← Text.words_eq_nil_iff] at hblank
  rcases names_or_unreadable hblank with ⟨name, type, delay, m, hfields, hnames⟩ | ⟨reason, hreason⟩
  · rw [hfields] at hspaced
    by_cases hmem : m.operation ∈ seen
    · exact .inr ⟨_, .repeated hspaced hnames hmem⟩
    by_cases hdelay : IsDelay m.delay
    · refine .inl ⟨some m, .measured hspaced hnames hdelay, ?_⟩
      rintro m' ⟨⟩
      exact hmem
    · exact .inr ⟨_, .delay hspaced hnames hmem hdelay⟩
  · exact .inr ⟨_, .unreadable hspaced hreason⟩

variable {t : TimingTable}

lemma parseLine_of_blank (h : AllBlank (body line)) : t.parseLine number line = .ok t := by
  have hcontent : (lineContent line).isEmpty = true := by
    rw [List.isEmpty_iff, lineContent, Text.trim_eq_nil_iff, Text.words_eq_nil_iff]
    exact h
  rw [parseLine, hcontent]
  rfl

lemma parseLine_of_spaced {fields : List (List Char)} (hspaced : Spaced (body line) fields)
    (hne : fields ≠ []) :
    t.parseLine number line = match parseFields fields with
      | .error reason => .error (.malformed number reason)
      | .ok m =>
        if (t.delay? m.operation).isSome then .error (.duplicate number m.operation.render)
        else t.insert m.operation m.delay := by
  have hwords := hspaced.words_eq
  have hcontent : (lineContent line).isEmpty = false := by
    rw [List.isEmpty_eq_false_iff, Ne, lineContent, Text.trim_eq_nil_iff]
    change ¬ Text.words (body line) = []
    rwa [hwords]
  have hfields : Text.words (lineContent line) = fields := (Text.words_trim _).trans hwords
  rw [parseLine, hcontent, hfields]
  rfl

lemma parseLine_of_names {name type delay : List Char} {m : Measurement}
    (hspaced : Spaced (body line) [name, type, delay])
    (hnames : NamesMeasurement name type delay m) :
    t.parseLine number line = if m.operation ∈ operations t.entries then
      .error (.duplicate number m.operation.render) else t.insert m.operation m.delay := by
  have hfields := parseFields_of_names (hspaced.isWord List.mem_cons_self) hnames
  rw [parseLine_of_spaced hspaced (List.cons_ne_nil _ _), hfields]
  dsimp only
  simp only [delay?_isSome_iff]
  rfl

lemma parseLine_of_said {o : Option Measurement} (h : Says line o)
    (hseen : ∀ m ∈ o, m.operation ∉ operations t.entries) :
    t.parseLine number line = .ok (t.add o) := by
  cases h with
  | nothing hblank => exact parseLine_of_blank hblank
  | measured hspaced hnames hdelay =>
      rw [parseLine_of_names hspaced hnames, if_neg (hseen _ rfl)]
      exact insert_of_isDelay hnames.type.bounds.1 hdelay

lemma parseLine_of_offends {e : TimingError} (h : Offends number (operations t.entries) line e) :
    t.parseLine number line = .error e := by
  cases h with
  | @unreadable fields reason hspaced hreason =>
      have hfields := parseFields_of_unreadable (fun w hw => hspaced.isWord hw) hreason
      rw [parseLine_of_spaced hspaced hreason.ne_nil, hfields]
  | repeated hspaced hnames hmem => rw [parseLine_of_names hspaced hnames, if_pos hmem]
  | delay hspaced hnames hmem hdelay =>
      rw [parseLine_of_names hspaced hnames, if_neg hmem]
      exact insert_of_not_isDelay hnames.type.bounds.1 hdelay

lemma parseLine_eq_ok_iff {t' : TimingTable} : t.parseLine number line = .ok t' ↔
    ∃ o, Says line o ∧ (∀ m ∈ o, m.operation ∉ operations t.entries) ∧ t' = t.add o := by
  constructor
  · intro h
    rcases says_or_offends number (operations t.entries) line with ⟨o, hsaid, hseen⟩ | ⟨e, hoffends⟩
    · rw [parseLine_of_said hsaid hseen] at h
      exact ⟨o, hsaid, hseen, (Except.ok.inj h).symm⟩
    · rw [parseLine_of_offends hoffends] at h
      cases h
  · rintro ⟨o, hsaid, hseen, rfl⟩
    exact parseLine_of_said hsaid hseen

lemma parseLine_eq_error_iff {e : TimingError} :
    t.parseLine number line = .error e ↔ Offends number (operations t.entries) line e := by
  constructor
  · intro h
    rcases says_or_offends number (operations t.entries) line with
      ⟨o, hsaid, hseen⟩ | ⟨e', hoffends⟩
    · rw [parseLine_of_said hsaid hseen] at h
      cases h
    · rw [parseLine_of_offends hoffends] at h
      cases h
      exact hoffends
  · exact parseLine_of_offends

end

/-! ## Several lines -/

section

variable {t t' : TimingTable}

lemma add_entries (h : Ascending t.entries) {o : Option Measurement}
    (hseen : ∀ m ∈ o, m.operation ∉ operations t.entries) :
    Ascending (t.add o).entries ∧ (t.add o).entries.Perm (t.entries ++ o.toList) := by
  cases o with
  | none => exact ⟨h, by simp [add]⟩
  | some m =>
      refine ⟨ascending_place h, (place_perm h).trans ?_⟩
      have hall : t.entries.filter (·.operation ≠ m.operation) = t.entries := by
        rw [List.filter_eq_self]
        intro x hx
        have hne : x.operation ≠ m.operation := fun heq =>
          hseen m rfl (heq ▸ List.mem_map_of_mem hx)
        simpa using hne
      rw [hall]
      show ([m] ++ t.entries).Perm (t.entries ++ [m])
      exact List.perm_append_comm

/-- Taking lines into a table: it is extended by what the lines say. -/
lemma parseLines_eq_ok_iff : ∀ {ls : List (List Char)} {t : TimingTable} {number : ℕ},
    Ascending t.entries → (t.parseLines number ls = .ok t' ↔
      Ascending t'.entries ∧ ∃ os, List.Forall₂ Says ls os ∧
        t'.entries.Perm (t.entries ++ os.reduceOption))
  | [], t, number, hasc => by
      rw [parseLines]
      constructor
      · intro h
        cases h
        exact ⟨hasc, [], .nil, by simp⟩
      · rintro ⟨hasc', os, hsaid, hperm⟩
        cases hsaid
        rw [List.reduceOption_nil, List.append_nil] at hperm
        have htables : t' = t := congrArg TimingTable.mk (hasc'.eq_of_perm hasc hperm)
        rw [htables]
  | line :: ls, t, number, hasc => by
      have hreduce : ∀ (o : Option Measurement) (os : List (Option Measurement)),
          (o :: os).reduceOption = o.toList ++ os.reduceOption := by
        intro o os
        cases o <;> rfl
      rw [parseLines]
      constructor
      · intro h
        split at h
        · next t₁ hline =>
            obtain ⟨o, hsaid, hseen, rfl⟩ := parseLine_eq_ok_iff.mp hline
            obtain ⟨hasc₁, hperm₁⟩ := add_entries hasc hseen
            obtain ⟨hasc', os, hrest, hperm⟩ := (parseLines_eq_ok_iff hasc₁).mp h
            refine ⟨hasc', o :: os, .cons hsaid hrest, ?_⟩
            rw [hreduce, ← List.append_assoc]
            exact hperm.trans (hperm₁.append_right _)
        · cases h
      · rintro ⟨hasc', _, ⟨⟩, hperm⟩
        next o os hsaid hrest =>
        rw [hreduce, ← List.append_assoc] at hperm
        -- What the line says is new, for the entries of an ascending list are different.
        have hseen : ∀ m ∈ o, m.operation ∉ operations t.entries := by
          rintro m ⟨⟩ hmem
          have hnodup := (hperm.map (·.operation)).nodup_iff.mp hasc'.nodup
          rw [List.map_append, List.map_append, List.append_assoc] at hnodup
          exact List.disjoint_of_nodup_append hnodup hmem (by simp)
        obtain ⟨hasc₁, hperm₁⟩ := add_entries hasc hseen
        rw [parseLine_of_said hsaid hseen]
        exact (parseLines_eq_ok_iff hasc₁).mpr
          ⟨hasc', os, hrest, hperm.trans (hperm₁.symm.append_right _)⟩

/-- Lines are refused for the first of them that cannot be taken into the table. -/
lemma parseLines_eq_error_iff {e : TimingError} :
    ∀ {ls : List (List Char)} {t : TimingTable} {number : ℕ},
      t.parseLines number ls = .error e ↔ ∃ before line after t₁, ls = before ++ line :: after ∧
        t.parseLines number before = .ok t₁ ∧
        t₁.parseLine (number + before.length) line = .error e
  | [], t, number => by
      simp [parseLines]
  | line :: ls, t, number => by
      rw [parseLines]
      constructor
      · intro h
        split at h
        · next t₁ hline =>
            obtain ⟨before, bad, after, t₂, rfl, hbefore, hbad⟩ := parseLines_eq_error_iff.mp h
            refine ⟨line :: before, bad, after, t₂, rfl, ?_, ?_⟩
            · rw [parseLines, hline]
              exact hbefore
            · rw [List.length_cons, Nat.add_comm before.length 1, ← Nat.add_assoc]
              exact hbad
        · next e' hline =>
            cases h
            exact ⟨[], line, ls, t, rfl, rfl, hline⟩
      · rintro ⟨before, bad, after, t₂, hls, hbefore, hbad⟩
        cases before with
        | nil =>
            cases hls
            cases hbefore
            rw [List.length_nil, Nat.add_zero] at hbad
            rw [hbad]
        | cons first before =>
            cases hls
            rw [parseLines] at hbefore
            split at hbefore
            · next t₁ hline =>
                refine parseLines_eq_error_iff.mpr ⟨before, bad, after, t₂, rfl, hbefore, ?_⟩
                rw [List.length_cons, Nat.add_comm before.length 1, ← Nat.add_assoc] at hbad
                exact hbad
            · cases hbefore

end

section

variable {t t' : TimingTable}

lemma Reached.add (h : Reached t) {line : List Char} {o : Option Measurement}
    (hsaid : Says line o) : Reached (t.add o) := by
  cases hsaid with
  | nothing => exact h
  | measured _ hnames hdelay =>
      obtain ⟨hpos, hle⟩ := hnames.type.bounds
      exact .insert h hle (insert_of_isDelay hpos hdelay)

lemma Reached.parseLines : ∀ {ls : List (List Char)} {t : TimingTable} {number : ℕ},
    Reached t → t.parseLines number ls = .ok t' → Reached t'
  | [], t, number, h, hlines => by
      cases hlines
      exact h
  | line :: ls, t, number, h, hlines => by
      rw [TimingTable.parseLines] at hlines
      split at hlines
      · next t₁ hline =>
          obtain ⟨o, hsaid, -, rfl⟩ := parseLine_eq_ok_iff.mp hline
          exact (h.add hsaid).parseLines hlines
      · cases hlines

end

/-! ## Reports -/

/-- The lines say nothing or are measurements, and none of them repeats an operation. -/
def Reports (ls : List (List Char)) (ms : List Measurement) : Prop :=
  ∃ os, List.Forall₂ Says ls os ∧ os.reduceOption = ms ∧ (operations ms).Nodup

lemma Reports.nodup {ls : List (List Char)} {ms : List Measurement} (h : Reports ls ms) :
    (operations ms).Nodup := by
  obtain ⟨_, _, _, hnodup⟩ := h
  exact hnodup

lemma exists_ascending : ∀ {ms : List Measurement}, (operations ms).Nodup →
    ∃ ns, Ascending ns ∧ ns.Perm ms
  | [], _ => ⟨[], .nil, .nil⟩
  | m :: ms, h => by
      obtain ⟨hm, hms⟩ := List.nodup_cons.mp h
      obtain ⟨ns, hasc, hperm⟩ := exists_ascending hms
      have hseen : ∀ m' ∈ some m, m'.operation ∉ operations ns := by
        rintro m' ⟨⟩ hmem
        exact hm ((hperm.map _).mem_iff.mp hmem)
      obtain ⟨hasc', hperm'⟩ := add_entries (t := ⟨ns⟩) hasc hseen
      refine ⟨place m ns, hasc', hperm'.trans ?_⟩
      exact List.perm_append_comm.trans (hperm.cons m)

section

variable {ls : List (List Char)} {t : TimingTable}

lemma parseLines_empty_iff : empty.parseLines 1 ls = .ok t ↔
    Ascending t.entries ∧ ∃ ms, Reports ls ms ∧ t.entries.Perm ms := by
  rw [parseLines_eq_ok_iff (t := empty) .nil]
  constructor
  · rintro ⟨hasc, os, hsaid, hperm⟩
    have hnodup := (hperm.map (·.operation)).nodup_iff.mp hasc.nodup
    exact ⟨hasc, os.reduceOption, ⟨os, hsaid, rfl, hnodup⟩, hperm⟩
  · rintro ⟨hasc, _, ⟨os, hsaid, rfl, -⟩, hperm⟩
    exact ⟨hasc, os, hsaid, hperm⟩

theorem parse_eq_ok_iff {source : String} : parse source = .ok t ↔ Ascending t.entries ∧
    ∃ ls ms, Lined source.toList ls ∧ Reports ls ms ∧ t.entries.Perm ms := by
  rw [parse, parseLines_empty_iff]
  refine and_congr_right fun _ => ?_
  constructor
  · rintro ⟨ms, hreports, hperm⟩
    exact ⟨_, ms, Text.lined_lines _, hreports, hperm⟩
  · rintro ⟨ls, ms, hlined, hreports, hperm⟩
    rw [hlined.lines_eq]
    exact ⟨ms, hreports, hperm⟩

theorem parse_accepts_iff {source : String} : (∃ t, parse source = .ok t) ↔
    ∃ ls ms, Lined source.toList ls ∧ Reports ls ms := by
  constructor
  · rintro ⟨t, h⟩
    obtain ⟨-, ls, ms, hlined, hreports, -⟩ := parse_eq_ok_iff.mp h
    exact ⟨ls, ms, hlined, hreports⟩
  · rintro ⟨ls, ms, hlined, hreports⟩
    obtain ⟨ns, hasc, hperm⟩ := exists_ascending hreports.nodup
    exact ⟨⟨ns⟩, parse_eq_ok_iff.mpr ⟨hasc, ls, ms, hlined, hreports, hperm⟩⟩

theorem parse_eq_error_iff {source : String} {e : TimingError} : parse source = .error e ↔
    ∃ before line after ms, Lined source.toList (before ++ line :: after) ∧ Reports before ms ∧
      Offends (before.length + 1) (operations ms) line e := by
  rw [parse, parseLines_eq_error_iff]
  constructor
  · rintro ⟨before, line, after, t, hlines, hbefore, hline⟩
    obtain ⟨-, ms, hreports, hperm⟩ := parseLines_empty_iff.mp hbefore
    refine ⟨before, line, after, ms, Text.lines_eq_iff.mp hlines, hreports, ?_⟩
    rw [Nat.add_comm]
    exact (parseLine_eq_error_iff.mp hline).of_mem_iff fun op => (hperm.map _).mem_iff
  · rintro ⟨before, line, after, ms, hlined, hreports, hoffends⟩
    obtain ⟨ns, hasc, hperm⟩ := exists_ascending hreports.nodup
    refine ⟨before, line, after, ⟨ns⟩, hlined.lines_eq, ?_, ?_⟩
    · exact parseLines_empty_iff.mpr ⟨hasc, ms, hreports, hperm⟩
    · rw [Nat.add_comm]
      exact parseLine_of_offends (hoffends.of_mem_iff fun op => (hperm.map _).mem_iff.symm)

end

end Gateware.TimingTable
