import Gateware.Proofs.Number.Whole
import Gateware.Proofs.Results
import Gateware.Proofs.Timing.Format

/-!
# Timing tables over every run

A table starts empty or as a report gives it, and then measurements are entered one after another,
good ones and bad ones.  What counts is the history of those that were accepted, the ones of the
report first: a table `Records` it if it has for each operation the delay that was entered last.
Entering a measurement keeps this up (`Records.enter`), and a report starts it (`records_report`).

All that can be observed of a table follows from its history: `delay?` by definition, the number of
entries (`Records.size_eq`), and the measurements of an operator (`Records.mem_measurements`,
`measurements_ascending`).  Since widths are positive, no weight that a delay is divided by is zero
(`ScalingRule.weight_pos`).
-/

namespace Gateware

/-! ## Weights -/

/-- Weights are positive, if logarithms of numbers above one are. -/
lemma ScalingRule.weight_pos {log2 : Float → Float} (hlog : ∀ x, 1.0 < x → 0.0 < log2 x)
    {width : Nat} (hpos : 0 < width) (hle : width ≤ maxWord) (rule : ScalingRule) :
    0.0 < rule.weightWith log2 width := by
  have hword : maxWord = 2 ^ 32 - 1 := rfl
  have hwhole : IsWhole (Float.ofNat width) width := isWhole_ofNat hpos (by omega)
  have hone : IsWhole 1.0 1 := isWhole_of_isPowerOfTen (k := 0) (by decide +kernel)
  cases rule with
  | constant => exact hone.pos
  | logarithmic => exact hlog _ (hone.lt (hwhole.add hone (by omega)) (by omega))
  | linear => exact hwhole.pos
  | quadratic =>
      exact hwhole.mul_pos hwhole (lt_of_le_of_lt (Nat.mul_le_mul hle hle) (by decide))

/-- Of two measurements of one operator the narrower one comes first, and of two at the same width
the unsigned one. -/
def Measurement.Precedes (a b : Measurement) : Prop :=
  a.operation.width < b.operation.width ∨
    a.operation.width = b.operation.width ∧ a.operation.signed = false ∧ b.operation.signed = true

namespace TimingTable

open Text (Lined)

/-! ## Entering measurements -/

/-- Enters a measurement, and keeps the table also if it is refused. -/
def enter (t : TimingTable) (m : Measurement) : TimingTable := (t.record m.operation m.delay).1

/-- Enters measurements in order. -/
def enterAll (t : TimingTable) (ms : List Measurement) : TimingTable := ms.foldl enter t

/-- Whether a measurement is accepted. -/
def acceptable (m : Measurement) : Bool := m.operation.width != 0 && validDelay m.delay

/-- The delay of an operation in the last of some measurements that is one of it. -/
def lastDelay (history : List Measurement) (op : Operation) : Option Float :=
  (history.reverse.find? (·.operation == op)).map (·.delay)

section

variable {t : TimingTable} {m : Measurement}

lemma acceptable_iff : acceptable m = true ↔ 0 < m.operation.width ∧ IsDelay m.delay := by
  rw [acceptable, Bool.and_eq_true, bne_iff_ne, validDelay_iff, Nat.pos_iff_ne_zero]

lemma exists_insert_iff :
    (∃ t', t.insert m.operation m.delay = .ok t') ↔ acceptable m = true := by
  rw [acceptable_iff]
  constructor
  · rintro ⟨t', h⟩
    obtain ⟨hwidth, hdelay, -⟩ := insert_eq_ok_iff.mp h
    exact ⟨hwidth, hdelay⟩
  · rintro ⟨hwidth, hdelay⟩
    exact ⟨_, insert_of_isDelay hwidth hdelay⟩

lemma enter_of_acceptable (h : acceptable m = true) : t.enter m = ⟨place m t.entries⟩ := by
  obtain ⟨hwidth, hdelay⟩ := acceptable_iff.mp h
  rw [enter, record_of_isDelay hwidth hdelay]

lemma enter_of_error {e : TimingError} (h : t.insert m.operation m.delay = .error e) :
    t.enter m = t :=
  record_of_error (map_eq_error.mp h)

lemma enter_of_not_acceptable (h : ¬ acceptable m = true) : t.enter m = t := by
  cases hinsert : t.insert m.operation m.delay with
  | error e => exact enter_of_error hinsert
  | ok t' => exact absurd (exists_insert_iff.mp ⟨t', hinsert⟩) h

/-! ## Tables as maps -/

/-- Where no operation is measured twice, searching for one finds its measurement. -/
lemma find?_operation_iff {ms : List Measurement} (h : (operations ms).Nodup) {op : Operation}
    {delay : Float} :
    (ms.find? (·.operation == op)).map (·.delay) = some delay ↔ ⟨op, delay⟩ ∈ ms := by
  rw [Option.map_eq_some_iff]
  constructor
  · rintro ⟨x, hx, rfl⟩
    have hop : x.operation = op := by simpa using List.find?_some hx
    rw [← hop]
    exact List.mem_of_find?_eq_some hx
  · intro hmem
    cases hfind : ms.find? (·.operation == op) with
    | none =>
        rw [List.find?_eq_none] at hfind
        exact absurd (beq_self_eq_true op) (hfind _ hmem)
    | some x =>
        have hop : x.operation = op := by simpa using List.find?_some hfind
        have heq : x = ⟨op, delay⟩ :=
          List.inj_on_of_nodup_map h (List.mem_of_find?_eq_some hfind) hmem hop
        exact ⟨x, rfl, by rw [heq]⟩

lemma delay?_eq_some_iff (h : Ascending t.entries) {op : Operation} {delay : Float} :
    t.delay? op = some delay ↔ ⟨op, delay⟩ ∈ t.entries :=
  find?_operation_iff h.nodup

lemma delay?_place (h : Ascending t.entries) (op : Operation) :
    delay? ⟨place m t.entries⟩ op = if m.operation = op then some m.delay else t.delay? op := by
  refine Option.ext fun delay => ?_
  rw [delay?_eq_some_iff (ascending_place h), mem_place h]
  split_ifs with hop
  · subst hop
    simp only [ne_eq, not_true_eq_false, and_false, or_false, Option.some.injEq]
    constructor
    · intro heq
      rw [← heq]
    · rintro rfl
      rfl
  · rw [delay?_eq_some_iff h]
    constructor
    · rintro (heq | ⟨hmem, -⟩)
      · exact absurd (congrArg Measurement.operation heq).symm hop
      · exact hmem
    · exact fun hmem => .inr ⟨hmem, fun heq => hop heq.symm⟩

end

/-! ## Histories -/

/-- The table has for each operation the delay that was entered last. -/
structure Records (history : List Measurement) (t : TimingTable) : Prop where
  ascending : Ascending t.entries
  /-- Only what can be measured was entered. -/
  sound : ∀ m ∈ history, m.Sound
  delay : ∀ op, t.delay? op = lastDelay history op

section

variable {t : TimingTable} {history : List Measurement} {m : Measurement}

lemma lastDelay_append (history : List Measurement) (m : Measurement) (op : Operation) :
    lastDelay (history ++ [m]) op =
      if m.operation = op then some m.delay else lastDelay history op := by
  rw [lastDelay, List.reverse_append, List.reverse_singleton, List.singleton_append,
    List.find?_cons]
  by_cases hop : m.operation = op
  · simp [hop]
  · have hne : (m.operation == op) = false := by simpa using hop
    rw [hne, if_neg hop]
    rfl

lemma lastDelay_isSome_iff {op : Operation} :
    (lastDelay history op).isSome = true ↔ op ∈ operations history := by
  simp [lastDelay, operations]

lemma records_empty : Records [] empty where
  ascending := .nil
  sound := by simp
  delay _ := rfl

lemma Records.place (h : Records history t) (hm : m.Sound) :
    Records (history ++ [m]) ⟨place m t.entries⟩ where
  ascending := ascending_place h.ascending
  sound := by
    intro x hx
    rcases List.mem_append.mp hx with hx | hx
    · exact h.sound x hx
    · rwa [List.mem_singleton.mp hx]
  delay op := by rw [delay?_place h.ascending, lastDelay_append, h.delay]

/-- What is refused leaves no trace in the table, and none in its history. -/
lemma Records.enter (h : Records history t) (hle : m.operation.width ≤ maxWord) :
    Records (history ++ [m].filter acceptable) (t.enter m) := by
  by_cases hacceptable : acceptable m = true
  · obtain ⟨hwidth, hdelay⟩ := acceptable_iff.mp hacceptable
    rw [enter_of_acceptable hacceptable, List.filter_cons_of_pos hacceptable]
    exact h.place ⟨hwidth, hle, hdelay⟩
  · rw [enter_of_not_acceptable hacceptable, List.filter_cons_of_neg hacceptable]
    simpa using h

lemma Records.enterAll (h : Records history t) {ms : List Measurement}
    (hle : ∀ m ∈ ms, m.operation.width ≤ maxWord) :
    Records (history ++ ms.filter acceptable) (t.enterAll ms) := by
  induction ms generalizing t history with
  | nil => simpa [TimingTable.enterAll] using h
  | cons m ms ih =>
      obtain ⟨hm, hms⟩ := List.forall_mem_cons.mp hle
      have hrest := ih (h.enter hm) hms
      rwa [List.append_assoc, ← List.filter_append] at hrest

/-- A table as a report gives it has the history of the lines. -/
lemma records_report {source : String} {ls : List (List Char)} {ms : List Measurement}
    (hparse : parse source = .ok t) (hlined : Lined source.toList ls) (hreports : Reports ls ms) :
    Records ms t := by
  obtain ⟨ns, hascending, hperm⟩ := exists_ascending hreports.nodup
  have hsame : parse source = .ok ⟨ns⟩ :=
    parse_eq_ok_iff.mpr ⟨hascending, ls, ms, hlined, hreports, hperm⟩
  have hreached : Reached t := Reached.empty.parseLines hparse
  obtain rfl : t = ⟨ns⟩ := Except.ok.inj (hparse.symm.trans hsame)
  refine ⟨hascending, fun m hm => hreached.sound (hperm.mem_iff.mpr hm), fun op => ?_⟩
  have hnodup : (operations ms.reverse).Nodup := by
    rw [operations, List.map_reverse, List.nodup_reverse]
    exact hreports.nodup
  refine Option.ext fun delay => ?_
  rw [delay?_eq_some_iff hascending, hperm.mem_iff, lastDelay, find?_operation_iff hnodup,
    List.mem_reverse]

/-! ## What can be observed -/

lemma Records.sound_of_mem (h : Records history t) (hm : m ∈ t.entries) : m.Sound := by
  have hlast := (delay?_eq_some_iff h.ascending).mpr hm
  rw [h.delay, lastDelay, Option.map_eq_some_iff] at hlast
  obtain ⟨x, hx, hdelay⟩ := hlast
  have hop : x.operation = m.operation := by simpa using List.find?_some hx
  have hsound := h.sound x (List.mem_reverse.mp (List.mem_of_find?_eq_some hx))
  exact ⟨hop ▸ hsound.pos, hop ▸ hsound.le, hdelay ▸ hsound.delay⟩

/-- There is one entry for each operation that was ever entered. -/
lemma Records.size_eq (h : Records history t) : t.size = (operations history).dedup.length := by
  have hperm : (operations t.entries).Perm (operations history).dedup := by
    refine (List.perm_ext_iff_of_nodup h.ascending.nodup (List.nodup_dedup _)).mpr fun op => ?_
    rw [List.mem_dedup, ← lastDelay_isSome_iff, ← h.delay, delay?_isSome_iff]
  rw [← hperm.length_eq, operations, List.length_map, size]

lemma Records.mem_measurements (h : Records history t) {operator : Operator} :
    m ∈ t.measurements operator ↔
      m.operation.operator = operator ∧ t.delay? m.operation = some m.delay := by
  rw [measurements, List.mem_filter, delay?_eq_some_iff h.ascending, beq_iff_eq, and_comm]

lemma measurements_ascending (h : Ascending t.entries) (operator : Operator) :
    (t.measurements operator).Pairwise Measurement.Precedes := by
  refine List.Pairwise.imp_of_mem ?_ (h.sublist List.filter_sublist)
  intro a b ha hb hbefore
  have hoperator : a.operation.operator = b.operation.operator := by
    rw [measurements, List.mem_filter, beq_iff_eq] at ha hb
    rw [ha.2, hb.2]
  rw [Operation.before_iff, Operation.orderKey, Operation.orderKey, hoperator,
    Prod.Lex.toLex_lt_toLex] at hbefore
  obtain hrank | ⟨-, hkey⟩ := hbefore
  · exact absurd hrank (lt_irrefl _)
  · rw [Prod.Lex.toLex_lt_toLex] at hkey
    refine hkey.imp_right fun hsigned => ⟨hsigned.1, ?_⟩
    have hless := hsigned.2
    revert hless
    cases a.operation.signed <;> cases b.operation.signed <;> simp

end

/-- How a table starts, and what was entered into it by then: nothing, or the lines of a report. -/
inductive Opening : TimingTable → List Measurement → Prop
  | blank : Opening empty []
  | report {source : String} {t : TimingTable} {ls : List (List Char)} {ms : List Measurement} :
      parse source = .ok t → Lined source.toList ls → Reports ls ms → Opening t ms

lemma Opening.records {t : TimingTable} {history : List Measurement} (h : Opening t history) :
    Records history t := by
  cases h with
  | blank => exact records_empty
  | report hparse hlined hreports => exact records_report hparse hlined hreports

/-- **A timing table is a finite map over every run.**  Whatever report it starts with, and whatever
is entered into it afterwards, it has one entry for each operation that was accepted, with the delay
that was accepted last, and hands out the entries of an operator in order.  All widths are positive
and all delays can be measured, and no delay is ever scaled by a weight of zero as long as the
machine takes logarithms above zero of numbers above one.  What is refused leaves the table as it
was. -/
theorem table_records_history :
    (∀ (source : String) (t : TimingTable), parse source = .ok t → ∃ ms, Opening t ms) ∧
    ∀ (start : TimingTable) (opening attempts : List Measurement), Opening start opening →
      (∀ m ∈ attempts, m.operation.width ≤ maxWord) →
        let t := start.enterAll attempts
        let history := opening ++ attempts.filter acceptable
        (∀ m ∈ t.entries, 0 < m.operation.width ∧ IsDelay m.delay) ∧
        (∀ log2 : Float → Float, (∀ x, 1.0 < x → 0.0 < log2 x) →
          ∀ m ∈ t.entries, ∀ rule : ScalingRule, 0.0 < rule.weightWith log2 m.operation.width) ∧
        ((∀ x : Float, 1.0 < x → 0.0 < x.log2) →
          ∀ m ∈ t.entries, ∀ rule : ScalingRule, 0.0 < rule.weight m.operation.width) ∧
        (∀ m, (∃ t', t.insert m.operation m.delay = .ok t') ↔ acceptable m = true) ∧
        (∀ m e, t.insert m.operation m.delay = .error e → t.enter m = t) ∧
        (∀ op, t.delay? op = lastDelay history op) ∧
        t.size = (operations history).dedup.length ∧
        ∀ operator,
          (∀ m, m ∈ t.measurements operator ↔
            m.operation.operator = operator ∧ t.delay? m.operation = some m.delay) ∧
          (t.measurements operator).Pairwise Measurement.Precedes := by
  constructor
  · intro source t hparse
    obtain ⟨ls, ms, hlined, hreports⟩ := parse_accepts_iff.mp ⟨t, hparse⟩
    exact ⟨ms, .report hparse hlined hreports⟩
  · intro start opening attempts hopening hle t history
    have hrecords : Records history t := hopening.records.enterAll hle
    have hsound : ∀ m ∈ t.entries, m.Sound := fun m => hrecords.sound_of_mem
    have hweights : ∀ log2 : Float → Float, (∀ x, 1.0 < x → 0.0 < log2 x) →
        ∀ m ∈ t.entries, ∀ rule : ScalingRule, 0.0 < rule.weightWith log2 m.operation.width :=
      fun log2 hlog m hm rule => rule.weight_pos hlog (hsound m hm).pos (hsound m hm).le
    exact ⟨fun m hm => ⟨(hsound m hm).pos, (hsound m hm).delay⟩, hweights, hweights Float.log2,
      fun m => exists_insert_iff, fun m e => enter_of_error, hrecords.delay, hrecords.size_eq,
      fun operator => ⟨fun m => hrecords.mem_measurements,
        measurements_ascending hrecords.ascending operator⟩⟩

/-- Measurements of shifts, two of which cannot be accepted. -/
def shiftAttempts : List Measurement :=
  [⟨⟨.binary .shl, 3, true⟩, 2.5⟩, ⟨⟨.binary .shl, 0, true⟩, 1.0⟩, ⟨⟨.binary .shl, 1, false⟩, 0.5⟩,
    ⟨⟨.binary .shl, 3, true⟩, -1.0⟩, ⟨⟨.binary .shl, 3, true⟩, 1.5⟩]

/-- The logarithms of two and of four are whole numbers, and enough for widths of one and three. -/
theorem table_records_history_shifts :
    let log2 : Float → Float := fun x => if x < 4.0 then 1.0 else 2.0
    (∃ t, parse "shl signed3 7" = .ok t ∧
      (t.enterAll shiftAttempts).delay? ⟨.binary .shl, 3, true⟩ = some 1.5) ∧
    (empty.enterAll shiftAttempts).size = 2 ∧
    ∀ m ∈ (empty.enterAll shiftAttempts).entries,
      0.0 < ScalingRule.logarithmic.weightWith log2 m.operation.width := by
  intro log2
  have hword : ∀ m ∈ shiftAttempts, m.operation.width ≤ maxWord := by decide
  have haccepted : shiftAttempts.filter acceptable =
      [⟨⟨.binary .shl, 3, true⟩, 2.5⟩, ⟨⟨.binary .shl, 1, false⟩, 0.5⟩,
        ⟨⟨.binary .shl, 3, true⟩, 1.5⟩] := rfl
  obtain ⟨-, hweights, -, -, -, -, hsize, -⟩ := table_records_history.2 _ _ _ .blank hword
  have hlog : ∀ x, 1.0 < x → 0.0 < log2 x := by
    intro x _
    show 0.0 < if x < 4.0 then 1.0 else 2.0
    split_ifs
    · decide +kernel
    · decide +kernel
  refine ⟨?_, ?_, fun m hm => hweights log2 hlog m hm _⟩
  · cases hparse : parse "shl signed3 7" with
    | error e =>
        have hok : (parse "shl signed3 7").toOption.isSome = true := by decide +kernel
        rw [hparse] at hok
        cases hok
    | ok t =>
        obtain ⟨ms, hopening⟩ := table_records_history.1 _ _ hparse
        obtain ⟨-, -, -, -, -, hdelay, -, -⟩ := table_records_history.2 _ _ _ hopening hword
        refine ⟨t, rfl, (hdelay _).trans ?_⟩
        rw [haccepted]
        simp [lastDelay]
  · rw [hsize, haccepted]
    rfl

end TimingTable

end Gateware
