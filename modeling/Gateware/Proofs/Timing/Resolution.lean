import Gateware.Proofs.Results
import Gateware.Timing.Cost

/-!
# Which operations have a price

The delay of an operation that was not measured itself is scaled from another measurement of its
operator.  So nothing more is needed than one measurement of the operator, at any width and of any
signedness (`price_accepts`).
-/

namespace Gateware

namespace TimingTable

/-- The table has a measurement of an operator. -/
def Measures (t : TimingTable) (operator : Operator) : Prop :=
  ∃ m ∈ t.entries, m.operation.operator = operator

lemma nearest_eq_none {width : Nat} {ms : List Measurement} :
    nearest width ms = none ↔ ms = [] := by
  cases ms with
  | nil => simp [nearest]
  | cons m ms =>
      rw [nearest]
      cases nearest width ms with
      | none => simp
      | some n =>
          dsimp only
          split_ifs <;> simp

lemma measurements_eq_nil {t : TimingTable} {operator : Operator} :
    t.measurements operator = [] ↔ ¬t.Measures operator := by
  simp [measurements, Measures]

/-- There is nothing to scale from exactly if the operator was never measured. -/
lemma reference_eq_none {t : TimingTable} {op : Operation} :
    t.reference op = none ↔ ¬t.Measures op.operator := by
  simp only [reference, Option.or_eq_none_iff, nearest_eq_none, ← measurements_eq_nil]
  constructor
  · rintro ⟨-, hall⟩
    exact hall
  · intro hall
    exact ⟨by rw [hall, List.filter_nil], hall⟩

lemma Measures.of_delay {t : TimingTable} {op : Operation} {delay : Float}
    (h : t.delay? op = some delay) : t.Measures op.operator := by
  obtain ⟨m, hm, -⟩ := Option.map_eq_some_iff.mp h
  have hop : m.operation = op := by simpa using List.find?_some hm
  exact ⟨m, List.mem_of_find?_eq_some hm, by rw [hop]⟩

lemma resolve_eq_none {t : TimingTable} {op : Operation} (hwidth : 0 < op.width) :
    t.resolve op = none ↔ ¬t.Measures op.operator := by
  have hne : (op.width == 0) = false := by simpa using Nat.ne_of_gt hwidth
  simp only [resolve, hne, Bool.false_eq_true, if_false]
  cases hdelay : t.delay? op with
  | none => simp [reference_eq_none]
  | some delay => simpa using Measures.of_delay hdelay

end TimingTable

/-- **When an operation has a price.** -/
theorem price_accepts (manifest : Manifest) (table : TimingTable) (op : Operation) :
    (∃ cost, (price manifest table op).result = .ok cost) ↔
      0 < op.width ∧ table.Measures op.operator := by
  unfold price
  by_cases hzero : op.width = 0
  · simp [hzero]
  · have hwidth : 0 < op.width := Nat.pos_of_ne_zero hzero
    have hnone := TimingTable.resolve_eq_none (t := table) hwidth
    simp only [beq_iff_eq, hzero, if_false, hwidth, true_and]
    cases hresolve : table.resolve op with
    | none => simpa using hnone.mp hresolve
    | some estimate =>
        have hmeasured : table.Measures op.operator := by
          by_contra hnot
          rw [hnone.mpr hnot] at hresolve
          exact Option.some_ne_none _ hresolve.symm
        simpa using hmeasured

end Gateware
