import Gateware.Proofs.Number.Comparison
import Gateware.Timing.Table
import Mathlib.Data.List.Perm.Lattice
import Mathlib.Data.Prod.Lex

/-!
# Timing tables as finite maps

Operations are in a strict linear order (`Operation.before_iff`), so an ascending list of
measurements has one for each operation at most, and two of them with the same measurements are
equal (`Ascending.eq_of_perm`).  Putting a measurement at its place keeps the list ascending and
drops nothing but an earlier measurement of the same operation (`place_perm`).
-/

namespace Gateware

/-! ## The order of operations -/

lemma Operator.mem_all (op : Operator) : op ∈ Operator.all := by
  cases op with
  | binary b => cases b <;> decide
  | unary u => cases u <;> decide

lemma Operator.rank_injective : Function.Injective Operator.rank := by
  intro a b h
  exact (List.idxOf_inj a.mem_all).mp h

namespace Operation

def orderKey (op : Operation) : ℕ ×ₗ ℕ ×ₗ ℕ :=
  toLex (op.operator.rank, toLex (op.width, op.signed.toNat))

lemma before_iff {a b : Operation} : a.before b = true ↔ a.orderKey < b.orderKey := by
  show (decide (a.operator.rank < b.operator.rank) || (a.operator.rank == b.operator.rank &&
    (decide (a.width < b.width) || (a.width == b.width &&
      decide (a.signed.toNat < b.signed.toNat))))) = true ↔ _
  simp [orderKey, Prod.Lex.toLex_lt_toLex]

lemma orderKey_injective : Function.Injective orderKey := by
  intro a b h
  obtain ⟨operator, width, signed⟩ := a
  obtain ⟨operator', width', signed'⟩ := b
  have hkey := congrArg (fun k => (ofLex k)) h
  simp only [orderKey, ofLex_toLex, Prod.mk.injEq, toLex_inj] at hkey
  obtain ⟨hrank, rfl, hsigned⟩ := hkey
  cases Operator.rank_injective hrank
  cases signed <;> cases signed' <;> simp_all

lemma before_trans {a b c : Operation} (h : a.before b = true) (h' : b.before c = true) :
    a.before c = true := by
  rw [before_iff] at h h' ⊢
  exact h.trans h'

lemma ne_of_before {a b : Operation} (h : a.before b = true) : a ≠ b := by
  rintro rfl
  rw [before_iff] at h
  exact lt_irrefl _ h

lemma before_of_not {a b : Operation} (h : ¬ a.before b = true) (hne : a ≠ b) :
    b.before a = true := by
  rw [before_iff] at h ⊢
  exact lt_of_le_of_ne (not_lt.mp h) fun heq => hne (orderKey_injective heq.symm)

end Operation

/-! ## Delays -/

/-- A delay that can be measured: a finite number that is not below zero. -/
def IsDelay (x : Float) : Prop :=
  ∃ negative m e, Exact.ofFloat x = .finite negative m e ∧ (negative = true → m = 0)

lemma validDelay_iff {x : Float} : TimingTable.validDelay x = true ↔ IsDelay x := by
  have hzero : place (0.0 : Float) = toLex (0, toLex (0, 0)) := rfl
  have hvalid : TimingTable.validDelay x = true ↔
      x.toModel.unpack.isFinite = true ∧ ¬ x < 0.0 := by
    rw [TimingTable.validDelay, Bool.and_eq_true, Bool.not_eq_true', decide_eq_false_iff_not]
    rfl
  rw [hvalid, IsDelay]
  cases hx : x.toModel.unpack with
  | notANumber =>
      have hexact : Exact.ofFloat x = .nan := by rw [Exact.ofFloat, hx]
      have hfinite : Float.Model.UnpackedFloat.notANumber.isFinite = false := rfl
      simp [hexact, hfinite]
  | infinity s =>
      have hexact : Exact.ofFloat x = .infinite (Exact.isNegative s) := by rw [Exact.ofFloat, hx]
      have hfinite : (Float.Model.UnpackedFloat.infinity s).isFinite = false := rfl
      simp [hexact, hfinite]
  | zero s =>
      have hexact : Exact.ofFloat x = .finite (Exact.isNegative s) 0 0 := by rw [Exact.ofFloat, hx]
      have hnumber : x.isNaN = false := congrArg Float.Model.UnpackedFloat.isNaN hx
      have hplace : place x = toLex (0, toLex (0, 0)) := by
        rw [place, hx]
        rfl
      have hfinite : (Float.Model.UnpackedFloat.zero s).isFinite = true := rfl
      rw [lt_iff_place hnumber rfl, hzero, hplace, hfinite, hexact]
      simp
  | finite s m e hm =>
      have hexact : Exact.ofFloat x = .finite (Exact.isNegative s) m e := by rw [Exact.ofFloat, hx]
      have hnumber : x.isNaN = false := congrArg Float.Model.UnpackedFloat.isNaN hx
      have hfinite : (Float.Model.UnpackedFloat.finite s m e hm).isFinite = true := rfl
      rw [lt_iff_place hnumber rfl, hzero, hfinite, hexact]
      -- Only the sign counts.
      cases s with
      | positive =>
          have hplace : place x = toLex (1, toLex (e, (m : ℤ))) := by
            rw [place, hx]
            rfl
          simp [hplace, Exact.isNegative, Prod.Lex.toLex_lt_toLex]
      | negative =>
          have hplace : place x = toLex (-1, toLex (-e, -(m : ℤ))) := by
            rw [place, hx]
            rfl
          simp [hplace, Exact.isNegative, Prod.Lex.toLex_lt_toLex, hm.ne']

/-- What can be measured: a positive width of 32 bits, and a delay. -/
structure Measurement.Sound (m : Measurement) : Prop where
  pos : 0 < m.operation.width
  le : m.operation.width ≤ maxWord
  delay : IsDelay m.delay

/-! ## Ascending lists -/

/-- The measurements are in the order of their operations, one for each operation at most. -/
def Ascending (ms : List Measurement) : Prop :=
  ms.Pairwise fun a b => a.operation.before b.operation = true

lemma Ascending.eq_of_perm {ms ns : List Measurement} (hms : Ascending ms) (hns : Ascending ns)
    (h : ms.Perm ns) : ms = ns := by
  refine h.eq_of_pairwise ?_ hms hns
  intro a b _ _ hab hba
  exact absurd rfl (Operation.ne_of_before (Operation.before_trans hab hba))

lemma Ascending.nodup {ms : List Measurement} (h : Ascending ms) :
    (ms.map (·.operation)).Nodup := by
  refine List.pairwise_map.mpr (h.imp ?_)
  intro a b hab
  exact Operation.ne_of_before hab

namespace TimingTable

section

variable {m : Measurement} {ms : List Measurement}

/-- Only a measurement of the same operation has to leave. -/
lemma place_perm (h : Ascending ms) :
    (place m ms).Perm (m :: ms.filter (·.operation ≠ m.operation)) := by
  induction ms with
  | nil => exact .refl _
  | cons x xs ih =>
      obtain ⟨hx, hxs⟩ := List.pairwise_cons.mp h
      rw [place]
      split_ifs with hbefore hsame
      · have hall : ∀ y ∈ x :: xs, m.operation.before y.operation = true := by
          intro y hy
          rcases List.mem_cons.mp hy with rfl | hy
          · exact hbefore
          · exact Operation.before_trans hbefore (hx y hy)
        rw [List.filter_eq_self.mpr]
        intro y hy
        simpa using (Operation.ne_of_before (hall y hy)).symm
      · rw [beq_iff_eq] at hsame
        rw [List.filter_cons_of_neg (by simpa using hsame.symm), List.filter_eq_self.mpr]
        intro y hy
        simpa [hsame] using (Operation.ne_of_before (hx y hy)).symm
      · rw [beq_iff_eq] at hsame
        rw [List.filter_cons_of_pos (by simpa using Ne.symm hsame)]
        exact ((ih hxs).cons x).trans (.swap _ _ _)

lemma mem_place (h : Ascending ms) {x : Measurement} :
    x ∈ place m ms ↔ x = m ∨ x ∈ ms ∧ x.operation ≠ m.operation := by
  rw [(place_perm h).mem_iff]
  simp

lemma ascending_place (h : Ascending ms) : Ascending (place m ms) := by
  induction ms with
  | nil => exact List.pairwise_singleton _ _
  | cons x xs ih =>
      obtain ⟨hx, hxs⟩ := List.pairwise_cons.mp h
      rw [place]
      split_ifs with hbefore hsame
      · refine List.pairwise_cons.mpr ⟨?_, h⟩
        intro y hy
        rcases List.mem_cons.mp hy with rfl | hy
        · exact hbefore
        · exact Operation.before_trans hbefore (hx y hy)
      · rw [beq_iff_eq] at hsame
        refine List.pairwise_cons.mpr ⟨?_, hxs⟩
        intro y hy
        rw [hsame]
        exact hx y hy
      · rw [beq_iff_eq] at hsame
        refine List.pairwise_cons.mpr ⟨?_, ih hxs⟩
        intro y hy
        rcases (mem_place hxs).mp hy with rfl | ⟨hy, -⟩
        · exact Operation.before_of_not hbefore hsame
        · exact hx y hy

end

/-! ## Tables -/

section

variable {t t' : TimingTable} {op : Operation} {delay : Float}

lemma delay?_isSome_iff : (t.delay? op).isSome = true ↔ op ∈ t.entries.map (·.operation) := by
  simp [delay?]

lemma record_of_isDelay (hwidth : 0 < op.width) (hdelay : IsDelay delay) :
    t.record op delay = (⟨place ⟨op, delay⟩ t.entries⟩, .ok ()) := by
  rw [record, validDelay_iff.mpr hdelay, if_neg (by simpa using hwidth.ne')]
  rfl

lemma record_of_not_isDelay (hwidth : 0 < op.width) (hdelay : ¬ IsDelay delay) :
    t.record op delay = (t, .error (.invalidDelay op.render delay)) := by
  rw [← validDelay_iff, Bool.not_eq_true] at hdelay
  rw [record, hdelay, if_neg (by simpa using hwidth.ne')]
  rfl

/-- A measurement that is refused leaves the table as it was. -/
lemma record_of_error {e : TimingError} (h : (t.record op delay).2 = .error e) :
    (t.record op delay).1 = t := by
  unfold record at h ⊢
  split_ifs at h ⊢
  · rfl
  · rfl

lemma insert_of_isDelay (hwidth : 0 < op.width) (hdelay : IsDelay delay) :
    t.insert op delay = .ok ⟨place ⟨op, delay⟩ t.entries⟩ := by
  rw [insert, record_of_isDelay hwidth hdelay]
  rfl

lemma insert_of_not_isDelay (hwidth : 0 < op.width) (hdelay : ¬ IsDelay delay) :
    t.insert op delay = .error (.invalidDelay op.render delay) := by
  rw [insert, record_of_not_isDelay hwidth hdelay]
  rfl

lemma insert_eq_ok_iff : t.insert op delay = .ok t' ↔
    0 < op.width ∧ IsDelay delay ∧ t' = ⟨place ⟨op, delay⟩ t.entries⟩ := by
  by_cases hwidth : op.width = 0
  · simp [insert, record, hwidth, Except.map]
  · have hpos := Nat.pos_of_ne_zero hwidth
    by_cases hdelay : IsDelay delay
    · simp [insert_of_isDelay hpos hdelay, hpos, hdelay, eq_comm]
    · simp [insert_of_not_isDelay hpos hdelay, hdelay]

/-- The tables that measurements are entered into one by one. -/
inductive Reached : TimingTable → Prop
  | empty : Reached empty
  | insert {t t' : TimingTable} {op : Operation} {delay : Float} :
      Reached t → op.width ≤ maxWord → t.insert op delay = .ok t' → Reached t'

lemma Reached.ascending (h : Reached t) : Ascending t.entries := by
  induction h with
  | empty => exact .nil
  | insert _ _ hinsert ih =>
      obtain ⟨-, -, rfl⟩ := insert_eq_ok_iff.mp hinsert
      exact ascending_place ih

lemma Reached.sound (h : Reached t) {m : Measurement} (hm : m ∈ t.entries) : m.Sound := by
  induction h with
  | empty => cases hm
  | insert hreached hle hinsert ih =>
      obtain ⟨hpos, hdelay, rfl⟩ := insert_eq_ok_iff.mp hinsert
      rcases (mem_place hreached.ascending).mp hm with rfl | ⟨hm, -⟩
      · exact ⟨hpos, hle, hdelay⟩
      · exact ih hm

end

end TimingTable

end Gateware
