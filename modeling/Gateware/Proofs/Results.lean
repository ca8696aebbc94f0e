import Gateware.Journal
import Mathlib.Data.List.Forall2
import Mathlib.Tactic.Common

/-!
# Succeeding and failing step by step

Every check and every stage of compilation is an `Except`, and longer ones are put together with
`bind`.  The lemmas here take such a computation apart: it succeeds exactly if all its stages do
(`bind_eq_ok`), and it fails at the first stage that fails (`bind_eq_error`).  With
`Traced.result_bind` they serve computations that keep notes as well.

A stage that works through a list succeeds item by item, so its success is a `List.Forall₂` between
the list and the results; `exists_of_mem_left` and `exists_of_mem_right` find the partner of an
item, and `exists_forall₂` finds partners for all items.
-/

namespace Gateware

variable {ε ε' α β : Type}

@[simp] lemma except_bind (x : Except ε α) (f : α → Except ε β) : (x >>= f) = x.bind f := rfl

@[simp] lemma except_pure (a : α) : (pure a : Except ε α) = .ok a := rfl

/-- A computation in two stages succeeds exactly if both do. -/
lemma bind_eq_ok {x : Except ε α} {f : α → Except ε β} {b : β} :
    x.bind f = .ok b ↔ ∃ a, x = .ok a ∧ f a = .ok b := by
  cases x with
  | error e => simp [Except.bind]
  | ok a => simp [Except.bind]

/-- A computation in two stages fails in the first, or in the second after the first. -/
lemma bind_eq_error {x : Except ε α} {f : α → Except ε β} {e : ε} :
    x.bind f = .error e ↔ x = .error e ∨ ∃ a, x = .ok a ∧ f a = .error e := by
  cases x with
  | error e => simp [Except.bind]
  | ok a => simp [Except.bind]

/-- Wrapping errors does not touch a result. -/
lemma mapError_eq_ok {f : ε → ε'} {x : Except ε α} {a : α} :
    x.mapError f = .ok a ↔ x = .ok a := by
  cases x with
  | error e => simp [Except.mapError]
  | ok a => simp [Except.mapError]

/-- An error after wrapping was an error before. -/
lemma mapError_eq_error {f : ε → ε'} {x : Except ε α} {e : ε'} :
    x.mapError f = .error e ↔ ∃ e', x = .error e' ∧ f e' = e := by
  cases x with
  | error e' => simp [Except.mapError]
  | ok a => simp [Except.mapError]

/-- A mapped result comes from a result. -/
lemma map_eq_ok {f : α → β} {x : Except ε α} {b : β} :
    x.map f = .ok b ↔ ∃ a, x = .ok a ∧ f a = b := by
  cases x with
  | error e => simp [Except.map]
  | ok a => simp [Except.map]

/-- Mapping results does not touch an error. -/
lemma map_eq_error {f : α → β} {x : Except ε α} {e : ε} : x.map f = .error e ↔ x = .error e := by
  cases x with
  | error e => simp [Except.map]
  | ok a => simp [Except.map]

section

variable {c : Prop} [Decidable c] {a b : α} {e e' : ε}

/-- A check passes exactly if its condition holds. -/
lemma guard_eq_ok : (if c then .ok a else .error e : Except ε α) = .ok b ↔ c ∧ b = a := by
  split_ifs with h
  · simp [h, eq_comm]
  · simp [h]

lemma guard_eq_error : (if c then .ok a else .error e : Except ε α) = .error e' ↔ ¬ c ∧ e' = e := by
  split_ifs with h
  · simp [h]
  · simp [h, eq_comm]

end

/-! ## Lists worked through item by item -/

section

variable {R : α → β → Prop} {xs : List α} {ys : List β}

lemma exists_of_mem_left (h : List.Forall₂ R xs ys) {x : α} (hx : x ∈ xs) : ∃ y ∈ ys, R x y := by
  induction h with
  | nil => simp at hx
  | cons hxy _ ih =>
      rcases List.mem_cons.mp hx with rfl | hx
      · exact ⟨_, List.mem_cons_self, hxy⟩
      · obtain ⟨y, hy, hR⟩ := ih hx
        exact ⟨y, List.mem_cons_of_mem _ hy, hR⟩

/-- Items that all have a partner can be paired off. -/
lemma exists_forall₂ : ∀ xs : List α, (∃ ys, List.Forall₂ R xs ys) ↔ ∀ x ∈ xs, ∃ y, R x y
  | [] => by simp
  | x :: xs => by
      simp only [List.mem_cons, forall_eq_or_imp, ← exists_forall₂ xs]
      constructor
      · rintro ⟨_, _ | ⟨h, hs⟩⟩
        exact ⟨⟨_, h⟩, _, hs⟩
      · rintro ⟨⟨y, h⟩, ys, hs⟩
        exact ⟨y :: ys, .cons h hs⟩

lemma exists_of_mem_right (h : List.Forall₂ R xs ys) {y : β} (hy : y ∈ ys) : ∃ x ∈ xs, R x y :=
  exists_of_mem_left h.flip hy

end

end Gateware
