import Gateware.Vhdl.WaitCounter
import Mathlib.Tactic.Common

/-!
# The handshake of the wait counter

A user of a generated entity raises `start` and reads the result when `done` is high.  The result
needs `wait` clock edges to settle, so `done` must not come earlier, and it must come for every
start that the counter took up.

A start is taken up if the counter is not busy when it is seen (`Accepted`).  After any number of
edges the counter is idle, or it is waiting since some edge at which it took up a start
(`standing`).  In the second case the number of that edge and what remains to be counted add up to
the edge at which `done` goes high, and every earlier start is done with.  This is the invariant from
which everything about the signals is read off.

Edges are numbered from zero, so `after wait starts n` are the registers before the edge `n`, and
`after wait starts (n + 1)` those that it leaves behind.
-/

namespace Gateware.Vhdl.Counter

/-! ## One edge -/

section

variable {c : Counter}

/-- An idle counter takes up a start and lets everything else pass. -/
lemma step_idle (wait : Nat) (h : c.busy = false) (start : Bool) :
    step wait c start = ⟨start, if start then wait - 1 else c.remaining, false⟩ := by
  cases start <;> simp [step, perform, action, holds, flag, h]

lemma step_counting (wait : Nat) (h : c.busy = true) (hremaining : c.remaining ≠ 0) (start : Bool) :
    step wait c start = ⟨true, c.remaining - 1, false⟩ := by
  simp [step, perform, action, holds, flag, h, hremaining]

lemma step_exhausted (wait : Nat) (h : c.busy = true) (hremaining : c.remaining = 0)
    (start : Bool) : step wait c start = ⟨false, 0, true⟩ := by
  simp [step, perform, action, holds, flag, h, hremaining]

/-- A busy counter does not look at `start`. -/
lemma step_busy (wait : Nat) (h : c.busy = true) (start other : Bool) :
    step wait c start = step wait c other := by
  by_cases hremaining : c.remaining = 0
  · rw [step_exhausted wait h hremaining, step_exhausted wait h hremaining]
  · rw [step_counting wait h hremaining, step_counting wait h hremaining]

end

/-- The numbers that an action assigns to the counter, before they are fit into its range. -/
def assigned (wait : Nat) (before : Counter) (start : Bool) : Action → List Int
  | .skip => []
  | .drive _ _ => []
  | .load => [(wait : Int) - 1]
  | .countDown => [(before.remaining : Int) - 1]
  | .sequence first second => assigned wait before start first ++ assigned wait before start second
  | .choose condition yes no =>
    if before.holds start condition then assigned wait before start yes
    else assigned wait before start no

lemma assigned_action (wait : Nat) (c : Counter) (start : Bool) :
    assigned wait c start action =
      if c.busy then if c.remaining = 0 then [] else [(c.remaining : Int) - 1]
      else if start then [(wait : Int) - 1] else [] := by
  cases hbusy : c.busy <;> cases start <;> simp [assigned, action, holds, flag, hbusy]

/-- Nothing below zero is assigned, and nothing that is not below the number of cycles to wait. -/
lemma assigned_inRange {wait : Nat} (hwait : 0 < wait) {c : Counter} (hc : c.remaining < wait)
    (start : Bool) : ∀ v ∈ assigned wait c start action, 0 ≤ v ∧ v < wait := by
  intro v hv
  rw [assigned_action] at hv
  split_ifs at hv with hbusy hremaining hstart
  · simp at hv
  · simp only [List.mem_singleton] at hv
    omega
  · simp only [List.mem_singleton] at hv
    omega
  · simp at hv

/-! ## Many edges -/

/-- The registers before an edge, given the levels of `start` at all edges. -/
def after (wait : Nat) (starts : Nat → Bool) (n : Nat) : Counter :=
  run wait ((List.range n).map starts)

/-- A start that is seen while the counter is idle. -/
def Accepted (wait : Nat) (starts : Nat → Bool) (k : Nat) : Prop :=
  starts k = true ∧ (after wait starts k).busy = false

section

variable {wait : Nat} {starts : Nat → Bool}

lemma after_succ (n : Nat) :
    after wait starts (n + 1) = step wait (after wait starts n) (starts n) := by
  simp [after, run, List.range_succ]

/-- Where a counter stands before an edge. -/
inductive Standing (wait : Nat) (starts : Nat → Bool) (n : Nat) (c : Counter) : Prop
  /-- Idle, with all starts done with. -/
  | idle (hbusy : c.busy = false) (hremaining : c.remaining = 0)
      (hpast : ∀ j < n, Accepted wait starts j → j + wait < n)
  /-- Waiting since the edge `k`. -/
  | waiting (k : Nat) (hk : k < n) (haccepted : Accepted wait starts k) (hbusy : c.busy = true)
      (hremaining : n + c.remaining = k + wait)
      (hpast : ∀ j < n, Accepted wait starts j → j = k ∨ j + wait < k)

lemma Standing.remaining_lt (hwait : 0 < wait) {n : Nat} {c : Counter}
    (h : Standing wait starts n c) : c.remaining < wait := by
  cases h with
  | idle _ hremaining _ => omega
  | waiting k hk _ _ hremaining _ => omega

/-- One edge. -/
lemma Standing.step (hwait : 0 < wait) {n : Nat} (h : Standing wait starts n (after wait starts n)) :
    Standing wait starts (n + 1) (after wait starts (n + 1)) := by
  rw [after_succ]
  cases h with
  | idle hbusy hremaining hpast =>
      rw [step_idle wait hbusy]
      cases hstart : starts n with
      | false =>
          refine .idle rfl (by simpa using hremaining) fun j hj haccepted => ?_
          have hne : j ≠ n := by
            rintro rfl
            simp [Accepted, hstart] at haccepted
          have := hpast j (by omega) haccepted
          omega
      | true =>
          refine .waiting n (by omega) ⟨hstart, hbusy⟩ rfl (by simp; omega) fun j hj haccepted => ?_
          by_cases hjn : j = n
          · exact .inl hjn
          · exact .inr (hpast j (by omega) haccepted)
  | waiting k hk haccepted hbusy hremaining hpast =>
      -- the start at this edge, if there is one, is not taken up
      have hpresent : ∀ j < n + 1, Accepted wait starts j → j = k ∨ j + wait < k := by
        intro j hj haccepted
        have hne : j ≠ n := by
          rintro rfl
          simp [Accepted, hbusy] at haccepted
        exact hpast j (by omega) haccepted
      by_cases hlast : (after wait starts n).remaining = 0
      · rw [step_exhausted wait hbusy hlast]
        refine .idle rfl rfl fun j hj haccepted => ?_
        have := hpresent j hj haccepted
        omega
      · rw [step_counting wait hbusy hlast]
        exact .waiting k (by omega) haccepted rfl (by simp only; omega) hpresent

/-- **Where the counter stands** before every edge. -/
theorem standing (hwait : 0 < wait) (starts : Nat → Bool) (n : Nat) :
    Standing wait starts n (after wait starts n) := by
  induction n with
  | zero => exact .idle rfl rfl (by simp)
  | succ n ih => exact ih.step hwait

/-! ## The signals -/

/-- The counter is busy from the edge that takes up a start to the one that ends the wait. -/
lemma busy_iff (hwait : 0 < wait) (n : Nat) :
    (after wait starts n).busy = true ↔ ∃ k < n, n ≤ k + wait ∧ Accepted wait starts k := by
  cases standing hwait starts n with
  | idle hbusy _ hpast =>
      simp only [hbusy, Bool.false_eq_true, false_iff, not_exists, not_and]
      intro k hk hle haccepted
      have := hpast k hk haccepted
      omega
  | waiting k hk haccepted hbusy hremaining _ =>
      simp only [hbusy, true_iff]
      exact ⟨k, hk, by omega, haccepted⟩

/-- An edge raises `done` exactly if a start was taken up `wait` edges before it. -/
lemma done_iff (hwait : 0 < wait) (n : Nat) :
    (after wait starts (n + 1)).done = true ↔ ∃ k, k + wait = n ∧ Accepted wait starts k := by
  rw [after_succ]
  cases standing hwait starts n with
  | idle hbusy _ hpast =>
      simp only [step_idle wait hbusy, Bool.false_eq_true, false_iff, not_exists, not_and]
      intro k hk haccepted
      have := hpast k (by omega) haccepted
      omega
  | waiting k hk haccepted hbusy hremaining hpast =>
      by_cases hlast : (after wait starts n).remaining = 0
      · simp only [step_exhausted wait hbusy hlast, true_iff]
        exact ⟨k, by omega, haccepted⟩
      · simp only [step_counting wait hbusy hlast, Bool.false_eq_true, false_iff, not_exists,
          not_and]
        intro j hj hother
        have := hpast j (by omega) hother
        omega

/-- While a start is waited for, no other is taken up, nor at the edge that ends the wait. -/
lemma Accepted.apart (hwait : 0 < wait) {i j : Nat} (hi : Accepted wait starts i)
    (hj : Accepted wait starts j) (hij : i < j) : i + wait + 1 ≤ j := by
  cases standing hwait starts j with
  | idle _ _ hpast => exact hpast i hij hi
  | waiting _ _ _ hbusy => exact absurd hj.2 (by simp [hbusy])

/-- From a start that is taken up until the next one can be done with, `done` is high after one
edge only. -/
lemma Accepted.done_once (hwait : 0 < wait) {k n : Nat} (hk : Accepted wait starts k) (hkn : k ≤ n)
    (hn : n ≤ k + 2 * wait) : (after wait starts (n + 1)).done = true ↔ n = k + wait := by
  rw [done_iff hwait]
  constructor
  · rintro ⟨j, hj, haccepted⟩
    rcases Nat.lt_trichotomy j k with hlt | rfl | hgt
    · have := haccepted.apart hwait hk hlt
      omega
    · exact hj.symm
    · have := hk.apart hwait haccepted hgt
      omega
  · intro hn
    exact ⟨k, hn.symm, hk⟩

/-- The registers depend only on the starts that are seen while the counter is idle. -/
lemma after_congr {others : Nat → Bool}
    (h : ∀ n, (after wait starts n).busy = false → others n = starts n) (n : Nat) :
    after wait others n = after wait starts n := by
  induction n with
  | zero => rfl
  | succ n ih =>
      rw [after_succ, after_succ, ih]
      cases hbusy : (after wait starts n).busy with
      | false => rw [h n hbusy]
      | true => exact step_busy wait hbusy _ _

end

/-- The handshake of a wait counter, for given levels of `start`. -/
structure Handshake (wait : Nat) (starts : Nat → Bool) : Prop where
  /-- The counter stays in its range. -/
  range : ∀ n, (after wait starts n).remaining < wait
  /-- It is never made to leave it, either. -/
  assigned_range : ∀ n, ∀ v ∈ assigned wait (after wait starts n) (starts n) action,
    0 ≤ v ∧ v < wait
  /-- An edge raises `done` exactly if a start was taken up `wait` edges before. -/
  done_exactly : ∀ n, (after wait starts (n + 1)).done = true ↔
    ∃ k, k + wait = n ∧ Accepted wait starts k
  /-- For a start that is taken up, `done` is high for one cycle. -/
  one_pulse : ∀ k, Accepted wait starts k → ∀ n, k ≤ n → n ≤ k + 2 * wait →
    ((after wait starts (n + 1)).done = true ↔ n = k + wait)
  /-- The counter is busy exactly while it waits. -/
  busy_exactly : ∀ n, (after wait starts n).busy = true ↔
    ∃ k < n, n ≤ k + wait ∧ Accepted wait starts k
  /-- What `start` is while the counter is busy makes no difference. -/
  ignored : ∀ others : Nat → Bool,
    (∀ n, (after wait starts n).busy = false → others n = starts n) →
      ∀ n, after wait others n = after wait starts n
  /-- Starts are taken up more than `wait` edges apart. -/
  apart : ∀ i j, Accepted wait starts i → Accepted wait starts j → i < j → i + wait + 1 ≤ j

/-- **The wait counter keeps its handshake**, however `start` behaves. -/
theorem keeps_handshake (wait : Nat) (hwait : 0 < wait) (starts : Nat → Bool) :
    Handshake wait starts where
  range n := (standing hwait starts n).remaining_lt hwait
  assigned_range n := assigned_inRange hwait ((standing hwait starts n).remaining_lt hwait) (starts n)
  done_exactly := done_iff hwait
  one_pulse _ hk _ := hk.done_once hwait
  busy_exactly := busy_iff hwait
  ignored _ := after_congr
  apart _ _ hi hj := hi.apart hwait hj

/-- A counter for one cycle whose `start` is always high takes up every second start. -/
theorem keeps_handshake_held :
    0 < 1 ∧ (List.range 6).map (fun n => (after 1 (fun _ => true) n).done) =
        [false, false, true, false, true, false] ∧
      ¬ Accepted 1 (fun _ => true) 1 ∧ Accepted 1 (fun _ => true) 2 ∧
      Handshake 1 fun _ => true := by
  refine ⟨by decide, by decide, ?_, ?_, keeps_handshake 1 (by decide) _⟩
  · rintro ⟨-, hbusy⟩
    exact absurd hbusy (by decide)
  · exact ⟨rfl, by decide⟩

end Gateware.Vhdl.Counter
