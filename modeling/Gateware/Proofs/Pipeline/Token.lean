import Gateware.Pipeline.Token
import Mathlib.Tactic.Common

/-!
# No cancellation is lost

A task that waits could miss the cancellation if the flag were set between its look at the flag and
its going to sleep.  It does not, because it enables its notification before it looks.  The
invariant that shows this for all tasks and all orders of their actions (`Token.Invariant`) says:

* the flag is set exactly if one task has set it, and this is the only one that wakes the others;
* a task that has gone past its start has a notification enabled;
* once the others have been woken, every task that is parked, or has seen that the flag was not set
  and will park, has been woken.

The last point is what waking all does for the tasks that were there, given the second one.  A task
that comes later finds the flag set, and never parks.

From then on every action of a waiting task brings it nearer to its return, whatever the others do
(`Waiter.distance`), and it always has an action left to do until it is there.
-/

namespace Gateware

/-- The task set the flag. -/
def Canceller.isSetter : Canceller → Bool
  | calling => false
  | notifying => true
  | returned first => first

lemma Canceller.isSetter_iff {place : Canceller} :
    place.isSetter = true ↔ place = .notifying ∨ place = .returned true := by
  cases place <;> simp [isSetter]

/-- How many actions a waiting task is away from its return, once the flag is set and the others
have been woken. -/
def Waiter.distance : Waiter → Nat
  | decided false => 5
  | parked => 4
  | entering => 3
  | checking => 2
  | decided true => 1
  | returned => 0

lemma Waiter.distance_le (place : Waiter) : place.distance ≤ 5 := by
  cases place with
  | decided seen => cases seen <;> decide
  | _ => decide

lemma Notifier.numbered_lawful (ω : Type) [DecidableEq ω] : (Notifier.numbered ω).Lawful where
  enabled_start _ := rfl
  enabled_enable l w v := by
    simp only [numbered, Wakings.enable]
    split_ifs with hvw <;> simp [hvw]
  enabled_notifyAll _ _ := rfl
  woken_enable_self l w := by
    simp [numbered, Wakings.enable]
  woken_enable l w v hvw := by
    simp [numbered, Wakings.enable, hvw]
  woken_notifyAll l v := by
    have hle := l.before_le v
    simp only [numbered, Wakings.notifyAll]
    cases hv : l.before v with
    | none => simp
    | some k => simpa using Nat.lt_succ_of_le (hle k hv)

namespace Token

variable {ω κ : Type} {n : Notifier ω}

/-- What holds of a token whatever its tasks have done. -/
structure Invariant (t : Token ω κ n) : Prop where
  /-- Only a set flag is seen as set. -/
  seen : ∀ w, t.waiter w = .decided true ∨ t.waiter w = .returned → t.flag = true
  /-- The flag is set exactly if a task has set it. -/
  flag_iff : t.flag = true ↔ ∃ c, (t.canceller c).isSetter = true
  /-- Only one task has set it. -/
  unique : ∀ c d, (t.canceller c).isSetter = true → (t.canceller d).isSetter = true → c = d
  /-- A task that has gone past its start has a notification enabled. -/
  enabled : ∀ w, t.waiter w ≠ .entering → n.enabled t.ledger w = true
  /-- Once the others have been woken, who parks or will park has been woken. -/
  woken : ∀ c, t.canceller c = .returned true → ∀ w,
    t.waiter w = .decided false ∨ t.waiter w = .parked → n.woken t.ledger w = true

lemma invariant_start : Invariant ({} : Token ω κ n) where
  seen := by simp
  flag_iff := by simp [Canceller.isSetter]
  unique := by simp [Canceller.isSetter]
  enabled := by simp
  woken := by simp

/-! ## Moves -/

section

variable [DecidableEq ω] {t : Token ω κ n}

lemma waiter_move (t : Token ω κ n) (w v : ω) (place : Waiter) :
    (t.moveWaiter w place).waiter v = if v = w then place else t.waiter v := rfl

/-- An action of a waiting task that leaves the notifications alone. -/
lemma Invariant.moveWaiter (h : t.Invariant) {w : ω} {place : Waiter}
    (hseen : place = .decided true ∨ place = .returned → t.flag = true)
    (henabled : place ≠ .entering → n.enabled t.ledger w = true)
    (hwoken : ∀ c, t.canceller c = .returned true → place = .decided false ∨ place = .parked →
      n.woken t.ledger w = true) : (t.moveWaiter w place).Invariant where
  seen v hv := by
    rw [waiter_move] at hv
    split_ifs at hv
    · exact hseen hv
    · exact h.seen v hv
  flag_iff := h.flag_iff
  unique := h.unique
  enabled v hv := by
    rw [waiter_move] at hv
    split_ifs at hv with heq
    · rw [heq]
      exact henabled hv
    · exact h.enabled v hv
  woken c hc v hv := by
    rw [waiter_move] at hv
    split_ifs at hv with heq
    · rw [heq]
      exact hwoken c hc hv
    · exact h.woken c hc v hv

lemma Invariant.enable (lawful : n.Lawful) (h : t.Invariant) (w : ω) :
    Invariant { t.moveWaiter w .checking with ledger := n.enable t.ledger w } where
  seen v hv := by
    simp only [waiter_move] at hv
    split_ifs at hv
    · simp at hv
    · exact h.seen v hv
  flag_iff := h.flag_iff
  unique := h.unique
  enabled v hv := by
    simp only [waiter_move] at hv
    rw [lawful.enabled_enable]
    split_ifs at hv with heq
    · exact .inl heq
    · exact .inr (h.enabled v hv)
  woken c hc v hv := by
    simp only [waiter_move] at hv
    split_ifs at hv with heq
    · simp at hv
    · rw [lawful.woken_enable _ _ _ heq]
      exact h.woken c hc v hv

end

section

variable [DecidableEq κ] {t : Token ω κ n}

lemma canceller_move (t : Token ω κ n) (c d : κ) (place : Canceller) :
    (t.moveCanceller c place).canceller d = if d = c then place else t.canceller d := rfl

/-- A move that does not change whether the task set the flag. -/
lemma isSetter_move {c : κ} (place : Canceller)
    (h : place.isSetter = (t.canceller c).isSetter) (d : κ) :
    ((t.moveCanceller c place).canceller d).isSetter = (t.canceller d).isSetter := by
  rw [canceller_move]
  split_ifs with hdc
  · rw [hdc, h]
  · rfl

/-- The first task to set the flag. -/
lemma Invariant.swap_first (h : t.Invariant) (c : κ) (hflag : t.flag = false) :
    Invariant { t.moveCanceller c .notifying with flag := true } := by
  have hnone : ∀ d, (t.canceller d).isSetter = false := by
    intro d
    rw [← Bool.not_eq_true]
    intro hd
    exact absurd (h.flag_iff.mpr ⟨d, hd⟩) (by simp [hflag])
  have hsetter : ∀ d, ((t.moveCanceller c .notifying).canceller d).isSetter = true ↔ d = c := by
    intro d
    rw [canceller_move]
    split_ifs with hdc
    · simp [hdc, Canceller.isSetter]
    · simp [hdc, hnone d]
  constructor
  case seen => exact fun _ _ => rfl
  case flag_iff => exact ⟨fun _ => ⟨c, (hsetter c).mpr rfl⟩, fun _ => rfl⟩
  case unique => exact fun d e hd he => ((hsetter d).mp hd).trans ((hsetter e).mp he).symm
  case enabled => exact h.enabled
  case woken =>
    intro d hd
    simp only [canceller_move] at hd
    split_ifs at hd
    exact h.woken d hd

/-- A task that finds the flag set. -/
lemma Invariant.swap_again (h : t.Invariant) {c : κ} (hc : t.canceller c = .calling)
    (hflag : t.flag = true) :
    Invariant { t.moveCanceller c (.returned false) with flag := true } := by
  have hsetter := isSetter_move (t := t) (c := c) (.returned false) (by rw [hc]; rfl)
  constructor
  case seen => exact fun _ _ => rfl
  case flag_iff =>
    simp only [hsetter, ← h.flag_iff, hflag]
  case unique => simpa only [hsetter] using h.unique
  case enabled => exact h.enabled
  case woken =>
    intro d hd
    simp only [canceller_move] at hd
    split_ifs at hd with hdc
    · simp at hd
    · exact h.woken d hd

lemma Invariant.notify (lawful : n.Lawful) (h : t.Invariant) {c : κ}
    (hc : t.canceller c = .notifying) :
    Invariant { t.moveCanceller c (.returned true) with ledger := n.notifyAll t.ledger } := by
  have hsetter := isSetter_move (t := t) (c := c) (.returned true) (by rw [hc]; rfl)
  constructor
  case seen => exact h.seen
  case flag_iff =>
    simp only [hsetter]
    exact h.flag_iff
  case unique => simpa only [hsetter] using h.unique
  case enabled =>
    intro w hw
    rw [lawful.enabled_notifyAll]
    exact h.enabled w hw
  case woken =>
    intro d _ w hw
    rw [lawful.woken_notifyAll]
    refine h.enabled w ?_
    intro heq
    simp [moveCanceller, heq] at hw

end

/-! ## Actions -/

variable [DecidableEq ω] [DecidableEq κ] {t t' : Token ω κ n}

section

variable {w : ω} {c : κ}

lemma act_enable : t.act (.enable w) = some t' ↔ t.waiter w = .entering ∧
    t' = { t.moveWaiter w .checking with ledger := n.enable t.ledger w } := by
  simp only [act, Option.ite_none_right_eq_some, Option.some.injEq, eq_comm (a := t')]

lemma act_load : t.act (.load w) = some t' ↔ t.waiter w = .checking ∧
    t' = t.moveWaiter w (.decided t.flag) := by
  simp only [act, Option.ite_none_right_eq_some, Option.some.injEq, eq_comm (a := t')]

lemma act_settle : t.act (.settle w) = some t' ↔ ∃ seen, t.waiter w = .decided seen ∧
    t' = t.moveWaiter w (if seen then .returned else .parked) := by
  rw [act]
  cases t.waiter w <;> simp [eq_comm (a := t')]

lemma act_wake : t.act (.wake w) = some t' ↔
    (t.waiter w = .parked ∧ n.woken t.ledger w = true) ∧ t' = t.moveWaiter w .entering := by
  simp only [act, Option.ite_none_right_eq_some, Option.some.injEq, eq_comm (a := t')]

lemma act_swap : t.act (.swap c) = some t' ↔ t.canceller c = .calling ∧
    t' = { t.moveCanceller c (if t.flag then .returned false else .notifying) with
      flag := true } := by
  simp only [act, Option.ite_none_right_eq_some, Option.some.injEq, eq_comm (a := t')]

lemma act_notify : t.act (.notify c) = some t' ↔ t.canceller c = .notifying ∧
    t' = { t.moveCanceller c (.returned true) with ledger := n.notifyAll t.ledger } := by
  simp only [act, Option.ite_none_right_eq_some, Option.some.injEq, eq_comm (a := t')]

lemma run_cons {a : TokenAction ω κ} {actions : List (TokenAction ω κ)} :
    t.run (a :: actions) = some t' ↔ ∃ u, t.act a = some u ∧ u.run actions = some t' := by
  rw [run, Option.bind_eq_some_iff]

end

/-- An action of a waiting task leaves the flag and the cancelling tasks alone. -/
lemma act_of_waiter {a : TokenAction ω κ} {w : ω} (hw : a.waiter? = some w)
    (ha : t.act a = some t') : t'.flag = t.flag ∧ t'.canceller = t.canceller := by
  cases a with
  | enable v =>
      obtain ⟨-, rfl⟩ := act_enable.mp ha
      exact ⟨rfl, rfl⟩
  | load v =>
      obtain ⟨-, rfl⟩ := act_load.mp ha
      exact ⟨rfl, rfl⟩
  | settle v =>
      obtain ⟨_, -, rfl⟩ := act_settle.mp ha
      exact ⟨rfl, rfl⟩
  | wake v =>
      obtain ⟨-, rfl⟩ := act_wake.mp ha
      exact ⟨rfl, rfl⟩
  | swap c => cases hw
  | notify c => cases hw

/-- A set flag stays set. -/
lemma act_flag {a : TokenAction ω κ} (ha : t.act a = some t') (h : t.flag = true) :
    t'.flag = true := by
  cases a with
  | swap c =>
      obtain ⟨-, rfl⟩ := act_swap.mp ha
      rfl
  | notify c =>
      obtain ⟨-, rfl⟩ := act_notify.mp ha
      exact h
  | _ => rw [(act_of_waiter rfl ha).1, h]

/-- A cancelling task that has returned does nothing more. -/
lemma act_returned {a : TokenAction ω κ} (ha : t.act a = some t') {c : κ} {first : Bool}
    (h : t.canceller c = .returned first) : t'.canceller c = .returned first := by
  cases a with
  | swap d =>
      obtain ⟨hd, rfl⟩ := act_swap.mp ha
      have hne : c ≠ d := by
        rintro rfl
        simp [h] at hd
      simpa [canceller_move, hne] using h
  | notify d =>
      obtain ⟨hd, rfl⟩ := act_notify.mp ha
      have hne : c ≠ d := by
        rintro rfl
        simp [h] at hd
      simpa [canceller_move, hne] using h
  | _ => rw [(act_of_waiter rfl ha).2, h]

/-- **One action** keeps the invariant. -/
lemma Invariant.act (lawful : n.Lawful) (h : t.Invariant) {a : TokenAction ω κ}
    (ha : t.act a = some t') : t'.Invariant := by
  cases a with
  | enable w =>
      obtain ⟨-, rfl⟩ := act_enable.mp ha
      exact h.enable lawful w
  | load w =>
      obtain ⟨hw, rfl⟩ := act_load.mp ha
      refine h.moveWaiter (by simp) (fun _ => h.enabled w (by simp [hw])) fun c hc hplace => ?_
      -- the flag is set, so the task has seen that
      have hflag : t.flag = true := h.flag_iff.mpr ⟨c, by simp [hc, Canceller.isSetter]⟩
      simp [hflag] at hplace
  | settle w =>
      obtain ⟨seen, hw, rfl⟩ := act_settle.mp ha
      refine h.moveWaiter ?_ (fun _ => h.enabled w (by simp [hw])) fun c hc hplace => ?_
      · cases seen with
        | true => exact fun _ => h.seen w (.inl hw)
        | false => simp
      · cases seen with
        | true => simp at hplace
        | false => exact h.woken c hc w (.inl hw)
  | wake w =>
      obtain ⟨-, rfl⟩ := act_wake.mp ha
      exact h.moveWaiter (by simp) (by simp) (by simp)
  | swap c =>
      obtain ⟨hc, rfl⟩ := act_swap.mp ha
      cases hflag : t.flag with
      | false => exact h.swap_first c hflag
      | true => exact h.swap_again hc hflag
  | notify c =>
      obtain ⟨hc, rfl⟩ := act_notify.mp ha
      exact h.notify lawful hc

/-- **Any run** keeps the invariant. -/
lemma Invariant.run (lawful : n.Lawful) : ∀ {actions : List (TokenAction ω κ)} {t t' : Token ω κ n},
    t.Invariant → t.run actions = some t' → t'.Invariant
  | [], _, _, h, hrun => by
      cases hrun
      exact h
  | _ :: _, _, _, h, hrun => by
      obtain ⟨u, ha, hrest⟩ := run_cons.mp hrun
      exact (h.act lawful ha).run lawful hrest

lemma run_flag : ∀ {actions : List (TokenAction ω κ)} {t t' : Token ω κ n},
    t.run actions = some t' → t.flag = true → t'.flag = true
  | [], _, _, hrun, h => by
      cases hrun
      exact h
  | _ :: _, _, _, hrun, h => by
      obtain ⟨u, ha, hrest⟩ := run_cons.mp hrun
      exact run_flag hrest (act_flag ha h)

lemma run_returned {c : κ} {first : Bool} : ∀ {actions : List (TokenAction ω κ)}
    {t t' : Token ω κ n}, t.run actions = some t' → t.canceller c = .returned first →
      t'.canceller c = .returned first
  | [], _, _, hrun, h => by
      cases hrun
      exact h
  | _ :: _, _, _, hrun, h => by
      obtain ⟨u, ha, hrest⟩ := run_cons.mp hrun
      exact run_returned hrest (act_returned ha h)

/-! ## Waking happens once -/

/-- Nobody wakes the others after the task that set the flag has returned. -/
lemma Invariant.not_notify (h : t.Invariant) {c : κ} (hc : t.canceller c = .returned true)
    {a : TokenAction ω κ} (ha : t.act a = some t') : a.isNotify = false := by
  cases a with
  | notify d =>
      obtain ⟨hd, -⟩ := act_notify.mp ha
      have heq : c = d := h.unique c d (by simp [hc, Canceller.isSetter])
        (by simp [hd, Canceller.isSetter])
      simp [heq, hd] at hc
  | _ => rfl

lemma Invariant.count_notify_eq_zero (lawful : n.Lawful) {c : κ} :
    ∀ {actions : List (TokenAction ω κ)} {t t' : Token ω κ n}, t.Invariant →
      t.canceller c = .returned true → t.run actions = some t' →
        actions.countP TokenAction.isNotify = 0
  | [], _, _, _, _, _ => rfl
  | a :: _, _, _, h, hc, hrun => by
      obtain ⟨u, ha, hrest⟩ := run_cons.mp hrun
      rw [List.countP_cons_of_neg (by simp [h.not_notify hc ha])]
      exact (h.act lawful ha).count_notify_eq_zero lawful (act_returned ha hc) hrest

lemma Invariant.count_notify_le (lawful : n.Lawful) :
    ∀ {actions : List (TokenAction ω κ)} {t t' : Token ω κ n}, t.Invariant →
      t.run actions = some t' → actions.countP TokenAction.isNotify ≤ 1
  | [], _, _, _, _ => by simp
  | a :: actions, t, _, h, hrun => by
      obtain ⟨u, ha, hrest⟩ := run_cons.mp hrun
      have hu := h.act lawful ha
      cases a with
      | notify c =>
          obtain ⟨-, rfl⟩ := act_notify.mp ha
          have hc : (t.moveCanceller c (.returned true)).canceller c = .returned true := by
            simp [canceller_move]
          have hzero := hu.count_notify_eq_zero lawful hc hrest
          rw [List.countP_cons_of_pos rfl]
          omega
      | _ =>
          rw [List.countP_cons_of_neg (by simp [TokenAction.isNotify])]
          exact hu.count_notify_le lawful hrest

/-! ## The way back -/

section

variable (h : t.Invariant) {c : κ} (hc : t.canceller c = .returned true)

include h hc

/-- Every action of a waiting task brings it one action nearer to its return, and no other action
takes it away from there. -/
lemma Invariant.distance_act {a : TokenAction ω κ} (ha : t.act a = some t') (w : ω) :
    (if a.waiter? = some w then 1 else 0) + (t'.waiter w).distance = (t.waiter w).distance := by
  have hflag : t.flag = true := h.flag_iff.mpr ⟨c, by simp [hc, Canceller.isSetter]⟩
  -- the task that acts goes one place on, and the others stay
  have hmove : ∀ v place, place.distance + 1 = (t.waiter v).distance →
      (if some v = some w then 1 else 0) + ((t.moveWaiter v place).waiter w).distance =
        (t.waiter w).distance := by
    intro v place hplace
    rw [waiter_move]
    by_cases hvw : w = v
    · rw [hvw, if_pos rfl, if_pos rfl]
      omega
    · rw [if_neg (by simpa using Ne.symm hvw), if_neg hvw, Nat.zero_add]
  cases a with
  | enable v =>
      obtain ⟨hv, rfl⟩ := act_enable.mp ha
      exact hmove v .checking (by rw [hv]; rfl)
  | load v =>
      obtain ⟨hv, rfl⟩ := act_load.mp ha
      exact hmove v _ (by rw [hv, hflag]; rfl)
  | settle v =>
      obtain ⟨seen, hv, rfl⟩ := act_settle.mp ha
      exact hmove v _ (by rw [hv]; cases seen <;> rfl)
  | wake v =>
      obtain ⟨⟨hv, -⟩, rfl⟩ := act_wake.mp ha
      exact hmove v .entering (by rw [hv]; rfl)
  | swap d =>
      obtain ⟨-, rfl⟩ := act_swap.mp ha
      exact Nat.zero_add _
  | notify d =>
      obtain ⟨-, rfl⟩ := act_notify.mp ha
      exact Nat.zero_add _

/-- A waiting task that has not returned has something to do. -/
lemma Invariant.exists_act (w : ω) :
    t.waiter w = .returned ∨ ∃ a t', a.waiter? = some w ∧ t.act a = some t' := by
  cases hw : t.waiter w with
  | entering => exact .inr ⟨.enable w, _, rfl, act_enable.mpr ⟨hw, rfl⟩⟩
  | checking => exact .inr ⟨.load w, _, rfl, act_load.mpr ⟨hw, rfl⟩⟩
  | decided seen => exact .inr ⟨.settle w, _, rfl, act_settle.mpr ⟨seen, hw, rfl⟩⟩
  | parked => exact .inr ⟨.wake w, _, rfl, act_wake.mpr ⟨⟨hw, h.woken c hc w (.inr hw)⟩, rfl⟩⟩
  | returned => exact .inl rfl

end

lemma Invariant.distance_run (lawful : n.Lawful) {c : κ} (w : ω) :
    ∀ {actions : List (TokenAction ω κ)} {t t' : Token ω κ n}, t.Invariant →
      t.canceller c = .returned true → t.run actions = some t' →
        actions.countP (fun a => a.waiter? = some w) + (t'.waiter w).distance =
          (t.waiter w).distance
  | [], _, _, _, _, hrun => by
      cases hrun
      exact Nat.zero_add _
  | a :: actions, _, _, h, hc, hrun => by
      obtain ⟨u, ha, hrest⟩ := run_cons.mp hrun
      have hrun := (h.act lawful ha).distance_run lawful w (act_returned ha hc) hrest
      have hact := h.distance_act hc ha w
      rw [List.countP_cons]
      simp only [decide_eq_true_eq]
      omega

/-! ## No cancellation is lost -/

/-- However the actions of waiting and cancelling tasks are interleaved,

* the flag stays set once it is set, and a task that set it has woken the others or is about to,
* who has returned from waiting has seen the flag set,
* the waiting tasks are woken at most once, and
* after the task that woke them has returned, every parked task has been woken.  From then on each
  waiting task can go on until it has returned, which takes it five actions at most, whatever the
  other tasks do. -/
theorem no_cancellation_lost (lawful : n.Lawful) (actions : List (TokenAction ω κ))
    (hrun : ({} : Token ω κ n).run actions = some t) :
    (t.flag = true → ∀ more t', t.run more = some t' → t'.flag = true) ∧
    (t.flag = true ↔ ∃ c, t.canceller c = .notifying ∨ t.canceller c = .returned true) ∧
    (∀ w, t.waiter w = .returned → t.flag = true) ∧
    actions.countP TokenAction.isNotify ≤ 1 ∧
    ∀ c, t.canceller c = .returned true →
      (∀ w, t.waiter w = .parked → n.woken t.ledger w = true) ∧
      ∀ w more t', t.run more = some t' →
        more.countP (fun a => a.waiter? = some w) ≤ 5 ∧
        (t'.waiter w = .returned ∨ ∃ a t'', a.waiter? = some w ∧ t'.act a = some t'') := by
  have h : t.Invariant := invariant_start.run lawful hrun
  refine ⟨fun hflag _ _ hmore => run_flag hmore hflag, ?_, fun w hw => h.seen w (.inr hw),
    invariant_start.count_notify_le lawful hrun, fun c hc => ⟨fun w hw => h.woken c hc w (.inr hw),
      fun w more t' hmore => ⟨?_, ?_⟩⟩⟩
  · simp only [h.flag_iff, Canceller.isSetter_iff]
  · have hdistance := h.distance_run lawful w hc hmore
    have hle := (t.waiter w).distance_le
    omega
  · exact (h.run lawful hmore).exists_act (run_returned hmore hc) w

/-- Both tasks that wait look at the flag around the time it is set, and the one that sees it unset
parks before anybody is woken. -/
def closeCall : List (TokenAction Bool Bool) :=
  [.enable false, .load false, .swap true, .enable true, .load true, .swap false, .settle false,
    .notify true]

theorem no_cancellation_lost_closeCall :
    ∃ t : Token Bool Bool (.numbered Bool), ({} : Token Bool Bool (.numbered Bool)).run closeCall =
      some t ∧ t.waiter false = .parked ∧ t.canceller true = .returned true ∧
      (Notifier.numbered Bool).woken t.ledger false = true ∧
      ∀ more t', t.run more = some t' → t'.flag = true ∧
        more.countP (fun a => a.waiter? = some false) ≤ 5 := by
  have ⟨hflag, _, _, _, hlast⟩ := no_cancellation_lost (Notifier.numbered_lawful Bool)
    closeCall rfl
  have ⟨hwoken, hway⟩ := hlast true rfl
  exact ⟨_, rfl, rfl, rfl, hwoken false rfl, fun more t' hmore =>
    ⟨hflag rfl more t' hmore, (hway false more t' hmore).1⟩⟩

end Token

end Gateware
