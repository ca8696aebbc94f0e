/-!
# The cancellation token

A run is cancelled through a token, which any number of tasks share.  Some of them wait for the
cancellation and others cause it.  Here is what these tasks do to the token, one indivisible action
after the other, so that the actions of all tasks can be taken in any order.

A task that waits enables a notification first, and looks at the flag only then.  If the flag is not
set, the task parks until it is woken, and starts over.  A task that cancels sets the flag, and
wakes the others if it finds that the flag was not set before.

How notifications are kept is left open.  A `Notifier` has the operations that the token needs, and
`Notifier.Lawful` says what they have to do; `Notifier.numbered` is one that does.
-/

namespace Gateware

/-! ## Notifications -/

/-- Keeps the notifications of tasks.  A task has one at a time, and a new one takes the place of the
one before. -/
structure Notifier (ω : Type) where
  /-- What is kept. -/
  Ledger : Type
  /-- Nothing has been enabled. -/
  start : Ledger
  /-- Enables a new notification of a task. -/
  enable : Ledger → ω → Ledger
  /-- Wakes all who wait. -/
  notifyAll : Ledger → Ledger
  /-- Whether a notification of a task has been enabled. -/
  enabled : Ledger → ω → Bool
  /-- Whether the notification of a task has been woken. -/
  woken : Ledger → ω → Bool

/-- Waking all wakes exactly the notifications that were enabled before. -/
structure Notifier.Lawful {ω : Type} (n : Notifier ω) : Prop where
  enabled_start : ∀ w, n.enabled n.start w = false
  enabled_enable : ∀ l w v, n.enabled (n.enable l w) v = true ↔ v = w ∨ n.enabled l v = true
  enabled_notifyAll : ∀ l v, n.enabled (n.notifyAll l) v = n.enabled l v
  woken_enable_self : ∀ l w, n.woken (n.enable l w) w = false
  woken_enable : ∀ l w v, v ≠ w → n.woken (n.enable l w) v = n.woken l v
  woken_notifyAll : ∀ l v, n.woken (n.notifyAll l) v = true ↔ n.enabled l v = true

/-- How often the tasks have been woken, and for every task with a notification how often that was
before its notification was enabled. -/
structure Wakings (ω : Type) where
  count : Nat
  before : ω → Option Nat
  before_le : ∀ v k, before v = some k → k ≤ count

namespace Wakings

variable {ω : Type}

def enable [DecidableEq ω] (l : Wakings ω) (w : ω) : Wakings ω where
  count := l.count
  before v := if v = w then some l.count else l.before v
  before_le v k h := by
    split at h
    · cases h
      exact Nat.le_refl _
    · exact l.before_le v k h

def notifyAll (l : Wakings ω) : Wakings ω where
  count := l.count + 1
  before := l.before
  before_le v k h := Nat.le_succ_of_le (l.before_le v k h)

end Wakings

/-- Tells by the number of wakings who has been woken. -/
def Notifier.numbered (ω : Type) [DecidableEq ω] : Notifier ω where
  Ledger := Wakings ω
  start := { count := 0, before := fun _ => none, before_le := nofun }
  enable := Wakings.enable
  notifyAll := Wakings.notifyAll
  enabled l v := (l.before v).isSome
  woken l v := (l.before v).any (· < l.count)

/-! ## Tasks -/

/-- Where a task is that waits for the cancellation. -/
inductive Waiter where
  /-- About to enable its notification. -/
  | entering
  /-- About to look at the flag. -/
  | checking
  /-- About to return or to park, having seen the flag. -/
  | decided (seen : Bool)
  /-- Suspended until it is woken. -/
  | parked
  | returned
deriving Repr, DecidableEq

/-- Where a task is that cancels. -/
inductive Canceller where
  /-- About to set the flag. -/
  | calling
  /-- About to wake the others, having set the flag. -/
  | notifying
  /-- Returned; `first` says that this task set the flag and woke the others. -/
  | returned (first : Bool)
deriving Repr, DecidableEq

/-- An indivisible action of a task. -/
inductive TokenAction (ω κ : Type) where
  | enable (w : ω)
  | load (w : ω)
  /-- Returns or parks. -/
  | settle (w : ω)
  | wake (w : ω)
  | swap (c : κ)
  | notify (c : κ)
deriving Repr, DecidableEq

namespace TokenAction

variable {ω κ : Type}

/-- The waiting task whose action this is. -/
def waiter? : TokenAction ω κ → Option ω
  | enable w | load w | settle w | wake w => some w
  | swap _ | notify _ => none

/-- Whether an action wakes the waiting tasks. -/
def isNotify : TokenAction ω κ → Bool
  | notify _ => true
  | _ => false

end TokenAction

/-! ## The token -/

/-- A token, with where all tasks are that share it. -/
structure Token (ω κ : Type) (n : Notifier ω) where
  /-- Whether the token is cancelled. -/
  flag : Bool := false
  ledger : n.Ledger := n.start
  waiter : ω → Waiter := fun _ => .entering
  canceller : κ → Canceller := fun _ => .calling

namespace Token

variable {ω κ : Type} [DecidableEq ω] [DecidableEq κ] {n : Notifier ω}

/-- A waiting task goes somewhere else. -/
def moveWaiter (t : Token ω κ n) (w : ω) (place : Waiter) : Token ω κ n :=
  { t with waiter := fun v => if v = w then place else t.waiter v }

/-- A cancelling task goes somewhere else. -/
def moveCanceller (t : Token ω κ n) (c : κ) (place : Canceller) : Token ω κ n :=
  { t with canceller := fun d => if d = c then place else t.canceller d }

/-- The token after an action, if the task is where it can do it. -/
def act (t : Token ω κ n) : TokenAction ω κ → Option (Token ω κ n)
  | .enable w =>
    if t.waiter w = .entering then
      some { t.moveWaiter w .checking with ledger := n.enable t.ledger w }
    else none
  | .load w =>
    if t.waiter w = .checking then some (t.moveWaiter w (.decided t.flag)) else none
  | .settle w =>
    match t.waiter w with
    | .decided seen => some (t.moveWaiter w (if seen then .returned else .parked))
    | _ => none
  | .wake w =>
    if t.waiter w = .parked ∧ n.woken t.ledger w = true then some (t.moveWaiter w .entering)
    else none
  | .swap c =>
    if t.canceller c = .calling then
      some { t.moveCanceller c (if t.flag then .returned false else .notifying) with flag := true }
    else none
  | .notify c =>
    if t.canceller c = .notifying then
      some { t.moveCanceller c (.returned true) with ledger := n.notifyAll t.ledger }
    else none

/-- The token after a number of actions. -/
def run (t : Token ω κ n) : List (TokenAction ω κ) → Option (Token ω κ n)
  | [] => some t
  | a :: rest => (t.act a).bind fun t => t.run rest

end Token

end Gateware
