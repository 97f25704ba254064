-- The timer that drives the sweep. It first strikes a delay after its start and then at a steady
-- interval. A strike that comes late by more than the tolerance moves the rhythm: the next one is a
-- full interval after it.
import ConsumerGroups.Log
import ConsumerGroups.Time

set_option autoImplicit false

namespace ConsumerGroups

inductive Phase where
  | idle
  /-- its task strikes next at this time -/
  | waiting (due : Nat)
  | broken
deriving DecidableEq, Repr

/-- A timer, with all times in milliseconds. -/
structure Timer where
  delay : Nat
  interval : Nat
  phase : Phase
  starts : Nat
  interval_pos : 0 < interval
deriving DecidableEq, Repr

namespace Timer

/-- A strike this much late still counts as on time. -/
def tolerance : Nat := 5

/-- An idle timer. An interval of nothing is raised to a millisecond. -/
def new (delay interval : Nat) : Timer where
  delay := delay
  interval := max interval 1
  phase := .idle
  starts := 0
  interval_pos := by omega

def isRunning (t : Timer) : Bool :=
  match t.phase with
  | .waiting _ => true
  | _ => false

def due? (t : Timer) : Option Nat :=
  match t.phase with
  | .waiting due => some due
  | _ => none

def startLine (t : Timer) : LogLine :=
  if t.isRunning then ⟨.warn, "Channel scanner already running"⟩
  else ⟨.debug, s!"Starting channel scanner, initial_delay={spanText t.delay}, " ++
    s!"interval={spanText t.interval}"⟩

/-- Begins a task, unless one is running. -/
def start (t : Timer) (now : Nat) : Timer :=
  if t.isRunning then t
  else { t with phase := .waiting (now + t.delay), starts := t.starts + 1 }

/-- What cancelling the timer logs: nothing when it has no task. -/
def cancelLines (t : Timer) : List LogLine :=
  match t.phase with
  | .idle => []
  | _ => [⟨.debug, "Cancel channel scanner"⟩]

def cancel (t : Timer) : Timer := { t with phase := .idle }

/-- When the timer strikes after a strike at `now` that was due at `due`. -/
def nextDue (interval now due : Nat) : Nat :=
  if due + tolerance < now then now + interval else due + interval

/-- Whether the timer still has the task that was begun as number `starts`. -/
def runs (t : Timer) (starts : Nat) : Bool := t.isRunning && t.starts == starts

def waitUntil (t : Timer) (due : Nat) : Timer := { t with phase := .waiting due }

def breakOff (t : Timer) : Timer := { t with phase := .broken }

/-! ## The next strike -/

theorem nextDue_on_time (interval due : Nat) : nextDue interval due due = due + interval := by
  simp [nextDue]

/-- The next strike is later than this one was due. -/
theorem lt_nextDue (interval now due : Nat) (h : 0 < interval) :
    due < nextDue interval now due := by
  unfold nextDue
  split <;> omega

end Timer

end ConsumerGroups
