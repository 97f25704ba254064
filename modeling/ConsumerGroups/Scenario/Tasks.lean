-- Time passes, and the tasks of the timers run. A task that runs strikes until its next strike lies
-- ahead; then it comes to rest, and the task behind it runs. When all of them rest, the earliest
-- due time comes, and wakes the tasks that are due.
import ConsumerGroups.Scenario.World

set_option autoImplicit false

namespace ConsumerGroups.Scenario

/-! ## A task runs -/

/-- The line about what a timer swept out. -/
def sweptOutLines (n : Nat) : List LogLine :=
  if n = 0 then [] else [⟨.debug, s!"Channel scan removed {n} expired channels"⟩]

/-- Strikes from `due` on. The task comes to rest when its next strike is due after `seen`, the time
up to which tasks have woken. Nothing but a panic stops it before: a task that is ended by its own
sweep still strikes until it would come to rest. Counts the sweeps. -/
def strikeFrom (env : Surroundings Outside) (now seen : Nat) (task : Task) (t : Timer) (due : Nat)
    (w : World) : World × Nat :=
  if seen < due then (World.rest w task due, 0)
  else
    match (World.jot w task.timer (.struck task.start)).sweep env with
    | (w, .error _) => (World.breakOff w task, 1)
    | (w, .ok n) =>
      let (w, strikes) := strikeFrom env now seen task t (Timer.nextDue t.interval now due)
        (w.logAll (sweptOutLines n))
      (w, strikes + 1)
termination_by seen + 1 - due
decreasing_by
  have := Timer.lt_nextDue t.interval now due t.interval_pos
  omega

/-- Runs a task, unless it has ended. Counts the sweeps. -/
def runTask (env : Surroundings Outside) (seen : Nat) (task : Task) (w : World) : World × Nat :=
  match World.holder? w task with
  | none => (w, 0)
  | some slot => match slot.timer.due? with
    | none => (w, 0)
    | some due => strikeFrom env w.outside.time seen task slot.timer due w

/-! ## Time passes -/

/-- Runs the tasks that are ready, and wakes those that are due up to `stop`: one due time after the
other, or all at once when the time was put forward. Counts the sweeps. -/
def pass (env : Surroundings Outside) (stop : Nat) : Nat → Nat → Nat → World → World × Nat
  | 0, _, count, w => (w, count)
  | fuel + 1, seen, count, w =>
    match w.outside.ready with
    | task :: others =>
      let (w, strikes) :=
        runTask env seen task (World.around w (fun o => { o with ready := others }))
      pass env stop fuel seen (count + strikes) w
    | [] => match World.nextDue? w.outside.slots with
      | none => (w, count)
      | some due =>
        if due ≤ stop then
          let now := max w.outside.time due
          pass env stop fuel now count (World.wake w now)
        else (w, count)

/-- More than there can be to do in a span: tasks wake at most once in a millisecond, and `depth`
more may be begun. -/
def passBound (depth span : Nat) (w : World) : Nat :=
  (w.outside.slots.length + w.outside.ready.length + depth + 2) * (span + 2)

/-- Lets time pass: every timer strikes at its own time. -/
def sleep (env : Surroundings Outside) (depth span : Nat) (w : World) : World × Nat :=
  let start := w.outside.time
  let stop := start + span
  let (w, count) := pass env stop (passBound depth span w) start 0 w
  (World.around w (fun o => { o with time := stop }), count)

/-- Puts the time forward at once: the timers strike when it is done. -/
def jump (env : Surroundings Outside) (depth span : Nat) (w : World) : World × Nat :=
  let start := w.outside.time
  let stop := start + span
  let w := World.around w (fun o => { o with time := stop })
  pass env stop (passBound depth span w) start 0 w

end ConsumerGroups.Scenario
