-- The world of a scenario: the registry, and around it the channels, the listeners with their
-- notebooks, the record of what was heard, the kept records and the timers.
import ConsumerGroups.Registry.Register
import ConsumerGroups.Registry.Sweep
import ConsumerGroups.Scenario.Plan
import ConsumerGroups.Timer

set_option autoImplicit false

namespace ConsumerGroups.Scenario

/-! ## Answers and recordings -/

/-- What something that was done answers. -/
inductive Answer where
  | nothing
  | truth (b : Bool)
  | number (n : Nat)
  | names (names : List String)
  | client (c : Client)
  /-- more than one client goes by the name -/
  | ambiguous (count : Nat) (name : String)
  | clients (cs : List Client)
  | subscription (s : Subscription)
  | info (g : Group)
  /-- the groups, how many records there are on the table, and how many listeners -/
  | groups (names : List String) (records listeners : Nat)
  | settings (s : Settings)
  | channels (wires : List (String × Wire))
  | samples (spans : List UInt64)
  | kinds (kinds : List EventKind)
  | notes (notes : List (String × Event))
  /-- a timer: its delay, its interval, and whether it is running -/
  | timer (delay interval : Nat) (running : Bool)
  | sweeps (n : Nat)
  | listeners (n : Nat)
  | rejected (j : Rejection)
  | refused (why : String)

/-- What a listener has to report. -/
inductive Heard where
  | event (event : Event)
  | did (label : String) (answer : Answer)

/-- An entry in the record of what was heard. -/
structure Recording where
  listener : String
  group : String
  heard : Heard

/-! ## The world -/

structure Role where
  name : String
  manner : Manner
  /-- how often it may still react -/
  left : Nat
  /-- its notebook, oldest first -/
  notes : List (String × Event)

def Role.new (name : String) (manner : Manner) : Role where
  name := name
  manner := manner
  left := match manner with
    | .reacts _ limit _ _ => limit
    | _ => 0
  notes := []

/-- A timer of a scenario. A timer that takes the place of another has another number. -/
structure Slot where
  name : String
  number : Nat
  timer : Timer

/-- A task of a timer. -/
structure Task where
  timer : Nat
  /-- as which of the tasks of its timer it was begun -/
  start : Nat
deriving DecidableEq, Repr

/-- What happens to a timer. -/
inductive TimerEvent where
  | made (delay interval : Nat)
  | started
  | cancelled
  | dropped
  /-- the task that was begun as number `start` sweeps -/
  | struck (start : Nat)
  /-- a sweep of its task panicked, and the task ended -/
  | broke
deriving DecidableEq, Repr

/-- An entry in the diary of the timers. -/
structure DiaryEntry where
  time : Nat
  timer : Nat
  event : TimerEvent
  /-- how long the journal of the registry was by then -/
  place : Nat
deriving DecidableEq, Repr

/-- What a scenario keeps besides its registry. -/
structure Outside where
  channels : Table String Channel
  /-- every listener there ever was, by its number -/
  cast : List Role
  recordings : List Recording
  kept : Table String Nat
  /-- the timers; one goes behind the others when it is made and when its task comes to rest -/
  slots : List Slot
  /-- the tasks that run next, in this order: those that were begun and those that woke up -/
  ready : List Task
  made : Nat
  canStart : Bool
  /-- what happened to the timers, newest first -/
  diary : List DiaryEntry
  time : Nat
  testClock : Clock
  /-- whether the registry goes by another clock than that one -/
  steady : Bool
  /-- what happens before readings in this step -/
  scripts : List Script
  /-- how often the clock was read in this step -/
  readings : Nat
  playing : Bool

/-- A registry within a scenario. -/
abbrev World := Registry Outside

namespace World

def around (w : World) (f : Outside → Outside) : World := { w with outside := f w.outside }

def record (w : World) (recording : Recording) : World :=
  w.around (fun o => { o with recordings := recording :: o.recordings })

/-! ## Channels and clients -/

/-- The key of a channel that is named by number alone. -/
def keyOf (id : UInt64) : String := "#" ++ toString id.toNat

/-- The channel of a reference. One that is named by number is made when it is first named. -/
def channelOf (w : World) : ChannelRef → World × Channel
  | .key key => (w, (w.outside.channels.find? key).getD ⟨key, 0, localAddress 0, .succeeds⟩)
  | .id id => match w.outside.channels.find? (keyOf id) with
    | some c => (w, c)
    | none =>
      let c : Channel := ⟨keyOf id, id, localAddress id, .succeeds⟩
      (w.around (fun o => { o with channels := o.channels.insert c.key c }), c)

def clientOf (w : World) (spec : ClientSpec) : World × Client :=
  let (w, c) := w.channelOf spec.channel
  (w, Client.new c spec.name spec.language spec.version)

def clientsOf (w : World) : List ClientSpec → World × List Client
  | [] => (w, [])
  | spec :: rest =>
    let (w, c) := w.clientOf spec
    let (w, cs) := clientsOf w rest
    (w, c :: cs)

def eventOf (w : World) : EventSpec → World × Event
  | .clientJoined spec topics =>
    let (w, c) := w.clientOf spec
    (w, .clientJoined c (SortedSet.ofList topics))
  | .clientLeft spec topics =>
    let (w, c) := w.clientOf spec
    (w, .clientLeft c (SortedSet.ofList topics))
  | .declared subscriptions => (w, .declared subscriptions)
  | .dissolved => (w, .dissolved)
  | .changed specs =>
    let (w, cs) := w.clientsOf specs
    (w, .changed cs)

def registrationOf (w : World) (spec : RegistrationSpec) : World × Registration :=
  let (w, c) := w.clientOf spec.client
  (w, { group := spec.group
        client := c
        policy := spec.policy
        subscriptions := spec.subscriptions
        announce := spec.announce.getD w.settings.announceChanges
        declares := spec.declares })

def wireList (w : World) : List (String × Wire) :=
  w.outside.channels.values.map (fun c => (c.key, w.wire c))

/-- The clients of an answer in the order of their channels. -/
def byChannel (cs : List Client) : List Client :=
  cs.mergeSort (fun a b => a.channel.id ≤ b.channel.id)

/-- The answer about the clients that go by a name. -/
def clientAnswer (name : String) : List Client → Answer
  | [] => .nothing
  | [c] => .client c
  | cs => .ambiguous cs.length name

/-! ## Listeners -/

def setRole (w : World) (l : Nat) (role : Role) : World :=
  w.around (fun o => { o with cast := o.cast.set l role })

def addRole (w : World) (name : String) (manner : Manner) : World :=
  let w : World := w.addListener w.outside.cast.length
  w.around (fun o => { o with cast := o.cast ++ [Role.new name manner] })

/-- Whether a listener is of this name and keeps a notebook. -/
def Role.keepsNotes (name : String) (role : Role) : Bool :=
  match role.manner with
  | .notes => role.name == name
  | _ => false

/-- Reads the notebook of the last listener of a name that keeps one. -/
def look (w : World) (name : String) (look : Look) : World × Answer :=
  match w.outside.cast.reverse.find? (Role.keepsNotes name) with
  | none => (w, .nothing)
  | some role => match look with
    | .kinds group =>
      (w, .kinds ((role.notes.filter (fun n => n.1 == group)).map (fun n => n.2.kind)))
    | .count kind => (w, .number (role.notes.filter (fun n => n.2.kind = kind)).length)
    | .all => (w, .notes role.notes)
    | .clear =>
      let emptied := w.outside.cast.map fun role =>
        if Role.keepsNotes name role then { role with notes := [] } else role
      (w.around (fun o => { o with cast := emptied }), .nothing)

/-! ## Kept records -/

def keep (w : World) (handle : String) (i : Nat) : World :=
  w.around (fun o => { o with kept := o.kept.insert handle i })

/-- Keeps every record on the table, each under the handle with the name of its group. -/
def keepAll (w : World) (handle : String) : World :=
  w.table.entries.foldl (fun w e => w.keep (handle ++ "/" ++ e.1) e.2) w

def keepsCurrent (w : World) (handle : String) : Bool :=
  match w.outside.kept.find? handle with
  | none => false
  | some i => (w.record? i).any (fun g => w.isCurrent g.name i)

/-! ## Time -/

/-- Puts the clock of the steps to a time, and the clock of the registry unless it goes by another
one. -/
def setClock (w : World) (c : Clock) : World :=
  let w := w.around (fun o => { o with testClock := c })
  if w.outside.steady then w else { w with clock := c }

/-! ## Timers -/

/-- Notes in the diary what happens to a timer now. -/
def jot (w : World) (timer : Nat) (event : TimerEvent) : World :=
  w.around (fun o => { o with diary := ⟨o.time, timer, event, w.journal.length⟩ :: o.diary })

def slot? (w : World) (name : String) : Option Slot := w.outside.slots.find? (·.name == name)

def withSlots (w : World) (f : List Slot → List Slot) : World :=
  w.around (fun o => { o with slots := f o.slots })

def setTimer (w : World) (number : Nat) (f : Timer → Timer) : World :=
  w.withSlots fun slots =>
    slots.map (fun s => if s.number = number then { s with timer := f s.timer } else s)

/-- Takes the timer of a name away, if there is one; its task ends with it. -/
def dropTimer (w : World) (name : String) : World :=
  match w.slot? name with
  | none => w
  | some slot =>
    let w : World := w.logAll slot.timer.cancelLines
    (w.withSlots (fun slots => slots.filter (·.number != slot.number))).jot slot.number .dropped

/-- The delay and the interval of a timer; without any the settings decide. -/
def timesFor (settings : Settings) (delay interval : Option Nat) : Nat × Nat :=
  match delay, interval with
  | none, none => (settings.sweepDelay.toNat, settings.sweepInterval.toNat)
  | delay, interval => (delay.getD 0, interval.getD 0)

/-- Puts a new timer behind the others. -/
def addTimer (w : World) (name : String) (delay interval : Nat) : World :=
  (w.jot w.outside.made (.made delay interval)).around fun o =>
    { o with slots := o.slots ++ [⟨name, o.made, Timer.new delay interval⟩], made := o.made + 1 }

def makeTimer (w : World) (name : String) (delay interval : Nat) : World :=
  (w.dropTimer name).addTimer name delay interval

/-- Begins the task of a timer that has none. It does not run before time passes. -/
def beginTask (w : World) (slot : Slot) : World :=
  let t := slot.timer.start w.outside.time
  (w.setTimer slot.number (fun _ => t)).around fun o =>
    { o with ready := o.ready ++ [⟨slot.number, t.starts⟩] }

/-- Starts a timer. Where timers cannot be started this panics, after the line in the log. -/
def startTimer (w : World) (slot : Slot) : World × Returned Answer :=
  let w : World := w.logAll [slot.timer.startLine]
  if slot.timer.isRunning then (w.jot slot.number .started, .ok (.truth true))
  else if w.outside.canStart then
    ((w.beginTask slot).jot slot.number .started, .ok (.truth true))
  else (w, .error .noRuntime)

def onTimer (w : World) (name : String) : TimerOp → World × Returned Answer
  | .new delay interval =>
    let times := timesFor w.settings delay interval
    let t := Timer.new times.1 times.2
    (w.makeTimer name times.1 times.2, .ok (.timer t.delay t.interval t.isRunning))
  | .drop => (w.dropTimer name, .ok (.truth (w.slot? name).isSome))
  | .start => match w.slot? name with
    | none => (w, .ok .nothing)
    | some slot => w.startTimer slot
  | .cancel => match w.slot? name with
    | none => (w, .ok .nothing)
    | some slot =>
      let w : World := w.logAll slot.timer.cancelLines
      ((w.setTimer slot.number Timer.cancel).jot slot.number .cancelled, .ok (.truth false))
  | .isRunning => match w.slot? name with
    | none => (w, .ok .nothing)
    | some slot => (w, .ok (.truth slot.timer.isRunning))

/-! ## Tasks -/

/-- The timer that has a task. There is none when the task has ended: its timer was cancelled, taken
away or broken off. -/
def holder? (w : World) (task : Task) : Option Slot :=
  w.outside.slots.find? (fun s => s.number == task.timer && s.timer.runs task.start)

/-- A task comes to rest until `due`, unless it has ended. -/
def rest (w : World) (task : Task) (due : Nat) : World :=
  match w.holder? task with
  | none => w
  | some slot => w.withSlots fun slots =>
    slots.filter (fun s => s.number != slot.number) ++
      [{ slot with timer := slot.timer.waitUntil due }]

/-- A task breaks off, unless it has ended. -/
def breakOff (w : World) (task : Task) : World :=
  match w.holder? task with
  | none => w
  | some slot => (w.setTimer slot.number Timer.breakOff).jot slot.number .broke

/-- When the first of the timers strikes. -/
def nextDue? (slots : List Slot) : Option Nat := (slots.filterMap (·.timer.due?)).min?

/-- The tasks that are due up to `now`, the earliest first; of those that are due at one time, the
one that has rested for longer. -/
def dueTasks (now : Nat) (slots : List Slot) : List Task :=
  let due := slots.filterMap fun s =>
    (s.timer.due?.filter (· ≤ now)).map (fun t => (t, Task.mk s.number s.timer.starts))
  (due.mergeSort (fun a b => a.1 ≤ b.1)).map (·.2)

/-- The time comes to be `now`, and the tasks that are due wake up. -/
def wake (w : World) (now : Nat) : World :=
  w.around fun o => { o with time := now, ready := o.ready ++ dueTasks now o.slots }

end World

end ConsumerGroups.Scenario
