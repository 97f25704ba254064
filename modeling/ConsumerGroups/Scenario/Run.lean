-- A scenario from beginning to end: how its world is set up, and what each step reports.
import ConsumerGroups.Scenario.Perform

set_option autoImplicit false

namespace ConsumerGroups.Scenario

/-! ## Setting up -/

/-- How the world of a scenario begins. -/
structure Setup where
  settings : Settings
  time : UInt64
  /-- whether the registry goes by another clock than that one, which shows the present time -/
  steady : Bool
  measured : Bool
  canStart : Bool
  channels : List Channel
  listeners : List (String × Manner)

def Setup.world (s : Setup) : World :=
  Registry.new s.settings (List.range s.listeners.length)
    ⟨if s.steady then presentTime else s.time⟩ s.measured
    { channels := Table.ofList (s.channels.map (fun c => (c.key, c)))
      cast := s.listeners.map (fun l => Role.new l.1 l.2)
      recordings := []
      kept := Table.empty
      slots := []
      ready := []
      made := 0
      canStart := s.canStart
      diary := []
      time := 0
      testClock := ⟨s.time⟩
      steady := s.steady
      scripts := []
      readings := 0
      playing := false }

/-- The world with one more group, whose record is kept under a handle. -/
def withGroup (w : World) (handle name : String) (policy : Policy) : World :=
  World.keep (w.addRecord (Group.new name policy)) handle w.records.length

/-! ## Reports -/

structure Report where
  answer : Returned Answer
  heard : List Recording
  /-- the lines of the log, sorted -/
  log : List LogLine
  after : World

/-- The lines of the log among entries of a journal. -/
def linesOf (entries : List Entry) : List LogLine :=
  entries.filterMap fun
    | .logged line => some line
    | _ => none

/-- The number of the channel that counts when recordings are sorted: that of a client that is gone,
else zero. -/
def Recording.place (r : Recording) : UInt64 :=
  match r.heard with
  | .event (.clientLeft c _) => c.channel.id
  | _ => 0

/-- Whether a recording does not stand behind another when they are sorted by group. -/
def Recording.byGroup (a b : Recording) : Bool := a.group ≤ b.group

/-- Whether a recording does not stand behind another when they are sorted by group and channel. -/
def Recording.byGroupAndPlace (a b : Recording) : Bool :=
  a.group < b.group || (a.group == b.group && a.place ≤ b.place)

/-- Recordings in the order in which a report shows them. The order in which tables are walked does
not matter to it. -/
def arrange (op : Op) (recordings : List Recording) : List Recording :=
  match op with
  | .channelClosed .. => recordings.mergeSort Recording.byGroup
  | .sweep => recordings.mergeSort Recording.byGroupAndPlace
  | .sleep _ => recordings.mergeSort Recording.byGroupAndPlace
  | .jump _ => recordings.mergeSort Recording.byGroupAndPlace
  | _ => recordings

/-- What is new at the front of a list that had `before` members. -/
def newest {α : Type} (before : Nat) (l : List α) : List α := l.take (l.length - before)

def runStep (depth : Nat) (w : World) (s : Step) : World × Report :=
  let start := World.around w fun o =>
    { o with scripts := s.scripts, readings := 0, playing := false }
  let (after, answer) := perform depth s.op start
  let heard := (newest w.outside.recordings.length after.outside.recordings).reverse
  (after,
    { answer := answer
      heard := if s.raw then heard else arrange s.op heard
      log := (linesOf (newest w.journal.length after.journal)).mergeSort LogLine.before
      after := after })

def runSteps (depth : Nat) : World → List Step → World × List Report
  | w, [] => (w, [])
  | w, s :: rest =>
    let (w, report) := runStep depth w s
    let (w, reports) := runSteps depth w rest
    (w, report :: reports)

/-- A depth that no scenario with these listeners and steps reaches: every level below the first
uses up one of the reactions of a listener, and `weight` counts those. -/
def depthFor (cast : List Role) (steps : List Step) : Nat :=
  cast.foldl (fun n role => n + role.manner.weight) (Step.totalWeight steps + 2)

def run (w : World) (steps : List Step) : World × List Report :=
  runSteps (depthFor w.outside.cast steps) w steps

end ConsumerGroups.Scenario
