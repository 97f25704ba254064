-- The settings of a registry: when a silent channel expires, how often the sweep looks for such
-- channels, and whether listeners hear of changed memberships unless a caller says otherwise.
import ConsumerGroups.Check
import ConsumerGroups.Json.Decode
import ConsumerGroups.Json.Value

set_option autoImplicit false

namespace ConsumerGroups

/-- The settings of a registry, with all times in milliseconds. -/
structure Settings where
  /-- a channel that is silent for longer than this has expired -/
  expiry : UInt64
  /-- from one sweep to the next -/
  sweepInterval : UInt64
  /-- from the start of the sweeper to its first sweep -/
  sweepDelay : UInt64
  /-- whether a change of membership is announced by default -/
  announceChanges : Bool
deriving DecidableEq, Repr

namespace Settings

/-- The settings where nothing is said: two minutes, ten seconds, ten seconds, announced. -/
def standard : Settings := ⟨120000, 10000, 10000, true⟩

instance : Inhabited Settings := ⟨standard⟩

/-- Checks that both the expiry and the interval are positive; tells which is not, and why. -/
def check (s : Settings) : Except (String × Flaw) Unit :=
  match checkPositive s.expiry with
  | .error flaw => .error ("channel_expired_timeout_ms", flaw)
  | .ok () => match checkPositive s.sweepInterval with
    | .error flaw => .error ("scan_interval_ms", flaw)
    | .ok () => .ok ()

/-! ## Settings as JSON -/

structure Draft where
  expiry : Option UInt64 := none
  sweepInterval : Option UInt64 := none
  sweepDelay : Option UInt64 := none
  announceChanges : Option Bool := none

/-- The draft with the standard in place of what is not given. -/
def Draft.finish (d : Draft) : Settings where
  expiry := d.expiry.getD standard.expiry
  sweepInterval := d.sweepInterval.getD standard.sweepInterval
  sweepDelay := d.sweepDelay.getD standard.sweepDelay
  announceChanges := d.announceChanges.getD standard.announceChanges

/-- The fields of written settings. Each may be missing. -/
def fields : List (Json.Field Draft) :=
  [ { name := "channel_expired_timeout_ms", optional := true, given := (·.expiry.isSome)
      fill := fun node d => node.word64?.map (fun n => { d with expiry := some n }) },
    { name := "scan_interval_ms", optional := true, given := (·.sweepInterval.isSome)
      fill := fun node d => node.word64?.map (fun n => { d with sweepInterval := some n }) },
    { name := "scan_initial_delay_ms", optional := true, given := (·.sweepDelay.isSome)
      fill := fun node d => node.word64?.map (fun n => { d with sweepDelay := some n }) },
    { name := "notify_consumer_ids_changed_enable", optional := true
      given := (·.announceChanges.isSome)
      fill := fun node d => node.boolean?.map (fun b => { d with announceChanges := some b }) } ]

/-- Why settings cannot be read from a text. -/
inductive Unusable where
  | unreadable (p : Json.Problem)
  /-- a value does not pass its check -/
  | invalid (param : String) (flaw : Flaw)
deriving DecidableEq, Repr

def ofNode (node : Json.Node) : Json.Decoded Settings :=
  (node.record? "ConsumerManagerConfig" fields {}).map Draft.finish

/-- The settings that a text holds, if they pass the check. -/
def ofText (text : String) : Except Unusable Settings :=
  match Json.decodeText ofNode text with
  | .error p => .error (.unreadable p)
  | .ok s => match s.check with
    | .error (param, flaw) => .error (.invalid param flaw)
    | .ok () => .ok s

def toJson (s : Settings) : Json.Value :=
  .object
    [ ("channel_expired_timeout_ms", .integer s.expiry.toNat),
      ("scan_interval_ms", .integer s.sweepInterval.toNat),
      ("scan_initial_delay_ms", .integer s.sweepDelay.toNat),
      ("notify_consumer_ids_changed_enable", .boolean s.announceChanges) ]

def toText (s : Settings) : String := s.toJson.render

end Settings

end ConsumerGroups
