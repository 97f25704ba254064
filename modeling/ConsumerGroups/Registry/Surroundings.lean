-- What surrounds a registry. Whenever the registry reads its clock or calls a listener, others may
-- act, also on the registry itself, before it goes on. And the tables of a registry are walked in
-- an order that only the surroundings know.
import ConsumerGroups.Registry.Basic

set_option autoImplicit false

namespace ConsumerGroups

inductive Outcome where
  | handled
  | failed (why : String)
  /-- a panic, with its text if it has one -/
  | panicked (why : Option String)
deriving DecidableEq, Repr

def Outcome.isHandled : Outcome → Bool
  | .handled => true
  | _ => false

/-- An order in which tables are walked. It may depend on the keys, and that of the channels also on
the group that they are in; it loses or doubles none. -/
structure Walk where
  records : List Nat → List Nat
  channels : String → List UInt64 → List UInt64
  records_perm : ∀ l, (records l).Perm l
  channels_perm : ∀ group l, (channels group l).Perm l

def Walk.ascending : Walk where
  records := id
  channels := fun _ => id
  records_perm := fun l => List.Perm.refl l
  channels_perm := fun _ l => List.Perm.refl l

instance : Inhabited Walk := ⟨Walk.ascending⟩

/-- The surroundings of a registry. -/
structure Surroundings (Ω : Type) where
  /-- what happens just before the clock is read; if it panics the clock is not read -/
  beforeReading : Registry Ω → Registry Ω × Returned Unit
  /-- what a listener does with an event of a group -/
  listener : Nat → String → Event → Registry Ω → Registry Ω × Outcome
  /-- how often something may still happen before a reading -/
  interruptions : Ω → Nat
  walk : Walk

namespace Registry

variable {Ω : Type}

def readClock (env : Surroundings Ω) (r : Registry Ω) : Registry Ω × Returned UInt64 :=
  andThen (env.beforeReading r) fun r _ => (r, .ok r.clock.now)

theorem readClock_of_returns {env : Surroundings Ω} {r : Registry Ω}
    (h : (env.beforeReading r).2 = .ok ()) :
    r.readClock env = ((env.beforeReading r).1, .ok (env.beforeReading r).1.clock.now) := by
  rw [readClock, andThen_of_ok h]

theorem readClock_of_panics {env : Surroundings Ω} {r : Registry Ω} {panic : Panic}
    (h : (env.beforeReading r).2 = .error panic) :
    r.readClock env = ((env.beforeReading r).1, .error panic) := by
  rw [readClock, andThen_of_error h]

def clientsOf (env : Surroundings Ω) (g : Group) : List Client :=
  (env.walk.channels g.name g.clients.keys).filterMap g.clients.find?

/-! ## Events go out -/

def outcomeLines (group : String) (event : Event) : Outcome → List LogLine
  | .handled => []
  | .failed why =>
    [⟨.error, "Error when calling consumer ids change listener for " ++
      s!"{Labelled.label event.kind} of group '{group}': {why}"⟩]
  | .panicked why =>
    let why := why.getD "unknown panic"
    [⟨.error, "Consumer ids change listener panicked on " ++
      s!"{Labelled.label event.kind} of group '{group}': {why}"⟩]

/-- Calls listeners one after the other. Neither a failure nor a panic keeps the next from being
called. The result counts the listeners that did not take the event well. -/
def callAll (env : Surroundings Ω) (group : String) (event : Event) :
    List Nat → Registry Ω → Registry Ω × Nat
  | [], r => (r, 0)
  | l :: rest, r =>
    let (r, outcome) := env.listener l group event (r.note (.told l group event))
    let r := r.logAll (outcomeLines group event outcome)
    let (r, failures) := callAll env group event rest r
    (r, failures + if outcome.isHandled then 0 else 1)

/-- Sends an event to the listeners that are there now. -/
def send (env : Surroundings Ω) (group : String) (event : Event) (r : Registry Ω) :
    Registry Ω × Nat :=
  callAll env group event r.listeners (r.note (.sent group event (r.group? group)))

def addListener (r : Registry Ω) (l : Nat) : Registry Ω :=
  { r with listeners := r.listeners ++ [l] }

def sendChanged (env : Surroundings Ω) (group : String) (i : Nat) (r : Registry Ω) : Registry Ω :=
  match r.record? i with
  | some g => (r.send env group (.changed (clientsOf env g))).1
  | none => r

end Registry

end ConsumerGroups
