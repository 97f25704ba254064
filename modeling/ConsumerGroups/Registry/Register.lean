-- Registration. A client joins its group or is heard of again. The record that it went into may be
-- taken off the table before the clock is read; then the registration tries again.
import ConsumerGroups.Registry.Surroundings

set_option autoImplicit false

namespace ConsumerGroups

structure Registration where
  group : String
  client : Client
  policy : Policy
  subscriptions : List Subscription
  /-- whether listeners hear of a change -/
  announce : Bool
  /-- whether the subscriptions take the place of those of the group -/
  declares : Bool
deriving DecidableEq

namespace Registration

def topics (q : Registration) : SortedSet String := SortedSet.ofList (q.subscriptions.map (·.topic))

end Registration

/-- Why a registration is turned down: the name of the group has a flaw. -/
structure Rejection where
  flaw : Flaw
deriving DecidableEq, Repr

/-- The message with a reason for which the name of a group is no good. -/
def rejectionMessage (reason : String) : String := s!"invalid consumer group name: {reason}"

def Rejection.message (j : Rejection) : String := rejectionMessage (j.flaw.message "group")

namespace Registry

variable {Ω : Type}

/-- The record of a group. When there is none the listeners are told that the client joins, and then
a new record is put on the table, unless one is there by then. -/
def findOrFound (env : Surroundings Ω) (q : Registration) (r : Registry Ω) : Registry Ω × Nat :=
  match r.current? q.group with
  | some i => (r, i)
  | none =>
    let r := (r.send env q.group (.clientJoined q.client q.topics)).1
    match r.current? q.group with
    | some i => (r, i)
    | none => (r.addRecord (Group.new q.group q.policy), r.records.length)

/-- A group after a registration at `now`, and whether anything but times is different. -/
def revised (q : Registration) (now : UInt64) (g : Group) : Revision :=
  let heard := g.hear q.client q.policy now
  if q.declares then
    let declared := heard.group.declare q.subscriptions now
    ⟨declared.group, heard.changed || declared.changed, heard.log ++ declared.log⟩
  else heard

def update (q : Registration) (i : Nat) (now : UInt64) (r : Registry Ω) : Registry Ω × Bool :=
  match r.record? i with
  | none => (r, false)
  | some g =>
    let revision := revised q now g
    ((r.setRecord i revision.group).logAll revision.log, revision.changed)

/-- One attempt: finds or founds the record, reads the clock, and updates the record. -/
def attempt (env : Surroundings Ω) (q : Registration) (r : Registry Ω) :
    Registry Ω × Returned (Nat × Bool) :=
  let (r, i) := r.findOrFound env q
  andThen (r.readClock env) fun r now =>
    let (r, changed) := r.update q i now
    (r, .ok (i, changed))

/-- Puts it into the log that an attempt came to nothing. -/
def retried (q : Registration) (r : Registry Ω) : Registry Ω :=
  r.log .debug s!"Consumer group '{q.group}' was removed concurrently, retrying"

/-- Attempts until the record is still on the table after its update. An attempt fails only when
something happened before its reading, so `spare` such happenings allow `spare` more attempts. -/
def settle (env : Surroundings Ω) (q : Registration) :
    Nat → Registry Ω → Registry Ω × Returned (Nat × Bool)
  | 0, r => r.attempt env q
  | spare + 1, r =>
    andThen (r.attempt env q) fun r (i, changed) =>
      if r.isCurrent q.group i then (r, .ok (i, changed)) else settle env q spare (r.retried q)

/-- Keeps a sample of how long a registration took, if that is measured. -/
def sample (env : Surroundings Ω) (start : UInt64) (r : Registry Ω) :
    Registry Ω × Returned Unit :=
  match r.samples with
  | none => (r, .ok ())
  | some _ =>
    andThen (r.readClock env) fun r now =>
      ({ r with samples := r.samples.map (· ++ [elapsed now start]) }, .ok ())

/-- Puts a registration into the record of its group. The result tells when this began, which record
it is, and whether the clients, the policy or the subscriptions of the group changed. -/
def place (env : Surroundings Ω) (q : Registration) (r : Registry Ω) :
    Registry Ω × Returned (UInt64 × Nat × Bool) :=
  andThen (r.readClock env) fun r start =>
    andThen (r.settle env q (env.interruptions r.outside)) fun r (i, changed) =>
      (r, .ok (start, i, changed))

/-- Tells the listeners of a registration that is in its record. -/
def proclaim (env : Surroundings Ω) (q : Registration) (start : UInt64) (i : Nat) (changed : Bool)
    (r : Registry Ω) : Registry Ω × Returned Bool :=
  let r := if changed && q.announce then r.sendChanged env q.group i else r
  andThen (r.sample env start) fun r _ =>
    ((r.send env q.group (.declared q.subscriptions)).1, .ok changed)

/-- A registration whose group name has passed the check. The result tells whether the clients, the
policy or the subscriptions of the group changed. -/
def registerChecked (env : Surroundings Ω) (q : Registration) (r : Registry Ω) :
    Registry Ω × Returned Bool :=
  andThen (r.place env q) fun r (start, i, changed) => r.proclaim env q start i changed

def tryRegister (env : Surroundings Ω) (q : Registration) (r : Registry Ω) :
    Registry Ω × Returned (Except Rejection Bool) :=
  match checkName q.group with
  | .error flaw => (r, .ok (.error ⟨flaw⟩))
  | .ok () =>
    let r := r.note (.began (.register q.group q.client.channel.id))
    let (r, changed) := r.registerChecked env q
    (r.note .ended, changed.map .ok)

/-- Registers a client. A name with a flaw is logged, and nothing changes. -/
def register (env : Surroundings Ω) (q : Registration) (r : Registry Ω) :
    Registry Ω × Returned Bool :=
  andThen (r.tryRegister env q) fun r result =>
    match result with
    | .ok changed => (r, .ok changed)
    | .error j => (r.log .warn s!"Ignoring consumer registration: {j.message}", .ok false)

def registerAll (env : Surroundings Ω) (q : Registration) (r : Registry Ω) :
    Registry Ω × Returned Bool :=
  r.register env { q with declares := true }

/-! ## Where a registration goes -/

theorem findOrFound_of_current {q : Registration} {r : Registry Ω} {i : Nat}
    (hi : r.current? q.group = some i) (env : Surroundings Ω) : r.findOrFound env q = (r, i) := by
  unfold findOrFound
  rw [hi]

theorem current?_findOrFound (env : Surroundings Ω) (q : Registration) (r : Registry Ω) :
    (r.findOrFound env q).1.current? q.group = some (r.findOrFound env q).2 := by
  unfold findOrFound
  split
  · assumption
  · dsimp only
    split
    · assumption
    · exact current?_addRecord_self _ (Group.new q.group q.policy)

/-- When the name of a group is not good, this is said in the log; else it is all the same whether
the caller wants to know. -/
theorem fst_register (env : Surroundings Ω) (q : Registration) (r : Registry Ω) :
    ∃ lines, (r.register env q).1 = (r.tryRegister env q).1.logAll lines := by
  unfold register
  rcases r.tryRegister env q with ⟨s, (panic | (j | changed))⟩
  · exact ⟨[], rfl⟩
  · exact ⟨_, rfl⟩
  · exact ⟨[], rfl⟩

/-! ## A name with a flaw changes nothing -/

theorem tryRegister_of_flaw (env : Surroundings Ω) (q : Registration) (r : Registry Ω) {flaw : Flaw}
    (h : checkName q.group = .error flaw) : r.tryRegister env q = (r, .ok (.error ⟨flaw⟩)) := by
  simp [tryRegister, h]

/-- With any other name the call is noted, and then it is carried out. -/
theorem tryRegister_of_name (env : Surroundings Ω) {q : Registration} (hname : IsName q.group)
    (r : Registry Ω) : r.tryRegister env q =
      let done := (r.note (.began (.register q.group q.client.channel.id))).registerChecked env q
      (done.1.note .ended, done.2.map .ok) := by
  rw [tryRegister, checkName_eq_ok_iff.mpr hname]

end Registry

end ConsumerGroups
