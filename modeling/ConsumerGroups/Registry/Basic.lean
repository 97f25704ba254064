-- The registry of consumer groups: its state, its journal, and the lookups. A record is a number,
-- so a record that was taken off the table is still the same record, and a group that is founded
-- again has another one.
import ConsumerGroups.Group
import ConsumerGroups.Settings

set_option autoImplicit false

namespace ConsumerGroups

inductive Call where
  | register (group : String) (channel : UInt64)
  | leave (group : String) (channel : UInt64)
  | channelClosed (channel : UInt64)
  | sweep
deriving DecidableEq, Repr

/-- An entry of the journal. -/
inductive Entry where
  | began (call : Call)
  /-- the innermost call that began has ended -/
  | ended
  /-- an event is sent out while the group has this record on the table, if any -/
  | sent (group : String) (event : Event) (onTable : Option Group)
  | told (listener : Nat) (group : String) (event : Event)
  | mapped (group : String) (record : Nat)
  /-- a record is taken off the table, by this kind of call -/
  | unmapped (group : String) (record : Nat) (last : Group) (call : Call)
  | removed (group : String) (record : Nat) (client : Client)
  | logged (line : LogLine)
deriving DecidableEq

/-- The state of a registry. `Ω` is what its surroundings keep for themselves. -/
structure Registry (Ω : Type) where
  settings : Settings
  /-- every record there ever was, by its number -/
  records : List Group
  /-- the table: which record a group has -/
  table : Table String Nat
  /-- the listeners, in the order in which they came -/
  listeners : List Nat
  clock : Clock
  /-- how long registrations took, if that is measured -/
  samples : Option (List UInt64)
  /-- the wires that were told to close, by their keys -/
  wires : Table String Wire
  /-- what happened, newest first -/
  journal : List Entry
  outside : Ω

namespace Registry

variable {Ω : Type}

def new (settings : Settings) (listeners : List Nat) (clock : Clock) (measured : Bool)
    (outside : Ω) : Registry Ω where
  settings := settings
  records := []
  table := Table.empty
  listeners := listeners
  clock := clock
  samples := if measured then some [] else none
  wires := Table.empty
  journal := []
  outside := outside

/-! ## The journal -/

def note (r : Registry Ω) (e : Entry) : Registry Ω := { r with journal := e :: r.journal }

/-- The registry with more lines in its log, given oldest first. -/
def logAll (r : Registry Ω) (lines : List LogLine) : Registry Ω :=
  { r with journal := (lines.map .logged).reverse ++ r.journal }

def log (r : Registry Ω) (level : Level) (text : String) : Registry Ω := r.logAll [⟨level, text⟩]

/-! ## Records -/

def record? (r : Registry Ω) (i : Nat) : Option Group := r.records[i]?

/-- The number of the record that a group has on the table. -/
def current? (r : Registry Ω) (group : String) : Option Nat := r.table.find? group

def group? (r : Registry Ω) (group : String) : Option Group :=
  (r.current? group).bind r.record?

/-- Whether a record is the one that a group has on the table. -/
def isCurrent (r : Registry Ω) (group : String) (i : Nat) : Bool := r.current? group == some i

def setRecord (r : Registry Ω) (i : Nat) (g : Group) : Registry Ω :=
  { r with records := r.records.set i g }

/-- Takes clients out of a record. What is left of the record is given along with them. -/
def takeFrom (r : Registry Ω) (i : Nat) (left : Group) (gone : List Client) : Registry Ω :=
  { r with
    records := r.records.set i left
    journal := (gone.map (.removed left.name i)).reverse ++ r.journal }

def addRecord (r : Registry Ω) (g : Group) : Registry Ω :=
  { r with
    records := r.records ++ [g]
    table := r.table.insert g.name r.records.length
    journal := .mapped g.name r.records.length :: r.journal }

def removeRecord (r : Registry Ω) (group : String) (i : Nat) (last : Group) (call : Call) :
    Registry Ω :=
  { r with
    table := r.table.erase group
    journal := .unmapped group i last call :: r.journal }

/-! ## Lookups -/

def groupNames (r : Registry Ω) : List String := r.table.keys

/-- The records on the table, by ascending names of their groups. -/
def groups (r : Registry Ω) : List Group := r.table.values.filterMap r.record?

def clientsNamed (r : Registry Ω) (group name : String) : List Client :=
  match r.group? group with
  | some g => g.clientsNamed name
  | none => []

def clientOn? (r : Registry Ω) (group : String) (id : UInt64) : Option Client :=
  (r.group? group).bind (fun g => g.clients.find? id)

def subscription? (r : Registry Ω) (group topic : String) : Option Subscription :=
  (r.group? group).bind (fun g => g.subscriptions.find? topic)

def subscriptionCount (r : Registry Ω) (group : String) : Nat :=
  match r.group? group with
  | some g => g.subscriptions.size
  | none => 0

/-- The groups that want messages of a topic, ascending. -/
def wanting (r : Registry Ω) (topic : String) : List String :=
  r.groupNames.filter (fun name => (r.group? name).any (fun g => g.wants topic))

/-! ## Wires -/

def wire (r : Registry Ω) (c : Channel) : Wire := (r.wires.find? c.key).getD default

def setWire (r : Registry Ω) (c : Channel) (w : Wire) : Registry Ω :=
  { r with wires := r.wires.insert c.key w }

def closeQuietly (r : Registry Ω) (c : Channel) : Registry Ω × Returned Unit :=
  match (r.wire c).closeQuietly c with
  | (w, .ok line) => ((r.setWire c w).logAll [line], .ok ())
  | (w, .error panic) => (r.setWire c w, .error panic)

theorem closeQuietly_returns (r : Registry Ω) {c : Channel} (h : c.closing ≠ .panics) :
    (r.closeQuietly c).2 = .ok () := by
  obtain ⟨line, hline⟩ := (r.wire c).closeQuietly_returns h
  unfold closeQuietly
  split
  · rfl
  · rename_i w panic heq
    rw [heq] at hline
    cases hline

/-! ## What lookups see -/

theorem record?_setRecord_self (r : Registry Ω) {i : Nat} {g : Group} (h : r.record? i = some g)
    (g' : Group) : (r.setRecord i g').record? i = some g' := by
  have hi : i < r.records.length := (List.getElem?_eq_some_iff.mp h).1
  rw [record?, setRecord, List.getElem?_set_self hi]

theorem record?_setRecord_of_ne (r : Registry Ω) {i j : Nat} (h : j ≠ i) (g : Group) :
    (r.setRecord i g).record? j = r.record? j := by
  rw [record?, setRecord, List.getElem?_set_ne (Ne.symm h), record?]

/-- After one record was put in the place of another, the others are the same. -/
theorem record?_of_setRecord {r : Registry Ω} {i j : Nat} {g g' left : Group}
    (hg : r.record? i = some g)
    (hg' : (r.setRecord i left).record? j = some g') :
    (j = i ∧ g' = left) ∨ (j ≠ i ∧ r.record? j = some g') := by
  by_cases hji : j = i
  · subst hji
    rw [record?_setRecord_self r hg, Option.some.injEq] at hg'
    exact .inl ⟨rfl, hg'.symm⟩
  · rw [record?_setRecord_of_ne r hji] at hg'
    exact .inr ⟨hji, hg'⟩

/-- What is left of a record is seen as if it was just put in its place. -/
theorem record?_takeFrom (r : Registry Ω) (i j : Nat) (left : Group) (gone : List Client) :
    (r.takeFrom i left gone).record? j = (r.setRecord i left).record? j := rfl

theorem record?_addRecord_of_some (r : Registry Ω) {i : Nat} {g : Group} (h : r.record? i = some g)
    (g' : Group) : (r.addRecord g').record? i = some g := by
  have hi : i < r.records.length := (List.getElem?_eq_some_iff.mp h).1
  rw [record?, addRecord, List.getElem?_append_left hi]
  exact h

theorem record?_addRecord_new (r : Registry Ω) (g : Group) :
    (r.addRecord g).record? r.records.length = some g := by
  simp [record?, addRecord]

/-- A record that is there after one was added was there before, or is the new one. -/
theorem record?_of_addRecord {r : Registry Ω} {i : Nat} {g g' : Group}
    (h : (r.addRecord g').record? i = some g) :
    r.record? i = some g ∨ (i = r.records.length ∧ g = g') := by
  rcases Nat.lt_trichotomy i r.records.length with hi | rfl | hi
  · rw [record?, addRecord, List.getElem?_append_left hi] at h
    exact .inl h
  · rw [record?_addRecord_new, Option.some.injEq] at h
    exact .inr ⟨rfl, h.symm⟩
  · rw [record?, addRecord, List.getElem?_eq_none (by simp; omega)] at h
    cases h

theorem current?_addRecord_self (r : Registry Ω) (g : Group) :
    (r.addRecord g).current? g.name = some r.records.length := by
  rw [current?, addRecord, Table.find?_insert_self]

theorem current?_addRecord_of_ne (r : Registry Ω) {group : String} {g : Group}
    (h : group ≠ g.name) : (r.addRecord g).current? group = r.current? group := by
  rw [current?, addRecord, Table.find?_insert_of_ne _ _ h, current?]

theorem current?_removeRecord_of_ne (r : Registry Ω) {group group' : String} (h : group' ≠ group)
    (i : Nat) (last : Group) (call : Call) :
    (r.removeRecord group i last call).current? group' = r.current? group' := by
  rw [current?, removeRecord, Table.find?_erase_of_ne _ h, current?]

theorem isCurrent_iff (r : Registry Ω) (group : String) (i : Nat) :
    r.isCurrent group i = true ↔ r.current? group = some i := by
  rw [isCurrent, beq_iff_eq]

theorem current?_removeRecord (r : Registry Ω) (group : String) (i : Nat) (last : Group)
    (call : Call) : (r.removeRecord group i last call).current? group = none := by
  simp [current?, removeRecord, Table.find?_erase_self]

end Registry

end ConsumerGroups
