-- Clients leave a group, or their channel closes. A group whose last client is gone is taken off
-- the table and its listeners hear that it is dissolved; otherwise they hear who is left.
import ConsumerGroups.Registry.Surroundings

set_option autoImplicit false

namespace ConsumerGroups.Registry

variable {Ω : Type}

def isVacant (r : Registry Ω) (i : Nat) : Bool := (r.record? i).all (·.isEmpty)

/-- Takes a record off the table if it is on it and has no clients. The result tells whether. -/
def removeIfVacant (group : String) (i : Nat) (call : Call) (r : Registry Ω) :
    Registry Ω × Bool :=
  match r.record? i with
  | none => (r, false)
  | some g =>
    if r.isCurrent group i && g.isEmpty then (r.removeRecord group i g call, true) else (r, false)

theorem removeIfVacant_eq {r : Registry Ω} {i : Nat} {g : Group} (h : r.record? i = some g)
    (group : String) (call : Call) :
    r.removeIfVacant group i call =
      if r.current? group = some i ∧ g.isEmpty = true then (r.removeRecord group i g call, true)
      else (r, false) := by
  unfold removeIfVacant
  rw [h]
  simp only [Bool.and_eq_true, isCurrent_iff]

def isLive (r : Registry Ω) (group : String) (i : Nat) : Bool :=
  !r.isVacant i && r.isCurrent group i

/-- What is logged when the last client of a group is gone. -/
def dissolvedText (group : String) : String :=
  s!"Unregister consumer ok, no any connection, and remove consumer group, {group}"

/-- Dissolves the group if its record is vacant; otherwise tells the listeners who is left, if that
is wanted and the record is live. -/
def settleDeparture (env : Surroundings Ω) (group : String) (i : Nat) (announce : Bool)
    (call : Call) (r : Registry Ω) : Registry Ω :=
  match r.removeIfVacant group i call with
  | (r, true) => ((r.log .info (dissolvedText group)).send env group .dissolved).1
  | (r, false) => if announce && r.isLive group i then r.sendChanged env group i else r

/-- Either the record was empty and on the table, and is taken off it, or the table stays. -/
theorem settleDeparture_cases (env : Surroundings Ω) (group : String) (i : Nat) (announce : Bool)
    (call : Call) (r : Registry Ω) :
    (∃ g, r.current? group = some i ∧ r.record? i = some g ∧ g.isEmpty = true ∧
      r.settleDeparture env group i announce call =
        (((r.removeRecord group i g call).log .info (dissolvedText group)).send env group
          .dissolved).1) ∨
    r.settleDeparture env group i announce call =
      if announce && r.isLive group i then r.sendChanged env group i else r := by
  unfold settleDeparture
  cases hg : r.record? i with
  | none =>
    have hnone : r.removeIfVacant group i call = (r, false) := by rw [removeIfVacant, hg]
    rw [hnone]
    exact .inr rfl
  | some g =>
    rw [removeIfVacant_eq hg]
    by_cases hempty : r.current? group = some i ∧ g.isEmpty = true
    · rw [if_pos hempty]
      exact .inl ⟨g, hempty.1, rfl, hempty.2, rfl⟩
    · rw [if_neg hempty]
      exact .inr rfl

def sendLeft (env : Surroundings Ω) (group : String) (i : Nat) (client : Client) (r : Registry Ω) :
    Registry Ω :=
  match r.record? i with
  | some g => (r.send env group (.clientLeft client g.topics)).1
  | none => r

/-! ## On request -/

/-- Takes the client on a channel out of a record, and tells the listeners of the client that asked
for it. -/
def takeOut (env : Surroundings Ω) (group : String) (i : Nat) (client : Client) (r : Registry Ω) :
    Registry Ω :=
  match r.record? i with
  | none => r
  | some g => match g.clients.find? client.channel.id with
    | none => r
    | some stored =>
      let r := (r.takeFrom i (g.without client.channel.id) [stored]).logAll [g.leftLine stored]
      r.sendLeft env group i client

def leave (env : Surroundings Ω) (group : String) (client : Client) (announce : Bool)
    (r : Registry Ω) : Registry Ω :=
  match r.current? group with
  | none => r
  | some i =>
    let call := Call.leave group client.channel.id
    let r := (r.note (.began call)).takeOut env group i client
    (r.settleDeparture env group i announce call).note .ended

/-! ## When a channel closes -/

/-- Takes the client on a closed channel out of a record. -/
def closeIn (env : Surroundings Ω) (address : String) (id : UInt64) (i : Nat) (r : Registry Ω) :
    Registry Ω :=
  match r.record? i with
  | none => r
  | some g => match g.clients.find? id with
    | none => r
    | some stored =>
      let r := (r.takeFrom i (g.without id) [stored]).logAll [g.closedLine address stored]
      (r.sendLeft env g.name i stored).settleDeparture env g.name i true (.channelClosed id)

/-- A channel has closed: its client leaves every group that is on the table now. -/
def channelClosed (env : Surroundings Ω) (address : String) (id : UInt64) (r : Registry Ω) :
    Registry Ω × Bool :=
  let start := r.note (.began (.channelClosed id))
  let r := (env.walk.records r.table.values).foldl (fun r i => r.closeIn env address id i) start
  (r.note .ended, false)

/-! ## Who is there and who is not -/

section

variable {r : Registry Ω} {i : Nat} {g : Group}

theorem takeOut_of_absent (env : Surroundings Ω) (group : String) {client : Client}
    (hg : r.record? i = some g) (h : g.clients.find? client.channel.id = none) :
    r.takeOut env group i client = r := by
  unfold takeOut
  simp only [hg, h]

theorem takeOut_of_some (env : Surroundings Ω) (group : String) {client stored : Client}
    (hg : r.record? i = some g) (h : g.clients.find? client.channel.id = some stored) :
    r.takeOut env group i client =
      ((r.takeFrom i (g.without client.channel.id) [stored]).logAll [g.leftLine stored]).sendLeft
        env group i client := by
  unfold takeOut
  simp only [hg, h]

theorem leave_of_current (env : Surroundings Ω) {group : String} (hi : r.current? group = some i)
    (client : Client) (announce : Bool) :
    r.leave env group client announce =
      (((r.note (.began (.leave group client.channel.id))).takeOut env group i
        client).settleDeparture env group i announce (.leave group client.channel.id)).note
        .ended := by
  unfold leave
  simp only [hi]

theorem closeIn_of_absent (env : Surroundings Ω) (address : String) {id : UInt64}
    (hg : r.record? i = some g) (h : g.clients.find? id = none) :
    r.closeIn env address id i = r := by
  unfold closeIn
  simp only [hg, h]

theorem closeIn_of_some (env : Surroundings Ω) (address : String) {id : UInt64} {stored : Client}
    (hg : r.record? i = some g) (h : g.clients.find? id = some stored) :
    r.closeIn env address id i =
      (((r.takeFrom i (g.without id) [stored]).logAll
        [g.closedLine address stored]).sendLeft env g.name i stored).settleDeparture env g.name i
        true (.channelClosed id) := by
  unfold closeIn
  simp only [hg, h]

end

end ConsumerGroups.Registry
