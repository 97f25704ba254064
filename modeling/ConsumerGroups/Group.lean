-- One consumer group: its policy, its clients by channel number, and its subscriptions by topic.
-- An update tells the group after it, whether anything but times is different, and what to log.
import ConsumerGroups.Event

set_option autoImplicit false

namespace ConsumerGroups

/-- The record of one group. -/
@[ext]
structure Group where
  name : String
  policy : Policy
  clients : Table UInt64 Client
  subscriptions : Table String Subscription
  /-- when a client or the subscriptions were last updated -/
  touchedAt : UInt64
deriving DecidableEq

/-- A group after an update. -/
structure Revision where
  group : Group
  changed : Bool
  log : List LogLine

namespace Group

/-- A new group, without clients and without subscriptions. -/
def new (name : String) (policy : Policy) : Group := ⟨name, policy, Table.empty, Table.empty, 0⟩

def isEmpty (g : Group) : Bool := g.clients.isEmpty

def topics (g : Group) : SortedSet String := SortedSet.ofList g.subscriptions.keys

def wants (g : Group) (topic : String) : Bool := g.subscriptions.contains topic

def clientsNamed (g : Group) (name : String) : List Client :=
  g.clients.values.filter (fun c => c.name == name)

def clientNames (g : Group) : List String :=
  (g.clients.values.map (·.name)).mergeSort (fun a b => a ≤ b)

/-! ## Clients come and are heard of -/

/-- The record to store for a client, next to the one stored before. A client that says the same of
itself keeps its record but for the time. -/
def heardRecord (old : Option Client) (client : Client) : Client :=
  match old with
  | none => client
  | some old => if old.sameClaims client then { old with heardAt := client.heardAt } else client

/-- Whether a client is new or says something new of itself. -/
def isNews (old : Option Client) (client : Client) : Bool :=
  match old with
  | none => true
  | some old => !old.sameClaims client

def heardLines (name : String) (policy : Policy) (old : Option Client) (client : Client) :
    List LogLine :=
  match old with
  | none =>
    [⟨.info, s!"New consumer connected, group={name} {Labelled.label policy.consumption} " ++
      s!"{Labelled.label policy.delivery} {client.describe}"⟩]
  | some old =>
    if old.name = client.name then []
    else
      [⟨.error, "Consumer channel exists in broker but client id differs, " ++
        s!"group={name} old={old.name} new={client.name}"⟩]

/-- Takes in a client that is heard of at `now`, with the policy that it brings. -/
def hear (g : Group) (client : Client) (policy : Policy) (now : UInt64) : Revision :=
  let id := client.channel.id
  let old := g.clients.find? id
  let client := { client with heardAt := now }
  { group := { g with
      policy := policy
      clients := g.clients.insert id (heardRecord old client)
      touchedAt := now }
    changed := decide (g.policy ≠ policy) || isNews old client
    log := heardLines g.name policy old client }

/-! ## Subscriptions are declared -/

/-- Whether a newer subscription to the same topic is stored. -/
def isStale (t : Table String Subscription) (sub : Subscription) : Bool :=
  match t.find? sub.topic with
  | none => false
  | some old => sub.version < old.version

/-- Stores a declared subscription, unless it is stale. -/
def accept (t : Table String Subscription) (sub : Subscription) : Table String Subscription :=
  if isStale t sub then t else t.insert sub.topic sub

/-- Whether storing a subscription makes a difference. -/
def differs (t : Table String Subscription) (sub : Subscription) : Bool :=
  !isStale t sub && t.find? sub.topic != some sub

def acceptLines (g : Group) (t : Table String Subscription) (sub : Subscription) : List LogLine :=
  match t.find? sub.topic with
  | none => [⟨.info, s!"Subscription changed, add new topic, group={g.name} {sub.describe}"⟩]
  | some old =>
    if sub.version < old.version then
      [⟨.debug, s!"Ignoring stale subscription, group={g.name} " ++
        s!"old={old.describe} new={sub.describe}"⟩]
    else if old = sub then []
    else if g.policy.consumption = .passive then
      [⟨.info, s!"Subscription changed, group={g.name} old={old.describe} new={sub.describe}"⟩]
    else []

def acceptAll (t : Table String Subscription) (subs : List Subscription) :
    Table String Subscription := subs.foldl accept t

/-- Whether one of a list of declared subscriptions makes a difference. -/
def anyDiffers : Table String Subscription → List Subscription → Bool
  | _, [] => false
  | t, sub :: rest => differs t sub || anyDiffers (accept t sub) rest

def allLines (g : Group) : Table String Subscription → List Subscription → List LogLine
  | _, [] => []
  | t, sub :: rest => acceptLines g t sub ++ allLines g (accept t sub) rest

def names (subs : List Subscription) (topic : String) : Bool := subs.any (fun s => s.topic == topic)

/-- Takes a whole declaration at `now`: every subscription in it, and no topic besides. -/
def declare (g : Group) (subs : List Subscription) (now : UInt64) : Revision :=
  let accepted := acceptAll g.subscriptions subs
  let gone := accepted.filter (fun topic _ => !names subs topic)
  { group := { g with
      subscriptions := accepted.filter (fun topic _ => names subs topic)
      touchedAt := now }
    changed := anyDiffers g.subscriptions subs || !gone.isEmpty
    log := allLines g g.subscriptions subs ++ gone.entries.map (fun e =>
      ⟨.warn, s!"Subscription changed, group={g.name} remove topic {e.1} {e.2.describe}"⟩) }

/-! ## Clients go -/

def without (g : Group) (id : UInt64) : Group := { g with clients := g.clients.erase id }

/-- The line for a client that was taken out on request. -/
def leftLine (g : Group) (client : Client) : LogLine :=
  ⟨.info, s!"Unregister a consumer {g.name} from consumer group info {client.describe}"⟩

def closedLine (g : Group) (address : String) (client : Client) : LogLine :=
  ⟨.warn, s!"Channel {address} closed, remove consumer {client.name} from group {g.name}"⟩

def expired (g : Group) (now limit : UInt64) : List Client :=
  g.clients.values.filter (fun c => c.expired now limit)

def withoutExpired (g : Group) (now limit : UInt64) : Group :=
  { g with clients := g.clients.filter (fun _ c => !c.expired now limit) }

/-! ## What an update leaves alone -/

theorem hear_subscriptions (g : Group) (client : Client) (policy : Policy) (now : UInt64) :
    (g.hear client policy now).group.subscriptions = g.subscriptions := rfl

end Group

end ConsumerGroups
