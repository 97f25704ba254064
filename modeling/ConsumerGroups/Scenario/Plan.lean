-- Scenarios: what is done to a registry step by step, who listens to it, and what others do just
-- before it reads its clock. A listener may itself do things when it is told of an event.
import ConsumerGroups.Event

set_option autoImplicit false

namespace ConsumerGroups.Scenario

/-! ## Channels, clients and events -/

/-- How a scenario names a channel: by a key of its own, or by number alone. -/
inductive ChannelRef where
  | key (key : String)
  | id (id : UInt64)
deriving DecidableEq, Repr

structure ClientSpec where
  channel : ChannelRef
  name : String
  language : Language
  version : UInt32
deriving DecidableEq, Repr

inductive EventSpec where
  | clientJoined (client : ClientSpec) (topics : List String)
  | clientLeft (client : ClientSpec) (topics : List String)
  | declared (subscriptions : List Subscription)
  | dissolved
  | changed (clients : List ClientSpec)
deriving DecidableEq

structure RegistrationSpec where
  group : String
  client : ClientSpec
  policy : Policy
  subscriptions : List Subscription
  /-- whether listeners hear of a change; where nothing is said, the settings decide -/
  announce : Option Bool
  declares : Bool
deriving DecidableEq

/-- The ways in which a client can be registered. -/
inductive Entrance where
  /-- a name with a flaw is passed over -/
  | lenient
  /-- as lenient, and the subscriptions are always declared -/
  | whole
  /-- a name with a flaw is turned down -/
  | strict
deriving DecidableEq, Repr

/-! ## What is done to one record -/

/-- The address in place of one that is not known. -/
def unknownAddress : String := "?"

/-- What is done to one record, whether or not it is on the table. -/
inductive GroupOp where
  | hear (client : ClientSpec) (policy : Policy) (now : UInt64)
  | declare (subscriptions : List Subscription) (now : UInt64)
  | takeOut (client : ClientSpec)
  | channelClosed (channel : ChannelRef) (address : String)
  | expire (now limit : UInt64)
  | findClient (name : String)
  | findChannel (id : UInt64)
  | findSubscription (topic : String)
  | wants (topic : String)
  | info
deriving DecidableEq

/-! ## What is done to a registry, and who listens -/

inductive Look where
  /-- the kinds of the events of a group -/
  | kinds (group : String)
  /-- how many events there are of a kind -/
  | count (kind : EventKind)
  | all
  /-- nothing; the notebook is emptied -/
  | clear
deriving DecidableEq, Repr

inductive TimerOp where
  /-- makes one, in the place of any other of that name; without any times the settings decide -/
  | new (delay interval : Option Nat)
  | start
  | cancel
  | isRunning
  | drop
deriving DecidableEq, Repr

/-- The events that a listener reacts to. -/
structure Cue where
  kind : EventKind
  group : Option String
  /-- the name of the client; an event without a client counts as one with the empty name -/
  client : Option String
deriving DecidableEq, Repr

def Cue.isMet (cue : Cue) (group : String) (event : Event) : Bool :=
  decide (cue.kind = event.kind) && cue.group.all (· == group) &&
    cue.client.all (· == (event.client?.map (·.name)).getD "")

mutual

inductive Op where
  | register (spec : RegistrationSpec) (entrance : Entrance)
  | leave (group : String) (client : ClientSpec) (announce : Option Bool)
  | channelClosed (channel : ChannelRef) (address : Option String)
  | sweep
  | findClient (group name : String)
  | findChannel (group : String) (channel : ChannelRef)
  | findSubscription (group topic : String)
  | subscriptionCount (group : String)
  | wanting (topic : String)
  | info (group : String)
  | groups
  | settings
  | keep (group handle : String)
  /-- keeps every record on the table -/
  | keepAll (handle : String)
  | onKept (handle : String) (op : GroupOp)
  /-- asks whether a kept record is still the one on the table -/
  | isCurrent (handle : String)
  | append (name : String) (manner : Manner)
  | advance (span : UInt64)
  | setTime (time : UInt64)
  | closeWire (channel : ChannelRef)
  | closeQuietly (channel : ChannelRef)
  | channels
  | samples
  | notebook (name : String) (look : Look)
  | timer (name : String) (op : TimerOp)
  | sleep (span : Nat)
  /-- puts the time forward at once -/
  | jump (span : Nat)
  | dispatch (group : String) (event : EventSpec)
  | listeners

inductive Manner where
  /-- it writes them into the record of the scenario -/
  | records
  /-- it writes them into a notebook of its own -/
  | notes
  | fails
  | failsByName
  | panics
  /-- it panics with a fixed text -/
  | panicsPlainly
  | panicsMutely
  /-- at a cue it does something, up to a number of times, and then may panic -/
  | reacts (cue : Cue) (limit : Nat) (ops : List Op) (panicsAfter : Bool)

end

/-- What others do just before a reading of the clock, counted from one within a step. -/
structure Script where
  reading : Nat
  ops : List Op

structure Step where
  op : Op
  scripts : List Script
  /-- whether the record is shown in the order in which it was written -/
  raw : Bool

def Op.label : Op → String
  | .register .. => "register"
  | .leave .. => "unregister"
  | .channelClosed .. => "close"
  | .sweep => "scan"
  | .findClient .. => "find_client"
  | .findChannel .. => "find_channel"
  | .findSubscription .. => "find_sub"
  | .subscriptionCount .. => "sub_count"
  | .wanting .. => "who"
  | .info .. => "info"
  | .groups => "groups"
  | .settings => "config"
  | .keep .. => "hold"
  | .keepAll .. => "table"
  | .onKept .. => "on"
  | .isCurrent .. => "current"
  | .append .. => "append"
  | .advance .. => "advance"
  | .setTime .. => "set_time"
  | .closeWire .. => "transport_close"
  | .closeQuietly .. => "close_quietly"
  | .channels => "channels"
  | .samples => "stats"
  | .notebook .. => "stub_events"
  | .timer _ (.new ..) => "scanner_new"
  | .timer _ .start => "scanner_start"
  | .timer _ .cancel => "scanner_cancel"
  | .timer _ .isRunning => "scanner_running"
  | .timer _ .drop => "scanner_drop"
  | .sleep _ => "sleep"
  | .jump _ => "jump"
  | .dispatch .. => "dispatch"
  | .listeners => "list"

/-! ## How much can follow -/

mutual

/-- How much may be done in the course of something, itself included. -/
def Op.weight : Op → Nat
  | .append _ manner => 1 + manner.weight
  | _ => 1

/-- How much a listener may do, ever. -/
def Manner.weight : Manner → Nat
  | .reacts _ limit ops _ => limit * (1 + Op.totalWeight ops)
  | _ => 0

def Op.totalWeight : List Op → Nat
  | [] => 0
  | op :: rest => op.weight + Op.totalWeight rest

end

/-- How much may be done in the course of a step. -/
def Step.weight (s : Step) : Nat :=
  s.scripts.foldl (fun n script => n + Op.totalWeight script.ops) s.op.weight

def Step.totalWeight (steps : List Step) : Nat := steps.foldl (fun n s => n + s.weight) 0

end ConsumerGroups.Scenario
