-- Events: what listeners are told about a group.
import ConsumerGroups.Client
import ConsumerGroups.Subscription.Basic

set_option autoImplicit false

namespace ConsumerGroups

/-- What listeners are told about a group. -/
inductive Event where
  /-- a client is about to found the group -/
  | clientJoined (client : Client) (topics : SortedSet String)
  | clientLeft (client : Client) (topics : SortedSet String)
  /-- a registration was taken, with these subscriptions -/
  | declared (subscriptions : List Subscription)
  | dissolved
  | changed (clients : List Client)
deriving DecidableEq

namespace Event

def kind : Event → EventKind
  | .clientJoined .. => .clientJoined
  | .clientLeft .. => .clientLeft
  | .declared _ => .declared
  | .dissolved => .dissolved
  | .changed _ => .changed

def client? : Event → Option Client
  | .clientJoined c _ => some c
  | .clientLeft c _ => some c
  | _ => none

def describe (e : Event) : String :=
  let label := Labelled.label e.kind
  match e with
  | .clientJoined c topics => s!"{label}(client_id={c.name}, topics={topics.size})"
  | .clientLeft c topics => s!"{label}(client_id={c.name}, topics={topics.size})"
  | .declared subscriptions => s!"{label}(subscriptions={subscriptions.length})"
  | .dissolved => label
  | .changed clients => s!"{label}(channels={clients.length})"

end Event

end ConsumerGroups
