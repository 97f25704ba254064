-- Clients: what a program says of itself when it joins a group, the channel it came in on, and
-- when it was last heard of.
import ConsumerGroups.Channel
import ConsumerGroups.Labels
import ConsumerGroups.Time

set_option autoImplicit false

namespace ConsumerGroups

structure Client where
  channel : Channel
  /-- the name that the client gives itself -/
  name : String
  language : Language
  version : UInt32
  /-- when it was last heard of -/
  heardAt : UInt64
deriving DecidableEq, Repr

namespace Client

/-- A client that was not heard of yet. -/
def new (channel : Channel) (name : String) (language : Language) (version : UInt32) : Client :=
  ⟨channel, name, language, version, 0⟩

def sameChannel (a b : Client) : Bool := a.channel.id == b.channel.id

/-- Whether two clients say the same of themselves. -/
def sameClaims (a b : Client) : Bool :=
  a.name == b.name && a.language == b.language && a.version == b.version

/-- Whether a client was silent for more than `limit` milliseconds. -/
def expired (c : Client) (now limit : UInt64) : Bool := elapsed now c.heardAt > limit

def describe (c : Client) : String :=
  s!"ClientChannelInfo(client_id={c.name}, remote_addr={c.channel.address}, " ++
    s!"language={Labelled.label c.language}, version={c.version.toNat}, " ++
    s!"last_update_timestamp={c.heardAt.toNat})"

theorem sameClaims_iff {a b : Client} : a.sameClaims b = true ↔
    a.name = b.name ∧ a.language = b.language ∧ a.version = b.version := by
  simp only [sameClaims, Bool.and_eq_true, beq_iff_eq, and_assoc]

theorem expired_iff (c : Client) (now limit : UInt64) :
    c.expired now limit = true ↔ limit.toNat < now.toNat - c.heardAt.toNat := by
  rw [expired, decide_eq_true_iff, gt_iff_lt, UInt64.lt_iff_toNat_lt, elapsed_toNat]

end Client

end ConsumerGroups
