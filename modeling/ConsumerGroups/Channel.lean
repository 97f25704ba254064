-- Channels: the connections that clients come in on. A channel is known by its number. Behind it
-- stands a wire, which is open or not and counts how often it was told to close; two wires may
-- carry the same number.
import ConsumerGroups.Log
import ConsumerGroups.Panic

set_option autoImplicit false

namespace ConsumerGroups

/-- What a wire does when it is told to close. -/
inductive Closing where
  | succeeds
  /-- it reports a failure and stays open -/
  | refuses
  /-- it closes and then panics -/
  | panics
deriving DecidableEq, Repr

/-- A handle on a wire. -/
structure Channel where
  key : String
  /-- the number that registries go by -/
  id : UInt64
  address : String
  closing : Closing
deriving DecidableEq, Repr

/-- The address of a channel that names none. -/
def localAddress (id : UInt64) : String := s!"127.0.0.1:{10000 + id.toNat}"

structure Wire where
  closes : Nat
  active : Bool
deriving DecidableEq, Repr

/-- A new wire is open and was never told to close. -/
instance : Inhabited Wire := ⟨⟨0, true⟩⟩

/-- What telling a wire to close leads to. -/
inductive Closed where
  | done
  | refused (why : String)
  | panicked (panic : Panic)
deriving DecidableEq, Repr

def Wire.close (w : Wire) (c : Channel) : Wire × Closed :=
  match c.closing with
  | .succeeds => (⟨w.closes + 1, false⟩, .done)
  | .refuses => (⟨w.closes + 1, w.active⟩, .refused s!"stub channel {c.id} refused to close")
  | .panics => (⟨w.closes + 1, false⟩, .panicked (.onClose c.id))

/-- Closes an open wire and leaves any other alone. The result is the line for the log. -/
def Wire.closeQuietly (w : Wire) (c : Channel) : Wire × Returned LogLine :=
  if w.active then
    match w.close c with
    | (w, .done) => (w, .ok ⟨.info, s!"Closed channel {c.address}"⟩)
    | (w, .refused why) => (w, .ok ⟨.error, s!"Failed to close channel {c.address}: {why}"⟩)
    | (w, .panicked panic) => (w, .error panic)
  else (w, .ok ⟨.debug, s!"Channel {c.address} already inactive, skipping close"⟩)

/-- A channel that does not panic is told to close, and this returns. -/
theorem Wire.closeQuietly_returns (w : Wire) {c : Channel} (h : c.closing ≠ .panics) :
    ∃ line, (w.closeQuietly c).2 = .ok line := by
  unfold closeQuietly close
  split
  · cases hc : c.closing with
    | succeeds => exact ⟨_, rfl⟩
    | refuses => exact ⟨_, rfl⟩
    | panics => exact absurd hc h
  · exact ⟨_, rfl⟩

theorem Wire.closeQuietly_panics {w : Wire} {c : Channel} {panic : Panic}
    (h : (w.closeQuietly c).2 = .error panic) : c.closing = .panics ∧ panic = .onClose c.id := by
  unfold closeQuietly close at h
  split at h
  · cases hc : c.closing with
    | succeeds => simp [hc] at h
    | refuses => simp [hc] at h
    | panics =>
      simp only [hc, Except.error.injEq] at h
      exact ⟨rfl, h.symm⟩
  · cases h

theorem Wire.closeQuietly_inactive (w : Wire) (c : Channel) (h : w.active = false) :
    (w.closeQuietly c).1 = w := by
  simp [closeQuietly, h]

end ConsumerGroups
