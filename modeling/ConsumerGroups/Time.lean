-- Times in milliseconds: how long ago something was, and how a span of time is shown.

set_option autoImplicit false

namespace ConsumerGroups

/-- The milliseconds from `earlier` to `now`, none when `earlier` is not in the past. -/
def elapsed (now earlier : UInt64) : UInt64 := if earlier ≤ now then now - earlier else 0

/-- A clock that stands until it is set. -/
structure Clock where
  now : UInt64
deriving DecidableEq, Repr

/-- A new clock stands at zero. -/
instance : Inhabited Clock := ⟨⟨0⟩⟩

def Clock.set (_ : Clock) (time : UInt64) : Clock := ⟨time⟩

def Clock.advance (c : Clock) (span : UInt64) : Clock := ⟨c.now + span⟩

/-- A time of the present day, in milliseconds since the beginning of 1970. It stands for what a
clock shows that nobody sets: such a clock is right, and no more is known of it. -/
def presentTime : UInt64 := 1790000000000

/-- The reading of a clock that was set to `start` and has run for `ran` milliseconds since. It
stops at the last time that there is. -/
def runningTime (start : UInt64) (ran : Nat) : UInt64 :=
  UInt64.ofNat (min (start.toNat + ran) (UInt64.size - 1))

theorem elapsed_toNat (now earlier : UInt64) :
    (elapsed now earlier).toNat = now.toNat - earlier.toNat := by
  unfold elapsed
  split
  · rename_i h
    exact UInt64.toNat_sub_of_le _ _ h
  · rename_i h
    have h : ¬ earlier.toNat ≤ now.toNat := h
    simp only [UInt64.toNat_zero]
    omega

/-! ## The text of a span -/

/-- The thousandths of a second after the point, without the zeros at the end. -/
def thousandths (ms : Nat) : String :=
  let digits := [ms / 100 % 10, ms / 10 % 10, ms % 10]
  let kept := (digits.reverse.dropWhile (· == 0)).reverse
  if kept.isEmpty then "" else "." ++ String.join (kept.map toString)

/-- A span of milliseconds as text: in seconds from one second up, else in milliseconds, and the
empty span in nanoseconds. -/
def spanText (ms : Nat) : String :=
  if ms = 0 then "0ns"
  else if ms < 1000 then s!"{ms}ms"
  else toString (ms / 1000) ++ thousandths ms ++ "s"

end ConsumerGroups
