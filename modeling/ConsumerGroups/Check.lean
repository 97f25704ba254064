-- The two checks on values from outside: a name must be there, be more than blanks and be ASCII,
-- and a count must be positive. Of several flaws the first in this order is reported.
import ConsumerGroups.Text.Blank

set_option autoImplicit false

namespace ConsumerGroups

/-- What is wrong with a value. -/
inductive Flaw where
  | empty
  | blank
  /-- the text holds a character outside ASCII -/
  | foreign (text : String)
  | zero
deriving DecidableEq, Repr

/-- The message about the flaw of the value that is called `param`. -/
def Flaw.message (param : String) : Flaw → String
  | .empty => s!"Condition failed: invalid string for '{param}', was empty"
  | .blank => s!"Condition failed: invalid string for '{param}', was all whitespace"
  | .foreign text =>
    s!"Condition failed: invalid string for '{param}' contained a non-ASCII char, was '{text}'"
  | .zero => s!"Condition failed: invalid u64 for '{param}' not positive, was 0"

def isAscii (c : Char) : Bool := c.toNat < 128

def checkName (s : String) : Except Flaw Unit :=
  if s.toList.isEmpty then .error .empty
  else if s.toList.all isBlank then .error .blank
  else if s.toList.all isAscii then .ok ()
  else .error (.foreign s)

def checkPositive (n : UInt64) : Except Flaw Unit :=
  if n = 0 then .error .zero else .ok ()

/-- A name that passes: not empty, not all blank, all ASCII. -/
def IsName (s : String) : Prop :=
  s.toList ≠ [] ∧ (∃ c ∈ s.toList, isBlank c = false) ∧ ∀ c ∈ s.toList, isAscii c = true

instance (s : String) : Decidable (IsName s) :=
  inferInstanceAs (Decidable (_ ∧ (∃ c ∈ s.toList, _) ∧ ∀ c ∈ s.toList, _))

theorem checkName_eq_ok_iff {s : String} : checkName s = .ok () ↔ IsName s := by
  unfold checkName IsName
  split
  · rename_i h
    simp_all
  · split
    · rename_i h
      simp only [List.all_eq_true] at h
      constructor
      · simp
      · rintro ⟨-, ⟨c, hc, hb⟩, -⟩
        simp [h c hc] at hb
    · rename_i h₁ h₂
      have h₂ : ∃ c ∈ s.toList, isBlank c = false := by
        simpa using h₂
      split
      · rename_i h₃
        simp only [List.all_eq_true] at h₃
        simp only [true_iff]
        exact ⟨by simpa using h₁, h₂, h₃⟩
      · rename_i h₃
        constructor
        · simp
        · rintro ⟨-, -, h⟩
          exact absurd (List.all_eq_true.mpr h) h₃

end ConsumerGroups
