-- Blank characters and trimming. A character is blank when Unicode gives it the
-- property `White_Space`; trimming takes the blanks from both ends of a text.

set_option autoImplicit false

namespace ConsumerGroups

/-- The code points with the property `White_Space`, as closed ranges. -/
def blankRanges : List (Nat × Nat) :=
  [(0x09, 0x0D), (0x20, 0x20), (0x85, 0x85), (0xA0, 0xA0), (0x1680, 0x1680), (0x2000, 0x200A),
    (0x2028, 0x2029), (0x202F, 0x202F), (0x205F, 0x205F), (0x3000, 0x3000)]

/-- Whether a character is blank. -/
def isBlank (c : Char) : Bool := blankRanges.any (fun r => r.1 ≤ c.toNat && c.toNat ≤ r.2)

/-- The characters without the blanks in front. -/
def trimLeft (cs : List Char) : List Char := cs.dropWhile isBlank

/-- The characters without the blanks at the end. -/
def trimRight (cs : List Char) : List Char := (trimLeft cs.reverse).reverse

/-- The characters without the blanks at either end. -/
def trimChars (cs : List Char) : List Char := trimRight (trimLeft cs)

/-- A text without the blanks at either end. -/
def trimText (s : String) : String := String.ofList (trimChars s.toList)

/-! ## What trimming leaves -/

theorem trimLeft_eq_nil_iff {cs : List Char} : trimLeft cs = [] ↔ ∀ c ∈ cs, isBlank c = true := by
  induction cs with
  | nil => simp [trimLeft]
  | cons c rest ih =>
    rw [trimLeft, List.dropWhile_cons]
    by_cases h : isBlank c = true
    · simp only [h, if_true, List.mem_cons, forall_eq_or_imp, true_and]
      exact ih
    · simp [h]

theorem trimChars_eq_nil_iff {cs : List Char} : trimChars cs = [] ↔ ∀ c ∈ cs, isBlank c = true := by
  constructor
  · intro h
    have h' : trimLeft (trimLeft cs).reverse = [] := by
      simpa [trimChars, trimRight] using h
    rw [trimLeft_eq_nil_iff] at h'
    rw [← trimLeft_eq_nil_iff]
    cases hcs : trimLeft cs with
    | nil => rfl
    | cons c rest =>
      have hblank : isBlank c = true := h' c (by simp [hcs])
      have hhead := List.head_dropWhile_not isBlank (l := cs) (by
        rw [show cs.dropWhile isBlank = c :: rest from hcs]; simp)
      simp only [show cs.dropWhile isBlank = c :: rest from hcs, List.head_cons] at hhead
      rw [hblank] at hhead
      contradiction
  · intro h
    rw [trimChars, trimLeft_eq_nil_iff.mpr h]
    rfl

end ConsumerGroups
