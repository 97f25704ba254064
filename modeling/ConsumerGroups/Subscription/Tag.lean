-- Tags of a filter expression: how an expression falls into tags, and the code of a tag. The code
-- is a polynomial in base 31 over the UTF-16 units of the tag, taken modulo `2 ^ 32` and signed.
-- Messages in store carry the same code, so it never changes.
import ConsumerGroups.Table
import ConsumerGroups.Text.Blank

set_option autoImplicit false

namespace ConsumerGroups

/-! ## The pieces of an expression -/

/-- The pieces between double bars, each double bar found as far left as possible. -/
def splitBars : List Char → List (List Char)
  | [] => [[]]
  | '|' :: '|' :: rest => [] :: splitBars rest
  | c :: rest =>
    match splitBars rest with
    | [] => [[c]]
    | piece :: pieces => (c :: piece) :: pieces

/-- The tags of an expression: its pieces, trimmed, without the empty ones. -/
def tagsOf (expression : String) : List String :=
  ((splitBars expression.toList).map trimChars).filter (fun p => !p.isEmpty) |>.map String.ofList

/-! ## The code of a tag -/

/-- The UTF-16 units of a character: one, or a pair of halves above the first plane. -/
def charUnits (c : Char) : List Nat :=
  if c.toNat < 0x10000 then [c.toNat]
  else [0xD800 + (c.toNat - 0x10000) / 0x400, 0xDC00 + (c.toNat - 0x10000) % 0x400]

def textUnits (s : String) : List Nat := s.toList.flatMap charUnits

/-- One step of the code: the units so far move up one place in base 31. -/
def codeStep (code : Int32) (unit : Nat) : Int32 := code * 31 + Int32.ofNat unit

def tagCode (tag : String) : Int32 := (textUnits tag).foldl codeStep 0

/-! ## The pieces and the units -/

theorem splitBars_ne_nil (cs : List Char) : splitBars cs ≠ [] := by
  fun_induction splitBars cs <;> simp

theorem textUnits_append (s t : String) : textUnits (s ++ t) = textUnits s ++ textUnits t := by
  simp [textUnits]

end ConsumerGroups
