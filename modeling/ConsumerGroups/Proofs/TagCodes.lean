-- The code of a tag is the value of its UTF-16 units as digits in base 31, taken modulo `2 ^ 32` and
-- signed. So codes of texts put together follow from the codes of their parts.
import Mathlib.Algebra.BigOperators.Fin
import Mathlib.Data.Int.ModEq
import Mathlib.Tactic.Ring
import ConsumerGroups.Proofs.Literals

set_option autoImplicit false

namespace ConsumerGroups

/-! ## The units of a text -/

/-- The UTF-16 units of a text. A character of the first plane is one unit; any other is a pair of
halves, of which each carries ten bits of what is above that plane. -/
inductive Utf16 : List Char → List Nat → Prop where
  | nil : Utf16 [] []
  | one {c : Char} {cs : List Char} {units : List Nat} (hc : c.toNat < 0x10000)
      (h : Utf16 cs units) : Utf16 (c :: cs) (c.toNat :: units)
  | pair {c : Char} {cs : List Char} {units : List Nat} {high low : Nat}
      (hhigh : 0xD800 ≤ high ∧ high < 0xDC00) (hlow : 0xDC00 ≤ low ∧ low < 0xE000)
      (hc : c.toNat = 0x10000 + (high - 0xD800) * 0x400 + (low - 0xDC00))
      (h : Utf16 cs units) : Utf16 (c :: cs) (high :: low :: units)

theorem utf16_flatMap (cs : List Char) : Utf16 cs (cs.flatMap charUnits) := by
  induction cs with
  | nil => exact .nil
  | cons c cs ih =>
    have hrange := Json.toNat_of_small_or_large c
    rw [List.flatMap_cons]
    unfold charUnits
    split
    · rename_i hsmall
      exact .one hsmall ih
    · rename_i hlarge
      apply Utf16.pair (by omega) (by omega) _ ih
      omega

theorem Utf16.eq_flatMap {cs : List Char} {units : List Nat} (h : Utf16 cs units) :
    units = cs.flatMap charUnits := by
  induction h with
  | nil => rfl
  | one hc _ ih => rw [List.flatMap_cons, charUnits, if_pos hc, ih, List.singleton_append]
  | @pair c cs units high low hhigh hlow hc _ ih =>
    have hlarge : ¬ c.toNat < 0x10000 := by omega
    have hfirst : 0xD800 + (c.toNat - 0x10000) / 0x400 = high := by omega
    have hsecond : 0xDC00 + (c.toNat - 0x10000) % 0x400 = low := by omega
    rw [List.flatMap_cons, charUnits, if_neg hlarge, hfirst, hsecond, ih]
    rfl

theorem utf16_iff {s : String} {units : List Nat} :
    Utf16 s.toList units ↔ units = textUnits s := by
  constructor
  · intro h
    exact h.eq_flatMap
  · rintro rfl
    exact utf16_flatMap s.toList

/-! ## Units as digits -/

/-- The value of units as digits in base 31, the first of them in the highest place. -/
def digitSum (units : List Nat) : ℤ :=
  ∑ i : Fin units.length, (units[i] : ℤ) * 31 ^ (units.length - 1 - i)

theorem digitSum_cons (u : Nat) (units : List Nat) :
    digitSum (u :: units) = u * 31 ^ units.length + digitSum units := by
  unfold digitSum
  have hsplit := Fin.sum_univ_succ fun i : Fin (units.length + 1) =>
    ((u :: units)[i] : ℤ) * 31 ^ ((u :: units).length - 1 - i)
  simpa [Nat.sub_sub, Nat.add_comm] using hsplit

/-- Codes count exactly as integers do, only modulo `2 ^ 32`. -/
theorem foldl_codeStep (n : ℤ) (units : List Nat) :
    units.foldl codeStep (Int32.ofInt n) =
      Int32.ofInt (n * 31 ^ units.length + digitSum units) := by
  induction units generalizing n with
  | nil => simp [digitSum]
  | cons u units ih =>
    have hstep : codeStep (Int32.ofInt n) u = Int32.ofInt (n * 31 + u) := by
      simp [codeStep, Int32.ofInt_eq_ofNat]
    rw [List.foldl_cons, hstep, ih, digitSum_cons, List.length_cons]
    congr 1
    ring

theorem tagCode_eq_ofInt (s : String) : tagCode s = Int32.ofInt (digitSum (textUnits s)) := by
  have h := foldl_codeStep 0 (textUnits s)
  simpa [tagCode] using h

/-! ## Codes modulo `2 ^ 32` -/

theorem eq_ofInt_iff {code : Int32} {n : ℤ} :
    code = Int32.ofInt n ↔ code.toInt ≡ n [ZMOD 2 ^ 32] := by
  rw [eq_comm, Int32.ofInt_eq_iff_bmod_eq_toInt]
  constructor
  · intro h
    rw [← h]
    exact Int.bmod_emod
  · intro h
    have hcode : code.toInt.bmod (2 ^ 32) = code.toInt := code.toInt_bmod
    rw [← hcode, ← Int.emod_bmod, ← Int.emod_bmod code.toInt]
    exact congrArg (Int.bmod · (2 ^ 32)) h.symm

theorem tagCode_modEq (s : String) :
    (tagCode s).toInt ≡ digitSum (textUnits s) [ZMOD 2 ^ 32] :=
  eq_ofInt_iff.mp (tagCode_eq_ofInt s)

theorem tagCode_append (s t : String) :
    tagCode (s ++ t) =
      Int32.ofInt ((tagCode s).toInt * 31 ^ (textUnits t).length + digitSum (textUnits t)) := by
  have hfirst : (textUnits s).foldl codeStep 0 = Int32.ofInt (tagCode s).toInt := by
    rw [Int32.ofInt_toInt, tagCode]
  rw [tagCode, textUnits_append, List.foldl_append, hfirst, foldl_codeStep]

/-- The code of a text is the one signed number of 32 bits that is congruent to the sum of its
UTF-16 units, each times 31 to the number of units behind it. And when a text is put behind another,
the code of the first moves up by as many places as the second has units. -/
theorem a_code_is_a_polynomial_of_the_units (s t : String) :
    (∀ units, Utf16 s.toList units ↔ units = textUnits s) ∧
    (∀ code : Int32, code = tagCode s ↔
      code.toInt ≡ ∑ i : Fin (textUnits s).length,
        ((textUnits s)[i] : ℤ) * 31 ^ ((textUnits s).length - 1 - i) [ZMOD 2 ^ 32]) ∧
    (tagCode (s ++ t)).toInt ≡
      (tagCode s).toInt * 31 ^ (textUnits t).length + (tagCode t).toInt [ZMOD 2 ^ 32] := by
  refine ⟨fun units => utf16_iff, ?_, ?_⟩
  · intro code
    rw [tagCode_eq_ofInt]
    exact eq_ofInt_iff
  · calc (tagCode (s ++ t)).toInt
        ≡ (tagCode s).toInt * 31 ^ (textUnits t).length + digitSum (textUnits t) [ZMOD 2 ^ 32] :=
          eq_ofInt_iff.mp (tagCode_append s t)
      _ ≡ (tagCode s).toInt * 31 ^ (textUnits t).length + (tagCode t).toInt [ZMOD 2 ^ 32] :=
          (tagCode_modEq t).symm.add_left _

/-- A character above the first plane is two units, and the code of a long tag may be negative. -/
example : textUnits "a😀" = [0x61, 0xD83D, 0xDE00] ∧ tagCode "a😀" = 1866116 ∧
    tagCode "TagTagTag" = -532260422 := by decide +kernel

end ConsumerGroups
