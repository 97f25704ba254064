-- Reading a number takes the parts as they are spelled, and no character behind them. The decimal
-- digits of an integer lead back to it.
import ConsumerGroups.Proofs.Grammar
import Mathlib.Data.List.TakeDrop

set_option autoImplicit false

namespace ConsumerGroups.Json

/-! ## Reading the parts -/

/-- Whether a text cannot go on with a number. -/
def Stops (rest : List Char) : Prop :=
  ∀ c ∈ rest.head?, c.isDigit = false ∧ c ≠ '.' ∧ c ≠ 'e' ∧ c ≠ 'E'

/-- Whether no digit comes first. -/
def NoDigit (rest : List Char) : Prop := ∀ c ∈ rest.head?, c.isDigit = false

theorem Stops.noDigit {rest : List Char} (h : Stops rest) : NoDigit rest := fun c hc => (h c hc).1

theorem span_digits {ds rest : List Char} (hds : ∀ d ∈ ds, d.isDigit) (hrest : NoDigit rest) :
    (ds ++ rest).span Char.isDigit = (ds, rest) := by
  have htake : rest.takeWhile Char.isDigit = [] := by
    cases rest with
    | nil => rfl
    | cons c tail => simp [hrest c rfl]
  have hdrop : rest.dropWhile Char.isDigit = rest := by
    cases rest with
    | nil => rfl
    | cons c tail => simp [hrest c rfl]
  rw [List.span_eq_takeWhile_dropWhile, List.takeWhile_append_of_pos hds,
    List.dropWhile_append_of_pos hds, htake, hdrop, List.append_nil]

theorem takeDigits_append {ds rest : List Char} (hds : Digits ds) (hrest : NoDigit rest) :
    takeDigits (ds ++ rest) = .ok (ds, rest) := by
  obtain ⟨hne, hall⟩ := hds
  obtain ⟨d, tail, rfl⟩ := List.exists_cons_of_ne_nil hne
  have hdigit := hall d (by simp)
  rw [List.cons_append, takeDigits, if_pos hdigit, ← List.cons_append, span_digits hall hrest]

theorem takeWhole_append {ds rest : List Char} (hds : Digits ds)
    (hzero : ∀ tail, ds = '0' :: tail → tail = []) (hrest : NoDigit rest) :
    takeWhole (ds ++ rest) = .ok (ds, rest) := by
  simp only [takeWhole, takeDigits_append hds hrest, bind, Except.bind]
  split
  · rename_i d tail
    exact absurd (hzero (d :: tail) rfl) (by simp)
  · rfl

theorem takeFraction_append {fraction : Option (List Char)} {cs rest : List Char}
    (h : Fraction fraction cs) (hdigit : NoDigit rest) (hpoint : ∀ tail, rest ≠ '.' :: tail) :
    takeFraction (cs ++ rest) = .ok (fraction, rest) := by
  cases h with
  | none =>
    rw [List.nil_append, takeFraction]
    exact hpoint
  | some hds => simp [takeFraction, takeDigits_append hds hdigit, Except.map]

theorem takeExponent_append {exponent : Option (Bool × List Char)} {cs rest : List Char}
    (h : Exponent exponent cs) (hrest : Stops rest) :
    takeExponent (cs ++ rest) = .ok (exponent, rest) := by
  cases h with
  | none =>
    cases rest with
    | nil => rfl
    | cons c tail => simp [takeExponent, (hrest c rfl).2.2.1, (hrest c rfl).2.2.2]
  | bare e he hds =>
    obtain ⟨d, tail, rfl⟩ := List.exists_cons_of_ne_nil hds.1
    have hdigit := hds.2 d (by simp)
    have htake := takeDigits_append hds hrest.noDigit
    simp only [List.cons_append] at htake
    simp only [List.cons_append, takeExponent, he, if_true]
    -- a digit is neither of the two signs
    split
    · simp_all [Char.isDigit]
    · simp_all [Char.isDigit]
    · simp [htake, Except.map]
  | plus e he hds =>
    simp [takeExponent, he, takeDigits_append hds hrest.noDigit, Except.map]
  | minus e he hds =>
    simp [takeExponent, he, takeDigits_append hds hrest.noDigit, Except.map]

theorem Fraction.append_noDigit {fraction : Option (List Char)} {cs rest : List Char}
    (h : Fraction fraction cs) (hrest : NoDigit rest) : NoDigit (cs ++ rest) := by
  cases h with
  | none => exact hrest
  | some _ => intro c hc; cases hc; decide

theorem Exponent.append_noDigit {exponent : Option (Bool × List Char)} {cs rest : List Char}
    (h : Exponent exponent cs) (hrest : Stops rest) :
    NoDigit (cs ++ rest) ∧ ∀ tail, cs ++ rest ≠ '.' :: tail := by
  cases h with
  | none =>
    refine ⟨hrest.noDigit, fun tail he => ?_⟩
    rw [List.nil_append] at he
    exact (hrest '.' (by simp [he])).2.1 rfl
  | bare e he _ => rcases he with rfl | rfl <;> simp [NoDigit, Char.isDigit]
  | plus e he _ => rcases he with rfl | rfl <;> simp [NoDigit, Char.isDigit]
  | minus e he _ => rcases he with rfl | rfl <;> simp [NoDigit, Char.isDigit]

/-- The parts behind the sign. -/
def takeUnsigned (minus : Bool) (cs : List Char) : Except Fault (Numeral × List Char) := do
  let (whole, cs) ← takeWhole cs
  let (fraction, cs) ← takeFraction cs
  let (exponent, cs) ← takeExponent cs
  .ok (⟨minus, whole, fraction, exponent⟩, cs)

theorem takeNumeral_minus (cs : List Char) : takeNumeral ('-' :: cs) = takeUnsigned true cs := rfl

theorem takeNumeral_digit {d : Char} (hd : d.isDigit) (cs : List Char) :
    takeNumeral (d :: cs) = takeUnsigned false (d :: cs) := by
  have hsign : d ≠ '-' := by rintro rfl; simp [Char.isDigit] at hd
  unfold takeNumeral
  split
  rename_i heq
  split at heq
  · rename_i h
    exact absurd (List.cons.inj h).1 hsign
  · cases heq
    rfl

theorem takeNumeral_append {n : Numeral} {cs rest : List Char} (h : n.Spelled cs)
    (hrest : Stops rest) : takeNumeral (cs ++ rest) = .ok (n, rest) := by
  obtain @⟨minus, whole, fractionChars, exponentChars, fraction, exponent, hwhole, hzero, hfraction,
    hexponent⟩ := h
  obtain ⟨hbehind, hpoint⟩ := hexponent.append_noDigit hrest
  have hparts : takeUnsigned minus (whole ++ (fractionChars ++ (exponentChars ++ rest))) =
      .ok (⟨minus, whole, fraction, exponent⟩, rest) := by
    simp only [takeUnsigned, takeWhole_append hwhole hzero (hfraction.append_noDigit hbehind),
      takeFraction_append hfraction hbehind hpoint, takeExponent_append hexponent hrest, bind,
      Except.bind]
  cases minus with
  | true => simpa [signChars, takeNumeral_minus] using hparts
  | false =>
    obtain ⟨d, tail, rfl⟩ := List.exists_cons_of_ne_nil hwhole.1
    have hdigit := hwhole.2 d (by simp)
    simpa [signChars, takeNumeral_digit hdigit] using hparts

/-! ## The digits of an integer -/

theorem digitsValue_toDigits (n : Nat) : digitsValue (Nat.toDigits 10 n) = n :=
  Nat.ofDigitChars_ten_toDigits

theorem digits_toDigits (n : Nat) : Digits (Nat.toDigits 10 n) :=
  ⟨Nat.toDigits_ne_nil, fun _ hd => Nat.isDigit_of_mem_toDigits (by decide) (by decide) hd⟩

/-- Only zero itself begins with a zero. -/
theorem toDigits_zero_first (n : Nat) (ds : List Char) (h : Nat.toDigits 10 n = '0' :: ds) :
    ds = [] := by
  induction n using Nat.strongRecOn generalizing ds with
  | ind n ih =>
    by_cases hsmall : n < 10
    · rw [Nat.toDigits_of_lt_base hsmall] at h
      exact (List.cons.inj h).2.symm
    -- the digits in front of the last are those of a tenth, which would be zero
    · rw [Nat.toDigits_of_base_le (by decide) (by omega)] at h
      obtain ⟨d, front, hfront⟩ := List.exists_cons_of_ne_nil (Nat.toDigits_ne_nil (n := n / 10))
      rw [hfront, List.cons_append] at h
      obtain ⟨rfl, -⟩ := List.cons.inj h
      have hnil := ih (n / 10) (by omega) front hfront
      have hvalue := digitsValue_toDigits (n / 10)
      rw [hfront, hnil] at hvalue
      simp [digitsValue] at hvalue
      omega

theorem ofInt_spelled (n : Int) : (Numeral.ofInt n).Spelled (toString n).toList := by
  have hchars : (toString n).toList = signChars (decide (n < 0)) ++ Nat.toDigits 10 n.natAbs := by
    rw [Int.toString_eq_repr]
    cases n with
    | ofNat m => simp [Int.repr, signChars, Nat.repr_eq_ofList_toDigits]
    | negSucc m => simp [Int.repr, signChars, Nat.repr_eq_ofList_toDigits]
  rw [hchars, ← List.append_nil (_ ++ _), ← List.append_nil ((_ ++ _) ++ _)]
  exact .parts (digits_toDigits n.natAbs) (toDigits_zero_first n.natAbs) .none .none

theorem ofInt_value_natural {n : Nat} (h : n < UInt64.size) :
    (Numeral.ofInt n).value = .ok (.natural n) := by
  simp [Numeral.value, Numeral.ofInt, digitsValue_toDigits, h]

theorem ofInt_value_negative {n : Int} (hneg : n < 0) (hlow : n.natAbs ≤ Nat.pow 2 63) :
    (Numeral.ofInt n).value = .ok (.negative n) := by
  have habs : -(n.natAbs : Int) = n := by omega
  have hpos : 0 < n.natAbs := by omega
  simp only [Numeral.value, Numeral.ofInt, digitsValue_toDigits, hneg, hlow, hpos, habs]
  rfl

end ConsumerGroups.Json
