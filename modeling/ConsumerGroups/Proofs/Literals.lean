-- Reading a literal gives the text that its units encode, however they are spelled, and fails when
-- a half of a pair stands alone. Skipping a literal succeeds in either case.
import ConsumerGroups.Proofs.Grammar

set_option autoImplicit false

namespace ConsumerGroups.Json

/-! ## Characters and their units -/

theorem toNat_of_small_or_large (c : Char) :
    c.toNat < 0xD800 ∨ (0xE000 ≤ c.toNat ∧ c.toNat < 0x110000) := by
  have h := c.valid
  simp only [UInt32.isValidChar, Nat.isValidChar] at h
  change c.val.toNat < 0xD800 ∨ (0xE000 ≤ c.val.toNat ∧ c.val.toNat < 0x110000)
  omega

/-- The text that these units encode, if any; `high` is a first half that waits for its second. -/
def decodeUnits : Option Nat → List Nat → Except Fault (List Char)
  | none, [] => .ok []
  | some _, [] => .error .malformed
  | none, u :: us =>
    if isHighHalf u then decodeUnits (some u) us
    else if isLowHalf u then .error .malformed
    else (decodeUnits none us).map (Char.ofNat u :: ·)
  | some high, u :: us =>
    if isLowHalf u then (decodeUnits none us).map (joinHalves high u :: ·) else .error .malformed

theorem decodeUnits_charUnits (c : Char) (us : List Nat) :
    decodeUnits none (charUnits c ++ us) = (decodeUnits none us).map (c :: ·) := by
  have hrange := toNat_of_small_or_large c
  unfold charUnits
  split
  · rename_i hsmall
    have hhigh : isHighHalf c.toNat = false := by simp [isHighHalf]; omega
    have hlow : isLowHalf c.toNat = false := by simp [isLowHalf]; omega
    simp [decodeUnits, hhigh, hlow]
  · rename_i hlarge
    have hhigh : isHighHalf (0xD800 + (c.toNat - 0x10000) / 0x400) = true := by
      simp [isHighHalf]; omega
    have hlow : isLowHalf (0xDC00 + (c.toNat - 0x10000) % 0x400) = true := by
      simp [isLowHalf]; omega
    have hjoin : joinHalves (0xD800 + (c.toNat - 0x10000) / 0x400)
        (0xDC00 + (c.toNat - 0x10000) % 0x400) = c := by
      unfold joinHalves
      rw [show 0x10000 + (0xD800 + (c.toNat - 0x10000) / 0x400 - 0xD800) * 0x400 +
        (0xDC00 + (c.toNat - 0x10000) % 0x400 - 0xDC00) = c.toNat by omega]
      exact Char.ofNat_toNat c
    simp [decodeUnits, hhigh, hlow, hjoin]

/-- The units of a character do not continue a first half. -/
theorem decodeUnits_some_charUnits (high : Nat) (c : Char) (us : List Nat) :
    decodeUnits (some high) (charUnits c ++ us) = .error .malformed := by
  have hrange := toNat_of_small_or_large c
  unfold charUnits
  split
  · have hlow : isLowHalf c.toNat = false := by simp [isLowHalf]; omega
    simp [decodeUnits, hlow]
  · have hlow : isLowHalf (0xD800 + (c.toNat - 0x10000) / 0x400) = false := by
      simp [isLowHalf]; omega
    simp [decodeUnits, hlow]

theorem decodeUnits_textUnits (s : String) : decodeUnits none (textUnits s) = .ok s.toList := by
  unfold textUnits
  induction s.toList with
  | nil => rfl
  | cons c cs ih => rw [List.flatMap_cons, decodeUnits_charUnits, ih]; rfl

/-! ## Reading and skipping what is spelled -/

theorem escapeOf?_some {letter c : Char} (h : escapeOf? letter = some c) :
    letter ≠ 'u' ∧ c.toNat < 0x80 := by
  unfold escapeOf? at h
  split at h <;> simp_all <;> subst h <;> decide

theorem charUnits_append_of_small {c : Char} (h : c.toNat < 0x80) (units : List Nat) :
    charUnits c ++ units = c.toNat :: units := by
  rw [charUnits, if_pos (by omega), List.singleton_append]

/-- Where the reader stands between two units. -/
def spotAfter : Option Nat → Spot
  | none => .plain
  | some high => .pairBackslash high

/-- What reading gives when the units up to the quotation mark decode to `r`. -/
def withRest (rest : List Char) (r : Except Fault (List Char)) :
    Except Fault (List Char × List Char) := r.map (·, rest)

@[simp] theorem withRest_ok (rest cs : List Char) : withRest rest (.ok cs) = .ok (cs, rest) := rfl

@[simp] theorem withRest_error (rest : List Char) (f : Fault) :
    withRest rest (.error f) = .error f := rfl

theorem consRead_withRest (c : Char) (rest : List Char) (r : Except Fault (List Char)) :
    consRead c (withRest rest r) = withRest rest (r.map (c :: ·)) := by
  cases r <;> rfl

/-- A character read at once continues no pair, and stands in front of what is read behind it. -/
theorem readLiteral_step {c : Char} {units : List Nat} {cs behind rest : List Char}
    (hplain : readLiteral .plain cs = consRead c (readLiteral .plain behind))
    (hpair : ∀ high, readLiteral (.pairBackslash high) cs = .error .malformed)
    (hbehind : readLiteral .plain behind = withRest rest (decodeUnits none units))
    (pending : Option Nat) :
    readLiteral (spotAfter pending) cs =
      withRest rest (decodeUnits pending (charUnits c ++ units)) := by
  cases pending with
  | none => rw [spotAfter, hplain, hbehind, consRead_withRest, decodeUnits_charUnits]
  | some high => rw [spotAfter, hpair, decodeUnits_some_charUnits, withRest_error]

/-- Four digits are read one by one; the last of them ends a unit. -/
theorem readLiteral_digits {a b c d : Char} {w x y z : Nat} (ha : hexDigit? a = some w)
    (hb : hexDigit? b = some x) (hc : hexDigit? c = some y) (hd : hexDigit? d = some z)
    (pending : Option Nat) (cs : List Char) :
    let unit := 16 * (16 * (16 * w + x) + y) + z
    readLiteral (spotAfter pending) ('\\' :: 'u' :: a :: b :: c :: d :: cs) =
      match pending with
      | none =>
        if isHighHalf unit then readLiteral (spotAfter (some unit)) cs
        else if isLowHalf unit then .error .malformed
        else consRead (Char.ofNat unit) (readLiteral .plain cs)
      | some high =>
        if isLowHalf unit then consRead (joinHalves high unit) (readLiteral .plain cs)
        else .error .malformed := by
  cases pending <;> simp [spotAfter, readLiteral, ha, hb, hc, hd]

/-- Whatever spells these units is read as what the units decode to, from where the reader stands
when a first half is `pending`. -/
theorem readLiteral_spelling {units : List Nat} {cs : List Char} (h : Spelling units cs)
    (pending : Option Nat) (rest : List Char) :
    readLiteral (spotAfter pending) (cs ++ '"' :: rest) =
      withRest rest (decodeUnits pending units) := by
  induction h generalizing pending with
  | nil => cases pending <;> simp [spotAfter, readLiteral, decodeUnits]
  | plain c hquote hslash hcontrol _ ih =>
    refine readLiteral_step ?_ (fun high => ?_) (ih none) pending
    · simp [readLiteral, hquote, hslash, Nat.not_lt.mpr hcontrol]
    · simp [readLiteral, hslash]
  | escape letter c hescape _ ih =>
    obtain ⟨hletter, hsmall⟩ := escapeOf?_some hescape
    rw [← charUnits_append_of_small hsmall]
    refine readLiteral_step ?_ (fun high => ?_) (ih none) pending
    · simp [readLiteral, hletter, hescape]
    · simp [readLiteral, hletter]
  | digits ha hb hc hd _ ih =>
    simp only [List.cons_append]
    rw [readLiteral_digits ha hb hc hd]
    have hplain : readLiteral .plain _ = _ := ih none
    cases pending with
    | none =>
      simp only [decodeUnits, hplain, consRead_withRest, ih]
      split
      · rfl
      · split <;> rfl
    | some high =>
      simp only [decodeUnits, hplain, consRead_withRest]
      split <;> rfl

/-- Skipping does not look at what the units encode. -/
theorem skipLiteral_spelling {units : List Nat} {cs : List Char} (h : Spelling units cs)
    (rest : List Char) : skipLiteral .plain (cs ++ '"' :: rest) = .ok rest := by
  induction h with
  | nil => simp [skipLiteral]
  | plain c hquote hslash hcontrol _ ih =>
    simp [skipLiteral, hquote, hslash, Nat.not_lt.mpr hcontrol, ih]
  | escape letter c hescape _ ih =>
    simp [skipLiteral, (escapeOf?_some hescape).1, hescape, ih]
  | digits ha hb hc hd _ ih => simp [skipLiteral, ha, hb, hc, hd, ih]

/-- The leaf of a literal with these units. -/
def literalLeaf (units : List Nat) : Leaf String :=
  ⟨(decodeUnits none units).map String.ofList, .ok ()⟩

@[simp] theorem literalLeaf_textUnits (s : String) :
    literalLeaf (textUnits s) = ⟨.ok s, .ok ()⟩ := by
  simp [literalLeaf, decodeUnits_textUnits, Except.map]

theorem takeLiteral_spelling {units : List Nat} {cs : List Char} (h : Spelling units cs)
    (rest : List Char) : takeLiteral (cs ++ '"' :: rest) = (literalLeaf units, rest) := by
  have hread := readLiteral_spelling h none rest
  rw [spotAfter] at hread
  unfold takeLiteral literalLeaf
  rw [skipLiteral_spelling h, hread]
  cases decodeUnits none units <;> rfl

/-! ## Writing -/

theorem hexDigit?_hexDigit {n : Nat} (h : n < 16) : hexDigit? (hexDigit n) = some n := by
  decide +revert

/-- What is written for a character spells its units. -/
theorem spelling_writeChar (c : Char) {units : List Nat} {cs : List Char}
    (h : Spelling units cs) : Spelling (charUnits c ++ units) (writeChar c ++ cs) := by
  have short (letter : Char) (hescape : escapeOf? letter = some c) :
      Spelling (charUnits c ++ units) ('\\' :: letter :: cs) := by
    rw [charUnits_append_of_small (escapeOf?_some hescape).2]
    exact .escape letter c hescape h
  unfold writeChar
  split
  case h_8 hquote hslash _ _ _ _ _ =>
    split
    · rename_i hcontrol
      have hunit : charUnits c ++ units =
          (16 * (16 * (16 * 0 + 0) + c.toNat / 16) + c.toNat % 16) :: units := by
        rw [charUnits_append_of_small (by omega)]
        congr 1
        omega
      rw [hunit]
      exact .digits rfl rfl (hexDigit?_hexDigit (by omega)) (hexDigit?_hexDigit (by omega)) h
    · rename_i hcontrol
      exact .plain c hquote hslash (by omega) h
  all_goals exact short _ rfl

theorem literal_writeLiteral (s : String) : Literal (textUnits s) (writeLiteral s) := by
  refine .quoted ?_
  unfold textUnits
  induction s.toList with
  | nil => exact .nil
  | cons c cs ih => exact spelling_writeChar c ih

end ConsumerGroups.Json
