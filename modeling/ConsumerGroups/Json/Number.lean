-- The numbers of JSON. A number is read as an integer when it is written as one and fits 64 bits,
-- with or without a sign; any other number is a float, and of a float only its range matters.
import ConsumerGroups.Json.Fault

set_option autoImplicit false

namespace ConsumerGroups.Json

inductive Number where
  /-- an integer from zero up, below `2 ^ 64` -/
  | natural (n : Nat)
  /-- an integer below zero, from `-2 ^ 63` up -/
  | negative (n : Int)
  | float
deriving DecidableEq, Repr

structure Numeral where
  minus : Bool
  whole : List Char
  fraction : Option (List Char)
  exponent : Option (Bool × List Char)
deriving DecidableEq, Repr

def digitsValue (ds : List Char) : Nat := ds.foldl (fun n d => 10 * n + (d.toNat - 48)) 0

/-! ## The parts of a number -/

/-- Digits from the front of a text, at least one. -/
def takeDigits (cs : List Char) : Except Fault (List Char × List Char) :=
  match cs with
  | [] => .error .cutShort
  | c :: _ => if c.isDigit then .ok (cs.span Char.isDigit) else .error .malformed

/-- The digits before the point. A zero in front is followed by no other digit. -/
def takeWhole (cs : List Char) : Except Fault (List Char × List Char) := do
  let (ds, rest) ← takeDigits cs
  match ds with
  | '0' :: _ :: _ => .error .malformed
  | _ => .ok (ds, rest)

/-- The digits behind the point, when there is a point. -/
def takeFraction (cs : List Char) : Except Fault (Option (List Char) × List Char) :=
  match cs with
  | '.' :: rest => (takeDigits rest).map (fun p => (some p.1, p.2))
  | _ => .ok (none, cs)

/-- The exponent, when there is one: whether it is negative, and its digits. -/
def takeExponent (cs : List Char) : Except Fault (Option (Bool × List Char) × List Char) :=
  match cs with
  | c :: rest =>
    if c = 'e' ∨ c = 'E' then
      match rest with
      | '-' :: rest => (takeDigits rest).map (fun p => (some (true, p.1), p.2))
      | '+' :: rest => (takeDigits rest).map (fun p => (some (false, p.1), p.2))
      | _ => (takeDigits rest).map (fun p => (some (false, p.1), p.2))
    else .ok (none, cs)
  | [] => .ok (none, cs)

def takeNumeral (cs : List Char) : Except Fault (Numeral × List Char) := do
  let (minus, cs) := match cs with
    | '-' :: rest => (true, rest)
    | _ => (false, cs)
  let (whole, cs) ← takeWhole cs
  let (fraction, cs) ← takeFraction cs
  let (exponent, cs) ← takeExponent cs
  .ok (⟨minus, whole, fraction, exponent⟩, cs)

/-! ## The range of a float -/

/-- The nearest number with at most 53 binary digits before its zeros; a tie goes to the even
one. -/
def round53 (n : Nat) : Nat :=
  if n < Nat.pow 2 53 then n
  else
    let unit := Nat.pow 2 (n.log2 - 52)
    let q := n / unit
    let r := n % unit
    let up := 2 * r > unit || (2 * r == unit && q % 2 == 1)
    (if up then q + 1 else q) * unit

/-- The leading digits that fit 64 bits, as a number, and how many digits that are. -/
def significand : Nat → Nat → List Char → Nat × Nat
  | value, count, [] => (value, count)
  | value, count, d :: ds =>
    let next := 10 * value + (d.toNat - 48)
    if next < UInt64.size then significand next (count + 1) ds else (value, count)

/-- Whether a number is too large for a double: its leading digits and its power of ten, each
rounded to 53 binary digits, have a product that rounds to `2 ^ 1024` or more. -/
def Numeral.tooLarge (n : Numeral) : Bool :=
  let fraction := n.fraction.getD []
  let (value, count) := significand 0 0 (n.whole ++ fraction)
  let written : Int := match n.exponent with
    | none => 0
    | some (minus, ds) => if minus then -(digitsValue ds : Int) else digitsValue ds
  let power : Int := written + (n.whole.length : Int) - (count : Int)
  if value = 0 then false
  else if power < 0 then false
  else if power > 308 then true
  else round53 (round53 value * round53 (Nat.pow 10 power.toNat)) ≥ Nat.pow 2 1024

def Numeral.value (n : Numeral) : Except Fault Number :=
  let magnitude := digitsValue n.whole
  if n.fraction.isNone ∧ n.exponent.isNone ∧ n.minus = false ∧ magnitude < UInt64.size then
    .ok (.natural magnitude)
  else if n.fraction.isNone ∧ n.exponent.isNone ∧ n.minus = true ∧ 0 < magnitude ∧
      magnitude ≤ Nat.pow 2 63 then
    .ok (.negative (-(magnitude : Int)))
  else if n.tooLarge then .error .malformed
  else .ok .float

end ConsumerGroups.Json
