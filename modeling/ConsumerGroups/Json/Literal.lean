-- The text literals of JSON: how one is read, how one is skipped without being understood, and
-- how one is written. Reading and skipping start behind the opening quotation mark.
import ConsumerGroups.Json.Fault

set_option autoImplicit false

namespace ConsumerGroups.Json

def hexDigit? (c : Char) : Option Nat :=
  if '0' ≤ c ∧ c ≤ '9' then some (c.toNat - 48)
  else if 'a' ≤ c ∧ c ≤ 'f' then some (c.toNat - 87)
  else if 'A' ≤ c ∧ c ≤ 'F' then some (c.toNat - 55)
  else none

/-- The character that a backslash with this letter stands for. -/
def escapeOf? (c : Char) : Option Char :=
  match c with
  | '"' => some '"'
  | '\\' => some '\\'
  | '/' => some '/'
  | 'b' => some '\x08'
  | 'f' => some '\x0c'
  | 'n' => some '\n'
  | 'r' => some '\r'
  | 't' => some '\t'
  | _ => none

def byteCount (cs : List Char) : Nat := cs.foldl (fun n c => n + c.utf8Size) 0

/-- The fault of a `\u` with `count` digits read when no digit follows. Four bytes are due. -/
def digitFault (count : Nat) (rest : List Char) : Fault :=
  if count + byteCount rest < 4 then .cutShort else .malformed

/-- Whether a code unit is the first half of a pair. -/
def isHighHalf (u : Nat) : Bool := 0xD800 ≤ u && u ≤ 0xDBFF

/-- Whether a code unit is the second half of a pair. -/
def isLowHalf (u : Nat) : Bool := 0xDC00 ≤ u && u ≤ 0xDFFF

def joinHalves (high low : Nat) : Char :=
  Char.ofNat (0x10000 + (high - 0xD800) * 0x400 + (low - 0xDC00))

/-! ## Reading -/

/-- Where the reader of a literal stands. -/
inductive Spot where
  | plain
  | escape
  /-- inside the digits of a unit, maybe the second half of a pair -/
  | digits (high : Option Nat) (count value : Nat)
  /-- behind a first half: a backslash is due -/
  | pairBackslash (high : Nat)
  /-- behind a first half and a backslash: the letter is due -/
  | pairLetter (high : Nat)

/-- One character more in front of what was read. -/
def consRead (c : Char) (r : Except Fault (List Char × List Char)) :
    Except Fault (List Char × List Char) :=
  r.map (fun p => (c :: p.1, p.2))

/-- Reads a literal: its characters, and the text behind it. A half of a pair that stands alone
is a fault. -/
def readLiteral : Spot → List Char → Except Fault (List Char × List Char)
  | _, [] => .error .cutShort
  | .plain, c :: cs =>
    if c = '"' then .ok ([], cs)
    else if c = '\\' then readLiteral .escape cs
    else if c.toNat < 0x20 then .error .malformed
    else consRead c (readLiteral .plain cs)
  | .escape, c :: cs =>
    if c = 'u' then readLiteral (.digits none 0 0) cs
    else match escapeOf? c with
      | some d => consRead d (readLiteral .plain cs)
      | none => .error .malformed
  | .digits high count value, c :: cs =>
    match hexDigit? c with
    | none => .error (digitFault count (c :: cs))
    | some d =>
      let unit := 16 * value + d
      if count < 3 then readLiteral (.digits high (count + 1) unit) cs
      else match high with
        | none =>
          if isHighHalf unit then readLiteral (.pairBackslash unit) cs
          else if isLowHalf unit then .error .malformed
          else consRead (Char.ofNat unit) (readLiteral .plain cs)
        | some h =>
          if isLowHalf unit then consRead (joinHalves h unit) (readLiteral .plain cs)
          else .error .malformed
  | .pairBackslash high, c :: cs =>
    if c = '\\' then readLiteral (.pairLetter high) cs else .error .malformed
  | .pairLetter high, c :: cs =>
    if c = 'u' then readLiteral (.digits (some high) 0 0) cs else .error .malformed

/-! ## Skipping -/

/-- Where the skipper of a literal stands. -/
inductive SkipSpot where
  | plain
  | escape
  | digits (count : Nat)

/-- Skips a literal, and gives the text behind it. Halves of pairs may stand alone here. -/
def skipLiteral : SkipSpot → List Char → Except Fault (List Char)
  | _, [] => .error .cutShort
  | .plain, c :: cs =>
    if c = '"' then .ok cs
    else if c = '\\' then skipLiteral .escape cs
    else if c.toNat < 0x20 then .error .malformed
    else skipLiteral .plain cs
  | .escape, c :: cs =>
    if c = 'u' then skipLiteral (.digits 0) cs
    else if (escapeOf? c).isSome then skipLiteral .plain cs
    else .error .malformed
  | .digits count, c :: cs =>
    if (hexDigit? c).isSome then
      if count < 3 then skipLiteral (.digits (count + 1)) cs else skipLiteral .plain cs
    else .error (digitFault count (c :: cs))

/-! ## Writing -/

def hexDigit (n : Nat) : Char := Nat.digitChar n

def writeChar (c : Char) : List Char :=
  match c with
  | '"' => ['\\', '"']
  | '\\' => ['\\', '\\']
  | '\x08' => ['\\', 'b']
  | '\t' => ['\\', 't']
  | '\n' => ['\\', 'n']
  | '\x0c' => ['\\', 'f']
  | '\r' => ['\\', 'r']
  | c =>
    if c.toNat < 0x20 then ['\\', 'u', '0', '0', hexDigit (c.toNat / 16), hexDigit (c.toNat % 16)]
    else [c]

/-- The characters of a literal, with both quotation marks. -/
def writeLiteral (s : String) : List Char := '"' :: s.toList.flatMap writeChar ++ ['"']

end ConsumerGroups.Json
