-- Texts shown between quotation marks, for messages that show a value. A quotation mark and a
-- backslash are escaped, the common controls have short names, and a character that would not
-- show is written by its number.
import ConsumerGroups.Text.Hidden

set_option autoImplicit false

namespace ConsumerGroups

/-- A number in lower-case hexadecimal, without leading zeros. -/
def hexText (n : Nat) : String := String.ofList (Nat.toDigits 16 n)

/-- One character as it stands in a quoted text. -/
def quotedChar (c : Char) : String :=
  if c = '\x00' then "\\0"
  else if c = '\t' then "\\t"
  else if c = '\r' then "\\r"
  else if c = '\n' then "\\n"
  else if c = '\\' then "\\\\"
  else if c = '"' then "\\\""
  else if isHidden c then "\\u\x7b" ++ hexText c.toNat ++ "\x7d"
  else c.toString

/-- A text between quotation marks. -/
def quoted (s : String) : String := "\"" ++ String.join (s.toList.map quotedChar) ++ "\""

end ConsumerGroups
