-- How listeners appear in messages. A listener that is a function goes by a name; where none is
-- given, one is made from a serial number, in the form of five groups of hexadecimal digits.
import ConsumerGroups.Text.Quoted

set_option autoImplicit false

namespace ConsumerGroups

/-- The last `count` hexadecimal digits of a number. -/
def hexDigits : Nat → Nat → List Char
  | 0, _ => []
  | count + 1, n => hexDigits count (n / 16) ++ [Nat.digitChar (n % 16)]

/-- The sizes of the groups of digits in a made name. -/
def nameGroups : List Nat := [8, 4, 4, 4, 12]

/-- Digits in groups with hyphens between them. -/
def hyphenated : List Nat → List Char → List Char
  | [], _ => []
  | [size], digits => digits.take size
  | size :: sizes, digits => digits.take size ++ '-' :: hyphenated sizes (digits.drop size)

def madeName (serial : Nat) : String := String.ofList (hyphenated nameGroups (hexDigits 32 serial))

/-- A function that listens, as messages show it. -/
def describeFunction (name : String) : String :=
  "FnListener \x7b id: u!(" ++ quoted name ++ "), callback: \"<function>\" \x7d"

def describeListeners (n : Nat) : String := "ListenerList \x7b listeners: " ++ toString n ++ " \x7d"

end ConsumerGroups
