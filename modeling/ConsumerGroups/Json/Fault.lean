-- Why a JSON text cannot be used: it is malformed, it is cut short, or it is JSON but not of the
-- form that is asked for. The text is read from left to right and the first problem counts.
import ConsumerGroups.Text.Quoted

set_option autoImplicit false

namespace ConsumerGroups.Json

/-- Why a text is not JSON. -/
inductive Fault where
  /-- a character that cannot stand where it does -/
  | malformed
  | cutShort
deriving DecidableEq, Repr

/-- A value that is of another type than the one asked for. -/
inductive Found where
  | null
  | boolean (b : Bool)
  | integer (n : Int)
  | float
  | text (s : String)
  | sequence
  | map
deriving DecidableEq, Repr

/-- Why JSON is not of the form asked for. -/
inductive Mismatch where
  | wrongType (found : Found) (expected : String)
  | outOfRange (n : Int) (expected : String)
  | unknownLabel (label : String) (labels : List String)
  | missingField (name : String)
  | duplicateField (name : String)
  /-- a record given as a list that is too short -/
  | tooShort (length : Nat) (expected : String)
deriving DecidableEq, Repr

/-- Why a text does not decode. -/
inductive Problem where
  | fault (f : Fault)
  | mismatch (m : Mismatch)
deriving DecidableEq, Repr

/-! ## The messages -/

def Found.describe : Found → String
  | .null => "null"
  | .boolean b => s!"boolean `{b}`"
  | .integer n => s!"integer `{n}`"
  | .float => "floating point"
  | .text s => "string " ++ quoted s
  | .sequence => "sequence"
  | .map => "map"

/-- Labels as messages list them. -/
def listLabels : List String → String
  | [a] => s!"`{a}`"
  | [a, b] => s!"`{a}` or `{b}`"
  | labels => "one of " ++ String.intercalate ", " (labels.map (fun a => s!"`{a}`"))

def Mismatch.message : Mismatch → String
  | .wrongType found expected => s!"invalid type: {found.describe}, expected {expected}"
  | .outOfRange n expected => s!"invalid value: integer `{n}`, expected {expected}"
  | .unknownLabel label labels => s!"unknown variant `{label}`, expected {listLabels labels}"
  | .missingField name => s!"missing field `{name}`"
  | .duplicateField name => s!"duplicate field `{name}`"
  | .tooShort length expected => s!"invalid length {length}, expected {expected}"

end ConsumerGroups.Json
