-- JSON as it is written: values, and their compact text without any gap.
import ConsumerGroups.Json.Literal

set_option autoImplicit false

namespace ConsumerGroups.Json

/-- A value to be written. -/
inductive Value where
  | null
  | boolean (b : Bool)
  | integer (n : Int)
  | text (s : String)
  | array (items : List Value)
  | object (members : List (String × Value))

def joinComma : List (List Char) → List Char
  | [] => []
  | [a] => a
  | a :: b :: rest => a ++ ',' :: joinComma (b :: rest)

mutual

def Value.write : Value → List Char
  | .null => "null".toList
  | .boolean true => "true".toList
  | .boolean false => "false".toList
  | .integer n => (toString n).toList
  | .text s => writeLiteral s
  | .array items => '[' :: joinComma (Value.writeItems items) ++ [']']
  | .object members => '\x7b' :: joinComma (Value.writeMembers members) ++ ['\x7d']

def Value.writeItems : List Value → List (List Char)
  | [] => []
  | v :: rest => v.write :: Value.writeItems rest

def Value.writeMembers : List (String × Value) → List (List Char)
  | [] => []
  | (k, v) :: rest => (writeLiteral k ++ ':' :: v.write) :: Value.writeMembers rest

end

def Value.render (v : Value) : String := String.ofList v.write

end ConsumerGroups.Json
