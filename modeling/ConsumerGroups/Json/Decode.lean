-- From trees to values of a type. Each decoder asks for one form and reports the first problem
-- that it meets. A record is given as an object, with its fields in any order and unknown keys
-- skipped, or as an array of its fields in the order of declaration.
import ConsumerGroups.Json.Node
import ConsumerGroups.Labels
import ConsumerGroups.Table

set_option autoImplicit false

namespace ConsumerGroups.Json

abbrev Decoded (α : Type) := Except Problem α

def failFault {α : Type} (f : Fault) : Decoded α := .error (.fault f)

def orFault {α : Type} : Except Fault α → Decoded α
  | .ok a => .ok a
  | .error f => failFault f

/-- Fails for a value of a type other than the expected one. -/
def wrongType {α : Type} (found : Found) (expected : String) : Decoded α :=
  .error (.mismatch (.wrongType found expected))

/-- Fails because `node` is not of the expected type; a fault in a leaf comes first. -/
def Node.mismatch {α : Type} (node : Node) (expected : String) : Decoded α :=
  match node with
  | .absent => failFault .cutShort
  | .null => wrongType .null expected
  | .boolean b => wrongType (.boolean b) expected
  | .number n => match n.read with
    | .ok (.natural n) => wrongType (.integer n) expected
    | .ok (.negative n) => wrongType (.integer n) expected
    | .ok .float => wrongType .float expected
    | .error f => failFault f
  | .text s => match s.read with
    | .ok s => wrongType (.text s) expected
    | .error f => failFault f
  | .array _ => wrongType .sequence expected
  | .object _ => wrongType .map expected
  | .junk f => failFault f

/-! ## Single values -/

def Node.boolean? : Node → Decoded Bool
  | .boolean b => .ok b
  | node => node.mismatch "a boolean"

/-- A text; `expected` is what messages call it. -/
def Node.text? (expected : String) : Node → Decoded String
  | .text s => orFault s.read
  | node => node.mismatch expected

def Node.unit? : Node → Decoded Unit
  | .null => .ok ()
  | node => node.mismatch "unit"

/-- An integer from `low` to `high`; `expected` is what messages call it. -/
def Node.integer? (low high : Int) (expected : String) : Node → Decoded Int
  | .number ⟨.ok (.natural n), _⟩ =>
    if low ≤ n ∧ n ≤ high then .ok n else .error (.mismatch (.outOfRange n expected))
  | .number ⟨.ok (.negative n), _⟩ =>
    if low ≤ n ∧ n ≤ high then .ok n else .error (.mismatch (.outOfRange n expected))
  | node => node.mismatch expected

def Node.word64? (node : Node) : Decoded UInt64 :=
  (node.integer? 0 (UInt64.size - 1) "u64").map (fun n => UInt64.ofNat n.toNat)

def Node.int32? (node : Node) : Decoded Int32 :=
  (node.integer? Int32.minValue.toInt Int32.maxValue.toInt "i32").map Int32.ofInt

def Items.set? {α : Type} [Ord α] [Std.TransOrd α] (item? : Node → Decoded α) :
    SortedSet α → Items → Decoded (SortedSet α)
  | s, .nil => .ok s
  | s, .cons item rest => match item? item with
    | .ok a => Items.set? item? (s.add a) rest
    | .error p => .error p
  | _, .broken f => failFault f

/-- A set, given as an array in any order and with repetitions. -/
def Node.set? {α : Type} [Ord α] [Std.TransOrd α] (item? : Node → Decoded α) :
    Node → Decoded (SortedSet α)
  | .array items => items.set? item? Table.empty
  | node => node.mismatch "a sequence"

def labelled? (α : Type) [Labelled α] (label : String) : Decoded α :=
  match choice? α label with
  | some a => .ok a
  | none => .error (.mismatch (.unknownLabel label (labels α)))

/-- A choice, given as its label or as an object with the label as its only key and no value. -/
def Node.choice? (α : Type) [Labelled α] : Node → Decoded α
  | .text s => do labelled? α (← orFault s.read)
  | .object (.cons key value rest) => do
    let a ← labelled? α (← orFault key.read)
    value.unit?
    match rest with
    | .nil => .ok a
    | .broken f => failFault f
    | _ => failFault .malformed
  | .object (.noColon key f) => do
    let _ ← labelled? α (← orFault key.read)
    failFault f
  | .object (.noKey found) => failFault (keyFault found)
  | .object (.broken f) => failFault f
  | .absent => failFault .cutShort
  | _ => failFault .malformed

/-! ## Records -/

/-- A field of a record that is being filled. -/
structure Field (σ : Type) where
  name : String
  optional : Bool
  given : σ → Bool
  fill : Node → σ → Decoded σ

def fieldNamed? {σ : Type} (fields : List (Field σ)) (name : String) : Option (Field σ) :=
  fields.find? (fun f => f.name == name)

/-- Fails at a field that must be there and is not. -/
def checkGiven {σ : Type} (fields : List (Field σ)) (s : σ) : Decoded σ :=
  match fields.find? (fun f => !f.optional && !f.given s) with
  | some f => .error (.mismatch (.missingField f.name))
  | none => .ok s

/-- Fills a record from an object. -/
def Members.record? {σ : Type} (fields : List (Field σ)) : Members → σ → Decoded σ
  | .nil, s => checkGiven fields s
  | .cons key value rest, s => match key.read with
    | .error f => failFault f
    | .ok name => match fieldNamed? fields name with
      | none => match value.skip with
        | .ok () => Members.record? fields rest s
        | .error f => failFault f
      | some field =>
        if field.given s then .error (.mismatch (.duplicateField name))
        else match field.fill value s with
          | .ok s => Members.record? fields rest s
          | .error p => .error p
  | .noColon key f, s => match key.read with
    | .error g => failFault g
    | .ok name => match fieldNamed? fields name with
      | none => failFault f
      | some field =>
        if field.given s then .error (.mismatch (.duplicateField name)) else failFault f
  | .noKey found, _ => failFault (keyFault found)
  | .broken f, _ => failFault f

/-- Fills a record from an array; `place` counts the fields passed. -/
def Items.record? {σ : Type} (expected : String) : List (Field σ) → Nat → Items → σ → Decoded σ
  | [], _, .nil, s => .ok s
  | [], _, .cons _ _, _ => failFault .malformed
  | [], _, .broken f, _ => failFault f
  | field :: fields, place, .nil, s =>
    if field.optional then Items.record? expected fields (place + 1) .nil s
    else .error (.mismatch (.tooShort place expected))
  | field :: fields, place, .cons item rest, s => match field.fill item s with
    | .ok s => Items.record? expected fields (place + 1) rest s
    | .error p => .error p
  | _ :: _, _, .broken f, _ => failFault f

/-- Fills a record; `title` is what messages call it. -/
def Node.record? {σ : Type} (title : String) (fields : List (Field σ)) (start : σ) :
    Node → Decoded σ
  | .array items =>
    items.record? s!"struct {title} with {fields.length} elements" fields 0 start
  | .object members => members.record? fields start
  | node => node.mismatch s!"struct {title}"

/-! ## Whole texts -/

/-- Decodes a text that holds one value and nothing else. -/
def decodeText {α : Type} (decode : Node → Decoded α) (s : String) : Decoded α :=
  let (node, rest) := Node.ofChars s.toList
  match decode node with
  | .error p => .error p
  | .ok a => if (skipGap rest).isEmpty then .ok a else failFault .malformed

end ConsumerGroups.Json
