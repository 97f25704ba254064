-- A JSON text as a tree that keeps its faults in place. A reader of the tree meets values and
-- faults from left to right, so it reports whichever comes first, and it may skip a value that it
-- has no use for: skipping forgives numbers out of range and lone halves of character pairs.
import ConsumerGroups.Json.Literal
import ConsumerGroups.Json.Number

set_option autoImplicit false

namespace ConsumerGroups.Json

/-- A literal or a number: what reading it gives, and whether skipping it fails. -/
structure Leaf (α : Type) where
  read : Except Fault α
  skip : Except Fault Unit

mutual

/-- What stands where a value is due. -/
inductive Node where
  | absent
  | null
  | boolean (b : Bool)
  | number (n : Leaf Number)
  | text (s : Leaf String)
  | array (items : Items)
  | object (members : Members)
  | junk (f : Fault)

/-- The items of an array, up to its end or its first fault. -/
inductive Items where
  | nil
  | cons (item : Node) (rest : Items)
  /-- neither a comma nor the closing bracket -/
  | broken (f : Fault)

/-- The members of an object, up to its end or its first fault. -/
inductive Members where
  | nil
  | cons (key : Leaf String) (value : Node) (rest : Members)
  /-- something that is no key where a key is due -/
  | noKey (found : Node)
  | noColon (key : Leaf String) (f : Fault)
  /-- neither a comma nor the closing brace -/
  | broken (f : Fault)

end

/-! ## From text to tree -/

/-- Whether JSON lets a character stand between tokens. -/
def isGap (c : Char) : Bool := c = ' ' || c = '\n' || c = '\t' || c = '\r'

def skipGap (cs : List Char) : List Char := cs.dropWhile isGap

def takeWord : List Char → List Char → Except Fault (List Char)
  | [], cs => .ok cs
  | _ :: _, [] => .error .cutShort
  | w :: ws, c :: cs => if w = c then takeWord ws cs else .error .malformed

/-- The value `node` if the rest of its word follows. -/
def wordNode (node : Node) (word : String) (cs : List Char) : Node × List Char :=
  match takeWord word.toList cs with
  | .ok rest => (node, rest)
  | .error f => (.junk f, [])

def takeLiteral (cs : List Char) : Leaf String × List Char :=
  let read := (readLiteral .plain cs).map (fun p => String.ofList p.1)
  match skipLiteral .plain cs with
  | .ok rest => (⟨read, .ok ()⟩, rest)
  | .error f => (⟨read, .error f⟩, [])

/-- The number at the front of a text. Skipping calls a number malformed where reading calls it cut
short. -/
def takeNumber (cs : List Char) : Leaf Number × List Char :=
  match takeNumeral cs with
  | .ok (n, rest) => (⟨n.value, .ok ()⟩, rest)
  | .error f => (⟨.error f, .error .malformed⟩, [])

mutual

/-- The value at the front of a text, and the text behind it. The fuel bounds the steps. -/
def takeNode : Nat → List Char → Node × List Char
  | 0, _ => (.junk .malformed, [])
  | fuel + 1, cs =>
    match skipGap cs with
    | [] => (.absent, [])
    | c :: rest =>
      if c = 'n' then wordNode .null "ull" rest
      else if c = 't' then wordNode (.boolean true) "rue" rest
      else if c = 'f' then wordNode (.boolean false) "alse" rest
      else if c = '"' then
        let (s, rest) := takeLiteral rest
        (.text s, rest)
      else if c = '-' ∨ c.isDigit then
        let (n, rest) := takeNumber (c :: rest)
        (.number n, rest)
      else if c = '[' then
        match skipGap rest with
        | [] => (.array (.broken .cutShort), [])
        | d :: rest =>
          if d = ']' then (.array .nil, rest)
          else
            let (item, rest) := takeNode fuel (d :: rest)
            let (items, rest) := takeItems fuel rest
            (.array (.cons item items), rest)
      else if c = '\x7b' then
        match skipGap rest with
        | [] => (.object (.broken .cutShort), [])
        | d :: rest =>
          if d = '\x7d' then (.object .nil, rest)
          else
            let (members, rest) := takeMember fuel (d :: rest)
            (.object members, rest)
      else (.junk .malformed, [])

def takeItems : Nat → List Char → Items × List Char
  | 0, _ => (.broken .malformed, [])
  | fuel + 1, cs =>
    match skipGap cs with
    | [] => (.broken .cutShort, [])
    | c :: rest =>
      if c = ']' then (.nil, rest)
      else if c = ',' then
        let (item, rest) := takeNode fuel rest
        let (items, rest) := takeItems fuel rest
        (.cons item items, rest)
      else (.broken .malformed, [])

def takeMember : Nat → List Char → Members × List Char
  | 0, _ => (.broken .malformed, [])
  | fuel + 1, cs =>
    match skipGap cs with
    | '"' :: rest =>
      let (key, rest) := takeLiteral rest
      match skipGap rest with
      | [] => (.noColon key .cutShort, [])
      | c :: rest =>
        if c = ':' then
          let (value, rest) := takeNode fuel rest
          let (members, rest) := takeMembers fuel rest
          (.cons key value members, rest)
        else (.noColon key .malformed, [])
    | cs => (.noKey (takeNode fuel cs).1, [])

def takeMembers : Nat → List Char → Members × List Char
  | 0, _ => (.broken .malformed, [])
  | fuel + 1, cs =>
    match skipGap cs with
    | [] => (.broken .cutShort, [])
    | c :: rest =>
      if c = '\x7d' then (.nil, rest)
      else if c = ',' then takeMember fuel rest
      else (.broken .malformed, [])

end

/-- The tree of a text, and what stands behind the value. Every step but two in a row takes a
character, so three times the length is fuel enough. -/
def Node.ofChars (cs : List Char) : Node × List Char := takeNode (3 * cs.length + 3) cs

/-! ## Skipping -/

/-- The fault when a key is due and something else is found. -/
def keyFault : Node → Fault
  | .absent => .cutShort
  | _ => .malformed

mutual

/-- Passes over a value, up to its first fault. -/
def Node.skip : Node → Except Fault Unit
  | .absent => .error .cutShort
  | .null => .ok ()
  | .boolean _ => .ok ()
  | .number n => n.skip
  | .text s => s.skip
  | .array items => items.skip
  | .object members => members.skip
  | .junk f => .error f

def Items.skip : Items → Except Fault Unit
  | .nil => .ok ()
  | .cons item rest => match item.skip with
    | .ok () => rest.skip
    | .error f => .error f
  | .broken f => .error f

def Members.skip : Members → Except Fault Unit
  | .nil => .ok ()
  | .cons key value rest => match key.skip with
    | .ok () => match value.skip with
      | .ok () => rest.skip
      | .error f => .error f
    | .error f => .error f
  | .noKey found => .error (keyFault found)
  | .noColon key f => match key.skip with
    | .ok () => .error f
    | .error g => .error g
  | .broken f => .error f

end

end ConsumerGroups.Json
