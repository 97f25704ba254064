-- The closed sets of choices in this domain, each choice with the label that stands for it in
-- text. What a label means is the same everywhere: in messages, in settings and in requests.

set_option autoImplicit false

namespace ConsumerGroups

/-- A closed set of choices with labels. -/
class Labelled (α : Type) where
  /-- what messages call the set -/
  title : String
  choices : List α
  label : α → String

def labels (α : Type) [Labelled α] : List String :=
  (Labelled.choices (α := α)).map Labelled.label

/-- The choice whose label is exactly this text. -/
def choice? (α : Type) [Labelled α] (s : String) : Option α :=
  (Labelled.choices (α := α)).find? (fun a => Labelled.label a == s)

/-- An ASCII capital as its small letter, any other character as itself. -/
def foldCase (c : Char) : Char :=
  if 'A' ≤ c ∧ c ≤ 'Z' then Char.ofNat (c.toNat + 32) else c

/-- The choice whose label is this text when ASCII capitals and small letters count the same. -/
def choiceAnyCase? (α : Type) [Labelled α] (s : String) : Option α :=
  (Labelled.choices (α := α)).find? fun a =>
    (Labelled.label a).toList.map foldCase == s.toList.map foldCase

/-- The message when a text is the label of no choice. -/
def noSuchChoice : String := "Matching variant not found"

/-- A closed set of choices whose members also have a byte each. -/
class Coded (α : Type) extends Labelled α where
  code : α → UInt8

def ofCode? (α : Type) [Coded α] (b : UInt8) : Option α :=
  (Labelled.choices (α := α)).find? (fun a => Coded.code a == b)

/-- The message about a byte that belongs to no choice. -/
def noSuchCode (α : Type) [Labelled α] (b : UInt8) : String :=
  "Invalid `" ++ Labelled.title α ++ "` value: " ++ toString b.toNat

/-! ## How a group consumes -/

/-- Whether the members fetch messages themselves or are handed them. -/
inductive Consumption where
  | active
  | passive
deriving DecidableEq, Repr

instance : Coded Consumption where
  title := "ConsumeType"
  choices := [.active, .passive]
  label
    | .active => "CONSUME_ACTIVELY"
    | .passive => "CONSUME_PASSIVELY"
  code
    | .active => 0
    | .passive => 1

/-- Whether each member gets every message or the members share them. -/
inductive Delivery where
  | broadcast
  | shared
deriving DecidableEq, Repr

instance : Inhabited Delivery := ⟨.shared⟩

instance : Coded Delivery where
  title := "MessageModel"
  choices := [.broadcast, .shared]
  label
    | .broadcast => "BROADCASTING"
    | .shared => "CLUSTERING"
  code
    | .broadcast => 0
    | .shared => 1

/-- Where a new group begins to read. -/
inductive StartPoint where
  | lastOffset
  | firstOffset
  | timestamp
deriving DecidableEq, Repr

instance : Inhabited StartPoint := ⟨.lastOffset⟩

instance : Coded StartPoint where
  title := "ConsumeFromWhere"
  choices := [.lastOffset, .firstOffset, .timestamp]
  label
    | .lastOffset => "CONSUME_FROM_LAST_OFFSET"
    | .firstOffset => "CONSUME_FROM_FIRST_OFFSET"
    | .timestamp => "CONSUME_FROM_TIMESTAMP"
  code
    | .lastOffset => 0
    | .firstOffset => 1
    | .timestamp => 2

/-- What a group as a whole has agreed on. -/
structure Policy where
  consumption : Consumption
  delivery : Delivery
  start : StartPoint
deriving DecidableEq, Repr

/-- Where nothing is said, members are handed the messages and share them, from the last offset. -/
instance : Inhabited Policy := ⟨⟨.passive, .shared, .lastOffset⟩⟩

/-! ## Who consumes and with what filter -/

inductive Language where
  | java
  | cpp
  | dotnet
  | python
  | go
  | rust
  | other
deriving DecidableEq, Repr

instance : Inhabited Language := ⟨.java⟩

instance : Coded Language where
  title := "LanguageCode"
  choices := [.java, .cpp, .dotnet, .python, .go, .rust, .other]
  label
    | .java => "JAVA"
    | .cpp => "CPP"
    | .dotnet => "DOTNET"
    | .python => "PYTHON"
    | .go => "GO"
    | .rust => "RUST"
    | .other => "OTHER"
  code
    | .java => 0
    | .cpp => 1
    | .dotnet => 2
    | .python => 3
    | .go => 4
    | .rust => 5
    | .other => 255

inductive Dialect where
  | tag
  | sql92
deriving DecidableEq, Repr

instance : Inhabited Dialect := ⟨.tag⟩

instance : Coded Dialect where
  title := "ExpressionType"
  choices := [.tag, .sql92]
  label
    | .tag => "TAG"
    | .sql92 => "SQL92"
  code
    | .tag => 0
    | .sql92 => 1

/-! ## What is announced to listeners -/

/-- The kinds of announcements about a group. -/
inductive EventKind where
  | clientJoined
  | clientLeft
  | declared
  | dissolved
  | changed
deriving DecidableEq, Repr

instance : Labelled EventKind where
  title := "ConsumerGroupEventKind"
  choices := [.clientJoined, .clientLeft, .declared, .dissolved, .changed]
  label
    | .clientJoined => "CLIENT_REGISTER"
    | .clientLeft => "CLIENT_UNREGISTER"
    | .declared => "REGISTER"
    | .dissolved => "UNREGISTER"
    | .changed => "CHANGE"

/-! ## A label leads back to its choice -/

theorem choice?_label_dialect (a : Dialect) : choice? Dialect (Labelled.label a) = some a := by
  cases a <;> decide

end ConsumerGroups
