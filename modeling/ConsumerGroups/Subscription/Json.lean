-- Subscriptions as JSON. Topic, expression and version must be there; the rest has defaults. The
-- tags and the codes are taken as they are given, whatever the expression says.
import ConsumerGroups.Json.Decode
import ConsumerGroups.Json.Value
import ConsumerGroups.Subscription.Basic

set_option autoImplicit false

namespace ConsumerGroups.Subscription

structure Draft where
  topic : Option String := none
  expression : Option String := none
  tags : Option (SortedSet String) := none
  codes : Option (SortedSet Int32) := none
  version : Option UInt64 := none
  dialect : Option Dialect := none
  classFilter : Option Bool := none

/-- The draft with defaults in place of what is not given. -/
def Draft.finish (d : Draft) : Subscription where
  topic := d.topic.getD ""
  expression := d.expression.getD ""
  tags := d.tags.getD Table.empty
  codes := d.codes.getD Table.empty
  version := d.version.getD 0
  dialect := d.dialect.getD default
  classFilter := d.classFilter.getD false

def fields : List (Json.Field Draft) :=
  [ { name := "topic", optional := false, given := (·.topic.isSome)
      fill := fun node d => (node.text? "a &str").map (fun s => { d with topic := some s }) },
    { name := "subString", optional := false, given := (·.expression.isSome)
      fill := fun node d =>
        (node.text? "a string").map (fun s => { d with expression := some s }) },
    { name := "tagsSet", optional := true, given := (·.tags.isSome)
      fill := fun node d =>
        (node.set? (Json.Node.text? "a string")).map (fun s => { d with tags := some s }) },
    { name := "codeSet", optional := true, given := (·.codes.isSome)
      fill := fun node d =>
        (node.set? Json.Node.int32?).map (fun s => { d with codes := some s }) },
    { name := "subVersion", optional := false, given := (·.version.isSome)
      fill := fun node d => node.word64?.map (fun n => { d with version := some n }) },
    { name := "expressionType", optional := true, given := (·.dialect.isSome)
      fill := fun node d => (node.choice? Dialect).map (fun a => { d with dialect := some a }) },
    { name := "classFilterMode", optional := true, given := (·.classFilter.isSome)
      fill := fun node d => node.boolean?.map (fun b => { d with classFilter := some b }) } ]

def ofNode (node : Json.Node) : Json.Decoded Subscription :=
  (node.record? "SubscriptionData" fields {}).map Draft.finish

def ofText (text : String) : Json.Decoded Subscription := Json.decodeText ofNode text

def toJson (s : Subscription) : Json.Value :=
  .object
    [ ("topic", .text s.topic),
      ("subString", .text s.expression),
      ("tagsSet", .array (s.tags.toList.map .text)),
      ("codeSet", .array (s.codes.toList.map (fun c => .integer c.toInt))),
      ("subVersion", .integer s.version.toNat),
      ("expressionType", .text (Labelled.label s.dialect)),
      ("classFilterMode", .boolean s.classFilter) ]

def toText (s : Subscription) : String := s.toJson.render

end ConsumerGroups.Subscription
