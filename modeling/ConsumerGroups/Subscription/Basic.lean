-- Subscriptions: what a consumer group wants of a topic. A subscription names the topic and a
-- filter expression with its dialect, and carries a version, so that a late one can be told.
import ConsumerGroups.Labels
import ConsumerGroups.Subscription.Tag

set_option autoImplicit false

namespace ConsumerGroups

/-- What a group wants of a topic. -/
structure Subscription where
  topic : String
  expression : String
  /-- the tags of a tag expression -/
  tags : SortedSet String
  /-- the codes of the tags, for a fast first look -/
  codes : SortedSet Int32
  version : UInt64
  dialect : Dialect
  /-- whether a filter class decides -/
  classFilter : Bool
deriving DecidableEq

namespace Subscription

def everything : String := "*"

def wantsAll (s : Subscription) : Bool := s.dialect = .tag && s.expression = everything

/-- The subscription of a tag expression. Blanks around it do not count, and an empty expression
wants everything. -/
def ofTags (topic expression : String) (version : UInt64) : Subscription :=
  let trimmed := trimText expression
  let expression := if trimmed = "" then everything else trimmed
  let tags := if expression = everything then [] else tagsOf expression
  { topic, expression, version
    tags := SortedSet.ofList tags
    codes := SortedSet.ofList (tags.map tagCode)
    dialect := .tag
    classFilter := false }

def ofSql (topic condition : String) (version : UInt64) : Subscription where
  topic := topic
  expression := trimText condition
  tags := Table.empty
  codes := Table.empty
  version := version
  dialect := .sql92
  classFilter := false

def describe (s : Subscription) : String :=
  s!"SubscriptionData(topic={s.topic}, sub_string={s.expression}, " ++
    s!"expression_type={Labelled.label s.dialect}, sub_version={s.version.toNat})"

end Subscription

end ConsumerGroups
