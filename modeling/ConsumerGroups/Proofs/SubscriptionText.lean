-- Subscriptions as text: what is written is read back, and an object that says topic, expression
-- and version is read as what it says, with defaults for what it leaves out.
import ConsumerGroups.Proofs.Decoding
import ConsumerGroups.Proofs.Writing
import ConsumerGroups.Subscription.Json

set_option autoImplicit false

namespace ConsumerGroups.Subscription

open Json

/-! ## What is said -/

/-- The names under which a subscription is said, in the order of declaration. -/
def fieldNames : List String :=
  ["topic", "subString", "tagsSet", "codeSet", "subVersion", "expressionType", "classFilterMode"]

theorem names_fields : fields.map Field.name = fieldNames := rfl

/-- What an object says of a subscription. The sets are lists as they are said: in any order, and
with repetitions. -/
structure Said where
  topic : String
  expression : String
  version : UInt64
  tags : Option (List String) := none
  codes : Option (List Int32) := none
  dialect : Option Dialect := none
  classFilter : Option Bool := none

/-- The members that say it. -/
def Said.members (said : Said) : List (String × Doc) :=
  Json.said "topic" .string (some said.topic) ++
    Json.said "subString" .string (some said.expression) ++
    Json.said "tagsSet" (fun tags => .array (tags.map .string)) said.tags ++
    Json.said "codeSet" (fun codes => .array (codes.map (fun c => .integer c.toInt))) said.codes ++
    Json.said "subVersion" (fun n => .integer n.toNat) (some said.version) ++
    Json.said "expressionType" (fun a => .string (Labelled.label a)) said.dialect ++
    Json.said "classFilterMode" .boolean said.classFilter

/-- Whether a subscription is what is said, with no tags, no codes, tags as the dialect and no
filter class where nothing is said. -/
structure Said.Means (said : Said) (s : Subscription) : Prop where
  topic : s.topic = said.topic
  expression : s.expression = said.expression
  version : s.version = said.version
  tags : ∀ tag, tag ∈ s.tags.toList ↔ tag ∈ said.tags.getD []
  codes : ∀ code, code ∈ s.codes.toList ↔ code ∈ said.codes.getD []
  dialect : s.dialect = said.dialect.getD .tag
  classFilter : s.classFilter = said.classFilter.getD false

/-- What is said means one subscription at most. -/
theorem Said.Means.unique {said : Said} {s t : Subscription} (hs : said.Means s)
    (ht : said.Means t) : s = t := by
  have htags : s.tags = t.tags :=
    SortedSet.ext_toList (fun tag => (hs.tags tag).trans (ht.tags tag).symm)
  have hcodes : s.codes = t.codes :=
    SortedSet.ext_toList (fun code => (hs.codes code).trans (ht.codes code).symm)
  cases s
  cases t
  simp only at htags hcodes
  simp only [htags, hcodes, Subscription.mk.injEq, true_and]
  exact ⟨hs.topic.trans ht.topic.symm, hs.expression.trans ht.expression.symm,
    hs.version.trans ht.version.symm, hs.dialect.trans ht.dialect.symm,
    hs.classFilter.trans ht.classFilter.symm⟩

/-! ## From the members to a draft -/

/-- The draft that is filled when the members with these names are read. -/
def Said.draft (said : Said) (names : Finset String) : Draft where
  topic := if "topic" ∈ names then some said.topic else none
  expression := if "subString" ∈ names then some said.expression else none
  tags := if "tagsSet" ∈ names then said.tags.map SortedSet.ofList else none
  codes := if "codeSet" ∈ names then said.codes.map SortedSet.ofList else none
  version := if "subVersion" ∈ names then some said.version else none
  dialect := if "expressionType" ∈ names then said.dialect else none
  classFilter := if "classFilterMode" ∈ names then said.classFilter else none

theorem fills_members (said : Said) : Fills fields said.members said.draft where
  nodup := by
    obtain ⟨_, _, _, _ | _, _ | _, _ | _, _ | _⟩ := said <;> simp [Said.members]
  fill := by
    intro m hm
    simp only [Said.members, List.mem_append, mem_said] at hm
    obtain (((((⟨a, ha, rfl⟩ | ⟨a, ha, rfl⟩) | ⟨a, ha, rfl⟩) | ⟨a, ha, rfl⟩) | ⟨a, ha, rfl⟩) |
      ⟨a, ha, rfl⟩) | ⟨a, ha, rfl⟩ := hm
    all_goals refine ⟨_, rfl, fun seen hseen => ⟨by simp [Said.draft, hseen], ?_⟩⟩
    · simp [Said.draft, hseen, ha, Except.map]
    · simp [Said.draft, hseen, ha, Except.map]
    · simp [Said.draft, hseen, ha, Except.map, set?_array (text?_string "a string")]
    · simp [Said.draft, hseen, ha, Except.map, set?_array int32?_integer]
    · simp [Said.draft, hseen, ha, Except.map]
    · simp [Said.draft, hseen, ha, Except.map, choice?_string (choice?_label_dialect a)]
    · simp [Said.draft, hseen, ha, Except.map]

theorem draft_empty (said : Said) : said.draft ∅ = {} := by simp [Said.draft]

theorem draft_members (said : Said) : said.draft (said.members.map Prod.fst).toFinset =
    { topic := some said.topic
      expression := some said.expression
      tags := said.tags.map SortedSet.ofList
      codes := said.codes.map SortedSet.ofList
      version := some said.version
      dialect := said.dialect
      classFilter := said.classFilter } := by
  obtain ⟨_, _, _, _ | _, _ | _, _ | _, _ | _⟩ := said <;> simp [Said.draft, Said.members]

/-- What the finished draft of the members is. -/
theorem means_finish (said : Said) :
    said.Means (said.draft (said.members.map Prod.fst).toFinset).finish := by
  rw [draft_members]
  refine ⟨rfl, rfl, rfl, fun tag => ?_, fun code => ?_, rfl, rfl⟩
  · cases htags : said.tags with
    | none => simp [Draft.finish, SortedSet.toList, Table.keys, Table.empty]
    | some tags => simp [Draft.finish, SortedSet.mem_toList_ofList]
  · cases hcodes : said.codes with
    | none => simp [Draft.finish, SortedSet.toList, Table.keys, Table.empty]
    | some codes => simp [Draft.finish, SortedSet.mem_toList_ofList]

/-- Topic, expression and version are there, so nothing is missing. -/
theorem checkGiven_members (said : Said) :
    checkGiven fields (said.draft (said.members.map Prod.fst).toFinset) =
      .ok (said.draft (said.members.map Prod.fst).toFinset) := by
  rw [draft_members]
  rfl

theorem ofText_object {said : Said} {members others : List (String × Doc)} {text : String}
    (hperm : members.Perm (said.members ++ others)) (hothers : ∀ m ∈ others, m.1 ∉ fieldNames)
    (hspells : (Doc.record members).Spells text) :
    ∃ s, ofText text = .ok s ∧ said.Means s := by
  refine ⟨_, ?_, means_finish said⟩
  rw [ofText, decodeText_of_spells ofNode hspells, ofNode, ← draft_empty said,
    (fills_members said).record? _ hperm (by rwa [names_fields]), checkGiven_members]
  rfl

/-! ## There and back -/

/-- What a subscription says of itself. -/
def saying (s : Subscription) : Said where
  topic := s.topic
  expression := s.expression
  version := s.version
  tags := some s.tags.toList
  codes := some s.codes.toList
  dialect := some s.dialect
  classFilter := some s.classFilter

theorem means_saying (s : Subscription) : s.saying.Means s :=
  ⟨rfl, rfl, rfl, fun _ => Iff.rfl, fun _ => Iff.rfl, rfl, rfl⟩

theorem ofText_toText (s : Subscription) : ofText s.toText = .ok s := by
  have hdoc : s.toJson.doc = .record s.saying.members := by
    rw [toJson, doc_object]
    simp [Said.members, saying, Value.doc, docs_eq_map, Function.comp_def]
  have hspells := spells_render s.toJson
  rw [hdoc] at hspells
  have hperm : s.saying.members.Perm (s.saying.members ++ []) := by simp
  obtain ⟨t, ht, hmeans⟩ := ofText_object hperm (by simp) hspells
  rw [toText, ht, (means_saying s).unique hmeans]

/-- A subscription that was written comes back as it was, so two of them are the same when their
texts are. An object that says topic, expression and version is read as the one subscription that
it means, in whatever order it says them, and whatever else it holds. -/
theorem a_text_means_one_subscription :
    (∀ s : Subscription, ofText s.toText = .ok s) ∧
    (∀ s t : Subscription, s.toText = t.toText → s = t) ∧
    ∀ (said : Said) (members others : List (String × Doc)) (text : String),
      members.Perm (said.members ++ others) → (∀ m ∈ others, m.1 ∉ fieldNames) →
      (Doc.record members).Spells text →
      ∃ s, ofText text = .ok s ∧ said.Means s ∧ ∀ t, said.Means t → t = s := by
  refine ⟨ofText_toText, fun s t h => ?_, fun said members others text hperm hothers hspells => ?_⟩
  · have hs := ofText_toText s
    rw [h, ofText_toText t] at hs
    exact (Except.ok.inj hs).symm
  · obtain ⟨s, hs, hmeans⟩ := ofText_object hperm hothers hspells
    exact ⟨s, hs, hmeans, fun t ht => ht.unique hmeans⟩

/-- A subscription with its members the other way round, a tag said twice, a topic in escapes and
a stranger in front. -/
def oddText : String :=
  "\x7b\"later\":[\x7b\"\\ud800\":-0.5e+2\x7d],\n \"subVersion\":7," ++
    "\"tagsSet\":[\"b\",\"a\",\"b\"],\"subString\":\"*\",\"topic\" : \"\\u00e9\"\x7d"

theorem an_odd_text_is_understood : ∃ s, ofText oddText = .ok s ∧
    Said.Means ⟨"é", "*", 7, some ["b", "a", "b"], none, none, none⟩ s := by
  have htext (s : String) : (Doc.string s).Spelled (writeLiteral s) :=
    .text (literal_writeLiteral s)
  have hlater := MemberSpelled.pair (literal_writeLiteral "later") gap_nil gap_nil
    stranger_spelled
  have hversion := MemberSpelled.pair (literal_writeLiteral "subVersion") gap_nil gap_nil
    (.number (ofInt_spelled 7))
  have htags := MemberSpelled.pair (literal_writeLiteral "tagsSet") gap_nil gap_nil
    (.items gap_nil (htext "b") (.cons gap_nil gap_nil (htext "a")
      (.cons gap_nil gap_nil (htext "b") (.nil gap_nil))))
  have hexpression := MemberSpelled.pair (literal_writeLiteral "subString") gap_nil gap_nil
    (htext "*")
  have hescaped := Literal.quoted
    (.digits (a := '0') (b := '0') (c := 'e') (d := '9') rfl rfl rfl rfl .nil)
  have htopic := MemberSpelled.pair (literal_writeLiteral "topic") gap_space gap_space
    (.text hescaped)
  have hrecord := Doc.Spelled.members gap_nil hlater
    (.cons gap_nil (show Gap ['\n', ' '] by decide) hversion
      (.cons gap_nil gap_nil htags (.cons gap_nil gap_nil hexpression
        (.cons gap_nil gap_nil htopic (.nil gap_nil)))))
  obtain ⟨-, -, hobject⟩ := a_text_means_one_subscription
  obtain ⟨s, hs, hmeans, -⟩ := hobject ⟨"é", "*", 7, some ["b", "a", "b"], none, none, none⟩
    [("later", .stranger), ("subVersion", .integer 7),
      ("tagsSet", .array [.string "b", .string "a", .string "b"]), ("subString", .string "*"),
      ("topic", .string "é")]
    [("later", .stranger)] oddText (List.reverse_perm _).symm (by decide)
    ⟨[], _, [], gap_nil, hrecord, gap_nil, rfl⟩
  exact ⟨s, hs, hmeans⟩

end ConsumerGroups.Subscription
