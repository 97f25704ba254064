-- Settings from a text: what is said overlays the standard, and the result passes its check or is
-- refused. An object and an array that say the same are read as the same settings.
import ConsumerGroups.Proofs.Decoding
import ConsumerGroups.Proofs.Writing
import ConsumerGroups.Settings

set_option autoImplicit false

namespace ConsumerGroups.Settings

open Json

/-! ## What is said -/

/-- The names under which settings are said, in the order of declaration. -/
def fieldNames : List String :=
  ["channel_expired_timeout_ms", "scan_interval_ms", "scan_initial_delay_ms",
    "notify_consumer_ids_changed_enable"]

theorem names_fields : fields.map Field.name = fieldNames := rfl

/-- The members of an object that says this much, in the order of declaration. -/
def Draft.members (d : Draft) : List (String × Doc) :=
  said "channel_expired_timeout_ms" (fun n => .integer n.toNat) d.expiry ++
    said "scan_interval_ms" (fun n => .integer n.toNat) d.sweepInterval ++
    said "scan_initial_delay_ms" (fun n => .integer n.toNat) d.sweepDelay ++
    said "notify_consumer_ids_changed_enable" .boolean d.announceChanges

/-- The part of a draft that is said under these names. -/
def Draft.under (d : Draft) (names : Finset String) : Draft where
  expiry := if "channel_expired_timeout_ms" ∈ names then d.expiry else none
  sweepInterval := if "scan_interval_ms" ∈ names then d.sweepInterval else none
  sweepDelay := if "scan_initial_delay_ms" ∈ names then d.sweepDelay else none
  announceChanges :=
    if "notify_consumer_ids_changed_enable" ∈ names then d.announceChanges else none

theorem under_empty (d : Draft) : d.under ∅ = {} := by simp [Draft.under]

theorem under_members (d : Draft) : d.under (d.members.map Prod.fst).toFinset = d := by
  obtain ⟨_ | _, _ | _, _ | _, _ | _⟩ := d <;> simp [Draft.under, Draft.members]

theorem fills_members (d : Draft) : Fills fields d.members d.under where
  nodup := by obtain ⟨_ | _, _ | _, _ | _, _ | _⟩ := d <;> simp [Draft.members]
  fill := by
    intro m hm
    simp only [Draft.members, List.mem_append, mem_said] at hm
    obtain ((⟨a, ha, rfl⟩ | ⟨a, ha, rfl⟩) | ⟨a, ha, rfl⟩) | ⟨a, ha, rfl⟩ := hm
    all_goals
      refine ⟨_, rfl, fun seen hseen => ⟨by simp [Draft.under, hseen], ?_⟩⟩
      simp [Draft.under, hseen, ha, Except.map]

theorem checkGiven_fields (d : Draft) : checkGiven fields d = .ok d := rfl

/-! ## The verdict on what is said -/

/-- What is said, over the standard of two minutes, ten seconds, ten seconds and announced. -/
def Draft.overlay (d : Draft) : Settings where
  expiry := d.expiry.getD 120000
  sweepInterval := d.sweepInterval.getD 10000
  sweepDelay := d.sweepDelay.getD 10000
  announceChanges := d.announceChanges.getD true

/-- Settings are used when neither the expiry nor the interval is zero; the expiry counts first. -/
def verdict (s : Settings) : Except Unusable Settings :=
  if s.expiry = 0 then .error (.invalid "channel_expired_timeout_ms" .zero)
  else if s.sweepInterval = 0 then .error (.invalid "scan_interval_ms" .zero)
  else .ok s

/-- The verdict is that of the check, with the settings in case it passes. -/
theorem verdict_eq (s : Settings) : s.verdict = match s.check with
    | .error (param, flaw) => .error (.invalid param flaw)
    | .ok () => .ok s := by
  unfold verdict check checkPositive
  by_cases hexpiry : s.expiry = 0
  · simp [hexpiry]
  · by_cases hinterval : s.sweepInterval = 0 <;> simp [hexpiry, hinterval]

theorem verdict_eq_ok_iff (s : Settings) : s.verdict = .ok s ↔ s.check = .ok () := by
  rw [verdict_eq]
  cases s.check <;> simp

/-- A text that decodes is judged by what it says. -/
theorem ofText_of_decoded {d : Draft} {doc : Doc} {text : String} (hspells : doc.Spells text)
    (hdoc : doc.node.record? "ConsumerManagerConfig" fields {} = .ok d) :
    ofText text = d.overlay.verdict := by
  have hdecoded : decodeText ofNode text = .ok d.overlay := by
    rw [decodeText_of_spells ofNode hspells, ofNode, hdoc]
    rfl
  rw [verdict_eq]
  cases hcheck : d.overlay.check <;> simp only [ofText, hdecoded, hcheck]

theorem ofText_object {d : Draft} {members others : List (String × Doc)} {text : String}
    (hperm : members.Perm (d.members ++ others)) (hothers : ∀ m ∈ others, m.1 ∉ fieldNames)
    (hspells : (Doc.record members).Spells text) : ofText text = d.overlay.verdict := by
  refine ofText_of_decoded hspells ?_
  rw [← under_empty d, (fills_members d).record? _ hperm (by rwa [names_fields]), under_members,
    checkGiven_fields]

theorem ofText_members {d : Draft} {text : String} (hspells : (Doc.record d.members).Spells text) :
    ofText text = d.overlay.verdict := by
  have hperm : d.members.Perm (d.members ++ []) := by simp
  exact ofText_object hperm (by simp) hspells

/-- What the first `count` settings say. -/
def upTo (c : Settings) (count : Nat) : Draft where
  expiry := if 0 < count then some c.expiry else none
  sweepInterval := if 1 < count then some c.sweepInterval else none
  sweepDelay := if 2 < count then some c.sweepDelay else none
  announceChanges := if 3 < count then some c.announceChanges else none

theorem ofText_array (c : Settings) (count : Nat) {text : String}
    (hspells : (Doc.array ((c.upTo count).members.map Prod.snd)).Spells text) :
    ofText text = (c.upTo count).overlay.verdict := by
  refine ofText_of_decoded hspells ?_
  have harray := (fills_members (c.upTo count)).record?_array "ConsumerManagerConfig"
    (List.take_append_drop count fields).symm ?_ ?_ ?_
  · rw [under_empty, under_members] at harray
    exact harray
  · rcases count with _ | _ | _ | _ | count <;> simp [Draft.members, upTo, fields]
  · intro f hf
    have hf := List.mem_of_mem_take hf
    simp only [fields, List.mem_cons, List.not_mem_nil, or_false] at hf
    rcases hf with rfl | rfl | rfl | rfl <;> rfl
  · intro f hf
    have hf := List.mem_of_mem_drop hf
    simp only [fields, List.mem_cons, List.not_mem_nil, or_false] at hf
    rcases hf with rfl | rfl | rfl | rfl <;> rfl

/-- The settings of a written text are judged as they are. -/
theorem ofText_toText (c : Settings) : ofText c.toText = c.verdict := by
  have hdoc : c.toJson.doc = .record (c.upTo 4).members := by
    rw [toJson, doc_object]
    simp [Draft.members, upTo, Value.doc]
  have hspells := spells_render c.toJson
  rw [hdoc] at hspells
  exact ofText_members (d := c.upTo 4) hspells

/-- Settings from a text are the standard with what the text says laid over it, and the first of
expiry and interval that is zero is the reason to refuse them. It is all the same in which order
an object says it, what else the object holds, and whether an array says it. Settings that were
written come back exactly when they pass the check. -/
theorem a_text_overlays_the_standard :
    (∀ (d : Draft) (members others : List (String × Doc)) (text : String),
      members.Perm (d.members ++ others) → (∀ m ∈ others, m.1 ∉ fieldNames) →
      (Doc.record members).Spells text → ofText text = d.overlay.verdict) ∧
    (∀ (c : Settings) (count : Nat) (text : String),
      (Doc.array ((c.upTo count).members.map Prod.snd)).Spells text →
      ofText text = (c.upTo count).overlay.verdict ∧
        ∀ text', (Doc.record (c.upTo count).members).Spells text' → ofText text' = ofText text) ∧
    ∀ c : Settings, ofText c.toText = .ok c ↔ c.check = .ok () := by
  refine ⟨fun d members others text => ofText_object, fun c count text harray => ?_, fun c => ?_⟩
  · refine ⟨ofText_array c count harray, fun text' hobject => ?_⟩
    rw [ofText_array c count harray]
    exact ofText_members hobject
  · rw [ofText_toText, verdict_eq_ok_iff]

theorem a_strange_member_changes_nothing :
    ofText "\x7b\"later\":[\x7b\"\\ud800\":-0.5e+2\x7d],\n \"scan_interval_ms\" : 7\x7d" =
        .ok ⟨120000, 7, 10000, true⟩ ∧
      ofText "[9, 0]" = .error (.invalid "scan_interval_ms" .zero) := by
  obtain ⟨hobject, harray, -⟩ := a_text_overlays_the_standard
  constructor
  · have hlater := MemberSpelled.pair (literal_writeLiteral "later") gap_nil gap_nil
      stranger_spelled
    have hinterval := MemberSpelled.pair (literal_writeLiteral "scan_interval_ms")
      gap_space gap_space (.number (ofInt_spelled 7))
    have hrecord := Doc.Spelled.members gap_nil hlater
      (.cons gap_nil (show Gap ['\n', ' '] by decide) hinterval (.nil gap_nil))
    exact hobject { sweepInterval := some 7 }
      [("later", .stranger), ("scan_interval_ms", .integer 7)] [("later", .stranger)] _
      (.swap _ _ _) (by decide) ⟨[], _, [], gap_nil, hrecord, gap_nil, rfl⟩
  · have hitems := Doc.Spelled.items gap_nil (.number (ofInt_spelled 9))
      (.cons gap_nil gap_space (.number (ofInt_spelled 0)) (.nil gap_nil))
    exact (harray ⟨9, 0, 0, false⟩ 2 _ ⟨[], _, [], gap_nil, hitems, gap_nil, rfl⟩).1

end ConsumerGroups.Settings
