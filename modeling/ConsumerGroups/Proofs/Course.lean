-- The course of calls. Steps tell what becomes of the groups; the course of a call tells more:
-- which call does what, which events go out and on what grounds, and who is told of them. Calls
-- nest. While a call is the innermost one its own moves follow each other, and between them whole
-- calls begin and end.
import ConsumerGroups.Proofs.Settling
import ConsumerGroups.Proofs.Quiet

set_option autoImplicit false

namespace ConsumerGroups

/-! ## Calls in a journal -/

/-- The calls that have begun and not ended, the innermost first. -/
def openCalls : List Entry → List Call
  | [] => []
  | .began call :: before => call :: openCalls before
  | .ended :: before => (openCalls before).tail
  | _ :: before => openCalls before

/-- Whether an entry marks the beginning or the end of a call. -/
def Entry.isMark : Entry → Bool
  | .began _ => true
  | .ended => true
  | _ => false

/-- Entries in which every call that begins also ends, and no other call ends. -/
inductive Balanced : List Entry → Prop where
  | nil : Balanced []
  | entry {e : Entry} {es : List Entry} (he : e.isMark = false) (h : Balanced es) :
      Balanced (e :: es)
  | call {call : Call} {inner outer : List Entry} (hi : Balanced inner) (ho : Balanced outer) :
      Balanced (.ended :: (inner ++ .began call :: outer))

theorem Balanced.append {es fs : List Entry} (h : Balanced es) (h' : Balanced fs) :
    Balanced (es ++ fs) := by
  induction h with
  | nil => exact h'
  | entry he _ ih => exact .entry he ih
  | @call call inner outer hi _ _ ih =>
    have happend : .ended :: (inner ++ .began call :: outer) ++ fs =
        .ended :: (inner ++ .began call :: (outer ++ fs)) := by simp
    rw [happend]
    exact .call hi ih

theorem balanced_of_unmarked {es : List Entry} (h : ∀ e ∈ es, e.isMark = false) : Balanced es := by
  induction es with
  | nil => exact .nil
  | cons e rest ih =>
    exact .entry (h e List.mem_cons_self) (ih fun e' he' => h e' (List.mem_cons_of_mem e he'))

theorem openCalls_cons {e : Entry} (he : e.isMark = false) (before : List Entry) :
    openCalls (e :: before) = openCalls before := by
  cases e with
  | began => cases he
  | ended => cases he
  | _ => rfl

/-- Balanced entries leave the same calls open. -/
theorem Balanced.openCalls_append {es : List Entry} (h : Balanced es) (before : List Entry) :
    openCalls (es ++ before) = openCalls before := by
  induction h generalizing before with
  | nil => rfl
  | entry he _ ih => rw [List.cons_append, openCalls_cons he, ih]
  | @call call inner outer _ _ ihi iho =>
    have happend : .ended :: (inner ++ .began call :: outer) ++ before =
        .ended :: (inner ++ .began call :: (outer ++ before)) := by simp
    rw [happend, openCalls, ihi, openCalls, List.tail_cons, iho]

/-! ## On what grounds events go out -/

/-- An event is being handed on: the call that is the innermost now has sent it out. -/
def Underway (journal : List Entry) (group : String) (event : Event) : Prop :=
  ∃ since onTable before, journal = since ++ .sent group event onTable :: before ∧ Balanced since

/-- How a client can be in its group although the innermost call, `top`, is about to tell that it
left. The call took it out, and since then a registration of it has begun; this happens in sweeps
only. Or the record that it was taken out of was off the table by then; this does not happen when
others leave the groups alone at readings of the clock (`steady`). -/
def Rejoined (steady : Prop) (top : Option Call) (journal : List Entry) (group : String)
    (id : UInt64) : Prop :=
  ∃ i stored since before, journal = since ++ .removed group i stored :: before ∧ Balanced since ∧
    stored.channel.id = id ∧
    (top = some .sweep ∧ .began (.register group id) ∈ since ∨
      ¬ steady ∧ ∃ last call, .unmapped group i last call ∈ before)

/-- The grounds on which the innermost call, `top`, sends out an event of a group that has this
record on the table, after this journal. -/
def Justified (steady : Prop) (top : Option Call) (journal : List Entry) (group : String)
    (onTable : Option Group) : Event → Prop
  | .clientJoined _ _ => onTable = none
  | .clientLeft client _ => ∀ g, onTable = some g →
      (g.clients.find? client.channel.id).isSome = true →
      Rejoined steady top journal group client.channel.id
  | .declared _ => True
  | .dissolved => onTable = none ∧ ∃ line i last call before,
      journal = .logged line :: .unmapped group i last call :: before ∧ last.isEmpty = true
  | .changed clients => ∃ g, onTable = some g ∧ g.isEmpty = false ∧
      clients.Perm g.clients.values

namespace Registry

variable {Ω : Type} {steady : Prop} {top : Option Call} {r s t : Registry Ω}

/-! ## Moves -/

/-- Nothing happened to the groups, and nothing was noted. -/
structure Silent (r s : Registry Ω) : Prop where
  records : s.records = r.records
  table : s.table = r.table
  settings : s.settings = r.settings
  listeners : r.listeners <+: s.listeners
  journal : s.journal = r.journal

/-- A move of the innermost call, `top`; where no call is open there is nothing to do but keep the
log. `steady` says that others leave the groups alone at readings of the clock. -/
inductive Move (steady : Prop) (top : Option Call) : Registry Ω → Registry Ω → Prop where
  | silent {r s : Registry Ω} (h : Silent r s) : Move steady top r s
  | logged (r : Registry Ω) (lines : List LogLine) : Move steady top r (r.logAll lines)
  | sent {r : Registry Ω} {group : String} {event : Event} {call : Call} (htop : top = some call)
      (h : Justified steady top r.journal group (r.group? group) event) :
      Move steady top r (r.note (.sent group event (r.group? group)))
  | told {r : Registry Ω} (l : Nat) {group : String} {event : Event}
      (h : Underway r.journal group event) : Move steady top r (r.note (.told l group event))
  /-- a registration founds its group -/
  | found {r : Registry Ω} {name : String} {id : UInt64} (policy : Policy) (hname : IsName name)
      (htop : top = some (.register name id)) (hnew : r.current? name = none) :
      Move steady top r (r.addRecord (Group.new name policy))
  /-- a registration goes into a record of its group -/
  | revise {r : Registry Ω} {i : Nat} {g : Group} {q : Registration} (now : UInt64)
      (htop : top = some (.register q.group q.client.channel.id)) (hg : r.record? i = some g)
      (hname : g.name = q.group) (hcurrent : steady → r.current? q.group = some i) :
      Move steady top r (r.setRecord i (revised q now g).group)
  | release {r : Registry Ω} {i : Nat} {g : Group} {stays : UInt64 → Client → Bool}
      {gone : List Client} {call : Call} (htop : top = some call) (hg : r.record? i = some g)
      (hgone : ∀ c, c ∈ gone ↔ ∃ id, g.clients.find? id = some c ∧ stays id c = false) :
      Move steady top r (r.takeFrom i { g with clients := g.clients.filter stays } gone)
  | unmap {r : Registry Ω} {group : String} {i : Nat} {g : Group} {call : Call}
      (htop : top = some call) (hcurrent : r.current? group = some i) (hg : r.record? i = some g)
      (hempty : g.isEmpty = true) : Move steady top r (r.removeRecord group i g call)

/-- What happens while the innermost call is `top`: its moves, and whole calls between them. -/
inductive Course (steady : Prop) : Option Call → Registry Ω → Registry Ω → Prop where
  | refl (top : Option Call) (r : Registry Ω) : Course steady top r r
  | move {top : Option Call} {r s t : Registry Ω} (h : Course steady top r s)
      (hm : Move steady top s t) : Course steady top r t
  | call {top : Option Call} {r s t : Registry Ω} {call : Call} (h : Course steady top r s)
      (hc : Course steady (some call) (s.note (.began call)) t) :
      Course steady top r (t.note .ended)

/-- One client is taken out of a record. -/
theorem Move.without {call : Call} {i : Nat} {g : Group} {id : UInt64} {stored : Client}
    (hg : r.record? i = some g) (hs : g.clients.find? id = some stored) :
    Move steady (some call) r (r.takeFrom i (g.without id) [stored]) :=
  .release rfl hg (mem_gone_without hs)

/-- The clients that have expired are taken out of a record. -/
theorem Move.withoutExpired {call : Call} {i : Nat} {g : Group} (env : Surroundings Ω)
    (now limit : UInt64) (hg : r.record? i = some g) :
    Move steady (some call) r
      (r.takeFrom i (g.withoutExpired now limit) (expiredOf env g now limit)) :=
  .release rfl hg (mem_gone_withoutExpired env g now limit)

theorem Move.course (h : Move steady top r s) : Course steady top r s := .move (.refl top r) h

theorem Course.trans (h : Course steady top r s) (h' : Course steady top s t) :
    Course steady top r t := by
  induction h' with
  | refl => exact h
  | move _ hm ih => exact .move (ih h) hm
  | call _ hc ih _ => exact .call (ih h) hc

/-! ## Moves are steps -/

theorem Silent.aside (h : Silent r s) : r.Aside s :=
  ⟨h.records, h.table, h.settings, h.listeners, [], h.journal, by simp⟩

theorem Move.step (h : Move steady top r s) : Step False r s := by
  cases h with
  | silent h => exact .aside h.aside
  | logged lines => exact .aside (.logAll r lines)
  | sent => exact .aside (.note r rfl)
  | told => exact .aside (.note r rfl)
  | found policy hname _ hnew => exact .found policy hname hnew
  | revise now _ hg _ _ => exact .revise now hg fun hc => hc.elim
  | release _ hg hgone => exact .release hg hgone
  | unmap _ hcurrent hg hempty => exact .unmap _ hcurrent hg hempty

theorem Course.steps (h : Course steady top r s) : Steps False r s := by
  induction h with
  | refl => exact .refl
  | move _ hm ih => exact ih.tail hm.step
  | call _ _ ih ihc =>
    exact ((ih.trans (Steps.tolerant.note _ rfl)).trans ihc).trans (Steps.tolerant.note _ rfl)

/-! ## What is noted -/

theorem Move.entries (h : Move steady top r s) :
    ∃ es, s.journal = es ++ r.journal ∧ ∀ e ∈ es, e.isMark = false := by
  cases h with
  | silent h => exact ⟨[], h.journal, by simp⟩
  | logged => exact ⟨_, rfl, by simp [Entry.isMark]⟩
  | sent => exact ⟨[_], rfl, by simp [Entry.isMark]⟩
  | told => exact ⟨[_], rfl, by simp [Entry.isMark]⟩
  | found => exact ⟨[_], rfl, by simp [Entry.isMark]⟩
  | revise => exact ⟨[], rfl, by simp⟩
  | release => exact ⟨_, rfl, by simp [Entry.isMark]⟩
  | unmap => exact ⟨[_], rfl, by simp [Entry.isMark]⟩

theorem Course.entries (h : Course steady top r s) :
    ∃ es, s.journal = es ++ r.journal ∧ Balanced es := by
  induction h with
  | refl => exact ⟨[], rfl, .nil⟩
  | move _ hm ih =>
    obtain ⟨es, hes, hb⟩ := ih
    obtain ⟨fs, hfs, hf⟩ := hm.entries
    exact ⟨fs ++ es, by rw [hfs, hes, List.append_assoc], (balanced_of_unmarked hf).append hb⟩
  | @call top r s t call _ _ ih ihc =>
    obtain ⟨es, hes, hb⟩ := ih
    obtain ⟨fs, hfs, hf⟩ := ihc
    refine ⟨.ended :: (fs ++ .began call :: es), ?_, .call hf hb⟩
    simp [note, hfs, hes]

theorem Course.keeps_open (h : Course steady top r s) :
    openCalls s.journal = openCalls r.journal := by
  obtain ⟨es, hes, hb⟩ := h.entries
  rw [hes, hb.openCalls_append]

/-- An event that is being handed on is so until the call goes on. -/
theorem Course.underway (h : Course steady top r s) {group : String} {event : Event}
    (hr : Underway r.journal group event) : Underway s.journal group event := by
  obtain ⟨since, onTable, before, hj, hb⟩ := hr
  obtain ⟨es, hes, hbe⟩ := h.entries
  exact ⟨es ++ since, onTable, before, by rw [hes, hj, List.append_assoc], hbe.append hb⟩

/-! ## What a course keeps -/

/-- What a course keeps of a registry. A record that is not on the table was on it once, and when
others leave the groups alone at readings of the clock, it has no clients. -/
structure Kept (steady : Prop) (r : Registry Ω) : Prop where
  wellFormed : r.WellFormed
  retired : ∀ i g, r.record? i = some g → r.current? g.name = some i ∨
    ∃ last call, .unmapped g.name i last call ∈ r.journal
  vacant : steady → ∀ i g, r.record? i = some g → r.current? g.name = some i ∨ g.isEmpty = true

theorem kept_new (settings : Settings) (listeners : List Nat) (clock : Clock) (measured : Bool)
    (outside : Ω) : (Registry.new settings listeners clock measured outside).Kept steady := by
  refine ⟨wellFormed_new settings listeners clock measured outside, ?_, ?_⟩
  · intro i g hg
    simp [Registry.new, record?] at hg
  · intro _ i g hg
    simp [Registry.new, record?] at hg

/-- A record that keeps its name and its place on the table, and comes to clients on the table only
when others leave the groups alone at readings of the clock, stays as it is kept. -/
theorem Kept.of_records (hr : r.Kept steady) (hw : s.WellFormed)
    (hcurrent : ∀ group, s.current? group = r.current? group)
    (hjournal : ∀ e ∈ r.journal, e ∈ s.journal)
    (hrecord : ∀ i g', s.record? i = some g' → ∃ g, r.record? i = some g ∧ g'.name = g.name ∧
      (steady → r.current? g.name = some i ∨ (g.isEmpty = true → g'.isEmpty = true))) :
    s.Kept steady := by
  refine ⟨hw, ?_, ?_⟩
  · intro i g' hg'
    obtain ⟨g, hg, hname, -⟩ := hrecord i g' hg'
    rw [hcurrent, hname]
    rcases hr.retired i g hg with hi | ⟨last, call, hmem⟩
    · exact .inl hi
    · exact .inr ⟨last, call, hjournal _ hmem⟩
  · intro hsteady i g' hg'
    obtain ⟨g, hg, hname, hempty⟩ := hrecord i g' hg'
    rw [hcurrent, hname]
    rcases hempty hsteady with hi | hempty
    · exact .inl hi
    · exact (hr.vacant hsteady i g hg).imp_right hempty

theorem Kept.aside (hr : r.Kept steady) (h : r.Aside s) : s.Kept steady := by
  obtain ⟨es, hes, -⟩ := h.journal
  refine hr.of_records (h.wellFormed hr.wellFormed) h.current? ?_ ?_
  · intro e he
    rw [hes]
    exact List.mem_append_right es he
  · intro i g hg
    rw [h.record?] at hg
    exact ⟨g, hg, rfl, fun _ => .inr id⟩

theorem kept_setRecord {i : Nat} {g left : Group} (hr : r.Kept steady)
    (hw : s.WellFormed) (hg : r.record? i = some g) (hname : left.name = g.name)
    (hrecords : ∀ j, s.record? j = (r.setRecord i left).record? j)
    (hcurrent : ∀ group, s.current? group = r.current? group)
    (hjournal : ∀ e ∈ r.journal, e ∈ s.journal)
    (hempty : steady → r.current? g.name = some i ∨ (g.isEmpty = true → left.isEmpty = true)) :
    s.Kept steady := by
  refine hr.of_records hw hcurrent hjournal ?_
  intro j g' hg'
  rw [hrecords] at hg'
  rcases record?_of_setRecord hg hg' with ⟨rfl, rfl⟩ | ⟨-, hg'⟩
  · exact ⟨g, hg, hname, hempty⟩
  · exact ⟨g', hg', rfl, fun _ => .inr id⟩

theorem kept_addRecord {name : String} (hr : r.Kept steady) (policy : Policy)
    (hw : (r.addRecord (Group.new name policy)).WellFormed) (hnew : r.current? name = none) :
    (r.addRecord (Group.new name policy)).Kept steady := by
  have hold : ∀ i g, r.record? i = some g → r.current? g.name = some i →
      (r.addRecord (Group.new name policy)).current? g.name = some i := by
    intro i g _ hi
    have hne : g.name ≠ name := by
      rintro rfl
      rw [hi] at hnew
      cases hnew
    rw [current?_addRecord_of_ne r hne, hi]
  have hrecords : ∀ i g, (r.addRecord (Group.new name policy)).record? i = some g →
      r.record? i = some g ∨
        (r.addRecord (Group.new name policy)).current? g.name = some i := by
    intro i g hg
    rcases record?_of_addRecord hg with hg | ⟨rfl, rfl⟩
    · exact .inl hg
    · exact .inr (current?_addRecord_self r _)
  refine ⟨hw, ?_, ?_⟩
  · intro i g hg
    rcases hrecords i g hg with hg | hi
    · rcases hr.retired i g hg with hi | ⟨last, call, hmem⟩
      · exact .inl (hold i g hg hi)
      · exact .inr ⟨last, call, List.mem_cons_of_mem _ hmem⟩
    · exact .inl hi
  · intro hsteady i g hg
    rcases hrecords i g hg with hg | hi
    · exact (hr.vacant hsteady i g hg).imp_left (hold i g hg)
    · exact .inl hi

theorem kept_removeRecord {group : String} {i : Nat} {g : Group} (hr : r.Kept steady) (call : Call)
    (hw : (r.removeRecord group i g call).WellFormed) (hi : r.current? group = some i)
    (hg : r.record? i = some g) (hempty : g.isEmpty = true) :
    (r.removeRecord group i g call).Kept steady := by
  have hothers : ∀ j g', r.record? j = some g' → r.current? g'.name = some j →
      (g'.name = group ∧ j = i ∧ g' = g) ∨
        (r.removeRecord group i g call).current? g'.name = some j := by
    intro j g' hg' hj
    by_cases hn : g'.name = group
    · rw [hn, hi, Option.some.injEq] at hj
      subst hj
      rw [hg, Option.some.injEq] at hg'
      exact .inl ⟨hn, rfl, hg'.symm⟩
    · rw [current?_removeRecord_of_ne r hn]
      exact .inr hj
  refine ⟨hw, ?_, ?_⟩
  · intro j g' hg'
    rcases hr.retired j g' hg' with hj | ⟨last, call', hmem⟩
    · rcases hothers j g' hg' hj with ⟨hn, rfl, -⟩ | hj
      · rw [hn]
        exact .inr ⟨g, call, List.mem_cons_self⟩
      · exact .inl hj
    · exact .inr ⟨last, call', List.mem_cons_of_mem _ hmem⟩
  · intro hsteady j g' hg'
    rcases hr.vacant hsteady j g' hg' with hj | hvacant
    · rcases hothers j g' hg' hj with ⟨-, -, rfl⟩ | hj
      · exact .inr hempty
      · exact .inl hj
    · exact .inr hvacant

/-- A record that is thinned out stays empty when it is. -/
theorem isEmpty_withClients {g : Group} (h : g.isEmpty = true) (stays : UInt64 → Client → Bool) :
    ({ g with clients := g.clients.filter stays } : Group).isEmpty = true := by
  refine Table.isEmpty_iff.mpr ?_
  intro id
  rw [Table.find?_filter, Table.isEmpty_iff.mp h id]
  rfl

theorem Move.kept (h : Move steady top r s) (hr : r.Kept steady) : s.Kept steady := by
  have hw : s.WellFormed := h.step.wellFormed hr.wellFormed
  cases h with
  | silent h => exact hr.aside h.aside
  | logged lines => exact hr.aside (.logAll r lines)
  | sent => exact hr.aside (.note r rfl)
  | told => exact hr.aside (.note r rfl)
  | found policy _ _ hnew => exact kept_addRecord hr policy hw hnew
  | @revise i g q now _ hg hname hcurrent =>
    refine kept_setRecord hr hw hg (revised_name q now g) (fun _ => rfl) (fun _ => rfl)
      (fun _ he => he) ?_
    intro hsteady
    rw [hname]
    exact .inl (hcurrent hsteady)
  | @release i g stays gone _ _ hg _ =>
    have hname : ({ g with clients := g.clients.filter stays } : Group).name = g.name := rfl
    refine kept_setRecord hr hw hg hname (fun _ => rfl) (fun _ => rfl) ?_ ?_
    · exact fun e he => List.mem_append_right _ he
    · exact fun _ => .inr fun hempty => isEmpty_withClients hempty stays
  | unmap _ hcurrent hg hempty => exact kept_removeRecord hr _ hw hcurrent hg hempty

theorem Course.kept (h : Course steady top r s) (hr : r.Kept steady) : s.Kept steady := by
  induction h with
  | refl => exact hr
  | move _ hm ih => exact hm.kept (ih hr)
  | call _ _ ih ihc => exact (ihc ((ih hr).aside (.note _ rfl))).aside (.note _ rfl)

/-- Every step keeps this, as far as others may do anything at readings of the clock. -/
theorem Step.kept {calm : Prop} (h : Step calm r s) (hr : r.Kept False) : s.Kept False := by
  have hw : s.WellFormed := h.wellFormed hr.wellFormed
  cases h with
  | aside h => exact hr.aside h
  | found policy _ hnew => exact kept_addRecord hr policy hw hnew
  | @revise i g q now hg _ =>
    exact kept_setRecord hr hw hg (revised_name q now g) (fun _ => rfl) (fun _ => rfl)
      (fun _ he => he) fun hno => hno.elim
  | @release i g stays gone hg _ =>
    have hname : ({ g with clients := g.clients.filter stays } : Group).name = g.name := rfl
    exact kept_setRecord hr hw hg hname (fun _ => rfl) (fun _ => rfl)
      (fun _ he => List.mem_append_right _ he) fun hno => hno.elim
  | unmap call hcurrent hg hempty => exact kept_removeRecord hr call hw hcurrent hg hempty

theorem Steps.kept {calm : Prop} (h : Steps calm r s) (hr : r.Kept False) : s.Kept False := by
  induction h with
  | refl => exact hr
  | tail _ hstep ih => exact hstep.kept ih

theorem Reachable.kept (h : r.Reachable) : r.Kept False := by
  obtain ⟨settings, listeners, clock, measured, outside, h⟩ := h
  exact h.kept (kept_new settings listeners clock measured outside)

/-! ## Who comes into a group -/

/-- A move that brings a client into its group is one of its registration. -/
theorem Move.joined (h : Move steady top r s) (hw : r.WellFormed) {group : String} {id : UInt64}
    (hr : r.clientOn? group id = none) (hs : s.clientOn? group id ≠ none) :
    top = some (.register group id) := by
  have hsame : s.clientOn? group id = r.clientOn? group id → top = some (.register group id) := by
    intro h
    rw [h] at hs
    exact absurd hr hs
  cases h with
  | silent h => exact hsame (h.aside.clientOn? group id)
  | logged lines => exact hsame ((Aside.logAll r lines).clientOn? group id)
  | sent => exact hsame rfl
  | told => exact hsame rfl
  | found policy _ _ hnew => exact hsame (clientOn?_addRecord hw hnew policy group id)
  | @revise i g q now htop hg hname _ =>
    by_cases hi : r.current? group = some i
    · have hi' : (r.setRecord i (revised q now g).group).current? group = some i := hi
      rw [clientOn?_of_record hi hg] at hr
      rw [clientOn?_of_record hi' (record?_setRecord_self r hg _)] at hs
      by_cases hid : id = q.client.channel.id
      · rw [htop, ← hname, hw.name_of_current hi hg, hid]
      · rw [find?_revised_of_ne q now g hid] at hs
        exact absurd hr hs
    · exact hsame (clientOn?_setRecord_of_ne hi _ id)
  | @release i g stays gone _ _ hg _ =>
    rw [(thins_takeFrom hg stays gone).clients, hr] at hs
    simp at hs
  | @unmap group' i g call _ hcurrent hg hempty =>
    have hremoved : r.removeIfVacant group' i call = (r.removeRecord group' i g call, true) := by
      rw [removeIfVacant_eq hg, if_pos ⟨hcurrent, hempty⟩]
    have hspares := (spares_removeIfVacant group' i call r).clients group id
    rw [hremoved] at hspares
    exact hsame hspares

/-- Who was not in a group and then is in it has come by a registration of its own. Unless the call
that was the innermost all the time is this registration, it has begun meanwhile. -/
theorem Course.joined (h : Course steady top r s) (hw : r.WellFormed) {group : String}
    {id : UInt64} (hr : r.clientOn? group id = none) (hs : s.clientOn? group id ≠ none) :
    top = some (.register group id) ∨
      ∃ es, s.journal = es ++ r.journal ∧ .began (.register group id) ∈ es := by
  induction h with
  | refl => exact absurd hr hs
  | @move top r s t h hm ih =>
    by_cases hmid : s.clientOn? group id = none
    · exact .inl (hm.joined (h.steps.wellFormed hw) hmid hs)
    · rcases ih hw hr hmid with htop | ⟨es, hes, hmem⟩
      · exact .inl htop
      · obtain ⟨fs, hfs, -⟩ := hm.entries
        exact .inr ⟨fs ++ es, by rw [hfs, hes, List.append_assoc], List.mem_append_right fs hmem⟩
  | @call top r s t call h hc ih ihc =>
    have haside : s.Aside (s.note (.began call)) := .note s rfl
    have hws : (s.note (.began call)).WellFormed := haside.wellFormed (h.steps.wellFormed hw)
    obtain ⟨es, hes, -⟩ := h.entries
    obtain ⟨fs, hfs, -⟩ := hc.entries
    have hjournal : (t.note .ended).journal =
        (.ended :: (fs ++ .began call :: es)) ++ r.journal := by
      simp [note, hfs, hes]
    by_cases hmid : s.clientOn? group id = none
    · right
      refine ⟨_, hjournal, ?_⟩
      rcases ihc hws hmid hs with hcall | ⟨fs', hfs', hmem⟩
      · rw [Option.some.injEq] at hcall
        simp [hcall]
      · rw [hfs, List.append_left_inj] at hfs'
        rw [hfs']
        simp [hmem]
    · rcases ih hw hr hmid with htop | ⟨es', hes', hmem⟩
      · exact .inl htop
      · right
        refine ⟨_, hjournal, ?_⟩
        rw [hes, List.append_left_inj] at hes'
        rw [hes']
        simp [hmem]

end Registry

end ConsumerGroups
