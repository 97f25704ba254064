-- A listener that only hears the events knows who is in every group. It takes down the clients of a
-- change, strikes out a client that left and a group that is gone, and pays no attention to the
-- rest. As long as all changes are announced and nobody interferes, its view is right after every
-- request. Sweeps announce no changes and let groups go silently, but tell of every client.
import Mathlib.Data.Finset.Image
import ConsumerGroups.Proofs.Quiet

set_option autoImplicit false

namespace ConsumerGroups

/-- What is known of a client in a view. -/
structure Member where
  channel : UInt64
  name : String
  language : Language
  version : UInt32
deriving DecidableEq, Repr

/-- A client as views know it. -/
def Client.member (c : Client) : Member := ⟨c.channel.id, c.name, c.language, c.version⟩

/-- Clients as views know them. -/
def membersOf (cs : List Client) : Finset Member := (cs.map Client.member).toFinset

/-- A view: which members the groups have. -/
abbrev View := String → Finset Member

namespace View

/-- The view with other members of one group. -/
def put (v : View) (group : String) (ms : Finset Member) : View := Function.update v group ms

/-- The members of a group without the one on a channel. -/
def without (v : View) (group : String) (id : UInt64) : Finset Member :=
  (v group).filter (fun m => m.channel ≠ id)

/-- The view after an event of a group. -/
def hear (v : View) (group : String) (event : Event) : View :=
  match event with
  | .clientJoined .. => v
  | .clientLeft client _ => v.put group (v.without group client.channel.id)
  | .declared _ => v
  | .dissolved => v.put group ∅
  | .changed clients => v.put group (membersOf clients)

/-- What a listener makes of a journal. The journal has the newest entry first. -/
def ofJournal (l : Nat) : List Entry → View
  | [] => fun _ => ∅
  | .told l' group event :: before =>
    if l' = l then (ofJournal l before).hear group event else ofJournal l before
  | _ :: before => ofJournal l before

@[simp] theorem put_self (v : View) (group : String) (ms : Finset Member) :
    v.put group ms group = ms := by
  rw [put, Function.update_self]

theorem put_of_ne (v : View) {group group' : String} (h : group' ≠ group) (ms : Finset Member) :
    v.put group ms group' = v group' := by
  rw [put, Function.update_of_ne h]

theorem put_put (v : View) (group : String) (ms ms' : Finset Member) :
    (v.put group ms).put group ms' = v.put group ms' := by
  rw [put, put, put, Function.update_idem]

/-- To hear an event once more changes nothing. -/
theorem hear_hear (v : View) (group : String) (event : Event) :
    (v.hear group event).hear group event = v.hear group event := by
  cases event with
  | clientJoined => rfl
  | clientLeft client topics =>
    unfold hear
    dsimp only
    rw [put_put, without, put_self, without, Finset.filter_filter]
    simp only [and_self]
  | declared => rfl
  | dissolved => exact put_put v group ∅ ∅
  | changed clients => exact put_put v group _ _

/-- Entries that tell a listener nothing leave its view alone. -/
theorem ofJournal_append (l : Nat) {entries : List Entry}
    (h : ∀ e ∈ entries, ∀ group event, e ≠ .told l group event) (before : List Entry) :
    ofJournal l (entries ++ before) = ofJournal l before := by
  induction entries with
  | nil => rfl
  | cons e rest ih =>
    have ih := ih fun e' he' => h e' (List.mem_cons_of_mem e he')
    rw [List.cons_append]
    cases e with
    | told l' group event =>
      have hne : l' ≠ l := by
        rintro rfl
        exact h _ List.mem_cons_self group event rfl
      rw [ofJournal, if_neg hne, ih]
    | _ => exact ih

end View

namespace Registry

variable {Ω : Type} {env : Surroundings Ω} {r s : Registry Ω}

/-- The view of a listener. -/
def view (r : Registry Ω) (l : Nat) : View := View.ofJournal l r.journal

/-- The members of a group. -/
def members (r : Registry Ω) (group : String) : Finset Member :=
  match r.group? group with
  | some g => membersOf g.clients.values
  | none => ∅

theorem mem_members {group : String} {m : Member} :
    m ∈ r.members group ↔ ∃ id c, r.clientOn? group id = some c ∧ c.member = m := by
  unfold members clientOn?
  cases r.group? group with
  | none => simp
  | some g =>
    simp only [membersOf, List.mem_toFinset, List.mem_map, Table.mem_values_iff, Option.bind_some]
    constructor
    · rintro ⟨c, ⟨id, hc⟩, hm⟩
      exact ⟨id, c, hc, hm⟩
    · rintro ⟨id, c, hc, hm⟩
      exact ⟨c, ⟨id, hc⟩, hm⟩

/-- Members are the same when the clients are, but for what views do not know of them. -/
theorem members_congr {group : String}
    (h : ∀ id,
      (s.clientOn? group id).map Client.member = (r.clientOn? group id).map Client.member) :
    s.members group = r.members group := by
  ext m
  simp only [mem_members, ← Option.map_eq_some_iff, h]

theorem members_of_same {group : String}
    (h : ∀ id, s.clientOn? group id = r.clientOn? group id) : s.members group = r.members group :=
  members_congr fun id => congrArg _ (h id)

theorem members_of_absent {group : String} (h : r.current? group = none) :
    r.members group = ∅ := by
  rw [members, group?, h]
  rfl

theorem Aside.members (h : r.Aside s) (group : String) : s.members group = r.members group :=
  members_of_same (h.clientOn? group)

/-- To thin out a record takes nobody out of the other groups. -/
theorem Thins.members {stays : UInt64 → Client → Bool} {i : Nat} (h : Thins stays i r s)
    (hw : r.WellFormed) {group group' : String} (hi : r.current? group = some i)
    (hn : group' ≠ group) : s.members group' = r.members group' := by
  have hne : r.current? group' ≠ some i := fun h => hn (hw.current_unique h hi)
  refine members_of_same ?_
  intro id
  rw [h.clients, if_neg hne]

/-- A walk over the clients of the record on the table meets the members of the group. -/
theorem membersOf_clientsOf {group : String} {i : Nat} {g : Group}
    (hi : r.current? group = some i) (hg : r.record? i = some g) (env : Surroundings Ω) :
    membersOf (clientsOf env g) = r.members group := by
  ext m
  simp only [mem_members, clientOn?_of_record hi hg, membersOf, List.mem_toFinset, List.mem_map,
    mem_clientsOf]
  constructor
  · rintro ⟨c, ⟨id, hc⟩, hm⟩
    exact ⟨id, c, hc, hm⟩
  · rintro ⟨id, c, hc, hm⟩
    exact ⟨c, ⟨id, hc⟩, hm⟩

/-! ## What listeners hear -/

theorem view_logAll (r : Registry Ω) (lines : List LogLine) (l : Nat) :
    (r.logAll lines).view l = r.view l := by
  refine View.ofJournal_append l ?_ r.journal
  intro e he group event
  obtain ⟨line, -, rfl⟩ := List.mem_map.mp (List.mem_reverse.mp he)
  exact Entry.noConfusion

theorem view_takeFrom (r : Registry Ω) (i : Nat) (left : Group) (gone : List Client) (l : Nat) :
    (r.takeFrom i left gone).view l = r.view l := by
  refine View.ofJournal_append l ?_ r.journal
  intro e he group event
  obtain ⟨c, -, rfl⟩ := List.mem_map.mp (List.mem_reverse.mp he)
  exact Entry.noConfusion

theorem view_beside (r : Registry Ω) (clock : Clock) (wires : Table String Wire)
    (lines : List LogLine) (outside : Ω) (l : Nat) :
    (r.beside clock wires lines outside).view l = r.view l :=
  view_logAll r lines l

theorem view_closeQuietly (r : Registry Ω) (c : Channel) (l : Nat) :
    (r.closeQuietly c).1.view l = r.view l := by
  unfold closeQuietly
  split
  · exact view_logAll _ _ l
  · rfl

theorem view_reading (henv : env.Quiet) (r : Registry Ω) (l : Nat) :
    (env.beforeReading r).1.view l = r.view l := by
  obtain ⟨clock, wires, lines, outside, h⟩ := henv.reading r
  rw [h]
  exact view_beside r clock wires lines outside l

theorem view_callAll (henv : env.Quiet) (group : String) (event : Event) (ls : List Nat)
    (r : Registry Ω) (l : Nat) :
    (r.callAll env group event ls).1.view l =
      if l ∈ ls then (r.view l).hear group event else r.view l := by
  induction ls generalizing r with
  | nil => rfl
  | cons l' rest ih =>
    obtain ⟨clock, wires, lines, outside, h⟩ :=
      henv.listener l' group event (r.note (.told l' group event))
    have htold : (r.note (.told l' group event)).view l =
        if l' = l then (r.view l).hear group event else r.view l := rfl
    unfold callAll
    dsimp only
    rw [ih, view_logAll, h, view_beside, htold]
    by_cases hl : l' = l
    · subst hl
      by_cases hrest : l' ∈ rest
      · simp [hrest, View.hear_hear]
      · simp [hrest]
    · have hl' : l ≠ l' := fun e => hl e.symm
      simp [hl, hl']

/-- A listener hears every event that is sent. -/
theorem view_send (henv : env.Quiet) {l : Nat} (hl : l ∈ r.listeners) (group : String)
    (event : Event) : (r.send env group event).1.view l = (r.view l).hear group event := by
  rw [send, view_callAll henv, if_pos hl]
  rfl

theorem view_sendLeft (henv : env.Quiet) {l : Nat} (hl : l ∈ r.listeners) {i : Nat} {g : Group}
    (hg : r.record? i = some g) (group : String) (c : Client) :
    (r.sendLeft env group i c).view l =
      (r.view l).put group ((r.view l).without group c.channel.id) := by
  rw [sendLeft, hg]
  exact view_send henv hl group _

/-- When a change is announced, the view of the group is right. -/
theorem view_sendChanged (henv : env.Quiet) {l : Nat} (hl : l ∈ r.listeners) {group : String}
    {i : Nat} {g : Group} (hi : r.current? group = some i) (hg : r.record? i = some g) :
    (r.sendChanged env group i).view l = (r.view l).put group (r.members group) := by
  rw [sendChanged, hg, ← membersOf_clientsOf hi hg env]
  exact view_send henv hl group _

/-! ## Clients leave -/

/-- When a departure is settled, the view of the group is right. -/
theorem view_settleDeparture (henv : env.Quiet) {l : Nat} (hl : l ∈ r.listeners) {group : String}
    {i : Nat} {g : Group} (hi : r.current? group = some i) (hg : r.record? i = some g)
    (call : Call) :
    (r.settleDeparture env group i true call).view l =
      (r.view l).put group ((r.settleDeparture env group i true call).members group) := by
  unfold settleDeparture
  rw [removeIfVacant_eq hg]
  by_cases hempty : g.isEmpty = true
  · rw [if_pos ⟨hi, hempty⟩]
    dsimp only
    let dissolved := (r.removeRecord group i g call).log .info (dissolvedText group)
    have hgone : dissolved.current? group = none := current?_removeRecord r group i g call
    have hsent : dissolved.Aside (dissolved.send env group .dissolved).1 :=
      Aside.tolerant.send henv.aside group .dissolved dissolved
    have hl' : l ∈ dissolved.listeners := hl
    rw [hsent.members, members_of_absent hgone, view_send henv hl']
    exact congrArg (fun v => View.put v group ∅) (view_logAll (r.removeRecord group i g call) _ l)
  · rw [if_neg fun h => hempty h.2]
    have hlive : r.isLive group i = true := by
      rw [isLive, isVacant, hg, Option.all_some, Bool.eq_false_iff.mpr hempty,
        (isCurrent_iff r group i).mpr hi]
      rfl
    dsimp only
    rw [hlive, Bool.and_true, if_pos rfl, view_sendChanged henv hl hi hg,
      (Aside.tolerant.sendChanged henv.aside group i r).members]

/-- A client is taken out of a record, and the listeners are told of one who left the group. -/
theorem taken_and_told (henv : env.Quiet) {l : Nat} (hl : l ∈ r.listeners) {i : Nat} {g : Group}
    (hg : r.record? i = some g) (left : Group) (gone : List Client) (lines : List LogLine)
    (group : String) (c : Client) :
    let s := ((r.takeFrom i left gone).logAll lines).sendLeft env group i c
    s.view l = (r.view l).put group ((r.view l).without group c.channel.id) ∧
      s.record? i = some left ∧ l ∈ s.listeners ∧
      ∀ group', s.current? group' = r.current? group' := by
  intro s
  let taken := (r.takeFrom i left gone).logAll lines
  have hleft : taken.record? i = some left := record?_setRecord_self r hg left
  have hview : taken.view l = r.view l := by
    rw [view_logAll, view_takeFrom]
  have haside : taken.Aside s := Aside.tolerant.sendLeft henv.aside group i c taken
  have hl' : l ∈ taken.listeners := hl
  refine ⟨?_, ?_, haside.listeners.subset hl', haside.current?⟩
  · rw [← hview]
    exact view_sendLeft henv hl' hleft group c
  · rw [haside.record?]
    exact hleft

/-- A view that is right. -/
def Agrees (l : Nat) (r : Registry Ω) : Prop := ∀ group, r.view l group = r.members group

/-- A view is right when it is so for one group, and for the others as before. -/
theorem agrees_of_put {l : Nat} {v : View} {group : String}
    (hview : s.view l = v.put group (s.members group))
    (hothers : ∀ group', group' ≠ group → v group' = s.members group') : s.Agrees l := by
  intro group'
  rw [hview]
  by_cases hn : group' = group
  · subst hn
    exact View.put_self v _ _
  · rw [View.put_of_ne v hn, hothers group' hn]

theorem agrees_leave (henv : env.Quiet) (hw : r.WellFormed) {l : Nat} (hl : l ∈ r.listeners)
    (h : r.Agrees l) (group : String) (client : Client) :
    (r.leave env group client true).Agrees l := by
  have hothers : ∀ group', group' ≠ group →
      r.view l group' = (r.leave env group client true).members group' := by
    intro group' hn
    rw [h group']
    refine (members_of_same ?_).symm
    intro id
    rw [clientOn?_leave henv.aside hw, if_neg fun h => hn h.1]
  cases hi : r.current? group with
  | none =>
    rw [leave, hi]
    exact h
  | some i =>
    obtain ⟨g, hg, -⟩ := hw.recorded group i hi
    let begun := r.note (.began (.leave group client.channel.id))
    have hgb : begun.record? i = some g := hg
    rw [leave_of_current env hi] at hothers ⊢
    cases hs : g.clients.find? client.channel.id with
    | none =>
      rw [takeOut_of_absent env group hgb hs] at hothers ⊢
      exact agrees_of_put (view_settleDeparture henv (r := begun) hl hi hgb _) hothers
    | some stored =>
      rw [takeOut_of_some env group hgb hs] at hothers ⊢
      obtain ⟨hview, hleft, hl', hcurrent⟩ := taken_and_told henv (r := begun) hl hgb
        (g.without client.channel.id) [stored] [g.leftLine stored] group client
      refine agrees_of_put (view_settleDeparture henv hl' ((hcurrent group).trans hi) hleft _) ?_
      intro group' hn
      rw [hview, View.put_of_ne _ hn]
      exact hothers group' hn

theorem agrees_closeIn (henv : env.Quiet) (hw : r.WellFormed) {l : Nat} (hl : l ∈ r.listeners)
    (h : r.Agrees l) (address : String) (id : UInt64) {group : String} {i : Nat}
    (hi : r.current? group = some i) : (r.closeIn env address id i).Agrees l := by
  obtain ⟨g, hg, rfl⟩ := hw.recorded group i hi
  have hothers : ∀ group', group' ≠ g.name →
      r.view l group' = (r.closeIn env address id i).members group' := by
    intro group' hn
    rw [h group', (thins_closeIn henv.aside address id i r).members hw hi hn]
  cases hs : g.clients.find? id with
  | none =>
    rw [closeIn_of_absent env address hg hs]
    exact h
  | some stored =>
    rw [closeIn_of_some env address hg hs] at hothers ⊢
    obtain ⟨hview, hleft, hl', hcurrent⟩ := taken_and_told henv hl hg (g.without id) [stored]
      [g.closedLine address stored] g.name stored
    refine agrees_of_put (view_settleDeparture henv hl' ((hcurrent g.name).trans hi) hleft _) ?_
    intro group' hn
    rw [hview, View.put_of_ne _ hn]
    exact hothers group' hn

/-- Records that are walked one after the other: each is on the table, and none comes twice. -/
def OnTable (r : Registry Ω) (is : List Nat) : Prop :=
  is.Nodup ∧ ∀ i ∈ is, ∃ group, r.current? group = some i

theorem onTable_walk (hw : r.WellFormed) (env : Surroundings Ω) :
    r.OnTable (env.walk.records r.table.values) := by
  have hperm := env.walk.records_perm r.table.values
  constructor
  · rw [hperm.nodup_iff]
    exact Table.nodup_values fun j k v hj hk => hw.current_unique hj hk
  · intro i hi
    exact Table.mem_values_iff.mp (hperm.mem_iff.mp hi)

/-- To thin out a record leaves the others on the table. -/
theorem OnTable.tail {stays : UInt64 → Client → Bool} {i : Nat} {rest : List Nat}
    (h : r.OnTable (i :: rest)) (hthins : Thins stays i r s) : s.OnTable rest := by
  obtain ⟨hnodup, hcurrent⟩ := h
  rw [List.nodup_cons] at hnodup
  refine ⟨hnodup.2, ?_⟩
  intro j hj
  obtain ⟨group, hg⟩ := hcurrent j (List.mem_cons_of_mem i hj)
  have hji : j ≠ i := by
    rintro rfl
    exact hnodup.1 hj
  exact ⟨group, hthins.others group j hg hji⟩

theorem agrees_closeInAll (henv : env.Quiet) (hw : r.WellFormed) {l : Nat} (hl : l ∈ r.listeners)
    (h : r.Agrees l) (address : String) (id : UInt64) {is : List Nat} (his : r.OnTable is) :
    (is.foldl (fun r i => r.closeIn env address id i) r).Agrees l := by
  induction is generalizing r with
  | nil => exact h
  | cons i rest ih =>
    obtain ⟨group, hi⟩ := his.2 i List.mem_cons_self
    have hsteps : Steps True r (r.closeIn env address id i) :=
      Steps.removing.closeIn henv.steps address id i r
    exact ih (hsteps.wellFormed hw) (hsteps.listeners.subset hl)
      (agrees_closeIn henv hw hl h address id hi)
      (his.tail (thins_closeIn henv.aside address id i r))

theorem agrees_channelClosed (henv : env.Quiet) (hw : r.WellFormed) {l : Nat}
    (hl : l ∈ r.listeners) (h : r.Agrees l) (address : String) (id : UInt64) :
    (r.channelClosed env address id).1.Agrees l := by
  have hbegun : r.Aside (r.note (.began (.channelClosed id))) := .note r rfl
  exact agrees_closeInAll henv (hbegun.wellFormed hw) hl h address id (onTable_walk hw env)

/-! ## Clients are swept out -/

/-- Clients that were discarded are struck out one after the other. -/
theorem view_discard (henv : env.Quiet) (now : UInt64) {l : Nat} (hl : l ∈ r.listeners) {i : Nat}
    {g left : Group} (hleft : r.record? i = some left) {cs : List Client}
    (hcs : ∀ c ∈ cs, c.channel.closing ≠ .panics) :
    (∀ group, group ≠ g.name → (r.discard env now g i cs).1.view l group = r.view l group) ∧
      ∀ m, m ∈ (r.discard env now g i cs).1.view l g.name ↔
        m ∈ r.view l g.name ∧ ∀ c ∈ cs, m.channel ≠ c.channel.id := by
  induction cs generalizing r with
  | nil => exact ⟨fun _ _ => rfl, fun m => by simp [discard]⟩
  | cons c rest ih =>
    let logged := r.logAll [sweptLine g now c]
    let closed := (logged.closeQuietly c.channel).1
    let told := closed.sendLeft env g.name i c
    have hlogged : r.Aside logged := .logAll r _
    have hclosed : r.Aside closed := hlogged.trans (Aside.tolerant.closeQuietly logged c.channel)
    have htold : r.Aside told :=
      hclosed.trans (Aside.tolerant.sendLeft henv.aside g.name i c closed)
    have hview : told.view l = (r.view l).put g.name ((r.view l).without g.name c.channel.id) := by
      have hsame : closed.view l = r.view l := by
        rw [view_closeQuietly, view_logAll]
      rw [← hsame]
      exact view_sendLeft henv (hclosed.listeners.subset hl) (by rw [hclosed.record?, hleft]) _ c
    obtain ⟨hothers, hself⟩ := ih (htold.listeners.subset hl) (by rw [htold.record?, hleft])
      fun d hd => hcs d (List.mem_cons_of_mem c hd)
    have hreturns := closeQuietly_returns logged (hcs c List.mem_cons_self)
    rw [discard, andThen_of_ok hreturns, fst_andThen_ok]
    constructor
    · intro group hn
      rw [hothers group hn, hview, View.put_of_ne _ hn]
    · intro m
      rw [hself m, hview, View.put_self, View.without, Finset.mem_filter, List.forall_mem_cons,
        and_assoc]

theorem view_removeIfVacant (group : String) (i : Nat) (call : Call) (r : Registry Ω) (l : Nat) :
    (r.removeIfVacant group i call).1.view l = r.view l := by
  unfold removeIfVacant
  split
  · rfl
  · split <;> rfl

/-- Only the discarded clients are told of; that a group is gone is not. -/
theorem view_sweepRecord (env : Surroundings Ω) (hgentle : r.Gentle) (now : UInt64) {i : Nat}
    {g : Group} (hg : r.record? i = some g) (l : Nat) :
    (r.sweepRecord env now i).1.view l =
      (discard env now g i (expiredOf env g now r.settings.expiry)
        (r.takeFrom i (g.withoutExpired now r.settings.expiry)
          (expiredOf env g now r.settings.expiry))).1.view l := by
  obtain ⟨lines, hswept⟩ := hgentle.sweepRecord hg env now
  rw [hswept, view_logAll, view_removeIfVacant]

/-- Those who stay in a swept record are those who are not told of. -/
theorem members_without_expired (hw : r.WellFormed) {group : String} {i : Nat} {g : Group}
    (hi : r.current? group = some i) (hg : r.record? i = some g) (now limit : UInt64)
    (m : Member) :
    (m ∈ r.members group ∧ ∀ c ∈ expiredOf env g now limit, m.channel ≠ c.channel.id) ↔
      ∃ id c, (g.clients.find? id).filter (lively now limit id) = some c ∧ c.member = m := by
  have hkeyed := (hw.keyed i g hg).clients
  simp only [mem_members, clientOn?_of_record hi hg, mem_expiredOf, Option.filter_eq_some_iff]
  constructor
  · rintro ⟨⟨id, c, hc, rfl⟩, hno⟩
    refine ⟨id, c, ⟨hc, ?_⟩, rfl⟩
    rw [lively, Bool.not_eq_true', Bool.eq_false_iff]
    exact fun hexpired => hno c ⟨⟨id, hc⟩, hexpired⟩ rfl
  · rintro ⟨id, c, ⟨hc, hlively⟩, rfl⟩
    refine ⟨⟨id, c, hc, rfl⟩, ?_⟩
    rintro d ⟨⟨id', hd⟩, hexpired⟩ heq
    -- two clients on one channel are the same client
    have hid : id = id' := by
      rw [← hkeyed id c hc, ← hkeyed id' d hd]
      exact heq
    subst hid
    rw [hc, Option.some.injEq] at hd
    subst hd
    rw [lively, hexpired] at hlively
    cases hlively

/-- A swept record leaves the view right: whoever expired is struck out. -/
theorem agrees_sweepRecord (henv : env.Quiet) (hw : r.WellFormed) (hgentle : r.Gentle) {l : Nat}
    (hl : l ∈ r.listeners) (h : r.Agrees l) (now : UInt64) {group : String} {i : Nat}
    (hi : r.current? group = some i) : (r.sweepRecord env now i).1.Agrees l := by
  obtain ⟨g, hg, rfl⟩ := hw.recorded group i hi
  have hthins := thins_sweepRecord henv.aside hgentle now i
  let gone := expiredOf env g now r.settings.expiry
  let taken := r.takeFrom i (g.withoutExpired now r.settings.expiry) gone
  have hgone : ∀ c ∈ gone, c.channel.closing ≠ .panics := by
    intro c hc
    obtain ⟨⟨id, hid⟩, -⟩ := (mem_expiredOf env g now r.settings.expiry c).mp hc
    exact hgentle i g id c hg hid
  have hleft : taken.record? i = some _ := record?_setRecord_self r hg _
  obtain ⟨hothers, hself⟩ := view_discard henv (r := taken) now hl (g := g) hleft hgone
  intro group'
  rw [view_sweepRecord env hgentle now hg]
  by_cases hn : group' = g.name
  · subst hn
    ext m
    rw [hself m, view_takeFrom, h g.name, members_without_expired hw hi hg, mem_members]
    simp only [hthins.clients, if_pos hi, clientOn?_of_record hi hg]
  · rw [hothers group' hn, view_takeFrom, h group', hthins.members hw hi hn]

theorem agrees_sweepAll (henv : env.Quiet) (hw : r.WellFormed) (hgentle : r.Gentle) {l : Nat}
    (hl : l ∈ r.listeners) (h : r.Agrees l) (now : UInt64) {is : List Nat} (his : r.OnTable is) :
    (r.sweepAll env now is).1.Agrees l := by
  induction is generalizing r with
  | nil => exact h
  | cons i rest ih =>
    obtain ⟨group, hi⟩ := his.2 i List.mem_cons_self
    obtain ⟨n, hn⟩ := sweepRecord_returns hgentle env now i
    have hsteps : Steps True r (r.sweepRecord env now i).1 :=
      Steps.removing.sweepRecord henv.steps now i r
    rw [sweepAll, andThen_of_ok hn, fst_andThen_ok]
    exact ih (hsteps.wellFormed hw) (hsteps.gentle hgentle) (hsteps.listeners.subset hl)
      (agrees_sweepRecord henv hw hgentle hl h now hi)
      (his.tail (thins_sweepRecord henv.aside hgentle now i))

theorem agrees_sweep (henv : env.Quiet) (hw : r.WellFormed) (hgentle : r.Gentle) {l : Nat}
    (hl : l ∈ r.listeners) (h : r.Agrees l) : (r.sweep env).1.Agrees l := by
  let begun := r.note (.began .sweep)
  let read := (env.beforeReading begun).1
  have haside : r.Aside read := (Aside.note r rfl).trans (henv.aside.reading begun)
  have hw := haside.wellFormed hw
  have hread : read.Agrees l := by
    intro group
    rw [view_reading henv, haside.members]
    exact h group
  have hswept := agrees_sweepAll henv hw (haside.gentle hgentle) (haside.listeners.subset hl)
    hread read.clock.now (onTable_walk hw env)
  rw [sweep_of_returns (henv.returns begun)]
  exact hswept

/-! ## Clients register -/

theorem view_findOrFound (henv : env.Quiet) {l : Nat} (hl : l ∈ r.listeners) (q : Registration) :
    (r.findOrFound env q).1.view l = r.view l := by
  have hsend : (r.send env q.group (.clientJoined q.client q.topics)).1.view l = r.view l :=
    view_send henv hl q.group _
  unfold findOrFound
  split
  · rfl
  · dsimp only
    split
    · exact hsend
    · exact hsend

theorem view_attempted (henv : env.Quiet) {l : Nat} (hl : l ∈ r.listeners) (q : Registration) :
    (r.attempted env q).1.view l = r.view l := by
  have hread : (r.read env q).view l = r.view l := by
    rw [read, view_reading henv, view_findOrFound henv hl]
  rw [← hread]
  unfold attempted update
  split
  · rfl
  · exact view_logAll _ _ l

/-- A registration that makes no difference leaves the members as they are. -/
theorem member_heardRecord {old : Option Client} {client : Client}
    (h : Group.isNews old client = false) :
    (some (Group.heardRecord old client)).map Client.member = old.map Client.member := by
  cases old with
  | none => cases h
  | some old =>
    simp only [Group.isNews, Bool.not_eq_false'] at h
    rw [Group.heardRecord, if_pos h]
    rfl

theorem isNews_of_unchanged {q : Registration} {now : UInt64} {g : Group}
    (h : (revised q now g).changed = false) :
    Group.isNews (g.clients.find? q.client.channel.id) { q.client with heardAt := now } =
      false := by
  unfold revised at h
  dsimp only at h
  split at h
  · simp only [Bool.or_eq_false_iff] at h
    exact (Bool.or_eq_false_iff.mp h.1).2
  · exact (Bool.or_eq_false_iff.mp h).2

/-- The members are the same after a registration that makes no difference. -/
theorem isNews_of_attempted (henv : env.Quiet) (hw : r.WellFormed) {q : Registration}
    (hname : IsName q.group) (h : ((r.started env q).attempted env q).2 = false) :
    Group.isNews (r.clientOn? q.group q.client.channel.id)
      { q.client with heardAt := r.registerTime env q } = false := by
  have hws := (aside_started henv.aside q r).wellFormed hw
  have hwr := wellFormed_read henv hws hname
  have hi := current?_read henv.aside q (r.started env q)
  obtain ⟨g, hg, -⟩ := hwr.recorded q.group _ hi
  rw [attempted, update, hg] at h
  rw [← clientOn?_read henv hw, clientOn?_of_record hi hg]
  exact isNews_of_unchanged h

theorem sample_returns (henv : env.Quiet) (start : UInt64) (r : Registry Ω) :
    (r.sample env start).2 = .ok () := by
  unfold sample
  split
  · rfl
  · rw [readClock_of_returns (henv.returns r), andThen_ok]

theorem view_sample (henv : env.Quiet) (start : UInt64) (r : Registry Ω) (l : Nat) :
    (r.sample env start).1.view l = r.view l := by
  unfold sample
  split
  · rfl
  · rw [readClock_of_returns (henv.returns r), andThen_ok]
    exact view_reading henv r l

theorem view_proclaim (henv : env.Quiet) {l : Nat} (hl : l ∈ r.listeners) {q : Registration}
    (hq : q.announce = true) (start : UInt64) {i : Nat} {g : Group}
    (hi : r.current? q.group = some i) (hg : r.record? i = some g) (changed : Bool) :
    (r.proclaim env q start i changed).1.view l =
      if changed = true then (r.view l).put q.group (r.members q.group) else r.view l := by
  have htold : ∀ s : Registry Ω, r.Aside s →
      (andThen (s.sample env start) fun t _ =>
        ((t.send env q.group (.declared q.subscriptions)).1, Except.ok changed)).1.view l =
        s.view l := by
    intro s hs
    have hsampled := hs.trans (Aside.tolerant.sample henv.aside start s)
    rw [andThen_of_ok (sample_returns henv start s),
      view_send henv (hsampled.listeners.subset hl), ← view_sample henv start s]
    rfl
  unfold proclaim
  cases changed with
  | true =>
    simp only [hq, Bool.and_self, if_true]
    rw [htold _ (Aside.tolerant.sendChanged henv.aside q.group i r)]
    exact view_sendChanged henv hl hi hg
  | false =>
    simp only [Bool.false_and, Bool.false_eq_true, if_false]
    exact htold r (.refl r)

/-- In a registration that is taken, a listener hears of the members if anything changed. -/
theorem view_tryRegister (henv : env.Quiet) (hw : r.WellFormed) {l : Nat} (hl : l ∈ r.listeners)
    {q : Registration} (hname : IsName q.group) (hq : q.announce = true) :
    (r.tryRegister env q).1.view l =
      if ((r.started env q).attempted env q).2 = true then
        (r.view l).put q.group ((r.tryRegister env q).1.members q.group)
      else r.view l := by
  let placed := ((r.started env q).attempted env q).1
  have hstarted := aside_started henv.aside q r
  have hlstarted := hstarted.listeners.subset hl
  have hi : placed.current? q.group = some ((r.started env q).target env q) :=
    current?_attempted henv.aside q _
  have hsteps : Steps False r placed := by
    have hattempt := Steps.admitting.attempt henv.steps hname
      (fun hc : False => hc.elim) (r.started env q)
    rw [(attempt_of_returns (henv.returns _)).2] at hattempt
    exact (Relation.ReflTransGen.single (.aside hstarted)).trans hattempt
  obtain ⟨g, hg, -⟩ := (hsteps.wellFormed hw).recorded q.group _ hi
  have hview : placed.view l = r.view l := by
    rw [view_attempted henv hlstarted, started, view_reading henv]
    rfl
  have hproclaimed := view_proclaim henv (hsteps.listeners.subset hl) hq
    (r.started env q).clock.now hi hg ((r.started env q).attempted env q).2
  have haside := Aside.tolerant.proclaim henv.aside q (r.started env q).clock.now
    ((r.started env q).target env q) ((r.started env q).attempted env q).2 placed
  rw [hview, ← haside.members] at hproclaimed
  rw [tryRegister_of_quiet henv hname]
  exact hproclaimed

theorem agrees_register (henv : env.Quiet) (hw : r.WellFormed) {l : Nat} (hl : l ∈ r.listeners)
    (h : r.Agrees l) {q : Registration} (hname : IsName q.group) (hq : q.announce = true) :
    (r.tryRegister env q).1.Agrees l := by
  have hclients := clientOn?_register henv hw hname true
  have hview := view_tryRegister henv hw hl hname hq
  cases hchanged : ((r.started env q).attempted env q).2 with
  | true =>
    rw [hchanged, if_pos rfl] at hview
    refine agrees_of_put hview ?_
    intro group' hn
    rw [h group']
    refine (members_of_same ?_).symm
    intro id
    exact (hclients group' id).trans (if_neg fun h => hn h.1)
  | false =>
    rw [hchanged, if_neg Bool.false_ne_true] at hview
    intro group
    rw [hview, h group]
    refine (members_congr ?_).symm
    intro id
    refine (congrArg _ (hclients group id)).trans ?_
    split
    · rename_i hself
      rw [hself.1, hself.2]
      exact member_heardRecord (isNews_of_attempted henv hw hname hchanged)
    · rfl

end Registry

/-- Whether a request has the listeners told of a change. -/
def Request.Announces : Request → Prop
  | .register _ q => q.announce = true
  | .leave _ _ announce => announce = true
  | _ => True

namespace Registry

variable {Ω : Type} {env : Surroundings Ω} {r : Registry Ω}

theorem agrees_logAll {l : Nat} (h : r.Agrees l) (lines : List LogLine) :
    (r.logAll lines).Agrees l := by
  intro group
  rw [view_logAll, (Aside.logAll r lines).members]
  exact h group

theorem agrees_serve (henv : env.Quiet) (hw : r.WellFormed) (hgentle : r.Gentle) {l : Nat}
    (hl : l ∈ r.listeners) (h : r.Agrees l) {request : Request} (hannounces : request.Announces) :
    (r.serve env request).Agrees l := by
  cases request with
  | register strict q =>
    have htry : (r.tryRegister env q).1.Agrees l := by
      cases hcheck : checkName q.group with
      | error flaw =>
        rw [tryRegister_of_flaw env q r hcheck]
        exact h
      | ok _ => exact agrees_register henv hw hl h (checkName_eq_ok_iff.mp hcheck) hannounces
    obtain ⟨lines, hserve⟩ := serve_register env strict q r
    rw [hserve]
    exact agrees_logAll htry lines
  | leave group client announce =>
    have hannounce : announce = true := hannounces
    rw [hannounce]
    exact agrees_leave henv hw hl h group client
  | channelClosed address id => exact agrees_channelClosed henv hw hl h address id
  | sweep => exact agrees_sweep henv hw hgentle hl h
  | addListener l' => exact h
  | setClock clock => exact h

theorem agrees_serveAll (henv : env.Quiet) (hw : r.WellFormed) (hgentle : r.Gentle) {l : Nat}
    (hl : l ∈ r.listeners) (h : r.Agrees l) {requests : List Request}
    (hcalm : ∀ a ∈ requests, a.IsCalm) (hannounces : ∀ a ∈ requests, a.Announces) :
    (r.serveAll env requests).Agrees l := by
  induction requests generalizing r with
  | nil => exact h
  | cons a rest ih =>
    have hsteps : Steps True r (r.serve env a) :=
      steps_serve henv.steps (fun _ => hcalm a List.mem_cons_self) r
    exact ih (hsteps.wellFormed hw) (hsteps.gentle hgentle) (hsteps.listeners.subset hl)
      (agrees_serve henv hw hgentle hl h (hannounces a List.mem_cons_self))
      (fun b hb => hcalm b (List.mem_cons_of_mem a hb))
      (fun b hb => hannounces b (List.mem_cons_of_mem a hb))

/-- The events tell a listener who is in every group, after every one of the requests. -/
theorem a_view_from_events_is_right (henv : env.Quiet) (settings : Settings)
    {listeners : List Nat} {l : Nat} (hl : l ∈ listeners) (clock : Clock) (measured : Bool)
    (outside : Ω) {requests : List Request} (hcalm : ∀ a ∈ requests, a.IsCalm)
    (hannounces : ∀ a ∈ requests, a.Announces) (n : Nat) (group : String) :
    let r := (Registry.new settings listeners clock measured outside).serveAll env (requests.take n)
    r.view l group = r.members group := by
  intro r
  have hw := wellFormed_new settings listeners clock measured outside
  have hgentle := gentle_new settings listeners clock measured outside
  have hnew : (Registry.new settings listeners clock measured outside).Agrees l := fun _ => rfl
  exact agrees_serveAll henv hw hgentle hl hnew
    (fun a ha => hcalm a (List.mem_of_mem_take ha))
    (fun a ha => hannounces a (List.mem_of_mem_take ha)) group

/-- Two clients come into a group, and one of their channels closes. -/
def comings : List Request :=
  [.register true (.sample "g" 7), .register true (.sample "g" 8), .channelClosed "peer" 7]

/-- In the end the listener knows that the other client is left. -/
theorem a_listener_knows_who_is_left :
    (∀ a ∈ comings, a.IsCalm) ∧ (∀ a ∈ comings, a.Announces) ∧
      ((Registry.new default [0] default false ()).serveAll (.still Unit)
        (comings.take 3)).view 0 "g" = membersOf [(Registration.sample "g" 8).client] := by
  have hcalm : ∀ a ∈ comings, a.IsCalm := by
    simp [comings, Request.IsCalm, Registration.sample, Client.new]
  have hannounces : ∀ a ∈ comings, a.Announces := by
    simp [comings, Request.Announces, Registration.sample]
  refine ⟨hcalm, hannounces, ?_⟩
  rw [a_view_from_events_is_right (Surroundings.quiet_still Unit) default
    (List.mem_singleton.mpr rfl) default false () hcalm hannounces 3 "g"]
  rfl

end Registry

end ConsumerGroups
