-- What channels do to a sweep that tells them to close. A channel that closes, refuses to or was
-- closed before makes no difference: the sweep does the same as if every channel closed well. But a
-- channel that panics ends it, and then not all is done that should be.
import ConsumerGroups.Proofs.Soundness
import ConsumerGroups.Proofs.Orderly

set_option autoImplicit false

namespace ConsumerGroups

/-! ## If every channel closed well -/

def Channel.calmed (c : Channel) : Channel := { c with closing := .succeeds }

def Client.calmed (c : Client) : Client := { c with channel := c.channel.calmed }

def Group.calmed (g : Group) : Group := { g with clients := g.clients.mapValues Client.calmed }

def Event.calmed : Event → Event
  | .clientJoined client topics => .clientJoined client.calmed topics
  | .clientLeft client topics => .clientLeft client.calmed topics
  | .changed clients => .changed (clients.map Client.calmed)
  | e => e

def Entry.calmed : Entry → Entry
  | .sent group event onTable => .sent group event.calmed (onTable.map Group.calmed)
  | .told l group event => .told l group event.calmed
  | .unmapped group i last call => .unmapped group i last.calmed call
  | .removed group i client => .removed group i client.calmed
  | e => e

def Registry.calmed {Ω : Type} (r : Registry Ω) : Registry Ω :=
  { r with records := r.records.map Group.calmed }

theorem Group.calmed_calmed (g : Group) : g.calmed.calmed = g.calmed := by
  simp only [calmed, Table.mapValues_mapValues]
  rfl

theorem Group.find?_calmed (g : Group) (id : UInt64) :
    g.calmed.clients.find? id = (g.clients.find? id).map Client.calmed :=
  Table.find?_mapValues _ _ _

theorem Group.withoutExpired_calmed (g : Group) (now limit : UInt64) :
    g.calmed.withoutExpired now limit = (g.withoutExpired now limit).calmed := by
  simp only [withoutExpired, calmed, Table.filter_mapValues]
  rfl

theorem Group.isEmpty_calmed (g : Group) : g.calmed.isEmpty = g.isEmpty :=
  Table.isEmpty_mapValues _ _

/-- That clients were taken out is no matter of the log. -/
theorem unlogged_removed (name : String) (i : Nat) (gone : List Client) :
    unlogged (gone.map (.removed name i)).reverse = (gone.map (.removed name i)).reverse := by
  refine List.filter_eq_self.mpr ?_
  intro e he
  obtain ⟨c, -, rfl⟩ := List.mem_map.mp (List.mem_reverse.mp he)
  rfl

namespace Registry

variable {Ω : Type} {env env' : Surroundings Ω} {r r' s s' t : Registry Ω} {now : UInt64}

/-- Nothing happened that anyone but the log, the wires and the clock could tell. -/
structure Mute (r s : Registry Ω) : Prop where
  records : s.records = r.records
  table : s.table = r.table
  settings : s.settings = r.settings
  listeners : s.listeners = r.listeners
  journal : unlogged s.journal = unlogged r.journal

theorem Mute.trans (h : Mute r s) (h' : Mute s t) : Mute r t :=
  ⟨h'.records.trans h.records, h'.table.trans h.table, h'.settings.trans h.settings,
    h'.listeners.trans h.listeners, h'.journal.trans h.journal⟩

theorem mute_logAll (r : Registry Ω) (lines : List LogLine) : Mute r (r.logAll lines) :=
  ⟨rfl, rfl, rfl, rfl, unlogged_lines lines r.journal⟩

theorem mute_beside (r : Registry Ω) (clock : Clock) (wires : Table String Wire)
    (lines : List LogLine) (outside : Ω) : Mute r (r.beside clock wires lines outside) :=
  ⟨rfl, rfl, rfl, rfl, unlogged_lines lines r.journal⟩

theorem mute_closeQuietly (r : Registry Ω) (c : Channel) : Mute r (r.closeQuietly c).1 := by
  have hwire : ∀ w, Mute r (r.setWire c w) := fun w => ⟨rfl, rfl, rfl, rfl, rfl⟩
  unfold closeQuietly
  split
  · exact (hwire _).trans (mute_logAll _ _)
  · exact hwire _

/-! ## The same, but for what channels do when they close -/

/-- The same groups, and the same has happened, but in the second registry every channel closes
well. -/
structure Alike (r r' : Registry Ω) : Prop where
  records : r'.records = r.records.map Group.calmed
  table : r'.table = r.table
  settings : r'.settings = r.settings
  listeners : r'.listeners = r.listeners
  journal : (unlogged r'.journal).map Entry.calmed = (unlogged r.journal).map Entry.calmed

theorem alike_calmed (r : Registry Ω) : Alike r r.calmed := ⟨rfl, rfl, rfl, rfl, rfl⟩

namespace Alike

theorem mute (h : Alike r r') (hs : Mute r s) (hs' : Mute r' s') : Alike s s' := by
  refine ⟨?_, ?_, ?_, ?_, ?_⟩
  · rw [hs'.records, h.records, hs.records]
  · rw [hs'.table, h.table, hs.table]
  · rw [hs'.settings, h.settings, hs.settings]
  · rw [hs'.listeners, h.listeners, hs.listeners]
  · rw [hs'.journal, h.journal, hs.journal]

theorem note (h : Alike r r') {e e' : Entry} (he : e.isLogged = false) (he' : e'.isLogged = false)
    (heq : e'.calmed = e.calmed) : Alike (r.note e) (r'.note e') := by
  refine ⟨h.records, h.table, h.settings, h.listeners, ?_⟩
  have hcons : ∀ {e : Entry} (before : List Entry), e.isLogged = false →
      unlogged (e :: before) = e :: unlogged before :=
    fun before he => List.filter_cons_of_pos (by simp [he])
  simp only [Registry.note, hcons _ he, hcons _ he', List.map_cons, heq, h.journal]

theorem record? (h : Alike r r') (i : Nat) : r'.record? i = (r.record? i).map Group.calmed := by
  rw [Registry.record?, h.records, List.getElem?_map, Registry.record?]

theorem current? (h : Alike r r') (group : String) : r'.current? group = r.current? group := by
  rw [Registry.current?, h.table, Registry.current?]

theorem group? (h : Alike r r') (group : String) :
    r'.group? group = (r.group? group).map Group.calmed := by
  rw [Registry.group?, h.current?, Registry.group?]
  cases r.current? group with
  | none => rfl
  | some i => exact h.record? i

end Alike

theorem alike_callAll (henv : env.Quiet) (henv' : env'.Quiet) (h : Alike r r') (group : String)
    {event event' : Event} (hevent : event'.calmed = event.calmed) (ls : List Nat) :
    Alike (r.callAll env group event ls).1 (r'.callAll env' group event' ls).1 := by
  induction ls generalizing r r' with
  | nil => exact h
  | cons l rest ih =>
    have htold : Alike (r.note (.told l group event)) (r'.note (.told l group event')) :=
      h.note rfl rfl (congrArg (Entry.told l group) hevent)
    have hheard := ((henv.actBy mute_beside).listener l group event
      (r.note (.told l group event))).trans (mute_logAll _ (outcomeLines group event
        (env.listener l group event (r.note (.told l group event))).2))
    have hheard' := ((henv'.actBy mute_beside).listener l group event'
      (r'.note (.told l group event'))).trans (mute_logAll _ (outcomeLines group event'
        (env'.listener l group event' (r'.note (.told l group event'))).2))
    exact ih (htold.mute hheard hheard')

theorem alike_sendLeft (henv : env.Quiet) (henv' : env'.Quiet) (h : Alike r r') (group : String)
    (i : Nat) (c : Client) :
    Alike (r.sendLeft env group i c) (r'.sendLeft env' group i c.calmed) := by
  unfold sendLeft
  rw [h.record?]
  cases r.record? i with
  | none => exact h
  | some g =>
    have hsent : Alike (r.note (.sent group (.clientLeft c g.topics) (r.group? group)))
        (r'.note (.sent group (.clientLeft c.calmed g.calmed.topics) (r'.group? group))) := by
      refine h.note rfl rfl ?_
      have hgroup : (r'.group? group).map Group.calmed = (r.group? group).map Group.calmed := by
        rw [h.group?, Option.map_map]
        congr
        exact funext Group.calmed_calmed
      simp only [Entry.calmed, hgroup]
      rfl
    have hcalled := alike_callAll henv henv' hsent group
      (show (Event.clientLeft c.calmed g.calmed.topics).calmed =
        (Event.clientLeft c g.topics).calmed from rfl) r.listeners
    simp only [Option.map_some, send]
    rw [h.listeners]
    exact hcalled

theorem alike_discard (henv : env.Quiet) (henv' : env'.Quiet) (h : Alike r r') (g : Group)
    (i : Nat) {cs : List Client} {n : Nat} (hn : (r.discard env now g i cs).2 = .ok n) :
    (r'.discard env' now g.calmed i (cs.map Client.calmed)).2 = .ok n ∧
      Alike (r.discard env now g i cs).1
        (r'.discard env' now g.calmed i (cs.map Client.calmed)).1 := by
  induction cs generalizing r r' n with
  | nil => exact ⟨hn, h⟩
  | cons c rest ih =>
    let logged := r.logAll [sweptLine g now c]
    let logged' := r'.logAll [sweptLine g.calmed now c.calmed]
    have hreturn' : (logged'.closeQuietly c.calmed.channel).2 = .ok () :=
      closeQuietly_returns _ Closing.noConfusion
    have hclosed : Mute r (logged.closeQuietly c.channel).1 :=
      (mute_logAll r _).trans (mute_closeQuietly logged c.channel)
    have hclosed' : Mute r' (logged'.closeQuietly c.calmed.channel).1 :=
      (mute_logAll r' _).trans (mute_closeQuietly logged' c.calmed.channel)
    rw [List.map_cons, discard, andThen_of_ok hreturn', fst_andThen_ok]
    cases hreturn : (logged.closeQuietly c.channel).2 with
    | error panic =>
      rw [discard, andThen_of_error hreturn] at hn
      cases hn
    | ok =>
      rw [discard, andThen_of_ok hreturn] at hn ⊢
      rw [fst_andThen_ok]
      have hsent := alike_sendLeft henv henv' (h.mute hclosed hclosed') g.name i c
      rcases hrest : ((logged.closeQuietly c.channel).1.sendLeft env g.name i c).discard env now g i
        rest with ⟨t, panic | m⟩
      · rw [hrest] at hn
        cases hn
      · obtain ⟨hm, hlast⟩ := ih hsent (n := m) (by rw [hrest])
        rw [hrest] at hn hlast
        refine ⟨?_, hlast⟩
        exact (congrArg Prod.snd (andThen_of_ok hm _)).trans hn

/-- The same clients have expired. -/
theorem expiredOf_calmed (hwalk : env'.walk = env.walk) (g : Group) (now limit : UInt64) :
    expiredOf env' g.calmed now limit = (expiredOf env g now limit).map Client.calmed := by
  have hclients : clientsOf env' g.calmed = (clientsOf env g).map Client.calmed := by
    have hkeys : g.calmed.clients.keys = g.clients.keys := Table.keys_mapValues _ _
    rw [clientsOf, clientsOf, hkeys, hwalk, List.map_filterMap]
    exact congrArg (List.filterMap · _) (funext g.find?_calmed)
  rw [expiredOf, expiredOf, hclients, List.filter_map]
  rfl

theorem Alike.takeFrom (h : Alike r r') (i : Nat) (left : Group) (gone : List Client) :
    Alike (r.takeFrom i left gone) (r'.takeFrom i left.calmed (gone.map Client.calmed)) := by
  refine ⟨?_, h.table, h.settings, h.listeners, ?_⟩
  · simp only [Registry.takeFrom, h.records, List.map_set]
  · simp only [Registry.takeFrom, unlogged_append, List.map_append, h.journal]
    rw [unlogged_removed, unlogged_removed, List.map_reverse, List.map_reverse, List.map_map,
      List.map_map, List.map_map]
    rfl

theorem alike_removeIfVacant (h : Alike r r') (group : String) (i : Nat) (call : Call) :
    (r'.removeIfVacant group i call).2 = (r.removeIfVacant group i call).2 ∧
      Alike (r.removeIfVacant group i call).1 (r'.removeIfVacant group i call).1 := by
  have hcurrent : r'.isCurrent group i = r.isCurrent group i := by
    rw [isCurrent, h.current?, isCurrent]
  unfold removeIfVacant
  rw [h.record?, hcurrent]
  cases r.record? i with
  | none => exact ⟨rfl, h⟩
  | some g =>
    simp only [Option.map_some, Group.isEmpty_calmed]
    split
    · have hnoted : Alike (r.note (.unmapped group i g call))
          (r'.note (.unmapped group i g.calmed call)) :=
        h.note rfl rfl (by simp only [Entry.calmed, Group.calmed_calmed])
      refine ⟨rfl, hnoted.records, ?_, hnoted.settings, hnoted.listeners, hnoted.journal⟩
      simp only [removeRecord, h.table]
    · exact ⟨rfl, h⟩

theorem alike_sweepRecord (henv : env.Quiet) (henv' : env'.Quiet) (hwalk : env'.walk = env.walk)
    (h : Alike r r') (i : Nat) {n : Nat} (hn : (r.sweepRecord env now i).2 = .ok n) :
    (r'.sweepRecord env' now i).2 = .ok n ∧
      Alike (r.sweepRecord env now i).1 (r'.sweepRecord env' now i).1 := by
  have hrecord := h.record? i
  cases hg : r.record? i with
  | none =>
    rw [hg] at hrecord
    rw [sweepRecord_of_missing hg] at hn ⊢
    rw [sweepRecord_of_missing hrecord]
    exact ⟨hn, h⟩
  | some g =>
    rw [hg, Option.map_some] at hrecord
    obtain ⟨discarded, hdone⟩ := discarded_of_ok hg hn
    have htaken := h.takeFrom i (g.withoutExpired now r.settings.expiry)
      (expiredOf env g now r.settings.expiry)
    obtain ⟨hm, hdiscarded⟩ := alike_discard henv henv' htaken g i (n := n) (by rw [hdone])
    rw [← expiredOf_calmed hwalk, ← Group.withoutExpired_calmed, ← h.settings] at hm hdiscarded
    obtain ⟨lines, hswept⟩ := sweepRecord_of_discarded hg hdone
    obtain ⟨lines', hswept'⟩ := sweepRecord_of_discarded hrecord (Prod.ext rfl hm)
    rw [h.settings, hdone] at hdiscarded
    rw [hswept, hswept']
    have hremoved := (alike_removeIfVacant hdiscarded g.name i .sweep).2
    rw [← h.settings] at hremoved
    exact ⟨rfl, hremoved.mute (mute_logAll _ _) (mute_logAll _ _)⟩

theorem alike_sweepAll (henv : env.Quiet) (henv' : env'.Quiet) (hwalk : env'.walk = env.walk)
    (h : Alike r r') (is : List Nat) {n : Nat} (hn : (r.sweepAll env now is).2 = .ok n) :
    (r'.sweepAll env' now is).2 = .ok n ∧
      Alike (r.sweepAll env now is).1 (r'.sweepAll env' now is).1 := by
  induction is generalizing r r' n with
  | nil => exact ⟨hn, h⟩
  | cons i rest ih =>
    obtain ⟨swept, m, k, hfirst, hrest, hsum, hdone⟩ := sweepAll_cons_of_ok hn
    obtain ⟨hm, hswept⟩ := alike_sweepRecord henv henv' hwalk h i (n := m) (by rw [hfirst])
    rw [hfirst] at hswept
    obtain ⟨hk, hlast⟩ := ih hswept hrest
    rw [hdone, sweepAll, andThen_of_ok hm, fst_andThen_ok, andThen_of_ok hk, hsum]
    exact ⟨rfl, hlast⟩

end Registry

/-! ## A sweep that returns has told of everyone whom it took out -/

def Entry.removal? : Entry → Option (String × Client)
  | .removed group _ client => some (group, client)
  | _ => none

def Entry.departure? : Entry → Option (String × Client)
  | .sent group (.clientLeft client _) _ => some (group, client)
  | _ => none

namespace Registry

variable {Ω : Type} {env env' : Surroundings Ω} {r r' s s' t : Registry Ω} {now : UInt64}

/-- Between two states these clients were taken out, and of these the listeners were told that they
left, the last one first. -/
structure Announces (taken told : List (String × Client)) (r s : Registry Ω) : Prop where
  removals : s.journal.filterMap Entry.removal? = taken ++ r.journal.filterMap Entry.removal?
  departures : s.journal.filterMap Entry.departure? = told ++ r.journal.filterMap Entry.departure?

theorem Announces.trans {taken told taken' told' : List (String × Client)}
    (h : Announces taken told r s) (h' : Announces taken' told' s t) :
    Announces (taken' ++ taken) (told' ++ told) r t := by
  constructor
  · rw [h'.removals, h.removals, List.append_assoc]
  · rw [h'.departures, h.departures, List.append_assoc]

theorem Mute.announces (h : Mute r s) : Announces [] [] r s := by
  constructor
  · rw [← filterMap_unlogged (fun _ => rfl), h.journal, filterMap_unlogged (fun _ => rfl)]
    rfl
  · rw [← filterMap_unlogged (fun _ => rfl), h.journal, filterMap_unlogged (fun _ => rfl)]
    rfl

theorem announces_callAll (henv : env.Quiet) (group : String) (event : Event) (ls : List Nat)
    (r : Registry Ω) : Announces [] [] r (r.callAll env group event ls).1 := by
  induction ls generalizing r with
  | nil => exact ⟨rfl, rfl⟩
  | cons l rest ih =>
    have htold : Announces [] [] r (r.note (.told l group event)) := ⟨rfl, rfl⟩
    have hheard := (henv.actBy mute_beside).listener l group event (r.note (.told l group event))
    exact ((htold.trans hheard.announces).trans (mute_logAll _ _).announces).trans (ih _)

theorem announces_sendLeft (henv : env.Quiet) (group : String) {i : Nat} {g : Group} (c : Client)
    (hg : r.record? i = some g) : Announces [] [(group, c)] r (r.sendLeft env group i c) := by
  unfold sendLeft
  rw [hg]
  have hsent : Announces [] [(group, c)] r
      (r.note (.sent group (.clientLeft c g.topics) (r.group? group))) := ⟨rfl, rfl⟩
  exact hsent.trans (announces_callAll henv group _ r.listeners _)

theorem announces_discard (henv : env.Quiet) (g : Group) {i : Nat} {g' : Group} {cs : List Client}
    {n : Nat} (hg : r.record? i = some g') (hn : (r.discard env now g i cs).2 = .ok n) :
    Announces [] (cs.map (g.name, ·)).reverse r (r.discard env now g i cs).1 := by
  induction cs generalizing r n with
  | nil => exact ⟨rfl, rfl⟩
  | cons c rest ih =>
    obtain ⟨closed, m, hclosed, hrest, -, hdone⟩ := discard_cons_of_ok hn
    have hmute : Mute r closed := by
      have hquietly := mute_closeQuietly (r.logAll [sweptLine g now c]) c.channel
      rw [hclosed] at hquietly
      exact (mute_logAll r _).trans hquietly
    have hg' : closed.record? i = some g' := by
      rw [record?, hmute.records]
      exact hg
    have hleft : (closed.sendLeft env g.name i c).record? i = some g' :=
      ((Aside.tolerant.sendLeft henv.aside g.name i c closed).record? i).trans hg'
    have hsent := announces_sendLeft henv g.name c hg'
    rw [hdone, List.map_cons, List.reverse_cons]
    exact (hmute.announces.trans hsent).trans (ih hleft hrest)

theorem announces_takeFrom (r : Registry Ω) (i : Nat) (left : Group) (gone : List Client) :
    Announces (gone.map (left.name, ·)).reverse [] r (r.takeFrom i left gone) := by
  constructor
  · rw [takeFrom, List.filterMap_append, List.filterMap_reverse, List.filterMap_map]
    have hall : gone.filterMap (Entry.removal? ∘ .removed left.name i) =
        gone.map (left.name, ·) := congrFun List.filterMap_eq_map gone
    rw [hall]
  · rw [takeFrom, List.filterMap_append, List.filterMap_reverse, List.filterMap_map]
    have hnone : gone.filterMap (Entry.departure? ∘ .removed left.name i) = [] :=
      List.filterMap_eq_nil_iff.mpr fun _ _ => rfl
    rw [hnone]
    rfl

theorem announces_removeIfVacant (group : String) (i : Nat) (call : Call) (r : Registry Ω) :
    Announces [] [] r (r.removeIfVacant group i call).1 := by
  unfold removeIfVacant
  split
  · exact ⟨rfl, rfl⟩
  · split <;> exact ⟨rfl, rfl⟩

theorem announces_sweepRecord (henv : env.Quiet) (i : Nat) {n : Nat}
    (hn : (r.sweepRecord env now i).2 = .ok n) :
    ∃ gone, Announces gone gone r (r.sweepRecord env now i).1 := by
  cases hg : r.record? i with
  | none =>
    refine ⟨[], ?_⟩
    rw [sweepRecord_of_missing hg]
    exact ⟨rfl, rfl⟩
  | some g =>
    let gone := expiredOf env g now r.settings.expiry
    let left := g.withoutExpired now r.settings.expiry
    have hleft : (r.takeFrom i left gone).record? i = some left := record?_setRecord_self r hg left
    obtain ⟨discarded, hdone⟩ := discarded_of_ok hg hn
    obtain ⟨lines, hswept⟩ := sweepRecord_of_discarded hg hdone
    have hdiscarded := announces_discard henv g hleft (n := n) (by rw [hdone])
    rw [hdone] at hdiscarded
    have hall := (((announces_takeFrom r i left gone).trans hdiscarded).trans
      (announces_removeIfVacant g.name i .sweep _)).trans (mute_logAll _ lines).announces
    rw [hswept]
    simp only [List.nil_append, List.append_nil] at hall
    exact ⟨_, hall⟩

theorem announces_sweepAll (henv : env.Quiet) (is : List Nat) {n : Nat}
    (hn : (r.sweepAll env now is).2 = .ok n) :
    ∃ gone, Announces gone gone r (r.sweepAll env now is).1 := by
  induction is generalizing r n with
  | nil => exact ⟨[], rfl, rfl⟩
  | cons i rest ih =>
    obtain ⟨swept, m, k, hfirst, hrest, -, hdone⟩ := sweepAll_cons_of_ok hn
    obtain ⟨gone, hgone⟩ := announces_sweepRecord henv i (n := m) (by rw [hfirst])
    obtain ⟨gone', hgone'⟩ := ih hrest
    rw [hfirst] at hgone
    rw [hdone]
    exact ⟨_, hgone.trans hgone'⟩

/-! ## A sweep that returns has left no group empty -/

theorem vacant_sweepRecord (henv : env.ActBy Aside) (hw : r.WellFormed) {i : Nat} {n : Nat}
    (hn : (r.sweepRecord env now i).2 = .ok n) {group : String} {j : Nat}
    (hv : (r.sweepRecord env now i).1.Vacant group j) : r.Vacant group j ∧ j ≠ i := by
  cases hg : r.record? i with
  | none =>
    rw [sweepRecord_of_missing hg] at hv
    refine ⟨hv, ?_⟩
    rintro rfl
    obtain ⟨-, g, hg', -⟩ := hv
    rw [hg] at hg'
    cases hg'
  | some g =>
    let gone := expiredOf env g now r.settings.expiry
    let left := g.withoutExpired now r.settings.expiry
    let taken := r.takeFrom i left gone
    have hstep : Step False r taken := .withoutExpired env now r.settings.expiry hg
    obtain ⟨discarded, hdone⟩ := discarded_of_ok hg hn
    obtain ⟨lines, hswept⟩ := sweepRecord_of_discarded hg hdone
    have haside : taken.Aside discarded := by
      have hdiscarded := Aside.tolerant.discard henv now g i gone taken
      rwa [hdone] at hdiscarded
    have hleft : discarded.record? i = some left :=
      (haside.record? i).trans (record?_setRecord_self r hg left)
    rw [hswept] at hv
    obtain ⟨hv, hji⟩ := vacant_removeIfVacant (haside.wellFormed (hstep.wellFormed hw)) hleft
      (show left.name = g.name from rfl) .sweep (vacant_of_aside (.logAll _ lines) hv)
    exact ⟨(tidyBut_takeFrom r i left gone group j (vacant_of_aside haside hv)).resolve_right hji,
      hji⟩

theorem vacant_sweepAll (henv : env.Quiet) (hw : r.WellFormed) {is : List Nat} {n : Nat}
    (hn : (r.sweepAll env now is).2 = .ok n) {group : String} {j : Nat}
    (hv : (r.sweepAll env now is).1.Vacant group j) : r.Vacant group j ∧ j ∉ is := by
  induction is generalizing r n with
  | nil => exact ⟨hv, List.not_mem_nil⟩
  | cons i rest ih =>
    obtain ⟨swept, m, k, hfirst, hrest, -, hdone⟩ := sweepAll_cons_of_ok hn
    have hsteps : Steps False r (r.sweepRecord env now i).1 :=
      Steps.removing.sweepRecord henv.steps now i r
    have hswept : (r.sweepRecord env now i).1.Vacant group j → r.Vacant group j ∧ j ≠ i :=
      vacant_sweepRecord henv.aside hw (n := m) (by rw [hfirst])
    rw [hfirst] at hsteps hswept
    rw [hdone] at hv
    obtain ⟨hv, hnot⟩ := ih (hsteps.wellFormed hw) hrest hv
    obtain ⟨hv, hji⟩ := hswept hv
    refine ⟨hv, ?_⟩
    rw [List.mem_cons]
    exact not_or.mpr ⟨hji, hnot⟩

/-! ## A sweep that does not return was ended by a channel -/

theorem closeQuietly_panics {c : Channel} {panic : Panic}
    (h : (r.closeQuietly c).2 = .error panic) : c.closing = .panics ∧ panic = .onClose c.id := by
  unfold closeQuietly at h
  split at h
  · cases h
  · rename_i w panic' hw
    cases h
    exact Wire.closeQuietly_panics (congrArg Prod.snd hw)

theorem discard_panics {g : Group} {i : Nat} {cs : List Client} {panic : Panic}
    (h : (r.discard env now g i cs).2 = .error panic) :
    ∃ c ∈ cs, c.channel.closing = .panics ∧ panic = .onClose c.channel.id := by
  induction cs generalizing r with
  | nil => cases h
  | cons c rest ih =>
    rw [discard] at h
    rcases andThen_panics h with ⟨hclosed, -⟩ | ⟨a, hclosed, hdone⟩
    · exact ⟨c, List.mem_cons_self, closeQuietly_panics hclosed⟩
    · rw [hdone] at h
      rcases andThen_panics h with ⟨hrest, -⟩ | ⟨m, -, hlast⟩
      · obtain ⟨d, hd, hpanics⟩ := ih hrest
        exact ⟨d, List.mem_cons_of_mem c hd, hpanics⟩
      · rw [hlast] at h
        cases h

/-- A client that had expired was taken out, and its channel panicked. -/
def EndedBy (now : UInt64) (panic : Panic) (r s : Registry Ω) : Prop :=
  ∃ entries group i c, s.journal = entries ++ r.journal ∧ .removed group i c ∈ entries ∧
    c.expired now r.settings.expiry = true ∧ c.channel.closing = .panics ∧
    panic = .onClose c.channel.id

theorem EndedBy.within {panic : Panic} (h : EndedBy now panic s t)
    (hbefore : r.journal <:+ s.journal) (hsettings : s.settings = r.settings)
    (hafter : t.journal <:+ s'.journal) : EndedBy now panic r s' := by
  obtain ⟨entries, group, i, c, hentries, hmem, hexpired, hpanics⟩ := h
  obtain ⟨es, hes⟩ := hbefore
  obtain ⟨fs, hfs⟩ := hafter
  refine ⟨fs ++ entries ++ es, group, i, c, ?_, ?_, ?_, hpanics⟩
  · rw [← hfs, hentries, ← hes, List.append_assoc, List.append_assoc]
  · exact List.mem_append_left es (List.mem_append_right fs hmem)
  · rwa [← hsettings]

theorem endedBy_sweepRecord (henv : env.Quiet) {i : Nat} {panic : Panic}
    (h : (r.sweepRecord env now i).2 = .error panic) :
    EndedBy now panic r (r.sweepRecord env now i).1 := by
  cases hg : r.record? i with
  | none =>
    rw [sweepRecord_of_missing hg] at h
    cases h
  | some g =>
    let gone := expiredOf env g now r.settings.expiry
    let taken := r.takeFrom i (g.withoutExpired now r.settings.expiry) gone
    rw [sweepRecord_of_some hg] at h ⊢
    rcases andThen_panics h with ⟨hdiscard, hdone⟩ | ⟨n, -, hdone⟩
    · obtain ⟨c, hc, hpanics, hid⟩ := discard_panics hdiscard
      have hsteps : Steps False taken (taken.discard env now g i gone).1 :=
        Steps.tolerant.discard henv.steps now g i gone taken
      obtain ⟨es, hes⟩ := hsteps.journal
      rw [hdone]
      refine ⟨es ++ (gone.map (.removed g.name i)).reverse, g.name, i, c, ?_, ?_,
        ((mem_expiredOf env g now _ c).mp hc).2, hpanics, hid⟩
      · rw [← hes, List.append_assoc]
        rfl
      · exact List.mem_append_right es (List.mem_reverse.mpr (List.mem_map_of_mem hc))
    · rw [hdone] at h
      cases h

theorem endedBy_sweepAll (henv : env.Quiet) {is : List Nat} {panic : Panic}
    (h : (r.sweepAll env now is).2 = .error panic) :
    EndedBy now panic r (r.sweepAll env now is).1 := by
  induction is generalizing r with
  | nil => cases h
  | cons i rest ih =>
    rw [sweepAll] at h ⊢
    rcases andThen_panics h with ⟨hfirst, hdone⟩ | ⟨n, -, hdone⟩
    · rw [hdone]
      exact endedBy_sweepRecord henv hfirst
    · rw [hdone] at h ⊢
      have hsteps : Steps False r (r.sweepRecord env now i).1 :=
        Steps.removing.sweepRecord henv.steps now i r
      rcases andThen_panics h with ⟨hrest, hlast⟩ | ⟨m, -, hlast⟩
      · rw [hlast]
        exact (ih hrest).within hsteps.journal hsteps.settings List.suffix_rfl
      · rw [hlast] at h
        cases h

/-! ## Sweeps and closings -/

/-- A sweep either was ended by the channel of a client that it had taken out, which panicked, or it
has done the same as if every channel had closed well: it returns the same count, the same clients
are left in the same groups, and all that was told to listeners and taken off the table is the same.
Then it has told of everyone whom it took out, and no group on the table is empty. -/
theorem sweeps_bear_all_closings_but_panics (h : r.Reachable) (henv : env.Quiet)
    (henv' : env'.Quiet) (hwalk : env'.walk = env.walk)
    (hnow : ((r.note (.began .sweep)).readClock env).2 = .ok now)
    (hnow' : ((r.calmed.note (.began .sweep)).readClock env').2 = .ok now) :
    (∃ panic, (r.sweep env).2 = .error panic ∧ EndedBy now panic r (r.sweep env).1) ∨
    (∃ n entries, (r.sweep env).2 = .ok n ∧ (r.calmed.sweep env').2 = .ok n ∧
      Alike (r.sweep env).1 (r.calmed.sweep env').1 ∧
      (r.sweep env).1.journal = entries ++ r.journal ∧
      entries.filterMap Entry.removal? = entries.filterMap Entry.departure? ∧
      ∀ group g, (r.sweep env).1.group? group = some g → g.isEmpty = false) := by
  let begun := r.note (.began .sweep)
  let begun' := r.calmed.note (.began .sweep)
  let read := (env.beforeReading begun).1
  let read' := (env'.beforeReading begun').1
  have hread : Mute begun read := (henv.actBy mute_beside).reading begun
  have hread' : Mute begun' read' := (henv'.actBy mute_beside).reading begun'
  have halike : Alike read read' :=
    ((alike_calmed r).note (e := .began .sweep) rfl rfl rfl).mute hread hread'
  have hclock := readClock_of_returns (henv.returns begun)
  have hclock' := readClock_of_returns (henv'.returns begun')
  obtain rfl : read.clock.now = now := by
    rw [hclock] at hnow
    exact Except.ok.inj hnow
  have hsame : read'.clock.now = read.clock.now := by
    rw [hclock'] at hnow'
    exact Except.ok.inj hnow'
  let walk := env.walk.records read.table.values
  have hwalk' : env'.walk.records read'.table.values = walk := by rw [halike.table, hwalk]
  have hswept' := sweep_of_returns (henv'.returns begun')
  change r.calmed.sweep env' = ((read'.sweepAll env' read'.clock.now _).1.note .ended, _) at hswept'
  rw [hsame, hwalk'] at hswept'
  have hsteps : Steps False r read :=
    (Steps.tolerant.note r rfl).trans (henv.steps.reading begun)
  rw [sweep_of_returns (henv.returns begun), hswept']
  cases hdone : (read.sweepAll env read.clock.now walk).2 with
  | error panic =>
    left
    exact ⟨panic, rfl, (endedBy_sweepAll henv hdone).within hsteps.journal hsteps.settings
      (List.suffix_cons _ _)⟩
  | ok n =>
    right
    obtain ⟨hn, hlast⟩ := alike_sweepAll henv henv' hwalk halike walk hdone
    have hall : Steps False r (read.sweepAll env read.clock.now walk).1 :=
      hsteps.trans (Steps.removing.sweepAll henv.steps _ walk read)
    obtain ⟨es, hes⟩ := hall.journal
    obtain ⟨gone, hgone⟩ := announces_sweepAll henv walk hdone
    refine ⟨n, .ended :: es, rfl, hn, hlast.note rfl rfl rfl, ?_, ?_, ?_⟩
    · exact congrArg (Entry.ended :: ·) hes.symm
    · have hread₀ : Announces [] [] r read :=
        (show Announces [] [] r begun from ⟨rfl, rfl⟩).trans hread.announces
      obtain ⟨hremovals, hdepartures⟩ := hread₀.trans hgone
      rw [← hes, List.filterMap_append, List.append_left_inj] at hremovals hdepartures
      exact hremovals.trans hdepartures.symm
    · intro group g hg
      obtain ⟨i, hi, hg⟩ := Option.bind_eq_some_iff.mp hg
      rw [Bool.eq_false_iff]
      intro hempty
      have hvacant : read.Vacant group i ∧ i ∉ walk :=
        vacant_sweepAll henv (hsteps.wellFormed h.wellFormed) hdone ⟨hi, g, hg, hempty⟩
      exact hvacant.2 (mem_walk env hvacant.1.1)

/-- Two clients of a group were silent for a long time. The channel of the first does this when it
is told to close, the other one closes well. -/
def silentWith (closing : Closing) : Registry Unit :=
  let first : Client := .new ⟨"7", 7, localAddress 7, closing⟩ "client" .java 1
  (Registry.new default [0] default false ()).serveAll (.still Unit)
    [.register true { Registration.sample "g" 7 with client := first },
      .register true (.sample "g" 8), .setClock ⟨200000⟩]

/-- A channel that refuses to close does not disturb the sweep. When it panics instead, both clients
are gone, nobody has heard of it, and their empty group is still on the table. -/
theorem a_panicking_channel_ends_a_sweep :
    (∃ entries, ((silentWith .refuses).sweep (.still Unit)).2 = .ok 2 ∧
      ((silentWith .refuses).calmed.sweep (.still Unit)).2 = .ok 2 ∧
      ((silentWith .refuses).sweep (.still Unit)).1.journal =
        entries ++ (silentWith .refuses).journal ∧
      entries.filterMap Entry.removal? = entries.filterMap Entry.departure? ∧
      ((silentWith .refuses).sweep (.still Unit)).1.group? "g" = none) ∧
    (((silentWith .panics).sweep (.still Unit)).2 = .error (.onClose 7) ∧
      EndedBy 200000 (.onClose 7) (silentWith .panics)
        ((silentWith .panics).sweep (.still Unit)).1 ∧
      ((silentWith .panics).sweep (.still Unit)).1.journal.filterMap Entry.departure? = [] ∧
      (((silentWith .panics).sweep (.still Unit)).1.group? "g").map (·.isEmpty) = some true) := by
  have hreachable : ∀ closing, (silentWith closing).Reachable := by
    intro closing
    have hattended : Attended False (Registry.new default [0] default false ())
        (silentWith closing) := attended_still _ (.nothing _)
    exact ⟨default, [0], default, false, (), hattended.steps⟩
  have hnow : ∀ closing, (((silentWith closing).note (.began .sweep)).readClock (.still Unit)).2 =
      .ok 200000 := fun _ => by rfl
  have hnow' : ∀ closing,
      (((silentWith closing).calmed.note (.began .sweep)).readClock (.still Unit)).2 =
        .ok 200000 := fun _ => by rfl
  have hbears := fun closing => sweeps_bear_all_closings_but_panics (hreachable closing)
    (Surroundings.quiet_still Unit) (Surroundings.quiet_still Unit) rfl (hnow closing)
    (hnow' closing)
  have htwo : ((silentWith .refuses).sweep (.still Unit)).2 = .ok 2 := by rfl
  have hended : ((silentWith .panics).sweep (.still Unit)).2 = .error (.onClose 7) := by rfl
  constructor
  · rcases hbears .refuses with ⟨panic, hpanic, -⟩ | ⟨n, entries, hn, hn', -, hj, htold, -⟩
    · rw [htwo] at hpanic
      cases hpanic
    · rw [htwo, Except.ok.injEq] at hn
      subst hn
      exact ⟨entries, htwo, hn', hj, htold, by rfl⟩
  · rcases hbears .panics with ⟨panic, hpanic, hby⟩ | ⟨n, entries, hn, -⟩
    · rw [hended, Except.error.injEq] at hpanic
      subst hpanic
      exact ⟨hended, hby, by rfl, by rfl⟩
    · rw [hended] at hn
      cases hn

end Registry

end ConsumerGroups
