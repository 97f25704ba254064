-- Every operation is the course of a call, however its surroundings act meanwhile, as long as they
-- act by calls that come to an end. So what a course keeps is kept by all of them.
import ConsumerGroups.Proofs.Course

set_option autoImplicit false

namespace ConsumerGroups

/-- Surroundings that act by calls and come to an end. `steady` says that they leave the groups
alone at readings of the clock. -/
structure Surroundings.Orderly {Ω : Type} (steady : Prop) (env : Surroundings Ω) : Prop where
  course : env.ActBy fun r s => r.Kept steady → ∀ top, Registry.Course steady top r s
  steps : env.ActBy (Registry.Steps False)
  alone : steady → ∀ r : Registry Ω, r.Aside (env.beforeReading r).1
  ends : env.Bounded

namespace Registry

variable {Ω : Type} {steady : Prop} {top : Option Call} {call : Call} {env : Surroundings Ω}
  {r s t : Registry Ω}

theorem course_logAll (top : Option Call) (r : Registry Ω) (lines : List LogLine) :
    Course steady top r (r.logAll lines) := (Move.logged r lines).course

/-- The second part goes on from where the first one returned. -/
theorem Course.andThen {α β : Type} {done : Registry Ω × Returned α}
    {next : Registry Ω → α → Registry Ω × Returned β} (hr : r.Kept steady)
    (first : Course steady top r done.1)
    (second : ∀ s a, done = (s, .ok a) → s.Kept steady → Course steady top s (next s a).1) :
    Course steady top r (ConsumerGroups.andThen done next).1 := by
  obtain ⟨s, panic | a⟩ := done
  · exact first
  · exact first.trans (second s a rfl (first.kept hr))

/-- A record is still there after a course, under the same name. -/
theorem Course.record_stays (h : Course steady top r s) {i : Nat} {g : Group}
    (hg : r.record? i = some g) : ∃ g', s.record? i = some g' ∧ g'.name = g.name :=
  h.steps.record_stays hg

/-! ## Readings and events -/

theorem fst_readClock (env : Surroundings Ω) (r : Registry Ω) :
    (r.readClock env).1 = (env.beforeReading r).1 := by
  unfold readClock
  rcases env.beforeReading r with ⟨s, panic | _⟩ <;> rfl

theorem course_readClock (henv : env.Orderly steady) (hr : r.Kept steady) :
    Course steady top r (r.readClock env).1 := by
  rw [fst_readClock]
  exact henv.course.reading r hr top

theorem course_closeQuietly (r : Registry Ω) (c : Channel) :
    Course steady top r (r.closeQuietly c).1 := by
  have hwire : ∀ w, Move steady top r (r.setWire c w) := fun w =>
    .silent ⟨rfl, rfl, rfl, List.prefix_rfl, rfl⟩
  unfold closeQuietly
  split
  · exact (hwire _).course.trans (course_logAll top _ _)
  · exact (hwire _).course

/-- While an event is being handed on, each listener is told in the course of the same call. -/
theorem course_callAll (henv : env.Orderly steady) {group : String} {event : Event}
    (ls : List Nat) (hr : r.Kept steady) (h : Underway r.journal group event) :
    Course steady top r (r.callAll env group event ls).1 := by
  induction ls generalizing r with
  | nil => exact .refl top r
  | cons l rest ih =>
    have htold : Course steady top r (r.note (.told l group event)) := (Move.told l h).course
    have hheard : Course steady top (r.note (.told l group event))
        (env.listener l group event (r.note (.told l group event))).1 :=
      henv.course.listener l group event _ (htold.kept hr) top
    let outcome := (env.listener l group event (r.note (.told l group event))).2
    have hlogged := (htold.trans hheard).trans
      (course_logAll top _ (outcomeLines group event outcome))
    exact hlogged.trans (ih (hlogged.kept hr) (hlogged.underway h))

theorem course_send (henv : env.Orderly steady) {group : String} {event : Event}
    (hr : r.Kept steady)
    (h : Justified steady (some call) r.journal group (r.group? group) event) :
    Course steady (some call) r (r.send env group event).1 := by
  have hsent := (Move.sent rfl h).course
  refine hsent.trans (course_callAll henv r.listeners (hsent.kept hr) ?_)
  exact ⟨[], r.group? group, r.journal, rfl, .nil⟩

/-- Of a change the listeners are told while the group has this record and somebody is in it. -/
theorem course_sendChanged (henv : env.Orderly steady) {group : String} {i : Nat} {g : Group}
    (hr : r.Kept steady) (hi : r.current? group = some i) (hg : r.record? i = some g)
    (hsome : g.isEmpty = false) : Course steady (some call) r (r.sendChanged env group i) := by
  unfold sendChanged
  rw [hg]
  refine course_send henv hr ⟨g, ?_, hsome, clientsOf_perm env g⟩
  rw [group?_of_current hi, hg]

theorem course_sendLeft (henv : env.Orderly steady) {group : String} {client : Client} (i : Nat)
    (hr : r.Kept steady)
    (h : ∀ g, r.group? group = some g → (g.clients.find? client.channel.id).isSome = true →
      Rejoined steady (some call) r.journal group client.channel.id) :
    Course steady (some call) r (r.sendLeft env group i client) := by
  unfold sendLeft
  split
  · exact course_send henv hr h
  · exact .refl _ r

theorem course_sample (henv : env.Orderly steady) (start : UInt64) (hr : r.Kept steady) :
    Course steady top r (r.sample env start).1 := by
  unfold sample
  split
  · exact .refl top r
  · refine Course.andThen hr (course_readClock henv hr) ?_
    intro s now _ _
    have hsilent : Silent s { s with samples := s.samples.map (· ++ [elapsed now start]) } :=
      ⟨rfl, rfl, rfl, List.prefix_rfl, rfl⟩
    exact (Move.silent hsilent).course

/-! ## Registrations -/

section

variable {q : Registration}

theorem course_findOrFound (henv : env.Orderly steady) (hname : IsName q.group)
    (hr : r.Kept steady) :
    Course steady (some (.register q.group q.client.channel.id)) r (r.findOrFound env q).1 := by
  unfold findOrFound
  split
  · exact .refl _ r
  · rename_i hnew
    have hsend : Course steady (some (.register q.group q.client.channel.id)) r
        (r.send env q.group (.clientJoined q.client q.topics)).1 := by
      refine course_send henv hr ?_
      rw [Justified, group?, hnew, Option.bind_none]
    dsimp only
    split
    · exact hsend
    · rename_i hnew'
      exact hsend.move (.found q.policy hname rfl hnew')

theorem course_update {i : Nat} {g : Group} (now : UInt64) (hg : r.record? i = some g)
    (hname : g.name = q.group) (hcurrent : steady → r.current? q.group = some i) :
    Course steady (some (.register q.group q.client.channel.id)) r (r.update q i now).1 := by
  unfold update
  rw [hg]
  exact (Move.revise now rfl hg hname hcurrent).course.trans (course_logAll _ _ _)

theorem course_attempt (henv : env.Orderly steady) (hname : IsName q.group) (hr : r.Kept steady) :
    Course steady (some (.register q.group q.client.channel.id)) r (r.attempt env q).1 := by
  have hfound := course_findOrFound henv hname hr
  have hkept := hfound.kept hr
  have hi := current?_findOrFound env q r
  have hread : Course steady (some (.register q.group q.client.channel.id)) (r.findOrFound env q).1
      ((r.findOrFound env q).1.readClock env).1 := course_readClock henv hkept
  unfold attempt
  dsimp only
  refine Course.andThen hr (hfound.trans hread) ?_
  intro s now hdone _
  rw [hdone] at hread
  obtain ⟨g, hg, hgname⟩ := hkept.wellFormed.recorded q.group _ hi
  obtain ⟨g', hg', hgname'⟩ := hread.record_stays hg
  refine course_update now hg' (hgname'.trans hgname) ?_
  intro hsteady
  have hs : s = (env.beforeReading (r.findOrFound env q).1).1 := by
    rw [← fst_readClock, hdone]
  rw [hs, (henv.alone hsteady _).current?]
  exact hi

theorem course_settle (henv : env.Orderly steady) (hname : IsName q.group) (spare : Nat)
    (hr : r.Kept steady) :
    Course steady (some (.register q.group q.client.channel.id)) r (r.settle env q spare).1 := by
  induction spare generalizing r with
  | zero => exact course_attempt henv hname hr
  | succ spare ih =>
    refine Course.andThen hr (course_attempt henv hname hr) ?_
    intro s result _ hs
    dsimp only
    split
    · exact .refl _ s
    · have hretried : Course steady (some (.register q.group q.client.channel.id)) s
          (s.retried q) := course_logAll _ s _
      exact hretried.trans (ih (hretried.kept hs))

theorem course_place (henv : env.Orderly steady) (hname : IsName q.group) (hr : r.Kept steady) :
    Course steady (some (.register q.group q.client.channel.id)) r (r.place env q).1 := by
  refine Course.andThen hr (course_readClock henv hr) ?_
  intro s start _ hs
  refine Course.andThen hs (course_settle henv hname _ hs) ?_
  exact fun t _ _ _ => .refl _ t

/-- The record in which a registration was put is on the table, and the client is in it. -/
theorem live_of_place (henv : env.Orderly steady) (hname : IsName q.group) (hw : r.WellFormed)
    {start : UInt64} {i : Nat} {changed : Bool}
    (h : r.place env q = (s, .ok (start, i, changed))) :
    s.current? q.group = some i ∧ ∃ g, s.record? i = some g ∧ g.isEmpty = false := by
  rcases place_cases henv.ends q r with
    ⟨_, panic, -, hpanic⟩ | ⟨start', last, after, i', changed', hplaced, hlast, hafter, hi⟩
  · rw [h] at hpanic
    cases hpanic
  · rw [h] at hplaced
    cases hplaced
    have hwread := (Steps.tolerant.readClock henv.steps r).wellFormed hw
    have hwlast := (hlast.steps henv.steps hname).wellFormed hwread
    obtain ⟨now, g, -, hg, hshown⟩ := attempt_shows henv.steps hname hwlast hafter
    obtain ⟨c, hc, -⟩ := hshown.client
    exact ⟨hi, g, hg, Group.isEmpty_eq_false_iff.mpr ⟨_, c, hc⟩⟩

theorem course_proclaim (henv : env.Orderly steady) (hr : r.Kept steady) (start : UInt64) {i : Nat}
    {g : Group} (hi : r.current? q.group = some i) (hg : r.record? i = some g)
    (hsome : g.isEmpty = false) (changed : Bool) :
    Course steady (some call) r (r.proclaim env q start i changed).1 := by
  unfold proclaim
  have hchanged : Course steady (some call) r
      (if changed && q.announce then r.sendChanged env q.group i else r) := by
    split
    · exact course_sendChanged henv hr hi hg hsome
    · exact .refl _ r
  have hkept := hchanged.kept hr
  refine Course.andThen hr (hchanged.trans (course_sample henv start hkept)) ?_
  intro s _ _ hs
  exact course_send henv hs trivial

theorem course_registerChecked (henv : env.Orderly steady) (hname : IsName q.group)
    (hr : r.Kept steady) :
    Course steady (some (.register q.group q.client.channel.id)) r (r.registerChecked env q).1 := by
  refine Course.andThen hr (course_place henv hname hr) ?_
  rintro s ⟨start, i, changed⟩ hplaced hs
  obtain ⟨hi, g, hg, hsome⟩ := live_of_place henv hname hr.wellFormed hplaced
  exact course_proclaim henv hs start hi hg hsome changed

theorem course_tryRegister (henv : env.Orderly steady) (q : Registration) (hr : r.Kept steady)
    (top : Option Call) : Course steady top r (r.tryRegister env q).1 := by
  unfold tryRegister
  split
  · exact .refl top r
  · rename_i hcheck
    have hbegun : (r.note (.began (.register q.group q.client.channel.id))).Kept steady :=
      hr.aside (.note r rfl)
    exact .call (.refl top r)
      (course_registerChecked henv (checkName_eq_ok_iff.mp hcheck) hbegun)

end

/-! ## Departures -/

theorem isLive_iff {group : String} {i : Nat} : r.isLive group i = true ↔
    r.current? group = some i ∧ ∃ g, r.record? i = some g ∧ g.isEmpty = false := by
  rw [isLive, Bool.and_eq_true, isCurrent_iff, isVacant, Bool.not_eq_true', and_comm]
  cases r.record? i with
  | none => simp
  | some g => simp

theorem course_settleDeparture (henv : env.Orderly steady) (group : String) (i : Nat)
    (announce : Bool) (call : Call) (hr : r.Kept steady) :
    Course steady (some call) r (r.settleDeparture env group i announce call) := by
  have hstays : Course steady (some call) r
      (if announce && r.isLive group i then r.sendChanged env group i else r) := by
    split
    · rename_i h
      obtain ⟨hi, g, hg, hsome⟩ := isLive_iff.mp (Bool.and_eq_true_iff.mp h).2
      exact course_sendChanged henv hr hi hg hsome
    · exact .refl _ r
  rcases settleDeparture_cases env group i announce call r with
    ⟨g, hi, hg, hempty, hdone⟩ | hdone
  · rw [hdone]
    have hremoved : Course steady (some call) r (r.removeRecord group i g call) :=
      (Move.unmap rfl hi hg hempty).course
    have hlogged := hremoved.trans (course_logAll _ _ [⟨.info, dissolvedText group⟩])
    refine hlogged.trans (course_send henv (hlogged.kept hr) ⟨?_, ?_⟩)
    · exact congrArg (fun i => Option.bind i _) (current?_removeRecord r group i g call)
    · exact ⟨_, i, g, call, r.journal, rfl, hempty⟩
  · rw [hdone]
    exact hstays

/-- After a client was taken out of the record on the table, it is not in its group. -/
theorem find?_without_of_group? {group : String} {i : Nat} {g g' : Group} {id : UInt64}
    {gone : List Client} {lines : List LogLine} (hi : r.current? group = some i)
    (hg : r.record? i = some g)
    (hg' : ((r.takeFrom i (g.without id) gone).logAll lines).group? group = some g') :
    g'.clients.find? id = none := by
  have hi' : ((r.takeFrom i (g.without id) gone).logAll lines).current? group = some i := hi
  have hleft : ((r.takeFrom i (g.without id) gone).logAll lines).record? i =
      some (g.without id) := record?_setRecord_self r hg _
  rw [group?_of_current hi', hleft, Option.some.injEq] at hg'
  rw [← hg']
  exact Table.find?_erase_self _ id

theorem course_takeOut (henv : env.Orderly steady) {group : String} {i : Nat} (client : Client)
    (hr : r.Kept steady) (hi : r.current? group = some i) :
    Course steady (some call) r (r.takeOut env group i client) := by
  unfold takeOut
  split
  · exact .refl _ r
  · rename_i g hg
    split
    · exact .refl _ r
    · rename_i stored hs
      have htaken : Course steady (some call) r
          (r.takeFrom i (g.without client.channel.id) [stored]) :=
        (Move.without hg hs).course
      have hlogged := htaken.trans (course_logAll _ _ [g.leftLine stored])
      refine hlogged.trans (course_sendLeft henv i (hlogged.kept hr) ?_)
      intro g' hg' hin
      rw [find?_without_of_group? hi hg hg'] at hin
      cases hin

theorem course_leave (henv : env.Orderly steady) (group : String) (client : Client)
    (announce : Bool) (hr : r.Kept steady) (top : Option Call) :
    Course steady top r (r.leave env group client announce) := by
  unfold leave
  split
  · exact .refl top r
  · rename_i i hi
    have hbegun : (r.note (.began (.leave group client.channel.id))).Kept steady :=
      hr.aside (.note r rfl)
    have htaken : Course steady (some (.leave group client.channel.id)) _ _ :=
      course_takeOut henv client hbegun hi
    exact .call (.refl top r)
      (htaken.trans (course_settleDeparture henv group i announce _ (htaken.kept hbegun)))

/-- A client that was taken out of a record when its channel closed is in its group only if the
record was off the table by then. -/
theorem rejoined_of_closeIn (hr : r.Kept steady) {i : Nat} {g g' : Group} {id : UInt64}
    {stored : Client} (hg : r.record? i = some g) (hs : g.clients.find? id = some stored)
    (line : LogLine)
    (hg' : ((r.takeFrom i (g.without id) [stored]).logAll [line]).group? g.name = some g')
    (hin : (g'.clients.find? stored.channel.id).isSome = true) :
    Rejoined steady top ((r.takeFrom i (g.without id) [stored]).logAll [line]).journal g.name
      stored.channel.id := by
  have hid : stored.channel.id = id := (hr.wellFormed.keyed i g hg).clients id stored hs
  have hoff : r.current? g.name ≠ some i := by
    intro hi
    rw [hid, find?_without_of_group? hi hg hg'] at hin
    cases hin
  refine ⟨i, stored, [.logged line], r.journal, rfl, balanced_of_unmarked ?_, rfl, .inr ⟨?_, ?_⟩⟩
  · simp [Entry.isMark]
  · intro hsteady
    rcases hr.vacant hsteady i g hg with hi | hempty
    · exact hoff hi
    · rw [Table.isEmpty_iff.mp hempty id] at hs
      cases hs
  · exact (hr.retired i g hg).resolve_left hoff

theorem course_closeIn (henv : env.Orderly steady) (address : String) (id : UInt64) (i : Nat)
    (hr : r.Kept steady) :
    Course steady (some (.channelClosed id)) r (r.closeIn env address id i) := by
  unfold closeIn
  split
  · exact .refl _ r
  · rename_i g hg
    split
    · exact .refl _ r
    · rename_i stored hs
      have htaken : Course steady (some (.channelClosed id)) r
          (r.takeFrom i (g.without id) [stored]) := (Move.without hg hs).course
      have hlogged := htaken.trans (course_logAll _ _ [g.closedLine address stored])
      have hleft := hlogged.trans (course_sendLeft henv i (hlogged.kept hr)
        (fun g' hg' hin => rejoined_of_closeIn hr hg hs _ hg' hin))
      exact hleft.trans (course_settleDeparture henv g.name i true _ (hleft.kept hr))

theorem course_closeInAll (henv : env.Orderly steady) (address : String) (id : UInt64)
    (is : List Nat) (hr : r.Kept steady) :
    Course steady (some (.channelClosed id)) r
      (is.foldl (fun r i => r.closeIn env address id i) r) := by
  induction is generalizing r with
  | nil => exact .refl _ r
  | cons i rest ih =>
    have hfirst := course_closeIn henv address id i hr
    exact hfirst.trans (ih (hfirst.kept hr))

theorem course_channelClosed (henv : env.Orderly steady) (address : String) (id : UInt64)
    (hr : r.Kept steady) (top : Option Call) :
    Course steady top r (r.channelClosed env address id).1 :=
  .call (.refl top r) (course_closeInAll henv address id _ (hr.aside (.note r rfl)))

/-! ## Sweeps -/

/-- While those who were taken out of a record are discarded one after the other, the listeners are
told of each, on the grounds that hold all the time. -/
theorem course_discard (henv : env.Orderly steady) (now : UInt64) (g : Group) (i : Nat)
    {taken : Registry Ω} {cs : List Client}
    (hgrounds : ∀ t : Registry Ω, Course steady (some .sweep) taken t → ∀ c ∈ cs, ∀ g',
      t.group? g.name = some g' → (g'.clients.find? c.channel.id).isSome = true →
      Rejoined steady (some .sweep) t.journal g.name c.channel.id)
    (htaken : taken.Kept steady) (hr : Course steady (some .sweep) taken r) :
    Course steady (some .sweep) taken (r.discard env now g i cs).1 := by
  induction cs generalizing r with
  | nil => exact hr
  | cons c rest ih =>
    have hclosed : Course steady (some .sweep) taken
        ((r.logAll [sweptLine g now c]).closeQuietly c.channel).1 :=
      (hr.trans (course_logAll _ r [sweptLine g now c])).trans (course_closeQuietly _ c.channel)
    unfold discard
    rcases hdone : (r.logAll [sweptLine g now c]).closeQuietly c.channel with ⟨s, panic | a⟩
    · rw [hdone] at hclosed
      exact hclosed
    · rw [hdone] at hclosed
      have hsent := hclosed.trans (course_sendLeft henv i (hclosed.kept htaken)
        (hgrounds s hclosed c List.mem_cons_self))
      have hrest := ih (fun t ht c' hc' => hgrounds t ht c' (List.mem_cons_of_mem c hc')) hsent
      rw [andThen_ok, fst_andThen_ok]
      exact hrest

/-- A client that a sweep took out is in its group again only after a registration of its own that
began since, or else the record was off the table when it was taken out. -/
theorem rejoined_of_sweep (hr : r.Kept steady) {i : Nat} {g g' : Group} (now limit : UInt64)
    (hg : r.record? i = some g) {c : Client} (hc : c ∈ expiredOf env g now limit)
    (ht : Course steady (some .sweep)
      (r.takeFrom i (g.withoutExpired now limit) (expiredOf env g now limit)) t)
    (hg' : t.group? g.name = some g') (hin : (g'.clients.find? c.channel.id).isSome = true) :
    Rejoined steady (some .sweep) t.journal g.name c.channel.id := by
  let taken := r.takeFrom i (g.withoutExpired now limit) (expiredOf env g now limit)
  have hmove : Move steady (some .sweep) r taken := .withoutExpired env now limit hg
  obtain ⟨⟨id, hid⟩, hexpired⟩ := (mem_expiredOf env g now limit c).mp hc
  obtain rfl := (hr.wellFormed.keyed i g hg).clients id c hid
  -- the note that this client was taken out stands among those of all who were
  obtain ⟨later, earlier, hsplit⟩ : ∃ later earlier,
      ((expiredOf env g now limit).map (Entry.removed g.name i)).reverse =
        later ++ .removed g.name i c :: earlier :=
    List.append_of_mem (List.mem_reverse.mpr (List.mem_map_of_mem hc))
  have hlater : Balanced later := by
    refine balanced_of_unmarked ?_
    intro e he
    have hmem : e ∈ ((expiredOf env g now limit).map (Entry.removed g.name i)).reverse := by
      rw [hsplit]
      exact List.mem_append_left _ he
    obtain ⟨d, -, rfl⟩ := List.mem_map.mp (List.mem_reverse.mp hmem)
    rfl
  obtain ⟨es, hes, hb⟩ := ht.entries
  have hjournal : t.journal = (es ++ later) ++ .removed g.name i c :: (earlier ++ r.journal) := by
    have htaken : taken.journal = (later ++ .removed g.name i c :: earlier) ++ r.journal :=
      congrArg (· ++ r.journal) hsplit
    rw [hes, htaken]
    simp
  refine ⟨i, c, es ++ later, earlier ++ r.journal, hjournal, hb.append hlater, rfl, ?_⟩
  by_cases hi : r.current? g.name = some i
  · left
    refine ⟨rfl, ?_⟩
    have hthins : Thins (lively now limit) i r taken := thins_takeFrom hg (lively now limit) _
    have hout : taken.clientOn? g.name c.channel.id = none := by
      rw [hthins.clients, if_pos hi, clientOn?_of_record hi hg, hid]
      simp [lively, hexpired]
    have hback : t.clientOn? g.name c.channel.id ≠ none := by
      rw [clientOn?, hg', Option.bind_some]
      exact Option.isSome_iff_ne_none.mp hin
    rcases ht.joined (hmove.kept hr).wellFormed hout hback with htop | ⟨es', hes', hmem⟩
    · cases htop
    · rw [hes, List.append_left_inj] at hes'
      rw [hes']
      exact List.mem_append_left later hmem
  · right
    constructor
    · intro hsteady
      rcases hr.vacant hsteady i g hg with hcurrent | hempty
      · exact hi hcurrent
      · rw [Table.isEmpty_iff.mp hempty c.channel.id] at hid
        cases hid
    · obtain ⟨last, call, hmem⟩ := (hr.retired i g hg).resolve_left hi
      exact ⟨last, call, List.mem_append_right earlier hmem⟩

theorem course_removeIfVacant (group : String) (i : Nat) (call : Call) (r : Registry Ω) :
    Course steady (some call) r (r.removeIfVacant group i call).1 := by
  cases hg : r.record? i with
  | none =>
    rw [removeIfVacant, hg]
    exact .refl _ r
  | some g =>
    rw [removeIfVacant_eq hg]
    split
    · rename_i h
      exact (Move.unmap rfl h.1 hg h.2).course
    · exact .refl _ r

theorem course_sweepRecord (henv : env.Orderly steady) (now : UInt64) (i : Nat)
    (hr : r.Kept steady) : Course steady (some .sweep) r (r.sweepRecord env now i).1 := by
  cases hg : r.record? i with
  | none =>
    rw [sweepRecord_of_missing hg]
    exact .refl _ r
  | some g =>
    rw [sweepRecord_of_some hg]
    let gone := expiredOf env g now r.settings.expiry
    let taken := r.takeFrom i (g.withoutExpired now r.settings.expiry) gone
    have htaken : Course steady (some .sweep) r taken :=
      (Move.withoutExpired env now r.settings.expiry hg).course
    have hdiscarded := course_discard henv now g i
      (fun t ht c hc g' hg' hin => rejoined_of_sweep hr now r.settings.expiry hg hc ht hg' hin)
      (htaken.kept hr) (.refl (some .sweep) taken)
    refine Course.andThen hr (htaken.trans hdiscarded) ?_
    intro s n _ _
    have hremoved : Course steady (some .sweep) s (s.removeIfVacant g.name i .sweep).1 :=
      course_removeIfVacant g.name i .sweep s
    exact hremoved.trans (course_logAll _ _ _)

theorem course_sweepAll (henv : env.Orderly steady) (now : UInt64) (is : List Nat)
    (hr : r.Kept steady) : Course steady (some .sweep) r (r.sweepAll env now is).1 := by
  induction is generalizing r with
  | nil => exact .refl _ r
  | cons i rest ih =>
    refine Course.andThen hr (course_sweepRecord henv now i hr) ?_
    intro s n _ hs
    rw [fst_andThen_ok]
    exact ih hs

theorem course_sweep (henv : env.Orderly steady) (hr : r.Kept steady) (top : Option Call) :
    Course steady top r (r.sweep env).1 := by
  have hbegun : (r.note (.began .sweep)).Kept steady := hr.aside (.note r rfl)
  have hswept : Course steady (some .sweep) (r.note (.began .sweep))
      (ConsumerGroups.andThen ((r.note (.began .sweep)).readClock env) fun r now =>
        r.sweepAll env now (env.walk.records r.table.values)).1 := by
    refine Course.andThen hbegun (course_readClock henv hbegun) ?_
    intro s now _ hs
    exact course_sweepAll henv now _ hs
  exact .call (.refl top r) hswept

/-! ## Requests -/

/-- Whatever is asked, the call takes its course. -/
theorem course_serve (henv : env.Orderly steady) (request : Request) (hr : r.Kept steady)
    (top : Option Call) : Course steady top r (r.serve env request) := by
  cases request with
  | register strict q =>
    obtain ⟨lines, hserve⟩ := serve_register env strict q r
    rw [hserve]
    exact (course_tryRegister henv q hr top).trans (course_logAll top _ lines)
  | leave group client announce => exact course_leave henv group client announce hr top
  | channelClosed address id => exact course_channelClosed henv address id hr top
  | sweep => exact course_sweep henv hr top
  | addListener l =>
    have hsilent : Silent r (r.addListener l) := ⟨rfl, rfl, rfl, List.prefix_append _ _, rfl⟩
    exact (Move.silent hsilent).course
  | setClock clock =>
    have hsilent : Silent r { r with clock } := ⟨rfl, rfl, rfl, List.prefix_rfl, rfl⟩
    exact (Move.silent hsilent).course

/-- A registry before and after others attended to it for a while. They do things beside it and ask
it for things, in surroundings where others attend to it in turn and come to an end. `steady` says
that the groups are left alone at readings of the clock. -/
inductive Attended (steady : Prop) : Registry Ω → Registry Ω → Prop where
  | nothing (r : Registry Ω) : Attended steady r r
  | beside {r s : Registry Ω} (clock : Clock) (wires : Table String Wire) (lines : List LogLine)
      (outside : Ω) (h : Attended steady r s) :
      Attended steady r (s.beside clock wires lines outside)
  | request {r s : Registry Ω} {env : Surroundings Ω} {request : Request}
      (h : Attended steady r s) (reading : ∀ t, Attended steady t (env.beforeReading t).1)
      (listener : ∀ l group event t, Attended steady t (env.listener l group event t).1)
      (alone : steady → ∀ t : Registry Ω, t.Aside (env.beforeReading t).1) (ends : env.Bounded) :
      Attended steady r (s.serve env request)

theorem Attended.steps (h : Attended steady r s) : Steps False r s := by
  induction h with
  | nothing r => exact .refl
  | beside clock wires lines outside _ ih => exact ih.tail (.aside (aside_beside ..))
  | request _ _ _ _ _ ih reading listener =>
    exact ih.trans (steps_serve ⟨reading, listener⟩ (fun hc => hc.elim) _)

theorem course_beside (top : Option Call) (r : Registry Ω) (clock : Clock)
    (wires : Table String Wire) (lines : List LogLine) (outside : Ω) :
    Course steady top r (r.beside clock wires lines outside) :=
  (course_logAll top r lines).move (.silent ⟨rfl, rfl, rfl, List.prefix_rfl, rfl⟩)

theorem Attended.course (h : Attended steady r s) (hr : r.Kept steady) (top : Option Call) :
    Course steady top r s := by
  induction h generalizing top with
  | nothing r => exact .refl top r
  | beside clock wires lines outside _ ih =>
    exact (ih hr top).trans (course_beside top _ clock wires lines outside)
  | @request r s env request h reading listener alone ends ih ihreading ihlistener =>
    have henv : env.Orderly steady := by
      refine ⟨⟨?_, ?_⟩, ⟨?_, ?_⟩, alone, ends⟩
      · exact fun t ht top => ihreading t ht top
      · exact fun l group event t ht top => ihlistener l group event t ht top
      · exact fun t => (reading t).steps
      · exact fun l group event t => (listener l group event t).steps
    have hfirst := ih hr top
    exact hfirst.trans (course_serve henv request (hfirst.kept hr) top)

end Registry

/-! ## Listeners that ask for things -/

namespace Surroundings

/-- Surroundings in which listeners ask the registry for things when they are told of an event.
While it does them no one asks for more. -/
def asking (asks : Nat → Event → List Request) : Surroundings Unit :=
  { Surroundings.still Unit with
    listener := fun l _ event r => (r.serveAll (.still Unit) (asks l event), .handled) }

theorem bounded_still (Ω : Type) : (Surroundings.still Ω).Bounded :=
  ⟨fun _ => Nat.le_refl _, fun _ _ _ _ => Nat.le_refl _, fun _ => .inl rfl⟩

theorem bounded_asking (asks : Nat → Event → List Request) : (Surroundings.asking asks).Bounded :=
  ⟨fun _ => Nat.le_refl _, fun _ _ _ _ => Nat.le_refl _, fun _ => .inl rfl⟩

end Surroundings

namespace Registry

variable {Ω : Type} {steady : Prop}

theorem attended_still (requests : List Request) {r s : Registry Ω} (h : Attended steady r s) :
    Attended steady r (s.serveAll (.still Ω) requests) := by
  induction requests generalizing s with
  | nil => exact h
  | cons request rest ih =>
    refine ih (.request h ?_ ?_ ?_ (Surroundings.bounded_still Ω))
    · exact fun t => .nothing t
    · exact fun _ _ _ t => .nothing t
    · exact fun _ t => .refl t

theorem attended_asking (asks : Nat → Event → List Request) (requests : List Request)
    {r s : Registry Unit} (h : Attended steady r s) :
    Attended steady r (s.serveAll (.asking asks) requests) := by
  induction requests generalizing s with
  | nil => exact h
  | cons request rest ih =>
    refine ih (.request h ?_ ?_ ?_ (Surroundings.bounded_asking asks))
    · exact fun t => .nothing t
    · exact fun l _ event t => attended_still (asks l event) (.nothing t)
    · exact fun _ t => .refl t

end Registry

end ConsumerGroups
