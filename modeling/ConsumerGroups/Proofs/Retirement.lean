-- Records that are off the table. A record goes off the table when it has no clients, and it never
-- comes back, whatever registers under the name of its group. A call that found the record before
-- may still write into it. But once every call has returned that was in progress when it went off
-- the table, no later call gets to it, and it stays as it is.
import ConsumerGroups.Proofs.Settling

set_option autoImplicit false

namespace ConsumerGroups.Registry

variable {Ω : Type} {calm : Prop} {env : Surroundings Ω} {r s t : Registry Ω} {i : Nat}

/-- There is such a record, but no group has it on the table. -/
def OffTable (i : Nat) (r : Registry Ω) : Prop :=
  (∃ g, r.record? i = some g) ∧ ∀ group, r.current? group ≠ some i

/-! ## How a record goes off the table -/

/-- A record that a step takes off the table was on it and had no clients. -/
theorem Step.unmapped_cases (h : Step calm r s) {group : String} {last : Group} {call : Call}
    (hentry : .unmapped group i last call ∈ s.journal) :
    .unmapped group i last call ∈ r.journal ∨
    (r.current? group = some i ∧ r.record? i = some last ∧ last.isEmpty = true ∧
      s = r.removeRecord group i last call) := by
  cases h with
  | aside h =>
    obtain ⟨entries, hj, hplain⟩ := h.journal
    rw [hj] at hentry
    rcases List.mem_append.mp hentry with hnew | hold
    · have hfalse := hplain _ hnew
      cases hfalse
    · exact .inl hold
  | found policy hname hnew =>
    rcases List.mem_cons.mp hentry with hmapped | hold
    · cases hmapped
    · exact .inl hold
  | revise now hg hq => exact .inl hentry
  | release hg hgone =>
    rcases List.mem_append.mp hentry with hremoved | hold
    · obtain ⟨c, -, hc⟩ := List.mem_map.mp (List.mem_reverse.mp hremoved)
      cases hc
    · exact .inl hold
  | unmap call hcurrent hg hempty =>
    rcases List.mem_cons.mp hentry with hunmapped | hold
    · cases hunmapped
      exact .inr ⟨hcurrent, hg, hempty, rfl⟩
    · exact .inl hold

/-- For every record that went off the table there was a moment when it did. -/
theorem Steps.unmapped (h : Steps calm r s) {group : String} {last : Group} {call : Call}
    (hnew : .unmapped group i last call ∉ r.journal)
    (hentry : .unmapped group i last call ∈ s.journal) :
    ∃ t, Steps calm r t ∧ t.current? group = some i ∧ t.record? i = some last ∧
      last.isEmpty = true ∧ Steps calm (t.removeRecord group i last call) s := by
  induction h with
  | refl => exact absurd hentry hnew
  | @tail u s hu hstep ih =>
    rcases hstep.unmapped_cases hentry with hold | ⟨hcurrent, hg, hempty, rfl⟩
    · obtain ⟨t, ht, hcurrent, hg, hempty, hsteps⟩ := ih hold
      exact ⟨t, ht, hcurrent, hg, hempty, hsteps.tail hstep⟩
    · exact ⟨u, hu, hcurrent, hg, hempty, .refl⟩

/-- A record goes off the table in no other way than this. -/
theorem Step.goes_off (h : Step calm r s) {group : String} (hi : r.current? group = some i)
    (hgone : s.current? group ≠ some i) :
    ∃ last call, s.journal = .unmapped group i last call :: r.journal := by
  cases h with
  | aside h => exact absurd ((h.current? group).trans hi) hgone
  | @found name policy hname hnew =>
    have hne : group ≠ name := by
      rintro rfl
      rw [hi] at hnew
      cases hnew
    exact absurd ((current?_addRecord_of_ne r hne).trans hi) hgone
  | revise => exact absurd hi hgone
  | release => exact absurd hi hgone
  | @unmap group' j g call hcurrent hg hempty =>
    by_cases hn : group = group'
    · subst hn
      rw [hi, Option.some.injEq] at hcurrent
      subst hcurrent
      exact ⟨g, call, rfl⟩
    · exact absurd ((current?_removeRecord_of_ne r hn j g call).trans hi) hgone

/-- When a record was on the table once and is not any more, it was taken off it meanwhile. -/
theorem Steps.goes_off (h : Steps calm r s) {group : String} (hi : r.current? group = some i)
    (hgone : s.current? group ≠ some i) :
    ∃ es last call, s.journal = es ++ r.journal ∧ .unmapped group i last call ∈ es := by
  induction h with
  | refl => exact absurd hi hgone
  | @tail u s hu hstep ih =>
    obtain ⟨before, hbefore⟩ := Steps.journal hu
    by_cases hthere : u.current? group = some i
    · obtain ⟨last, call, hjournal⟩ := hstep.goes_off hthere hgone
      refine ⟨.unmapped group i last call :: before, last, call, ?_, List.mem_cons_self⟩
      rw [hjournal, ← hbefore, List.cons_append]
    · obtain ⟨es, last, call, hes, hmem⟩ := ih hthere
      obtain ⟨later, hlater⟩ := hstep.journal
      refine ⟨later ++ es, last, call, ?_, List.mem_append_right later hmem⟩
      rw [← hlater, hes, List.append_assoc]

/-! ## No step puts it back -/

theorem Step.offTable (h : Step calm r s) (hoff : OffTable i r) : OffTable i s := by
  obtain ⟨⟨g, hg⟩, hoff⟩ := hoff
  obtain ⟨g', hg', -⟩ := h.record_stays hg
  refine ⟨⟨g', hg'⟩, ?_⟩
  intro group
  cases h with
  | aside h =>
    rw [h.current?]
    exact hoff group
  | @found name policy hname hnew =>
    by_cases hn : group = name
    · -- what is put on the table is a record that was not there before
      have hself := current?_addRecord_self r (Group.new name policy)
      have hi : i < r.records.length := (List.getElem?_eq_some_iff.mp hg).1
      rw [hn]
      intro hi'
      rw [show (Group.new name policy).name = name from rfl, hi', Option.some.injEq] at hself
      omega
    · rw [current?_addRecord_of_ne r hn]
      exact hoff group
  | revise => exact hoff group
  | release => exact hoff group
  | @unmap group' j g call hcurrent hg hempty =>
    by_cases hn : group = group'
    · rw [hn, current?_removeRecord]
      simp
    · rw [current?_removeRecord_of_ne r hn]
      exact hoff group

theorem Steps.offTable (h : Steps calm r s) (hoff : OffTable i r) : OffTable i s := by
  induction h with
  | refl => exact hoff
  | tail _ hstep ih => exact hstep.offTable ih

theorem offTable_removeRecord (hw : r.WellFormed) {group : String} {last : Group}
    (hcurrent : r.current? group = some i) (hg : r.record? i = some last) (call : Call) :
    OffTable i (r.removeRecord group i last call) := by
  refine ⟨⟨last, hg⟩, ?_⟩
  intro group'
  by_cases hn : group' = group
  · rw [hn, current?_removeRecord]
    simp
  · rw [current?_removeRecord_of_ne r hn]
    exact fun h => hn (hw.current_unique h hcurrent)

/-! ## No later call gets to it -/

/-- A record that is off the table stays off it and is not touched. -/
def Frozen (i : Nat) (r s : Registry Ω) : Prop :=
  OffTable i r → OffTable i s ∧ s.record? i = r.record? i

theorem frozen_of_step (h : Step calm r s) (hrecord : s.record? i = r.record? i) : Frozen i r s :=
  fun hoff => ⟨h.offTable hoff, hrecord⟩

theorem Aside.frozen (h : r.Aside s) : Frozen i r s := by
  have hstep : Step False r s := .aside h
  exact frozen_of_step hstep (h.record? i)

theorem Frozen.tolerant : Tolerant (Frozen (Ω := Ω) i) := by
  constructor
  · exact fun h _ _ => h.frozen
  · intro r s t h h' hoff
    obtain ⟨hs, hrs⟩ := h hoff
    obtain ⟨ht, hst⟩ := h' hs
    exact ⟨ht, hst.trans hrs⟩

/-- A walk over the table does not come by it. -/
theorem not_mem_walk (env : Surroundings Ω) (hoff : OffTable i r) :
    i ∉ env.walk.records r.table.values := by
  intro hi
  obtain ⟨group, hcurrent⟩ := Table.mem_values_iff.mp ((env.walk.records_perm _).mem_iff.mp hi)
  exact hoff.2 group hcurrent

theorem frozen_removeIfVacant (group : String) (j : Nat) (call : Call) (r : Registry Ω) :
    Frozen i r (r.removeIfVacant group j call).1 := by
  cases hg : r.record? j with
  | none =>
    have hnone : r.removeIfVacant group j call = (r, false) := by rw [removeIfVacant, hg]
    rw [hnone]
    exact Frozen.tolerant.refl r
  | some g =>
    rw [removeIfVacant_eq hg]
    split
    · rename_i h
      have hstep : Step False r (r.removeRecord group j g call) := .unmap call h.1 hg h.2
      exact frozen_of_step hstep rfl
    · exact Frozen.tolerant.refl r

theorem frozen_update (q : Registration) {j : Nat} (hji : j ≠ i) (now : UInt64)
    (r : Registry Ω) : Frozen i r (r.update q j now).1 := by
  unfold update
  split
  · exact Frozen.tolerant.refl r
  · rename_i g hg
    have hstep : Step False r (r.setRecord j (revised q now g).group) :=
      .revise now hg (fun hc => hc.elim)
    exact Frozen.tolerant.trans (frozen_of_step hstep (record?_setRecord_of_ne r hji.symm _))
      (Frozen.tolerant.logAll _ _)

section

variable (henv : env.ActBy (Frozen i))
include henv

theorem frozen_settleDeparture (group : String) (j : Nat) (announce : Bool) (call : Call)
    (r : Registry Ω) : Frozen i r (r.settleDeparture env group j announce call) :=
  Frozen.tolerant.trans (frozen_removeIfVacant group j call r)
    (Frozen.tolerant.settleDeparture henv group j announce call r)

theorem frozen_takeOut (group : String) {j : Nat} (hji : j ≠ i) (client : Client)
    (r : Registry Ω) : Frozen i r (r.takeOut env group j client) := by
  unfold takeOut
  split
  · exact Frozen.tolerant.refl r
  · rename_i g hg
    split
    · exact Frozen.tolerant.refl r
    · rename_i stored hs
      have hstep : Step False r (r.takeFrom j (g.without client.channel.id) [stored]) :=
        .without hg hs
      have htaken := frozen_of_step hstep (record?_setRecord_of_ne r hji.symm _)
      exact Frozen.tolerant.trans (Frozen.tolerant.trans htaken (Frozen.tolerant.logAll _ _))
        (Frozen.tolerant.sendLeft henv group j client _)

/-- To leave a group gets to the record that the group has on the table. -/
theorem frozen_leave (group : String) (client : Client) (announce : Bool) (r : Registry Ω) :
    Frozen i r (r.leave env group client announce) := by
  unfold leave
  split
  · exact Frozen.tolerant.refl r
  · rename_i j hj
    intro hoff
    have hji : j ≠ i := by
      rintro rfl
      exact hoff.2 group hj
    let begun := r.note (.began (.leave group client.channel.id))
    have hbegun : Frozen i r begun := Frozen.tolerant.note r rfl
    have hleft := Frozen.tolerant.trans (frozen_takeOut henv group hji client begun)
      (frozen_settleDeparture henv group j announce (.leave group client.channel.id) _)
    exact Frozen.tolerant.trans (Frozen.tolerant.trans hbegun hleft)
      (Frozen.tolerant.note _ rfl) hoff

theorem frozen_closeIn (address : String) (id : UInt64) {j : Nat} (hji : j ≠ i)
    (r : Registry Ω) : Frozen i r (r.closeIn env address id j) := by
  unfold closeIn
  split
  · exact Frozen.tolerant.refl r
  · rename_i g hg
    split
    · exact Frozen.tolerant.refl r
    · rename_i stored hs
      have hstep : Step False r (r.takeFrom j (g.without id) [stored]) := .without hg hs
      have htaken := frozen_of_step hstep (record?_setRecord_of_ne r hji.symm _)
      exact Frozen.tolerant.trans (Frozen.tolerant.trans (Frozen.tolerant.trans htaken
        (Frozen.tolerant.logAll _ _)) (Frozen.tolerant.sendLeft henv g.name j stored _))
        (frozen_settleDeparture henv g.name j true _ _)

theorem frozen_closeInAll (address : String) (id : UInt64) {is : List Nat} (his : i ∉ is)
    (r : Registry Ω) : Frozen i r (is.foldl (fun r j => r.closeIn env address id j) r) := by
  induction is generalizing r with
  | nil => exact Frozen.tolerant.refl r
  | cons j rest ih =>
    rw [List.mem_cons, not_or] at his
    exact Frozen.tolerant.trans (frozen_closeIn henv address id (Ne.symm his.1) r) (ih his.2 _)

theorem frozen_channelClosed (address : String) (id : UInt64) (r : Registry Ω) :
    Frozen i r (r.channelClosed env address id).1 := by
  intro hoff
  have hbegun : Frozen i r (r.note (.began (.channelClosed id))) := Frozen.tolerant.note r rfl
  have hclosed := frozen_closeInAll henv address id (not_mem_walk env hoff)
    (r.note (.began (.channelClosed id)))
  exact Frozen.tolerant.trans (Frozen.tolerant.trans hbegun hclosed)
    (Frozen.tolerant.note _ rfl) hoff

theorem frozen_sweepRecord (now : UInt64) {j : Nat} (hji : j ≠ i) (r : Registry Ω) :
    Frozen i r (r.sweepRecord env now j).1 := by
  cases hg : r.record? j with
  | none =>
    rw [sweepRecord_of_missing hg]
    exact Frozen.tolerant.refl r
  | some g =>
    have hstep : Step False r (r.takeFrom j (g.withoutExpired now r.settings.expiry)
        (expiredOf env g now r.settings.expiry)) := .withoutExpired env now r.settings.expiry hg
    have htaken := frozen_of_step hstep (record?_setRecord_of_ne r hji.symm _)
    rw [sweepRecord_of_some hg]
    refine Frozen.tolerant.andThen
      (Frozen.tolerant.trans htaken (Frozen.tolerant.discard henv now g j _ _)) ?_
    intro s n _
    exact Frozen.tolerant.trans (frozen_removeIfVacant g.name j .sweep s)
      (Frozen.tolerant.logAll _ _)

theorem frozen_sweepAll (now : UInt64) {is : List Nat} (his : i ∉ is) (r : Registry Ω) :
    Frozen i r (r.sweepAll env now is).1 := by
  induction is generalizing r with
  | nil => exact Frozen.tolerant.refl r
  | cons j rest ih =>
    rw [List.mem_cons, not_or] at his
    refine Frozen.tolerant.andThen (frozen_sweepRecord henv now (Ne.symm his.1) r) ?_
    intro s n _
    refine Frozen.tolerant.andThen (ih his.2 s) ?_
    exact fun t _ _ => Frozen.tolerant.refl t

theorem frozen_sweep (r : Registry Ω) : Frozen i r (r.sweep env).1 := by
  have hread := Frozen.tolerant.trans (Frozen.tolerant.note r (e := .began .sweep) rfl)
    (Frozen.tolerant.readClock henv (r.note (.began .sweep)))
  refine Frozen.tolerant.trans (Frozen.tolerant.andThen hread ?_) (Frozen.tolerant.note _ rfl)
  intro s now _ hoff
  exact frozen_sweepAll henv now (not_mem_walk env hoff) s hoff

/-! ## Registrations -/

theorem frozen_findOrFound {q : Registration} (hname : IsName q.group) (r : Registry Ω) :
    Frozen i r (r.findOrFound env q).1 := by
  unfold findOrFound
  split
  · exact Frozen.tolerant.refl r
  · have hsend := Frozen.tolerant.send henv q.group (.clientJoined q.client q.topics) r
    dsimp only
    split
    · exact hsend
    · rename_i hnew
      refine Frozen.tolerant.trans hsend ?_
      intro hoff
      obtain ⟨g, hg⟩ := hoff.1
      have hstep : Step False _ _ := .found q.policy hname hnew
      exact ⟨hstep.offTable hoff, (record?_addRecord_of_some _ hg _).trans hg.symm⟩

/-- An attempt gets to the record that it found on the table or founded. -/
theorem frozen_attempt {q : Registration} (hname : IsName q.group) (r : Registry Ω) :
    Frozen i r (r.attempt env q).1 := by
  intro hoff
  have hfound := frozen_findOrFound henv hname r
  have hji : (r.findOrFound env q).2 ≠ i := by
    intro h
    have hcurrent := current?_findOrFound env q r
    rw [h] at hcurrent
    exact (hfound hoff).1.2 q.group hcurrent
  unfold attempt
  refine Frozen.tolerant.trans hfound (Frozen.tolerant.andThen (Frozen.tolerant.readClock henv _)
    ?_) hoff
  intro s now _
  exact frozen_update q hji now s

theorem frozen_settle {q : Registration} (hname : IsName q.group) (spare : Nat) (r : Registry Ω) :
    Frozen i r (r.settle env q spare).1 := by
  induction spare generalizing r with
  | zero => exact frozen_attempt henv hname r
  | succ spare ih =>
    refine Frozen.tolerant.andThen (frozen_attempt henv hname r) ?_
    intro s result _
    dsimp only
    split
    · exact Frozen.tolerant.refl s
    · exact Frozen.tolerant.trans (Frozen.tolerant.logAll s _) (ih _)

theorem frozen_tryRegister (q : Registration) (r : Registry Ω) :
    Frozen i r (r.tryRegister env q).1 := by
  unfold tryRegister
  split
  · exact Frozen.tolerant.refl r
  · rename_i hcheck
    have hname : IsName q.group := checkName_eq_ok_iff.mp hcheck
    have hbegun : Frozen i r (r.note (.began (.register q.group q.client.channel.id))) :=
      Frozen.tolerant.note r rfl
    have hplaced : ∀ u : Registry Ω, Frozen i u (u.place env q).1 := by
      intro u
      refine Frozen.tolerant.andThen (Frozen.tolerant.readClock henv u) ?_
      intro s start _
      refine Frozen.tolerant.andThen (frozen_settle henv hname _ s) ?_
      exact fun t _ _ => Frozen.tolerant.refl t
    refine Frozen.tolerant.trans (Frozen.tolerant.trans hbegun ?_) (Frozen.tolerant.note _ rfl)
    refine Frozen.tolerant.andThen (hplaced _) ?_
    intro s result _
    exact Frozen.tolerant.proclaim henv q _ _ _ s

theorem frozen_serve (request : Request) (r : Registry Ω) :
    Frozen i r (r.serve env request) := by
  cases request with
  | register strict q =>
    obtain ⟨lines, hserve⟩ := serve_register env strict q r
    rw [hserve]
    exact Frozen.tolerant.trans (frozen_tryRegister henv q r) (Frozen.tolerant.logAll _ lines)
  | leave group client announce => exact frozen_leave henv group client announce r
  | channelClosed address id => exact frozen_channelClosed henv address id r
  | sweep => exact frozen_sweep henv r
  | addListener l => exact (Aside.addListener r l).frozen
  | setClock clock => exact (Aside.setClock r clock).frozen

end

/-- Whatever others do, however deep their requests are nested, leaves it alone. -/
theorem Served.frozen (h : Served calm r s) (i : Nat) : Frozen i r s := by
  induction h with
  | nothing r => exact Frozen.tolerant.refl r
  | beside clock wires lines outside _ ih =>
    exact Frozen.tolerant.trans ih (aside_beside _ clock wires lines outside).frozen
  | request _ _ _ _ _ ih reading listener =>
    exact Frozen.tolerant.trans ih (frozen_serve ⟨reading, listener⟩ _ _)

/-- When a record goes off the table it has no clients. From then on no group has it on the table,
at any moment and whoever registers. And once the call has ended in which it went off the table,
with all that was nested in it, nothing that others do to the registry touches the record: its
clients, its subscriptions, its policy and its times stay as they are. -/
theorem retired_records_stay_retired {settings : Settings} {listeners : List Nat} {clock : Clock}
    {measured : Bool} {outside : Ω}
    (h : Served False (Registry.new settings listeners clock measured outside) r)
    {group : String} {last : Group} {call : Call}
    (hentry : .unmapped group i last call ∈ r.journal) :
    (∃ t : Registry Ω, t.Reachable ∧ t.current? group = some i ∧ t.record? i = some last ∧
      last.isEmpty = true ∧ Steps False (t.removeRecord group i last call) r ∧
      ∀ s, Steps False (t.removeRecord group i last call) s →
        ∀ group', s.current? group' ≠ some i) ∧
    ∀ s, Served False r s → s.record? i = r.record? i := by
  have hnew : .unmapped group i last call ∉
      (Registry.new settings listeners clock measured outside).journal := List.not_mem_nil
  obtain ⟨t, hsteps, hcurrent, hg, hempty, hrest⟩ := h.steps.unmapped hnew hentry
  have ht : t.Reachable := ⟨settings, listeners, clock, measured, outside, hsteps⟩
  have hoff := offTable_removeRecord ht.wellFormed hcurrent hg call
  constructor
  · exact ⟨t, ht, hcurrent, hg, hempty, hrest, fun s hs => (hs.offTable hoff).2⟩
  · exact fun s hs => (hs.frozen i (hrest.offTable hoff)).2

/-- A group ends while a client registers in it, and is founded again by the same registration. -/
def foundedAgain : Registry (List Request) :=
  aboutToLeave.serve scripted (.register true (.sample "g" 7))

/-- The registration wrote into the old record when that was off the table already. Another client
that registers later comes into the new record, and the old one stays as it is. -/
theorem a_later_registration_spares_the_old_record :
    let q := Registration.sample "g" 8
    let last := (revised q 2 (Group.new "g" q.policy)).group.without 8
    let later := foundedAgain.serve (.still _) (.register true (.sample "g" 9))
    .unmapped "g" 0 last (.leave "g" 8) ∈ foundedAgain.journal ∧
      later.record? 0 = foundedAgain.record? 0 ∧
      (foundedAgain.record? 0).map (·.clients.keys) = some [7] ∧
      (later.group? "g").map (·.clients.keys) = some [7, 9] := by
  intro q last later
  have hfirst : Served False (Registry.new default [0] default false
      [.setClock ⟨1⟩, .setClock ⟨2⟩, .setClock ⟨3⟩,
        .leave "g" (Registration.sample "g" 8).client true]) aboutToLeave :=
    .request (.nothing _) served_scripted.reading served_scripted.listener (fun hc => hc.elim)
      (fun hc => hc.elim)
  have hserved : Served False _ foundedAgain :=
    .request hfirst served_scripted.reading served_scripted.listener (fun hc => hc.elim)
      (fun hc => hc.elim)
  have hentry : .unmapped "g" 0 last (.leave "g" 8) ∈ foundedAgain.journal := by decide +kernel
  have hstill : (Surroundings.still (List Request)).ActBy (Served False) :=
    (Surroundings.quiet_still _).served
  have hlater : Served False foundedAgain later :=
    .request (.nothing _) hstill.reading hstill.listener (fun hc => hc.elim) (fun hc => hc.elim)
  exact ⟨hentry, (retired_records_stay_retired hserved hentry).2 later hlater, by rfl, by rfl⟩

end ConsumerGroups.Registry
