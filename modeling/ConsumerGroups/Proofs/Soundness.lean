-- Between calls every group on the table has a client. In the middle of a call this may fail: a new
-- group stands empty until its first client is in, and a group that lost its last client stands
-- until the listeners have heard of that client. So the law is one of whole calls: a call that has
-- returned leaves no empty group behind that was not there, empty, when it began.
import ConsumerGroups.Proofs.Served

set_option autoImplicit false

namespace ConsumerGroups.Registry

variable {Ω : Type} {r s t : Registry Ω}

/-! ## Groups without clients -/

/-- A group has a record on the table that has no clients. -/
def Vacant (r : Registry Ω) (group : String) (i : Nat) : Prop :=
  r.current? group = some i ∧ ∃ g, r.record? i = some g ∧ g.isEmpty = true

/-- Steps that leave no vacant group behind that was not vacant before. -/
def Tidy (r s : Registry Ω) : Prop :=
  Steps True r s ∧
    (r.WellFormed → r.Gentle → ∀ group i, s.Vacant group i → r.Vacant group i)

theorem vacant_of_aside (h : r.Aside s) {group : String} {i : Nat} (hs : s.Vacant group i) :
    r.Vacant group i := by
  unfold Vacant at hs ⊢
  rwa [h.current?, h.record?] at hs

theorem Aside.tidy (h : r.Aside s) : r.Tidy s :=
  ⟨.single (.aside h), fun _ _ _ _ hs => vacant_of_aside h hs⟩

theorem Tidy.tolerant : Tolerant (Tidy (Ω := Ω)) := by
  constructor
  · exact fun h _ _ => h.tidy
  · rintro r s t ⟨hrs, h₁⟩ ⟨hst, h₂⟩
    refine ⟨hrs.trans hst, ?_⟩
    intro hw hg group i ht
    exact h₁ hw hg group i (h₂ (hrs.wellFormed hw) (hrs.gentle hg) group i ht)

/-- When one record is put aside, the vacant groups are those that were vacant before. -/
def TidyBut (i : Nat) (r s : Registry Ω) : Prop :=
  ∀ group j, s.Vacant group j → r.Vacant group j ∨ j = i

theorem TidyBut.tidy {i : Nat} (h : TidyBut i r s) (hst : s.Tidy t) (hw : s.WellFormed)
    (hg : s.Gentle) : TidyBut i r t :=
  fun group j ht => h group j (hst.2 hw hg group j ht)

theorem tidyBut_setRecord (r : Registry Ω) (i : Nat) (g : Group) :
    TidyBut i r (r.setRecord i g) := by
  rintro group j ⟨hj, g', hg', hempty⟩
  by_cases hji : j = i
  · exact .inr hji
  · rw [record?_setRecord_of_ne r hji] at hg'
    exact .inl ⟨hj, g', hg', hempty⟩

theorem tidyBut_takeFrom (r : Registry Ω) (i : Nat) (left : Group) (gone : List Client) :
    TidyBut i r (r.takeFrom i left gone) :=
  tidyBut_setRecord r i left

theorem tidyBut_addRecord (r : Registry Ω) (g : Group) :
    TidyBut r.records.length r (r.addRecord g) := by
  rintro group j ⟨hj, g', hg', hempty⟩
  by_cases hn : group = g.name
  · subst hn
    rw [current?_addRecord_self, Option.some.injEq] at hj
    exact .inr hj.symm
  · rw [current?_addRecord_of_ne r hn] at hj
    rcases record?_of_addRecord hg' with hg' | ⟨hlast, -⟩
    · exact .inl ⟨hj, g', hg', hempty⟩
    · exact .inr hlast

/-! ## A record that was emptied is taken off the table -/

/-- Once a record was taken off the table if it has no clients, it is not vacant. -/
theorem vacant_removeIfVacant (hw : s.WellFormed) {i : Nat} {g : Group}
    (hg : s.record? i = some g) {name : String} (hname : g.name = name) (call : Call)
    {group : String} {j : Nat} (h : (s.removeIfVacant name i call).1.Vacant group j) :
    s.Vacant group j ∧ j ≠ i := by
  subst hname
  rw [removeIfVacant_eq hg] at h
  split at h
  · rename_i hremoved
    obtain ⟨hj, g', hg', hempty⟩ := h
    by_cases hn : group = g.name
    · subst hn
      rw [current?_removeRecord] at hj
      cases hj
    · rw [current?_removeRecord_of_ne s hn] at hj
      refine ⟨⟨hj, g', hg', hempty⟩, ?_⟩
      rintro rfl
      exact hn (hw.current_unique hj hremoved.1)
  · rename_i hstays
    refine ⟨h, ?_⟩
    rintro rfl
    obtain ⟨hj, g', hg', hempty⟩ := h
    rw [hg, Option.some.injEq] at hg'
    subst hg'
    exact hstays ⟨by rw [hw.name_of_current hj hg]; exact hj, hempty⟩

section

variable {env : Surroundings Ω}

theorem vacant_settleDeparture (henv : env.ActBy Tidy) (hw : s.WellFormed) (hgentle : s.Gentle)
    {i : Nat} {g : Group} (hg : s.record? i = some g) {name : String} (hname : g.name = name)
    (announce : Bool) (call : Call) {group : String} {j : Nat}
    (h : (s.settleDeparture env name i announce call).Vacant group j) :
    s.Vacant group j ∧ j ≠ i := by
  have hsteps : Steps True s (s.removeIfVacant name i call).1 :=
    Steps.removing.removeIfVacant name i call s
  have htidy := Tidy.tolerant.settleDeparture henv name i announce call s
  exact vacant_removeIfVacant hw hg hname call
    (htidy.2 (hsteps.wellFormed hw) (hsteps.gentle hgentle) group j h)

/-! ## Clients leave -/

theorem tidyBut_takeOut (henv : env.ActBy Tidy) (hw : r.WellFormed) (hgentle : r.Gentle)
    (group : String) (i : Nat) (client : Client) :
    TidyBut i r (r.takeOut env group i client) := by
  unfold takeOut
  split
  · exact fun _ _ h => .inl h
  · rename_i g hg
    split
    · exact fun _ _ h => .inl h
    · rename_i stored hs
      have hstep : Step True r (r.takeFrom i (g.without client.channel.id) [stored]) :=
        .without hg hs
      have hrest := Tidy.tolerant.trans
        (Tidy.tolerant.logAll (r.takeFrom i (g.without client.channel.id) [stored])
          [g.leftLine stored])
        (Tidy.tolerant.sendLeft henv group i client _)
      exact (tidyBut_takeFrom r i _ _).tidy hrest (hstep.wellFormed hw) (hstep.gentle hgentle)

theorem tidy_leave (henv : env.ActBy Tidy) (group : String) (client : Client) (announce : Bool)
    (r : Registry Ω) : r.Tidy (r.leave env group client announce) := by
  have hacts : env.ActBy (Steps True) := henv.mono fun _ _ h => h.1
  refine ⟨Steps.removing.leave hacts group client announce r, ?_⟩
  intro hw hgentle group' j hv
  unfold leave at hv
  split at hv
  · exact hv
  · rename_i i hi
    let begun := r.note (.began (.leave group client.channel.id))
    have hbegun : r.Aside begun := .note r rfl
    have hwb := hbegun.wellFormed hw
    have hgb := hbegun.gentle hgentle
    obtain ⟨g, hg, hname⟩ := hw.recorded group i hi
    -- the record has kept its name while the listeners heard of the client
    have hsteps := Steps.removing.takeOut hacts group i client begun
    obtain ⟨g', hg', hname'⟩ := hsteps.record_stays (i := i) (g := g) hg
    have hended := vacant_of_aside (.note _ rfl) hv
    obtain ⟨hv, hji⟩ := vacant_settleDeparture henv (hsteps.wellFormed hwb) (hsteps.gentle hgb)
      hg' (hname'.trans hname) announce _ hended
    rcases tidyBut_takeOut henv hwb hgb group i client group' j hv with h | h
    · exact vacant_of_aside hbegun h
    · exact absurd h hji

theorem tidy_closeIn (henv : env.ActBy Tidy) (address : String) (id : UInt64) (i : Nat)
    (r : Registry Ω) : r.Tidy (r.closeIn env address id i) := by
  have hacts : env.ActBy (Steps True) := henv.mono fun _ _ h => h.1
  refine ⟨Steps.removing.closeIn hacts address id i r, ?_⟩
  intro hw hgentle group j hv
  unfold closeIn at hv
  split at hv
  · exact hv
  · rename_i g hg
    split at hv
    · exact hv
    · rename_i stored hs
      let taken := r.takeFrom i (g.without id) [stored]
      have hstep : Step True r taken := .without hg hs
      have hrest := Tidy.tolerant.trans
        (Tidy.tolerant.logAll taken [g.closedLine address stored])
        (Tidy.tolerant.sendLeft henv g.name i stored _)
      have hbut := (tidyBut_takeFrom r i _ _).tidy hrest (hstep.wellFormed hw)
        (hstep.gentle hgentle)
      have hsteps : Steps True r _ := (Relation.ReflTransGen.single hstep).trans hrest.1
      obtain ⟨g', hg', hname'⟩ := hsteps.record_stays hg
      obtain ⟨hv, hji⟩ := vacant_settleDeparture henv (hsteps.wellFormed hw)
        (hsteps.gentle hgentle) hg' hname' true _ hv
      rcases hbut group j hv with h | h
      · exact h
      · exact absurd h hji

theorem tidy_channelClosed (henv : env.ActBy Tidy) (address : String) (id : UInt64)
    (r : Registry Ω) : r.Tidy (r.channelClosed env address id).1 := by
  have hall : ∀ (is : List Nat) (s : Registry Ω),
      s.Tidy (is.foldl (fun r i => r.closeIn env address id i) s) := by
    intro is
    induction is with
    | nil => exact fun s => Tidy.tolerant.refl s
    | cons i rest ih => exact fun s => Tidy.tolerant.trans (tidy_closeIn henv address id i s) (ih _)
  exact Tidy.tolerant.trans (Tidy.tolerant.trans (Tidy.tolerant.note r rfl) (hall _ _))
    (Tidy.tolerant.note _ rfl)

/-! ## Clients are swept out -/

theorem tidy_sweepRecord (henv : env.ActBy Tidy) (now : UInt64) (i : Nat) (r : Registry Ω) :
    r.Tidy (r.sweepRecord env now i).1 := by
  have hacts : env.ActBy (Steps True) := henv.mono fun _ _ h => h.1
  refine ⟨Steps.removing.sweepRecord hacts now i r, ?_⟩
  intro hw hgentle group j hv
  cases hg : r.record? i with
  | none =>
    rw [sweepRecord_of_missing hg] at hv
    exact hv
  | some g =>
    let gone := expiredOf env g now r.settings.expiry
    let taken := r.takeFrom i (g.withoutExpired now r.settings.expiry) gone
    have hstep : Step True r taken := .withoutExpired env now r.settings.expiry hg
    have hrest := Tidy.tolerant.discard henv now g i gone taken
    have hbut := (tidyBut_takeFrom r i _ _).tidy hrest (hstep.wellFormed hw) (hstep.gentle hgentle)
    have hsteps : Steps True r _ := (Relation.ReflTransGen.single hstep).trans hrest.1
    obtain ⟨lines, hswept⟩ := hgentle.sweepRecord hg env now
    rw [hswept] at hv
    obtain ⟨g', hg', hname'⟩ := hsteps.record_stays hg
    obtain ⟨hv, hji⟩ := vacant_removeIfVacant (hsteps.wellFormed hw) hg' hname' .sweep
      (vacant_of_aside (.logAll _ lines) hv)
    rcases hbut group j hv with h | h
    · exact h
    · exact absurd h hji

theorem tidy_sweep (henv : env.ActBy Tidy) (r : Registry Ω) : r.Tidy (r.sweep env).1 := by
  have hall : ∀ (now : UInt64) (is : List Nat) (s : Registry Ω),
      s.Tidy (s.sweepAll env now is).1 := by
    intro now is
    induction is with
    | nil => exact fun s => Tidy.tolerant.refl s
    | cons i rest ih =>
      intro s
      refine Tidy.tolerant.andThen (tidy_sweepRecord henv now i s) ?_
      intro t n _
      exact Tidy.tolerant.andThen (ih t) fun u _ _ => Tidy.tolerant.refl u
  have hread := Tidy.tolerant.trans (Tidy.tolerant.note r (e := .began .sweep) rfl)
    (Tidy.tolerant.readClock henv _)
  refine Tidy.tolerant.trans (Tidy.tolerant.andThen hread ?_) (Tidy.tolerant.note _ rfl)
  exact fun s now _ => hall now _ s

/-! ## Clients register -/

theorem tidyBut_findOrFound (henv : env.ActBy Tidy) (q : Registration) (hw : r.WellFormed)
    (hgentle : r.Gentle) : TidyBut (r.findOrFound env q).2 r (r.findOrFound env q).1 := by
  have hsend := Tidy.tolerant.send henv q.group (.clientJoined q.client q.topics) r
  unfold findOrFound
  split
  · exact fun _ _ h => .inl h
  · dsimp only
    split
    · exact fun group j h => .inl (hsend.2 hw hgentle group j h)
    · intro group j h
      rcases tidyBut_addRecord _ _ group j h with h | h
      · exact .inl (hsend.2 hw hgentle group j h)
      · exact .inr h

/-- The record that a registration goes into is not vacant afterwards. -/
theorem vacant_update (q : Registration) (now : UInt64) {i : Nat} {g : Group}
    (hg : s.record? i = some g) {group : String} {j : Nat}
    (h : (s.update q i now).1.Vacant group j) : s.Vacant group j ∧ j ≠ i := by
  unfold update at h
  rw [hg] at h
  obtain ⟨hj, g', hg', hempty⟩ := vacant_of_aside (.logAll _ _) h
  rcases record?_of_setRecord hg hg' with ⟨-, rfl⟩ | ⟨hji, hg'⟩
  · rw [isEmpty_revised] at hempty
    cases hempty
  · exact ⟨⟨hj, g', hg', hempty⟩, hji⟩

theorem tidy_attempt (henv : env.ActBy Tidy) (hreturns : ∀ t, (env.beforeReading t).2 = .ok ())
    {q : Registration} (hname : IsName q.group) (hq : q.client.channel.closing ≠ .panics)
    (r : Registry Ω) : r.Tidy (r.attempt env q).1 := by
  have hacts : env.ActBy (Steps True) := henv.mono fun _ _ h => h.1
  refine ⟨Steps.admitting.attempt hacts hname (fun _ => hq) r, ?_⟩
  intro hw hgentle group j hv
  let found := r.findOrFound env q
  have hfound : Steps True r found.1 := Steps.admitting.findOrFound hacts hname r
  have hread := Tidy.tolerant.readClock henv found.1
  obtain ⟨g, hg, -⟩ := (hfound.wellFormed hw).recorded q.group found.2
    (current?_findOrFound env q r)
  obtain ⟨g', hg', -⟩ := hread.1.record_stays hg
  have hok := congrArg Prod.snd (readClock_of_returns (hreturns found.1))
  unfold attempt at hv
  dsimp only at hv
  rw [andThen_of_ok hok] at hv
  obtain ⟨hv, hji⟩ := vacant_update q _ hg' hv
  have hv := hread.2 (hfound.wellFormed hw) (hfound.gentle hgentle) group j hv
  rcases tidyBut_findOrFound henv q hw hgentle group j hv with h | h
  · exact h
  · exact absurd h hji

theorem tidy_settle (henv : env.ActBy Tidy) (hreturns : ∀ t, (env.beforeReading t).2 = .ok ())
    {q : Registration} (hname : IsName q.group) (hq : q.client.channel.closing ≠ .panics)
    (spare : Nat) (r : Registry Ω) : r.Tidy (r.settle env q spare).1 := by
  induction spare generalizing r with
  | zero => exact tidy_attempt henv hreturns hname hq r
  | succ spare ih =>
    refine Tidy.tolerant.andThen (tidy_attempt henv hreturns hname hq r) ?_
    intro s result _
    dsimp only
    split
    · exact Tidy.tolerant.refl s
    · exact Tidy.tolerant.trans (Tidy.tolerant.logAll s _) (ih _)

theorem tidy_tryRegister (henv : env.ActBy Tidy)
    (hreturns : ∀ t, (env.beforeReading t).2 = .ok ()) {q : Registration}
    (hq : q.client.channel.closing ≠ .panics) (r : Registry Ω) :
    r.Tidy (r.tryRegister env q).1 := by
  unfold tryRegister
  split
  · exact Tidy.tolerant.refl r
  · rename_i hcheck
    have hname := checkName_eq_ok_iff.mp hcheck
    have hbegan := Tidy.tolerant.note r (e := .began (.register q.group q.client.channel.id)) rfl
    refine Tidy.tolerant.trans (Tidy.tolerant.trans hbegan ?_) (Tidy.tolerant.note _ rfl)
    refine Tidy.tolerant.andThen ?_ fun s result _ => Tidy.tolerant.proclaim henv q _ _ _ s
    refine Tidy.tolerant.andThen (Tidy.tolerant.readClock henv _) ?_
    intro s start _
    refine Tidy.tolerant.andThen (tidy_settle henv hreturns hname hq _ s) ?_
    exact fun t _ _ => Tidy.tolerant.refl t

/-! ## Every call is tidy -/

theorem tidy_serve (henv : env.ActBy Tidy) (hreturns : ∀ t, (env.beforeReading t).2 = .ok ())
    {request : Request} (hcalm : request.IsCalm) (r : Registry Ω) :
    r.Tidy (r.serve env request) := by
  cases request with
  | register strict q =>
    obtain ⟨lines, hserve⟩ := serve_register env strict q r
    rw [hserve]
    exact Tidy.tolerant.trans (tidy_tryRegister henv hreturns hcalm r)
      (Tidy.tolerant.logAll _ lines)
  | leave group client announce => exact tidy_leave henv group client announce r
  | channelClosed address id => exact tidy_channelClosed henv address id r
  | sweep => exact tidy_sweep henv r
  | addListener l => exact (Aside.addListener r l).tidy
  | setClock clock => exact (Aside.setClock r clock).tidy

end

theorem Served.tidy (h : Served True r s) : r.Tidy s := by
  induction h with
  | nothing r => exact Tidy.tolerant.refl r
  | beside clock wires lines outside _ ih =>
    exact Tidy.tolerant.trans ih (aside_beside _ clock wires lines outside).tidy
  | request _ _ _ returns hcalm ih reading listener =>
    exact Tidy.tolerant.trans ih
      (tidy_serve ⟨reading, listener⟩ (returns trivial) (hcalm trivial) _)

/-! ## Between calls -/

/-- Between calls every group on the table has a record of its own name, which passes the check and
has a client, and everything in the record is stored under its own key. This holds whatever others
ask for meanwhile, within each other, whenever a listener is called or the clock is read, and
however listeners take it; only channels that panic are left out. -/
theorem every_group_is_sound_between_calls (settings : Settings) (listeners : List Nat)
    (clock : Clock) (measured : Bool) (outside : Ω)
    (h : Served True (Registry.new settings listeners clock measured outside) r)
    {group : String} {i : Nat} (hi : r.current? group = some i) :
    ∃ g, r.record? i = some g ∧ g.name = group ∧ IsName group ∧
      (∃ id c, g.clients.find? id = some c) ∧
      (∀ id c, g.clients.find? id = some c → c.channel.id = id) ∧
      (∀ topic s, g.subscriptions.find? topic = some s → s.topic = topic) := by
  have hnew := wellFormed_new settings listeners clock measured outside
  have hw := h.steps.wellFormed hnew
  obtain ⟨g, hg, rfl⟩ := hw.recorded group i hi
  refine ⟨g, hg, rfl, hw.named i g hg, ?_, (hw.keyed i g hg).clients,
    (hw.keyed i g hg).subscriptions⟩
  rw [← Group.isEmpty_eq_false_iff, Bool.eq_false_iff]
  intro hempty
  -- a vacant group would have been vacant in the new registry, which has no groups
  have hgentle := gentle_new settings listeners clock measured outside
  have hvacant := h.tidy.2 hnew hgentle g.name i ⟨hi, g, hg, hempty⟩
  exact absurd hvacant.1 (by simp [Registry.new, current?, Table.find?_empty])

/-- Surroundings with a listener that registers as soon as a group is gone, and then panics. -/
def stubborn (q : Registration) : Surroundings Unit :=
  { Surroundings.still Unit with
    listener := fun _ _ event r =>
      match event with
      | .dissolved => (r.serve (.still Unit) (.register true q), .panicked none)
      | _ => (r, .handled) }

theorem served_stubborn {q : Registration} (hq : q.client.channel.closing ≠ .panics) :
    (stubborn q).ActBy (Served True) := by
  have hstill : (Surroundings.still Unit).ActBy (Served True) :=
    (Surroundings.quiet_still Unit).served
  constructor
  · exact fun t => .nothing t
  · intro l group event t
    cases event with
    | dissolved =>
      have hcalm : (Request.register true q).IsCalm := hq
      exact .request (.nothing t) hstill.reading hstill.listener (fun _ _ => rfl) (fun _ => hcalm)
    | _ => exact .nothing t

/-- A client registers and leaves, and the listener registers it again while it is told so. -/
def refounded : Registry Unit :=
  ((Registry.new default [0] default false ()).serve (stubborn (.sample "g" 7))
    (.register true (.sample "g" 7))).serve (stubborn (.sample "g" 7))
    (.leave "g" (Registration.sample "g" 7).client true)

/-- A group that is founded again while its end is being told of is sound like any other. -/
theorem a_refounded_group_is_sound :
    Served True (Registry.new default [0] default false ()) refounded ∧
      refounded.current? "g" = some 1 ∧
      ∃ g, refounded.record? 1 = some g ∧ g.name = "g" ∧ IsName "g" ∧
        (∃ id c, g.clients.find? id = some c) ∧
        (∀ id c, g.clients.find? id = some c → c.channel.id = id) ∧
        (∀ topic s, g.subscriptions.find? topic = some s → s.topic = topic) := by
  have hq : (Registration.sample "g" 7).client.channel.closing ≠ .panics := by decide
  have henv := served_stubborn hq
  have hserved : Served True (Registry.new default [0] default false ()) refounded := by
    refine .request ?_ henv.reading henv.listener (fun _ _ => rfl) (fun _ => trivial)
    exact .request (.nothing _) henv.reading henv.listener (fun _ _ => rfl) (fun _ => hq)
  have hcurrent : refounded.current? "g" = some 1 := by rfl
  exact ⟨hserved, hcurrent,
    every_group_is_sound_between_calls default [0] default false () hserved hcurrent⟩

end ConsumerGroups.Registry
