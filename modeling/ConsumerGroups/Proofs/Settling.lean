-- A registration is not lost. Between finding a record and updating it a registration reads the
-- clock, and by then others may have taken the record off the table. So it tries again until the
-- record that it updated is the one on the table. This comes to an end when the others do.
import ConsumerGroups.Proofs.Served

set_option autoImplicit false

namespace ConsumerGroups

/-- The others come to an end. What they may still do never grows, and it gets less whenever they
deal with the table before a reading of the clock. -/
structure Surroundings.Bounded {Ω : Type} (env : Surroundings Ω) : Prop where
  reading : ∀ r, env.interruptions (env.beforeReading r).1.outside ≤ env.interruptions r.outside
  listener : ∀ l group event r,
    env.interruptions (env.listener l group event r).1.outside ≤ env.interruptions r.outside
  spends : ∀ r, (env.beforeReading r).1.table = r.table ∨
    env.interruptions (env.beforeReading r).1.outside < env.interruptions r.outside

/-- A group shows a registration of this time: the client as it describes itself, the policy, and
if the registration declares topics, these topics and no others. -/
structure Registration.ShownBy (q : Registration) (now : UInt64) (g : Group) : Prop where
  client : ∃ c, g.clients.find? q.client.channel.id = some c ∧ c.name = q.client.name ∧
    c.language = q.client.language ∧ c.version = q.client.version ∧ c.heardAt = now
  policy : g.policy = q.policy
  topics : q.declares = true →
    ∀ topic, g.wants topic = true ↔ ∃ s ∈ q.subscriptions, s.topic = topic

namespace Registry

variable {Ω : Type} {env : Surroundings Ω} {q : Registration} {r s t : Registry Ω}

theorem shownBy_revised (q : Registration) (now : UInt64) (g : Group) :
    q.ShownBy now (revised q now g).group := by
  refine ⟨?_, revised_policy q now g, ?_⟩
  · obtain ⟨hclaims, htime⟩ := heardRecord_claims (g.clients.find? q.client.channel.id)
      { q.client with heardAt := now }
    obtain ⟨hname, hlanguage, hversion⟩ := Client.sameClaims_iff.mp hclaims
    exact ⟨_, find?_revised_self q now g, hname, hlanguage, hversion, htime⟩
  · intro hd topic
    rw [wants_revised hd, Group.names_iff]

/-! ## One attempt -/

/-- The state in which an attempt reads the clock. -/
def read (env : Surroundings Ω) (q : Registration) (r : Registry Ω) : Registry Ω :=
  (env.beforeReading (r.findOrFound env q).1).1

/-- The record that an attempt found or founded. -/
def target (env : Surroundings Ω) (q : Registration) (r : Registry Ω) : Nat :=
  (r.findOrFound env q).2

/-- What an attempt does once it has read the clock, and whether anything changed. -/
def attempted (env : Surroundings Ω) (q : Registration) (r : Registry Ω) : Registry Ω × Bool :=
  (r.read env q).update q (r.target env q) (r.read env q).clock.now

theorem attempt_of_returns {env : Surroundings Ω} {q : Registration} {r : Registry Ω}
    (h : (env.beforeReading (r.findOrFound env q).1).2 = .ok ()) :
    (r.findOrFound env q).1.readClock env = (r.read env q, .ok (r.read env q).clock.now) ∧
      r.attempt env q = ((r.attempted env q).1, .ok (r.target env q, (r.attempted env q).2)) := by
  have hclock := readClock_of_returns h
  refine ⟨hclock, ?_⟩
  unfold attempt
  dsimp only
  rw [hclock, andThen_ok]
  rfl

/-- An attempt panics with its reading, or updates the record that it found or founded. -/
theorem attempt_cases (env : Surroundings Ω) (q : Registration) (r : Registry Ω) :
    (∃ s panic, (env.beforeReading s).2 = .error panic ∧ (r.attempt env q).2 = .error panic) ∨
    ((r.findOrFound env q).1.readClock env = (r.read env q, .ok (r.read env q).clock.now) ∧
      r.attempt env q = ((r.attempted env q).1, .ok (r.target env q, (r.attempted env q).2))) := by
  cases h : (env.beforeReading (r.findOrFound env q).1).2 with
  | error panic =>
    left
    refine ⟨_, panic, h, ?_⟩
    unfold attempt
    dsimp only
    rw [readClock_of_panics h, andThen_error]
  | ok _ => exact .inr (attempt_of_returns h)

theorem table_update (q : Registration) (i : Nat) (now : UInt64) (r : Registry Ω) :
    (r.update q i now).1.table = r.table := by
  unfold update
  split <;> rfl

theorem outside_update (q : Registration) (i : Nat) (now : UInt64) (r : Registry Ω) :
    (r.update q i now).1.outside = r.outside := by
  unfold update
  split <;> rfl

/-- The record that an attempt reaches is there, whatever others did before the reading. -/
theorem record_read (henv : env.ActBy (Steps False)) (hname : IsName q.group) (hw : r.WellFormed) :
    ∃ g, (r.read env q).record? (r.target env q) = some g := by
  obtain ⟨g, hg, -⟩ := ((Steps.admitting.findOrFound henv hname r).wellFormed hw).recorded q.group
    (r.target env q) (current?_findOrFound env q r)
  obtain ⟨g', hg', -⟩ := (henv.reading (r.findOrFound env q).1).record_stays hg
  exact ⟨g', hg'⟩

/-- After an attempt its record shows the registration at the time of its reading. -/
theorem attempt_shows (henv : env.ActBy (Steps False)) (hname : IsName q.group) (hw : r.WellFormed)
    {i : Nat} {changed : Bool} (h : r.attempt env q = (s, .ok (i, changed))) :
    ∃ now g, ((r.findOrFound env q).1.readClock env).2 = .ok now ∧ s.record? i = some g ∧
      q.ShownBy now g := by
  rcases attempt_cases env q r with ⟨_, _, -, hpanic⟩ | ⟨hclock, hdone⟩
  · rw [h] at hpanic
    cases hpanic
  · rw [hdone] at h
    cases h
    obtain ⟨g, hg⟩ := record_read henv hname hw
    refine ⟨_, (revised q _ g).group, congrArg Prod.snd hclock, ?_, shownBy_revised q _ g⟩
    unfold attempted update
    rw [hg]
    exact record?_setRecord_self _ hg _

/-- Telling the listeners of a new client brings no interruptions. -/
theorem interruptions_findOrFound (hends : env.Bounded) (q : Registration) (r : Registry Ω) :
    env.interruptions (r.findOrFound env q).1.outside ≤ env.interruptions r.outside := by
  have hR : Tolerant fun r s : Registry Ω =>
      env.interruptions s.outside ≤ env.interruptions r.outside := by
    constructor
    · intro r s _ h _
      exact Nat.le_of_eq (congrArg env.interruptions h)
    · exact fun h₁ h₂ => Nat.le_trans h₂ h₁
  have hsend := hR.send ⟨hends.reading, hends.listener⟩ q.group (.clientJoined q.client q.topics) r
  unfold findOrFound
  split
  · exact Nat.le_refl _
  · dsimp only
    split
    · exact hsend
    · exact hsend

/-- An attempt that came to nothing was interrupted. -/
theorem attempt_spends (hends : env.Bounded) {i : Nat} {changed : Bool}
    (h : r.attempt env q = (s, .ok (i, changed))) :
    s.current? q.group = some i ∨ env.interruptions s.outside < env.interruptions r.outside := by
  rcases attempt_cases env q r with ⟨_, _, -, hpanic⟩ | ⟨-, hdone⟩
  · rw [h] at hpanic
    cases hpanic
  · rw [hdone] at h
    cases h
    rw [attempted, current?, table_update, outside_update]
    rcases hends.spends (r.findOrFound env q).1 with htable | hless
    · left
      rw [read, htable]
      exact current?_findOrFound env q r
    · right
      exact Nat.lt_of_lt_of_le hless (interruptions_findOrFound hends q r)

/-! ## All attempts -/

/-- The states in which the attempts of a registration begin. -/
inductive Attempts (env : Surroundings Ω) (q : Registration) : Registry Ω → Registry Ω → Prop where
  | first (r : Registry Ω) : Attempts env q r r
  | again {r s t : Registry Ω} {i : Nat} {changed : Bool}
      (done : r.attempt env q = (s, .ok (i, changed))) (gone : s.current? q.group ≠ some i)
      (h : Attempts env q (s.retried q) t) : Attempts env q r t

theorem Attempts.steps (henv : env.ActBy (Steps False)) (hname : IsName q.group)
    (h : Attempts env q r s) : Steps False r s := by
  induction h with
  | first r => exact .refl
  | @again r s t i changed done gone h ih =>
    have hattempt : Steps False r (r.attempt env q).1 :=
      Steps.admitting.attempt henv hname (fun hc => hc.elim) r
    rw [done] at hattempt
    exact (hattempt.trans (Steps.tolerant.logAll _ _)).trans ih

/-- The attempts end in a panic of a reading, or in one whose record is on the table. -/
theorem settle_cases (hends : env.Bounded) (spare : Nat) (r : Registry Ω)
    (hspare : env.interruptions r.outside ≤ spare) :
    (∃ s panic, (env.beforeReading s).2 = .error panic ∧
      (r.settle env q spare).2 = .error panic) ∨
    ∃ last after i changed, Attempts env q r last ∧
      last.attempt env q = (after, .ok (i, changed)) ∧
      r.settle env q spare = (after, .ok (i, changed)) ∧ after.current? q.group = some i := by
  induction spare generalizing r with
  | zero =>
    rcases attempt_cases env q r with hpanic | ⟨-, hdone⟩
    · exact .inl hpanic
    · refine .inr ⟨r, _, _, _, .first r, hdone, hdone, ?_⟩
      rcases attempt_spends hends hdone with hcurrent | hless
      · exact hcurrent
      · omega
  | succ spare ih =>
    rcases attempt_cases env q r with ⟨s, panic, hs, hpanic⟩ | ⟨-, hdone⟩
    · refine .inl ⟨s, panic, hs, ?_⟩
      rw [settle, andThen_of_error hpanic]
    · rw [settle, hdone, andThen_ok]
      dsimp only
      split
      · rename_i hcurrent
        exact .inr ⟨r, _, _, _, .first r, hdone, rfl, (isCurrent_iff _ _ _).mp hcurrent⟩
      · rename_i hgone
        rw [isCurrent_iff] at hgone
        have hless := (attempt_spends hends hdone).resolve_left hgone
        rcases ih (retried q _) (Nat.le_of_lt_succ (Nat.lt_of_lt_of_le hless hspare)) with
          hpanic | ⟨last, after, i, changed', hlast, hafter, hsettle, hcurrent⟩
        · exact .inl hpanic
        · exact .inr ⟨last, after, i, changed', .again hdone hgone hlast, hafter, hsettle, hcurrent⟩

theorem place_cases (hends : env.Bounded) (q : Registration) (r : Registry Ω) :
    (∃ s panic, (env.beforeReading s).2 = .error panic ∧ (r.place env q).2 = .error panic) ∨
    ∃ start last after i changed, r.place env q = (after, .ok (start, i, changed)) ∧
      Attempts env q (r.readClock env).1 last ∧ last.attempt env q = (after, .ok (i, changed)) ∧
      after.current? q.group = some i := by
  unfold place
  cases h : (env.beforeReading r).2 with
  | error panic =>
    refine .inl ⟨r, panic, h, ?_⟩
    rw [readClock_of_panics h, andThen_error]
  | ok _ =>
    rw [readClock_of_returns h, andThen_ok]
    rcases settle_cases hends _ (env.beforeReading r).1 (Nat.le_refl _) with
      ⟨s, panic, hs, hpanic⟩ | ⟨last, after, i, changed, hlast, hafter, hsettle, hcurrent⟩
    · refine .inl ⟨s, panic, hs, ?_⟩
      rw [andThen_of_error hpanic]
    · rw [hsettle, andThen_ok]
      exact .inr ⟨_, last, after, i, changed, rfl, hlast, hafter, hcurrent⟩

/-! ## What comes after the last attempt -/

/-- A client is in the record that its group has on the table. -/
def IsIn (r : Registry Ω) (group : String) (i : Nat) (id : UInt64) : Prop :=
  r.current? group = some i ∧ ∃ g c, r.record? i = some g ∧ g.clients.find? id = some c

/-- A client that was in its record stays in it, unless a journal has it that it was taken out. -/
def KeptBut (entries : List Entry) (r s : Registry Ω) : Prop :=
  ∀ group i id, r.IsIn group i id →
    (∀ c, .removed group i c ∈ entries → c.channel.id ≠ id) → s.IsIn group i id

theorem keptBut_release {i : Nat} {g : Group} {stays : UInt64 → Client → Bool} {gone : List Client}
    (hw : r.WellFormed) (hg : r.record? i = some g)
    (hgone : ∀ c, c ∈ gone ↔ ∃ id, g.clients.find? id = some c ∧ stays id c = false) :
    KeptBut (gone.map (.removed g.name i)).reverse r
      (r.takeFrom i { g with clients := g.clients.filter stays } gone) := by
  rintro group j id ⟨hj, g₀, c, hg₀, hc⟩ hkept
  refine ⟨hj, ?_⟩
  by_cases hji : j = i
  · subst hji
    rw [hg, Option.some.injEq] at hg₀
    subst hg₀
    refine ⟨_, c, record?_setRecord_self r hg _, ?_⟩
    rw [Table.find?_filter, hc, Option.filter_eq_some_iff]
    refine ⟨rfl, ?_⟩
    -- otherwise the journal would have it that this client was taken out
    rw [← Bool.not_eq_false]
    intro hstays
    refine hkept c ?_ ((hw.keyed j g hg).clients id c hc)
    rw [← hw.name_of_current hj hg]
    exact List.mem_reverse.mpr (List.mem_map_of_mem ((hgone c).mpr ⟨id, hc, hstays⟩))
  · exact ⟨g₀, c, by rw [record?_takeFrom, record?_setRecord_of_ne r hji, hg₀], hc⟩

theorem keptBut_unmap {group : String} {i : Nat} {g : Group} (call : Call)
    (hcurrent : r.current? group = some i) (hg : r.record? i = some g) (hempty : g.isEmpty = true)
    (entries : List Entry) : KeptBut entries r (r.removeRecord group i g call) := by
  rintro group' j id ⟨hj, g₀, c, hg₀, hc⟩ -
  have hne : group' ≠ group := by
    rintro rfl
    rw [hj, Option.some.injEq] at hcurrent
    subst hcurrent
    rw [hg, Option.some.injEq] at hg₀
    subst hg₀
    rw [Group.isEmpty_eq_false_iff.mpr ⟨id, c, hc⟩] at hempty
    cases hempty
  exact ⟨by rw [current?_removeRecord_of_ne r hne, hj], g₀, c, hg₀, hc⟩

theorem Step.keptBut {calm : Prop} (h : Step calm r s) (hw : r.WellFormed) :
    ∃ entries, s.journal = entries ++ r.journal ∧ KeptBut entries r s := by
  cases h with
  | aside h =>
    obtain ⟨entries, hj, -⟩ := h.journal
    refine ⟨entries, hj, ?_⟩
    rintro group i id ⟨hi, g, c, hg, hc⟩ -
    exact ⟨by rw [h.current?, hi], g, c, by rw [h.record?, hg], hc⟩
  | @found name policy hname hnew =>
    refine ⟨[_], rfl, ?_⟩
    rintro group i id ⟨hi, g, c, hg, hc⟩ -
    have hne : group ≠ name := by
      rintro rfl
      rw [hi] at hnew
      cases hnew
    refine ⟨?_, g, c, record?_addRecord_of_some r hg _, hc⟩
    rw [current?_addRecord_of_ne r hne, hi]
  | @revise j g₀ q now hg₀ hq =>
    refine ⟨[], rfl, ?_⟩
    rintro group i id ⟨hi, g, c, hg, hc⟩ -
    refine ⟨hi, ?_⟩
    by_cases hij : i = j
    · subst hij
      rw [hg, Option.some.injEq] at hg₀
      subst hg₀
      obtain ⟨c', hc'⟩ := Option.isSome_iff_exists.mp
        (find?_revised_isSome q now g (Option.isSome_of_eq_some hc))
      exact ⟨_, c', record?_setRecord_self r hg _, hc'⟩
    · exact ⟨g, c, by rw [record?_setRecord_of_ne r hij, hg], hc⟩
  | release hg hgone => exact ⟨_, rfl, keptBut_release hw hg hgone⟩
  | unmap call hcurrent hg hempty => exact ⟨[_], rfl, keptBut_unmap call hcurrent hg hempty _⟩

theorem Steps.keptBut {calm : Prop} (h : Steps calm r s) (hw : r.WellFormed) :
    ∃ entries, s.journal = entries ++ r.journal ∧ KeptBut entries r s := by
  induction h with
  | refl => exact ⟨[], rfl, fun group i id hin _ => hin⟩
  | tail hsteps hstep ih =>
    obtain ⟨es, hes, hkept⟩ := ih
    obtain ⟨fs, hfs, hkept'⟩ := hstep.keptBut (Steps.wellFormed hsteps hw)
    refine ⟨fs ++ es, by rw [hfs, hes, List.append_assoc], ?_⟩
    intro group i id hin hnot
    refine hkept' group i id (hkept group i id hin ?_) ?_
    · exact fun c hc => hnot c (List.mem_append_right fs hc)
    · exact fun c hc => hnot c (List.mem_append_left es hc)

/-! ## No registration is lost -/

/-- Once a registration is in its record, the rest of the call leaves the groups alone. -/
theorem rest_of_register {R : Registry Ω → Registry Ω → Prop} (hR : Tolerant R)
    (henv : env.ActBy R) (hname : IsName q.group) (strict : Bool) (r : Registry Ω) :
    R ((r.note (.began (.register q.group q.client.channel.id))).place env q).1
      (r.serve env (.register strict q)) := by
  have htry : R ((r.note (.began (.register q.group q.client.channel.id))).place env q).1
      (r.tryRegister env q).1 := by
    rw [tryRegister_of_name env hname]
    refine hR.trans ?_ (hR.note _ rfl)
    refine hR.andThen (hR.refl _) ?_
    exact fun s result _ => hR.proclaim henv q _ _ _ s
  obtain ⟨lines, hserve⟩ := serve_register env strict q r
  rw [hserve]
  exact hR.trans htry (hR.logAll _ lines)

/-- A registration whose name passes the check is not lost, whatever others do to the registry
before its readings of the clock and while its listeners are called, as long as they come to an end.
Unless a reading panics, its last attempt leaves it in the record that its group has on the table.
From then on its client is in this record, also when the call returns, unless it is taken out of
the record after the last attempt. -/
theorem no_registration_is_lost {env : Surroundings Ω} {q : Registration} {r : Registry Ω}
    (hr : r.Reachable) (henv : env.ActBy (Served False)) (hends : env.Bounded)
    (hname : IsName q.group) (strict : Bool) :
    let begun := r.note (.began (.register q.group q.client.channel.id))
    let placed := begun.place env q
    let final := r.serve env (.register strict q)
    (∃ s panic, (env.beforeReading s).2 = .error panic ∧ placed.2 = .error panic) ∨
    ∃ start last i changed now g,
      placed.2 = .ok (start, i, changed) ∧
      Attempts env q (begun.readClock env).1 last ∧
      last.attempt env q = (placed.1, .ok (i, changed)) ∧
      ((last.findOrFound env q).1.readClock env).2 = .ok now ∧
      placed.1.current? q.group = some i ∧ placed.1.record? i = some g ∧ q.ShownBy now g ∧
      ∃ entries, final.journal = entries ++ placed.1.journal ∧
        ((∀ c, .removed q.group i c ∈ entries → c.channel.id ≠ q.client.channel.id) →
          (final.clientOn? q.group q.client.channel.id).isSome = true) := by
  intro begun placed final
  have hacts : env.ActBy (Steps False) := henv.mono fun _ _ h => h.steps
  have hbegun : r.Aside begun := .note r rfl
  rcases place_cases hends q begun with
    hpanic | ⟨start, last, after, i, changed, hplaced, hlast, hafter, hcurrent⟩
  · exact .inl hpanic
  · have hwread : (begun.readClock env).1.WellFormed :=
      (Steps.tolerant.readClock hacts begun).wellFormed (hbegun.wellFormed hr.wellFormed)
    have hwlast : last.WellFormed := (hlast.steps hacts hname).wellFormed hwread
    obtain ⟨now, g, hnow, hg, hshown⟩ := attempt_shows hacts hname hwlast hafter
    have hwafter : after.WellFormed := by
      have hattempt : Steps False last (last.attempt env q).1 :=
        Steps.admitting.attempt hacts hname (fun hc => hc.elim) last
      rw [hafter] at hattempt
      exact hattempt.wellFormed hwlast
    have hrest : Steps False placed.1 final := rest_of_register Steps.tolerant hacts hname strict r
    rw [show placed = _ from hplaced] at hrest ⊢
    obtain ⟨entries, hj, hkept⟩ := hrest.keptBut hwafter
    refine .inr ⟨start, last, i, changed, now, g, rfl, hlast, hafter, hnow, hcurrent, hg, hshown,
      entries, hj, ?_⟩
    intro hnot
    obtain ⟨c, hc, -⟩ := hshown.client
    obtain ⟨hi, g', c', hg', hc'⟩ := hkept q.group i _ ⟨hcurrent, g, c, hg, hc⟩ hnot
    rw [clientOn?, group?_of_current hi, hg', Option.bind_some, hc']
    rfl

/-- Surroundings that go through a list of requests, one at each reading of the clock. -/
def scripted : Surroundings (List Request) :=
  { Surroundings.still (List Request) with
    beforeReading := fun r =>
      match r.outside with
      | [] => (r, .ok ())
      | request :: rest => ({ r.serve (.still _) request with outside := rest }, .ok ())
    interruptions := List.length }

theorem served_scripted : scripted.ActBy (Served False) := by
  have hstill : (Surroundings.still (List Request)).ActBy (Served False) :=
    (Surroundings.quiet_still (List Request)).served
  constructor
  · intro r
    unfold scripted
    dsimp only
    split
    · exact .nothing r
    · rename_i request rest h
      have hserved : Served False r (r.serve (.still _) request) :=
        .request (.nothing r) hstill.reading hstill.listener (fun hc => hc.elim) (fun hc => hc.elim)
      exact .beside _ _ [] rest hserved
  · exact fun _ _ _ r => .nothing r

theorem bounded_scripted : scripted.Bounded := by
  refine ⟨?_, fun _ _ _ _ => Nat.le_refl _, ?_⟩
  · intro r
    unfold scripted
    dsimp only
    split
    · exact Nat.le_refl _
    · rename_i request rest h
      simp [h]
  · intro r
    unfold scripted
    dsimp only
    split
    · exact .inl rfl
    · rename_i request rest h
      simp [h]

/-- A group with one client, who is going to leave before the second reading from now. -/
def aboutToLeave : Registry (List Request) :=
  (Registry.new default [0] default false
    [.setClock ⟨1⟩, .setClock ⟨2⟩, .setClock ⟨3⟩,
      .leave "g" (Registration.sample "g" 8).client true]).serve
    scripted (.register true (.sample "g" 8))

/-- The group after the last attempt of another client. -/
def joined : Registry (List Request) :=
  ((aboutToLeave.note (.began (.register "g" 7))).place scripted (.sample "g" 7)).1

/-- A group that ends in the middle of a registration is founded again by it. -/
theorem a_registration_outlives_its_first_record :
    aboutToLeave.Reachable ∧ aboutToLeave.current? "g" = some 0 ∧ joined.current? "g" = some 1 ∧
      ∃ g now, joined.record? 1 = some g ∧ (Registration.sample "g" 7).ShownBy now g := by
  have hacts : scripted.ActBy (Steps False) := served_scripted.mono fun _ _ h => h.steps
  have hreachable : aboutToLeave.Reachable :=
    ⟨default, [0], default, false, _, steps_serve hacts (fun hc => hc.elim) _⟩
  have hname : IsName (Registration.sample "g" 7).group := checkName_eq_ok_iff.mp (by rfl)
  have hlast : joined.current? "g" = some 1 := by rfl
  refine ⟨hreachable, by rfl, hlast, ?_⟩
  rcases no_registration_is_lost hreachable served_scripted bounded_scripted hname true with
    ⟨s, panic, hs, -⟩ | ⟨start, last, i, changed, now, g, -, -, -, -, hi, hg, hshown, -⟩
  · unfold scripted at hs
    dsimp only at hs
    split at hs <;> cases hs
  · have hi : joined.current? "g" = some i := hi
    rw [hlast, Option.some.injEq] at hi
    subst hi
    exact ⟨g, now, hg, hshown⟩

end Registry

end ConsumerGroups
