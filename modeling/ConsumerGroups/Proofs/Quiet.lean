-- What every operation does to the clients of the groups when nobody interferes. Events and
-- readings then leave the groups alone, so a registration stores one client, and the operations
-- that remove clients thin out one record after the other.
import ConsumerGroups.Proofs.Settling

set_option autoImplicit false

namespace ConsumerGroups.Registry

variable {Ω : Type} {env : Surroundings Ω} {r s t : Registry Ω}

/-! ## Clients by lookup -/

theorem clientOn?_of_record {group : String} {i : Nat} {g : Group} (hi : r.current? group = some i)
    (hg : r.record? i = some g) (id : UInt64) : r.clientOn? group id = g.clients.find? id := by
  rw [clientOn?, group?_of_current hi, hg, Option.bind_some]

theorem clientOn?_of_absent {group : String} (h : r.current? group = none) (id : UInt64) :
    r.clientOn? group id = none := by
  rw [clientOn?, group?, h]
  rfl

/-- A record that another group has on the table is seen through the other group only. -/
theorem group?_setRecord_of_ne {group : String} {i : Nat} (h : r.current? group ≠ some i)
    (g : Group) : (r.setRecord i g).group? group = r.group? group := by
  cases hj : r.current? group with
  | none =>
    have hj' : (r.setRecord i g).current? group = none := hj
    simp [group?, hj, hj']
  | some j =>
    have hji : j ≠ i := fun e => h (by rw [hj, e])
    have hj' : (r.setRecord i g).current? group = some j := hj
    rw [group?_of_current hj', record?_setRecord_of_ne r hji, group?_of_current hj]

theorem clientOn?_setRecord_of_ne {group : String} {i : Nat} (h : r.current? group ≠ some i)
    (g : Group) (id : UInt64) : (r.setRecord i g).clientOn? group id = r.clientOn? group id := by
  rw [clientOn?, group?_setRecord_of_ne h, clientOn?]

/-! ## Thinning out a record -/

/-- The clients are the same, and a group that is not of this record has the same record. -/
structure Spares (i : Nat) (r s : Registry Ω) : Prop where
  clients : ∀ group id, s.clientOn? group id = r.clientOn? group id
  others : ∀ group j, r.current? group = some j → j ≠ i → s.current? group = some j

theorem Spares.trans {i : Nat} (h : Spares i r s) (h' : Spares i s t) : Spares i r t := by
  constructor
  · intro group id
    rw [h'.clients, h.clients]
  · intro group j hj hji
    exact h'.others group j (h.others group j hj hji) hji

theorem Aside.spares (h : r.Aside s) (i : Nat) : Spares i r s := by
  refine ⟨h.clientOn?, ?_⟩
  intro group j hj _
  rw [h.current?, hj]

theorem spares_removeIfVacant (group : String) (i : Nat) (call : Call) (r : Registry Ω) :
    Spares i r (r.removeIfVacant group i call).1 := by
  cases hg : r.record? i with
  | none =>
    unfold removeIfVacant
    rw [hg]
    exact (Aside.refl r).spares i
  | some g =>
    rw [removeIfVacant_eq hg]
    split
    · rename_i h
      refine ⟨?_, ?_⟩
      · intro group' id
        by_cases hn : group' = group
        · subst hn
          rw [clientOn?_of_absent (current?_removeRecord r group' i g call),
            clientOn?_of_record h.1 hg, (Table.isEmpty_iff.mp h.2 id)]
        · rw [clientOn?, group?, current?_removeRecord_of_ne r hn]
          rfl
      · intro group' j hj hji
        have hn : group' ≠ group := by
          rintro rfl
          rw [hj, Option.some.injEq] at h
          exact hji h.1
        rw [current?_removeRecord_of_ne r hn, hj]
    · exact (Aside.refl r).spares i

/-- Of the clients in a record some stay, and all others are as before. -/
structure Thins (stays : UInt64 → Client → Bool) (i : Nat) (r s : Registry Ω) : Prop where
  clients : ∀ group id, s.clientOn? group id =
    if r.current? group = some i then (r.clientOn? group id).filter (stays id)
    else r.clientOn? group id
  others : ∀ group j, r.current? group = some j → j ≠ i → s.current? group = some j

theorem Thins.spares {stays : UInt64 → Client → Bool} {i : Nat} (h : Thins stays i r s)
    (h' : Spares i s t) : Thins stays i r t := by
  constructor
  · intro group id
    rw [h'.clients, h.clients]
  · intro group j hj hji
    exact h'.others group j (h.others group j hj hji) hji

theorem thins_takeFrom {i : Nat} {g : Group} (hg : r.record? i = some g)
    (stays : UInt64 → Client → Bool) (gone : List Client) :
    Thins stays i r (r.takeFrom i { g with clients := g.clients.filter stays } gone) := by
  constructor
  · intro group id
    split
    · rename_i hi
      have hi' : (r.takeFrom i { g with clients := g.clients.filter stays } gone).current? group =
          some i := hi
      rw [clientOn?_of_record hi' (record?_setRecord_self r hg _), Table.find?_filter,
        clientOn?_of_record hi hg]
    · rename_i hi
      exact clientOn?_setRecord_of_ne hi _ id
  · exact fun group j hj _ => hj

/-- Nobody is in the record who would have to go. -/
theorem thins_self {stays : UInt64 → Client → Bool} {i : Nat}
    (h : ∀ g, r.record? i = some g → ∀ id c, g.clients.find? id = some c → stays id c = true) :
    Thins stays i r r := by
  refine ⟨?_, fun group j hj _ => hj⟩
  intro group id
  split
  · rename_i hi
    cases hc : r.clientOn? group id with
    | none => rfl
    | some c =>
      rw [clientOn?, group?_of_current hi, Option.bind_eq_some_iff] at hc
      obtain ⟨g, hg, hc⟩ := hc
      rw [Option.filter_some, h g hg id c hc, if_pos rfl]
  · rfl

/-! ## Thinning out records one after the other -/

/-- Of the clients in some of the records some stay, and all others are as before. -/
def ThinsAll (stays : UInt64 → Client → Bool) (is : List Nat) (r s : Registry Ω) : Prop :=
  ∀ group id, s.clientOn? group id =
    if ∃ i ∈ is, r.current? group = some i then (r.clientOn? group id).filter (stays id)
    else r.clientOn? group id

theorem thinsAll_nil (stays : UInt64 → Client → Bool) (r : Registry Ω) :
    ThinsAll stays [] r r := by
  intro group id
  simp

theorem Thins.cons {stays : UInt64 → Client → Bool} {i : Nat} {rest : List Nat}
    (h : Thins stays i r s) (h' : ThinsAll stays rest s t) : ThinsAll stays (i :: rest) r t := by
  intro group id
  rw [h' group id, h.clients group id]
  cases hj : r.current? group with
  | none =>
    rw [clientOn?_of_absent hj]
    simp
  | some j =>
    by_cases hji : j = i
    · subst hji
      simp
    · have hs := h.others group j hj hji
      simp [hs, hji]

/-- The walk comes by every record that is on the table. -/
theorem mem_walk (env : Surroundings Ω) {group : String} {i : Nat}
    (hi : r.current? group = some i) : i ∈ env.walk.records r.table.values :=
  (env.walk.records_perm _).mem_iff.mpr (Table.mem_values_iff.mpr ⟨group, hi⟩)

/-- Once all records on the table were thinned out, the same clients stay in every group. -/
theorem ThinsAll.clientOn? {stays : UInt64 → Client → Bool}
    (h : ThinsAll stays (env.walk.records r.table.values) r s) (group : String) (id : UInt64) :
    s.clientOn? group id = (r.clientOn? group id).filter (stays id) := by
  rw [h group id]
  split
  · rfl
  · rename_i hno
    have hnone : r.current? group = none := by
      rw [Option.eq_none_iff_forall_ne_some]
      exact fun i hi => hno ⟨i, mem_walk env hi, hi⟩
    rw [clientOn?_of_absent hnone]
    rfl

/-! ## Clients leave -/

theorem spares_settleDeparture (henv : env.ActBy Aside) (group : String) (i : Nat)
    (announce : Bool) (call : Call) (r : Registry Ω) :
    Spares i r (r.settleDeparture env group i announce call) := by
  have hremoved := spares_removeIfVacant group i call r
  exact hremoved.trans ((Aside.tolerant.settleDeparture henv group i announce call r).spares i)

/-- Those who stay when the client on one channel goes. -/
def notOn (id : UInt64) (id' : UInt64) (_ : Client) : Bool := compare id id' != .eq

theorem notOn_eq_false {id id' : UInt64} (c : Client) : notOn id id' c = false ↔ id' = id := by
  rw [notOn, bne_eq_false_iff_eq, Std.LawfulEqCmp.compare_eq_iff_eq, eq_comm]

theorem filter_notOn (id id' : UInt64) (old : Option Client) :
    old.filter (notOn id id') = if id' = id then none else old := by
  cases old with
  | none => simp
  | some c =>
    rw [Option.filter_some]
    by_cases h : id' = id
    · rw [(notOn_eq_false c).mpr h, if_pos h, if_neg Bool.false_ne_true]
    · have hstays : notOn id id' c = true := by
        rw [← Bool.not_eq_false, notOn_eq_false]
        exact h
      rw [hstays, if_neg h, if_pos rfl]

theorem thins_without {i : Nat} {g : Group} (hg : r.record? i = some g) (id : UInt64)
    (gone : List Client) : Thins (notOn id) i r (r.takeFrom i (g.without id) gone) :=
  thins_takeFrom hg (notOn id) gone

/-- A client that is not in the record need not go. -/
theorem thins_absent {i : Nat} {g : Group} {id : UInt64} (hg : r.record? i = some g)
    (hno : g.clients.find? id = none) : Thins (notOn id) i r r := by
  refine thins_self ?_
  intro g' hg' id' c hc
  rw [hg, Option.some.injEq] at hg'
  subst hg'
  rw [← Bool.not_eq_false, notOn_eq_false]
  rintro rfl
  rw [hno] at hc
  cases hc

/-- There is no record that clients could go from. -/
theorem thins_missing {i : Nat} (h : r.record? i = none) (stays : UInt64 → Client → Bool) :
    Thins stays i r r := by
  refine thins_self ?_
  intro g hg
  rw [h] at hg
  cases hg

theorem thins_takeOut (henv : env.ActBy Aside) (group : String) (i : Nat) (client : Client)
    (r : Registry Ω) : Thins (notOn client.channel.id) i r (r.takeOut env group i client) := by
  unfold takeOut
  split
  · rename_i h
    exact thins_missing h _
  · rename_i g hg
    split
    · rename_i hno
      exact thins_absent hg hno
    · rename_i stored _
      refine (thins_without hg client.channel.id [stored]).spares (Aside.spares ?_ i)
      exact (Aside.logAll _ _).trans (Aside.tolerant.sendLeft henv group i client _)

theorem clientOn?_leave (henv : env.ActBy Aside) (hw : r.WellFormed) (group : String)
    (client : Client) (announce : Bool) (group' : String) (id : UInt64) :
    (r.leave env group client announce).clientOn? group' id =
      if group' = group ∧ id = client.channel.id then none else r.clientOn? group' id := by
  cases hi : r.current? group with
  | none =>
    rw [leave, hi]
    dsimp only
    split
    · rename_i h
      rw [h.1, clientOn?_of_absent hi]
    · rfl
  | some i =>
    let call := Call.leave group client.channel.id
    have hbegun : r.Aside (r.note (.began call)) := .note r rfl
    have hthins := (thins_takeOut henv group i client (r.note (.began call))).spares
      (spares_settleDeparture henv group i announce call _)
    rw [leave_of_current env hi, (Aside.note _ rfl).clientOn?, hthins.clients, hbegun.current?,
      hbegun.clientOn?, filter_notOn]
    by_cases hn : group' = group
    · subst hn
      simp [hi]
    · have hne : r.current? group' ≠ some i := fun h => hn (hw.current_unique h hi)
      simp [hne, hn]

theorem thins_closeIn (henv : env.ActBy Aside) (address : String) (id : UInt64) (i : Nat)
    (r : Registry Ω) : Thins (notOn id) i r (r.closeIn env address id i) := by
  unfold closeIn
  split
  · rename_i h
    exact thins_missing h _
  · rename_i g hg
    split
    · rename_i hno
      exact thins_absent hg hno
    · rename_i stored _
      refine ((thins_without hg id [stored]).spares (Aside.spares ?_ i)).spares
        (spares_settleDeparture henv g.name i true _ _)
      exact (Aside.logAll _ _).trans (Aside.tolerant.sendLeft henv g.name i stored _)

theorem thinsAll_closeIn (henv : env.ActBy Aside) (address : String) (id : UInt64)
    (is : List Nat) (r : Registry Ω) :
    ThinsAll (notOn id) is r (is.foldl (fun r i => r.closeIn env address id i) r) := by
  induction is generalizing r with
  | nil => exact thinsAll_nil _ r
  | cons i rest ih => exact (thins_closeIn henv address id i r).cons (ih _)

theorem clientOn?_channelClosed (henv : env.ActBy Aside) (address : String) (id : UInt64)
    (group : String) (id' : UInt64) :
    (r.channelClosed env address id).1.clientOn? group id' =
      if id' = id then none else r.clientOn? group id' := by
  let start := r.note (.began (.channelClosed id))
  have hclosed : ThinsAll (notOn id) (env.walk.records start.table.values) start _ :=
    thinsAll_closeIn henv address id (env.walk.records r.table.values) start
  have hstart : start.clientOn? group id' = r.clientOn? group id' := rfl
  rw [← filter_notOn, ← hstart, ← hclosed.clientOn? group id']
  exact (Aside.note _ rfl).clientOn? group id'

/-! ## Clients are swept out -/

/-- Those who stay in a sweep. -/
def lively (now limit : UInt64) (_ : UInt64) (c : Client) : Bool := !c.expired now limit

theorem thins_sweepRecord (henv : env.ActBy Aside) (hgentle : r.Gentle) (now : UInt64) (i : Nat) :
    Thins (lively now r.settings.expiry) i r (r.sweepRecord env now i).1 := by
  cases hg : r.record? i with
  | none =>
    rw [sweepRecord_of_missing hg]
    exact thins_missing hg _
  | some g =>
    let limit := r.settings.expiry
    let gone := expiredOf env g now limit
    let taken := r.takeFrom i (g.withoutExpired now limit) gone
    have hthins : Thins (lively now limit) i r taken := thins_takeFrom hg _ gone
    have hdiscarded := (Aside.tolerant.discard henv now g i gone taken).spares i
    have hremoved := spares_removeIfVacant g.name i .sweep (discard env now g i gone taken).1
    obtain ⟨lines, hswept⟩ := hgentle.sweepRecord hg env now
    rw [hswept]
    exact ((hthins.spares hdiscarded).spares hremoved).spares ((Aside.logAll _ lines).spares i)

theorem sweepRecord_returns (hgentle : r.Gentle) (env : Surroundings Ω) (now : UInt64) (i : Nat) :
    ∃ n, (r.sweepRecord env now i).2 = .ok n := by
  cases hg : r.record? i with
  | none => exact ⟨0, congrArg Prod.snd (sweepRecord_of_missing hg env now)⟩
  | some g =>
    obtain ⟨lines, hswept⟩ := hgentle.sweepRecord hg env now
    exact ⟨_, congrArg Prod.snd hswept⟩

theorem thinsAll_sweepAll (henv : env.Quiet) (hgentle : r.Gentle) (now : UInt64) (is : List Nat) :
    ThinsAll (lively now r.settings.expiry) is r (r.sweepAll env now is).1 := by
  induction is generalizing r with
  | nil => exact thinsAll_nil _ r
  | cons i rest ih =>
    obtain ⟨n, hn⟩ := sweepRecord_returns hgentle env now i
    have hsteps : Steps True r (r.sweepRecord env now i).1 :=
      Steps.removing.sweepRecord henv.steps now i r
    have hrest := ih (hsteps.gentle hgentle)
    rw [hsteps.settings] at hrest
    rw [sweepAll, andThen_of_ok hn, fst_andThen_ok]
    exact (thins_sweepRecord henv.aside hgentle now i).cons hrest

/-- When a sweep reads the clock. -/
def sweepTime (env : Surroundings Ω) (r : Registry Ω) : UInt64 :=
  (env.beforeReading (r.note (.began .sweep))).1.clock.now

theorem clientOn?_sweep (henv : env.Quiet) (hgentle : r.Gentle) (group : String) (id : UInt64) :
    (r.sweep env).1.clientOn? group id =
      (r.clientOn? group id).filter (lively (r.sweepTime env) r.settings.expiry id) := by
  let begun := r.note (.began .sweep)
  let read := (env.beforeReading begun).1
  have hread : r.Aside read := (Aside.note r rfl).trans (henv.aside.reading begun)
  have hswept : ThinsAll (lively (r.sweepTime env) read.settings.expiry)
      (env.walk.records read.table.values) read _ :=
    thinsAll_sweepAll henv (hread.gentle hgentle) (r.sweepTime env) _
  rw [← hread.settings, ← hread.clientOn?, ← hswept.clientOn? group id]
  rw [sweep_of_returns (henv.returns begun)]
  exact (Aside.note _ rfl).clientOn? group id

/-! ## Clients register -/

/-- A new group is on the table; the others are as before. -/
theorem group?_addRecord (hw : r.WellFormed) (name : String) (policy : Policy) (group : String) :
    (r.addRecord (Group.new name policy)).group? group =
      if group = name then some (Group.new name policy) else r.group? group := by
  by_cases hn : group = name
  · subst hn
    have hi : (r.addRecord (Group.new group policy)).current? group = some r.records.length :=
      current?_addRecord_self r (Group.new group policy)
    rw [if_pos rfl, group?_of_current hi, record?_addRecord_new]
  · have hi := current?_addRecord_of_ne r (g := Group.new name policy) hn
    rw [if_neg hn]
    cases hj : r.current? group with
    | none =>
      rw [hj] at hi
      simp [group?, hi, hj]
    | some j =>
      obtain ⟨g, hg, -⟩ := hw.recorded group j hj
      rw [hj] at hi
      rw [group?_of_current hi, record?_addRecord_of_some r hg _, group?_of_current hj, hg]

/-- A new group has no clients yet, as if it was not there. -/
theorem clientOn?_addRecord (hw : r.WellFormed) {name : String} (hnew : r.current? name = none)
    (policy : Policy) (group : String) (id : UInt64) :
    (r.addRecord (Group.new name policy)).clientOn? group id = r.clientOn? group id := by
  rw [clientOn?, group?_addRecord hw]
  by_cases hn : group = name
  · subst hn
    rw [if_pos rfl, clientOn?_of_absent hnew]
    rfl
  · rw [if_neg hn]
    rfl

theorem group?_findOrFound (henv : env.ActBy Aside) (hw : r.WellFormed) (q : Registration)
    (group : String) :
    (r.findOrFound env q).1.group? group =
      if group = q.group then some ((r.group? group).getD (Group.new q.group q.policy))
      else r.group? group := by
  have hsend := Aside.tolerant.send henv q.group (.clientJoined q.client q.topics) r
  unfold findOrFound
  split
  · rename_i i hi
    obtain ⟨g, hg, -⟩ := hw.recorded q.group i hi
    by_cases hn : group = q.group
    · subst hn
      simp [group?_of_current hi, hg]
    · rw [if_neg hn]
  · rename_i hnone
    dsimp only
    split
    · rename_i i hi
      rw [hsend.current?, hnone] at hi
      cases hi
    · rw [group?_addRecord (hsend.wellFormed hw), hsend.group?]
      by_cases hn : group = q.group
      · subst hn
        simp [group?, hnone]
      · rw [if_neg hn, if_neg hn]

theorem group?_update (hw : r.WellFormed) {q : Registration} {i : Nat}
    (hi : r.current? q.group = some i) (now : UInt64) (group : String) :
    (r.update q i now).1.group? group =
      if group = q.group then (r.group? group).map fun g => (revised q now g).group
      else r.group? group := by
  obtain ⟨g, hg, -⟩ := hw.recorded q.group i hi
  have hupdate : (r.update q i now).1.group? group =
      (r.setRecord i (revised q now g).group).group? group := by
    unfold update
    rw [hg]
    exact (Aside.logAll _ _).group? group
  rw [hupdate]
  by_cases hn : group = q.group
  · subst hn
    have hi' : (r.setRecord i (revised q now g).group).current? q.group = some i := hi
    rw [if_pos rfl, group?_of_current hi', record?_setRecord_self r hg, group?_of_current hi, hg]
    rfl
  · have hne : r.current? group ≠ some i := fun h => hn (hw.current_unique h hi)
    rw [if_neg hn]
    exact group?_setRecord_of_ne hne _

/-! ## Registrations come through at once -/

theorem settle_of_current {q : Registration} {i : Nat} {changed : Bool}
    (h : r.attempt env q = (s, .ok (i, changed))) (hi : s.current? q.group = some i)
    (spare : Nat) : r.settle env q spare = (s, .ok (i, changed)) := by
  cases spare with
  | zero => exact h
  | succ spare =>
    rw [settle, h, andThen_ok]
    dsimp only
    rw [if_pos ((isCurrent_iff s q.group i).mpr hi)]

/-- The state in which a registration begins its attempts. -/
def started (env : Surroundings Ω) (q : Registration) (r : Registry Ω) : Registry Ω :=
  (env.beforeReading (r.note (.began (.register q.group q.client.channel.id)))).1

/-- When a registration reads the clock for its first attempt. -/
def registerTime (env : Surroundings Ω) (q : Registration) (r : Registry Ω) : UInt64 :=
  ((r.started env q).read env q).clock.now

theorem aside_started (henv : env.ActBy Aside) (q : Registration) (r : Registry Ω) :
    r.Aside (r.started env q) :=
  (Aside.note r rfl).trans (henv.reading _)

theorem aside_read (henv : env.ActBy Aside) (q : Registration) (r : Registry Ω) :
    (r.findOrFound env q).1.Aside (r.read env q) := henv.reading _

theorem current?_read (henv : env.ActBy Aside) (q : Registration) (r : Registry Ω) :
    (r.read env q).current? q.group = some (r.target env q) := by
  rw [(aside_read henv q r).current?]
  exact current?_findOrFound env q r

theorem current?_attempted (henv : env.ActBy Aside) (q : Registration) (r : Registry Ω) :
    (r.attempted env q).1.current? q.group = some (r.target env q) := by
  rw [attempted, current?, table_update]
  exact current?_read henv q r

/-- The first attempt is the last. -/
theorem place_of_quiet (henv : env.Quiet) (q : Registration) (r : Registry Ω) :
    (r.note (.began (.register q.group q.client.channel.id))).place env q =
      (((r.started env q).attempted env q).1, .ok ((r.started env q).clock.now,
        (r.started env q).target env q, ((r.started env q).attempted env q).2)) := by
  have hattempt := (attempt_of_returns (q := q) (henv.returns
    ((r.started env q).findOrFound env q).1)).2
  have hsettle := settle_of_current hattempt (current?_attempted henv.aside q _)
    (env.interruptions (r.started env q).outside)
  unfold place
  rw [readClock_of_returns (henv.returns _), andThen_ok]
  unfold started at hsettle
  rw [hsettle, andThen_ok]
  rfl

/-- A registration is one attempt and what its listeners are told of it. -/
theorem tryRegister_of_quiet (henv : env.Quiet) {q : Registration} (hname : IsName q.group)
    (r : Registry Ω) : r.tryRegister env q =
      let attempted := (r.started env q).attempted env q
      let done := attempted.1.proclaim env q (r.started env q).clock.now
        ((r.started env q).target env q) attempted.2
      (done.1.note .ended, done.2.map .ok) := by
  rw [tryRegister_of_name env hname, registerChecked, place_of_quiet henv, andThen_ok]

theorem wellFormed_read (henv : env.Quiet) (hw : r.WellFormed) {q : Registration}
    (hname : IsName q.group) : (r.read env q).WellFormed := by
  have hfound : Steps True r (r.findOrFound env q).1 :=
    Steps.admitting.findOrFound henv.steps hname r
  exact (aside_read henv.aside q r).wellFormed (hfound.wellFormed hw)

/-- Until a registration updates its record, its group is as it was, or new. -/
theorem group?_read (henv : env.Quiet) (hw : r.WellFormed) (q : Registration) (group : String) :
    ((r.started env q).read env q).group? group =
      if group = q.group then some ((r.group? group).getD (Group.new q.group q.policy))
      else r.group? group := by
  have hstarted := aside_started henv.aside q r
  rw [(aside_read henv.aside q _).group?,
    group?_findOrFound henv.aside (hstarted.wellFormed hw), hstarted.group?]

/-- A new group has no clients, so it does not matter whether a group is new. -/
theorem find?_getD_new (old : Option Group) (name : String) (policy : Policy) (id : UInt64) :
    (old.getD (Group.new name policy)).clients.find? id =
      old.bind fun g => g.clients.find? id := by
  cases old <;> rfl

theorem clientOn?_read (henv : env.Quiet) (hw : r.WellFormed) (q : Registration) (group : String)
    (id : UInt64) :
    ((r.started env q).read env q).clientOn? group id = r.clientOn? group id := by
  rw [clientOn?, group?_read henv hw]
  by_cases hn : group = q.group
  · rw [if_pos hn, Option.bind_some, find?_getD_new]
    rfl
  · rw [if_neg hn]
    rfl

/-- A registration goes into the record of its group, or into a new one. -/
theorem group?_register (henv : env.Quiet) (hw : r.WellFormed) {q : Registration}
    (hname : IsName q.group) (strict : Bool) (group : String) :
    (r.serve env (.register strict q)).group? group =
      if group = q.group then some (revised q (r.registerTime env q)
        ((r.group? group).getD (Group.new q.group q.policy))).group
      else r.group? group := by
  have hws := (aside_started henv.aside q r).wellFormed hw
  have hwr := wellFormed_read henv hws hname
  have hrest := rest_of_register Aside.tolerant henv.aside hname strict r
  rw [place_of_quiet henv q r] at hrest
  rw [hrest.group?, attempted, group?_update hwr (current?_read henv.aside q _),
    group?_read henv hw]
  by_cases hn : group = q.group
  · rw [if_pos hn, if_pos hn, if_pos hn]
    rfl
  · rw [if_neg hn, if_neg hn, if_neg hn]

theorem clientOn?_register (henv : env.Quiet) (hw : r.WellFormed) {q : Registration}
    (hname : IsName q.group) (strict : Bool) (group : String) (id : UInt64) :
    (r.serve env (.register strict q)).clientOn? group id =
      if group = q.group ∧ id = q.client.channel.id then
        some (Group.heardRecord (r.clientOn? group id)
          { q.client with heardAt := r.registerTime env q })
      else r.clientOn? group id := by
  rw [clientOn?, group?_register henv hw hname]
  by_cases hn : group = q.group
  · rw [if_pos hn, Option.bind_some]
    by_cases hid : id = q.client.channel.id
    · subst hid
      rw [find?_revised_self, find?_getD_new, if_pos ⟨hn, rfl⟩]
      rfl
    · rw [find?_revised_of_ne q _ _ hid, find?_getD_new, if_neg (fun h => hid h.2)]
      rfl
  · rw [if_neg hn, if_neg (fun h => hn h.1)]
    rfl

/-- A name with a flaw is at most logged. -/
theorem serve_of_flaw (env : Surroundings Ω) {q : Registration} (h : ¬ IsName q.group)
    (strict : Bool) (r : Registry Ω) :
    ∃ lines, r.serve env (.register strict q) = r.logAll lines := by
  obtain ⟨lines, hserve⟩ := serve_register env strict q r
  cases hcheck : checkName q.group with
  | error flaw => exact ⟨lines, by rw [hserve, tryRegister_of_flaw env q r hcheck]⟩
  | ok _ => exact absurd (checkName_eq_ok_iff.mp hcheck) h

theorem aside_of_flaw {q : Registration} (h : ¬ IsName q.group) (strict : Bool) :
    r.Aside (r.serve env (.register strict q)) := by
  obtain ⟨lines, hserve⟩ := serve_of_flaw env h strict r
  rw [hserve]
  exact .logAll r lines

end ConsumerGroups.Registry
