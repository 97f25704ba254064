-- Closing a channel and sweeping are thorough. Both walk the records that are on the table when
-- they begin, and while they do, whoever is told of it may retire these records, refill them, or
-- found groups that the walk does not come by. All the same nobody is left who should have gone: a
-- record that was gone through stays clear, and what comes onto the table later is clear from the
-- start.
import ConsumerGroups.Proofs.Own

set_option autoImplicit false

namespace ConsumerGroups

namespace Registry

variable {Ω : Type} {env : Surroundings Ω} {r s t : Registry Ω} {unwanted : UInt64 → Client → Prop}

/-! ## Clear records -/

/-- There is no unwanted client in a record. -/
def Clear (unwanted : UInt64 → Client → Prop) (r : Registry Ω) (i : Nat) : Prop :=
  ∀ g id c, r.record? i = some g → g.clients.find? id = some c → ¬ unwanted id c

/-- Between two states, no unwanted client came into a clear record, and what came onto the table
is clear. -/
structure KeepsOut (unwanted : UInt64 → Client → Prop) (r s : Registry Ω) : Prop where
  clear : ∀ i, Clear unwanted r i → Clear unwanted s i
  arrived : ∀ group i, s.current? group = some i →
    r.current? group = some i ∨ Clear unwanted s i

namespace KeepsOut

theorem trans (h : KeepsOut unwanted r s) (h' : KeepsOut unwanted s t) :
    KeepsOut unwanted r t := by
  refine ⟨fun i hi => h'.clear i (h.clear i hi), ?_⟩
  intro group i hi
  rcases h'.arrived group i hi with hi | hclear
  · exact (h.arrived group i hi).imp_right (h'.clear i)
  · exact .inr hclear

theorem aside (h : r.Aside s) : KeepsOut unwanted r s := by
  refine ⟨?_, ?_⟩
  · intro i hi g id c hg
    rw [h.record?] at hg
    exact hi g id c hg
  · intro group i hi
    rw [h.current?] at hi
    exact .inl hi

/-- One record is put in the place of another. -/
theorem setRecord {i : Nat} {g left : Group} (hg : r.record? i = some g)
    (hrecords : ∀ j, s.record? j = (r.setRecord i left).record? j)
    (hcurrent : ∀ group, s.current? group = r.current? group)
    (hclients : ∀ id c, left.clients.find? id = some c →
      g.clients.find? id = some c ∨ ¬ unwanted id c) : KeepsOut unwanted r s := by
  refine ⟨?_, ?_⟩
  · intro j hj g' id c hg' hc
    rw [hrecords] at hg'
    rcases record?_of_setRecord hg hg' with ⟨rfl, rfl⟩ | ⟨-, hg'⟩
    · rcases hclients id c hc with hc | hwanted
      · exact hj g id c hg hc
      · exact hwanted
    · exact hj g' id c hg' hc
  · intro group j hj
    rw [hcurrent] at hj
    exact .inl hj

theorem release {i : Nat} {g : Group} (hg : r.record? i = some g)
    (stays : UInt64 → Client → Bool) (gone : List Client) :
    KeepsOut unwanted r (r.takeFrom i { g with clients := g.clients.filter stays } gone) := by
  refine setRecord hg (fun _ => rfl) (fun _ => rfl) ?_
  intro id c hc
  rw [Table.find?_filter, Option.filter_eq_some_iff] at hc
  exact .inl hc.1

theorem revise {i : Nat} {g : Group} {q : Registration} {now : UInt64}
    (hg : r.record? i = some g) (hq : ∀ old, ¬ unwanted q.client.channel.id
      (Group.heardRecord old { q.client with heardAt := now })) :
    KeepsOut unwanted r (r.setRecord i (revised q now g).group) := by
  refine setRecord hg (fun _ => rfl) (fun _ => rfl) ?_
  intro id c hc
  by_cases hid : id = q.client.channel.id
  · subst hid
    rw [find?_revised_self, Option.some.injEq] at hc
    rw [← hc]
    exact .inr (hq _)
  · rw [find?_revised_of_ne q now g hid] at hc
    exact .inl hc

theorem found {name : String} (policy : Policy) (hnew : r.current? name = none) :
    KeepsOut unwanted r (r.addRecord (Group.new name policy)) := by
  have hempty : ∀ id c, (Group.new name policy).clients.find? id ≠ some c := by
    intro id c hc
    cases hc
  refine ⟨?_, ?_⟩
  · intro i hi g id c hg hc
    rcases record?_of_addRecord hg with hg | ⟨-, rfl⟩
    · exact hi g id c hg hc
    · exact absurd hc (hempty id c)
  · intro group i hi
    by_cases hn : group = name
    · subst hn
      have hself := current?_addRecord_self r (Group.new group policy)
      rw [show (Group.new group policy).name = group from rfl, hi, Option.some.injEq] at hself
      subst hself
      right
      intro g id c hg hc
      rw [record?_addRecord_new, Option.some.injEq] at hg
      subst hg
      exact absurd hc (hempty id c)
    · rw [current?_addRecord_of_ne r hn] at hi
      exact .inl hi

theorem unmap (group : String) (i : Nat) (last : Group) (call : Call) :
    KeepsOut unwanted r (r.removeRecord group i last call) := by
  refine ⟨fun _ h => h, ?_⟩
  intro group' j hj
  by_cases hn : group' = group
  · subst hn
    rw [current?_removeRecord] at hj
    cases hj
  · rw [current?_removeRecord_of_ne r hn] at hj
    exact .inl hj

end KeepsOut

/-- Records are gone through, and afterwards they are clear. -/
structure Clears (unwanted : UInt64 → Client → Prop) (is : List Nat) (r s : Registry Ω) : Prop
    extends KeepsOut unwanted r s where
  cleared : ∀ i ∈ is, Clear unwanted s i

theorem clears_nil (r : Registry Ω) : Clears unwanted [] r r :=
  ⟨.aside (.refl r), fun i hi => by cases hi⟩

theorem Clears.cons {i : Nat} {is : List Nat} (h : KeepsOut unwanted r s)
    (hi : Clear unwanted s i) (h' : Clears unwanted is s t) : Clears unwanted (i :: is) r t := by
  refine ⟨h.trans h'.toKeepsOut, ?_⟩
  intro j hj
  rcases List.mem_cons.mp hj with rfl | hj
  · exact h'.clear j hi
  · exact h'.cleared j hj

/-- When the whole table was gone through, everything on the table is clear. -/
theorem Clears.all {is : List Nat} (h : Clears unwanted is r s)
    (hall : ∀ group i, r.current? group = some i → i ∈ is) {group : String} {g : Group}
    {id : UInt64} {c : Client} (hg : s.group? group = some g) (hc : g.clients.find? id = some c) :
    ¬ unwanted id c := by
  obtain ⟨i, hi, hg⟩ := Option.bind_eq_some_iff.mp hg
  rcases h.arrived group i hi with hi | hclear
  · exact h.cleared i (hall group i hi) g id c hg hc
  · exact hclear g id c hg hc

end Registry

/-! ## A channel that closes -/

/-- How many registrations of the client on a channel have begun. -/
def registrationsOn (id : UInt64) (journal : List Entry) : Nat :=
  journal.countP fun
    | .began (.register _ id') => id' == id
    | _ => false

theorem registrationsOn_append (id : UInt64) (es before : List Entry) :
    registrationsOn id (es ++ before) = registrationsOn id es + registrationsOn id before :=
  List.countP_append

theorem registrationsOn_eq_zero_iff {id : UInt64} {es : List Entry} :
    registrationsOn id es = 0 ↔ ∀ group, .began (.register group id) ∉ es := by
  rw [registrationsOn, List.countP_eq_zero]
  constructor
  · intro h group hmem
    exact h _ hmem (beq_self_eq_true id)
  · intro h e he
    split
    · rename_i group id'
      rw [beq_iff_eq]
      rintro rfl
      exact h group he
    · exact Bool.false_ne_true

namespace Registry

variable {Ω : Type} {env : Surroundings Ω} {r s t : Registry Ω} {id : UInt64}

/-- The client on a channel. -/
abbrev On (id : UInt64) : UInt64 → Client → Prop := fun id' _ => id' = id

/-- Between two states, registrations of a client are noted, and when there is none the client comes
into no record. -/
structure Bars (id : UInt64) (r s : Registry Ω) : Prop where
  noted : registrationsOn id r.journal ≤ registrationsOn id s.journal
  keepsOut : registrationsOn id s.journal = registrationsOn id r.journal →
    KeepsOut (On id) r s

theorem Bars.of_journal (es : List Entry) (hj : s.journal = es ++ r.journal)
    (h : KeepsOut (On id) r s) : Bars id r s := by
  refine ⟨?_, fun _ => h⟩
  rw [hj, registrationsOn_append]
  exact Nat.le_add_left _ _

/-- When none is noted in the end, none was noted halfway. -/
theorem Bars.halfway (h : Bars id r s) (h' : Bars id s t)
    (hnone : registrationsOn id t.journal = registrationsOn id r.journal) :
    registrationsOn id s.journal = registrationsOn id r.journal ∧
      registrationsOn id t.journal = registrationsOn id s.journal := by
  have hnoted := h.noted
  have hnoted' := h'.noted
  omega

theorem Bars.tolerant : Tolerant (Bars (Ω := Ω) id) where
  aside := by
    intro r s h _ _
    obtain ⟨es, hes, -⟩ := h.journal
    exact .of_journal es hes (.aside h)
  trans := by
    intro r s t h h'
    refine ⟨Nat.le_trans h.noted h'.noted, ?_⟩
    intro hnone
    obtain ⟨hfirst, hsecond⟩ := h.halfway h' hnone
    exact (h.keepsOut hfirst).trans (h'.keepsOut hsecond)

theorem Bars.admitting : Admitting (fun q => q.client.channel.id ≠ id) (Bars (Ω := Ω) id) where
  toTolerant := Bars.tolerant
  release := fun hg _ => .of_journal _ rfl (.release hg _ _)
  unmap := fun call _ _ _ => .of_journal [_] rfl (.unmap _ _ _ call)
  found := fun policy _ hnew => .of_journal [_] rfl (.found policy hnew)
  revise := fun hq hg => .of_journal [] rfl (.revise hg fun _ => hq)

/-- A registration of the client itself is noted. -/
theorem bars_tryRegister (henv : env.ActBy (Bars id)) (hsteps : env.ActBy (Steps False))
    (q : Registration) (r : Registry Ω) : Bars id r (r.tryRegister env q).1 := by
  by_cases hid : q.client.channel.id = id
  · unfold tryRegister
    split
    · exact Bars.tolerant.refl r
    · rename_i hname
      let begun := r.note (.began (.register q.group q.client.channel.id))
      have hchecked : Steps False begun (begun.registerChecked env q).1 :=
        Steps.admitting.registerChecked hsteps (checkName_eq_ok_iff.mp hname)
          (fun hc => hc.elim) begun
      obtain ⟨es, hes⟩ := hchecked.journal
      have hbegun : registrationsOn id begun.journal = registrationsOn id r.journal + 1 :=
        List.countP_cons_of_pos (by simpa using hid)
      have hmore : registrationsOn id r.journal <
          registrationsOn id (.ended :: (begun.registerChecked env q).1.journal) := by
        rw [← List.singleton_append, registrationsOn_append, ← hes, registrationsOn_append, hbegun]
        omega
      exact ⟨Nat.le_of_lt hmore, fun hnone => absurd hnone (Nat.ne_of_gt hmore)⟩
  · exact Bars.admitting.tryRegister henv hid r

/-- Whatever others ask for, a client comes into a record by a registration of its own only. -/
theorem Served.bars (h : Served False r s) (id : UInt64) : Bars id r s := by
  induction h with
  | nothing r => exact Bars.tolerant.refl r
  | beside clock wires lines outside _ ih =>
    obtain ⟨es, hes, -⟩ := (aside_beside _ clock wires lines outside).journal
    exact Bars.tolerant.trans ih (.of_journal es hes (.aside (aside_beside ..)))
  | @request r s env request _ reading listener _ _ ih ihreading ihlistener =>
    have henv : env.ActBy (Bars id) := ⟨ihreading, ihlistener⟩
    have hsteps : env.ActBy (Steps False) :=
      ⟨fun t => (reading t).steps, fun l group event t => (listener l group event t).steps⟩
    refine Bars.tolerant.trans ih ?_
    cases request with
    | register strict q =>
      obtain ⟨lines, hserve⟩ := serve_register env strict q s
      rw [hserve]
      exact Bars.tolerant.trans (bars_tryRegister henv hsteps q s) (Bars.tolerant.logAll _ lines)
    | leave group client announce => exact Bars.admitting.leave henv group client announce s
    | channelClosed address id => exact Bars.admitting.channelClosed henv address id s
    | sweep => exact Bars.admitting.sweep henv s
    | addListener l => exact Bars.of_journal [] rfl (.aside (.addListener s l))
    | setClock clock => exact Bars.of_journal [] rfl (.aside (.setClock s clock))

theorem clear_closeIn (henv : env.ActBy (Bars id)) (address : String) (i : Nat) (r : Registry Ω)
    (hnone : registrationsOn id (r.closeIn env address id i).journal =
      registrationsOn id r.journal) : Clear (On id) (r.closeIn env address id i) i := by
  unfold closeIn at hnone ⊢
  split at hnone
  · rename_i hg
    intro g id' c hg'
    rw [hg] at hg'
    cases hg'
  · rename_i g hg
    split at hnone
    · rename_i hc
      rintro g' id' c hg' hc' rfl
      rw [hg, Option.some.injEq] at hg'
      rw [hg', hc'] at hc
      cases hc
    · rename_i stored hs
      let taken := (r.takeFrom i (g.without id) [stored]).logAll [g.closedLine address stored]
      have hrest := Bars.tolerant.trans (Bars.tolerant.sendLeft henv g.name i stored taken)
        (Bars.admitting.settleDeparture henv g.name i true (.channelClosed id) _)
      refine (hrest.keepsOut hnone).clear i ?_
      rintro g' id' c hg' hc rfl
      have hleft : taken.record? i = some (g.without id') := record?_setRecord_self r hg _
      rw [hleft, Option.some.injEq] at hg'
      rw [← hg', Group.without, Table.find?_erase_self] at hc
      cases hc

theorem clears_closeInAll (henv : env.ActBy (Bars id)) (address : String) (is : List Nat)
    (r : Registry Ω)
    (hnone : registrationsOn id (is.foldl (fun r i => r.closeIn env address id i) r).journal =
      registrationsOn id r.journal) :
    Clears (On id) is r (is.foldl (fun r i => r.closeIn env address id i) r) := by
  induction is generalizing r with
  | nil => exact clears_nil r
  | cons i rest ih =>
    have hfirst := Bars.admitting.closeIn henv address id i r
    obtain ⟨hmid, hlast⟩ := hfirst.halfway
      (Bars.admitting.closeInAll henv address id rest (r.closeIn env address id i)) hnone
    exact .cons (hfirst.keepsOut hmid) (clear_closeIn henv address i r hmid) (ih _ hlast)

/-- When a channel has closed its client is in no group, unless it has registered meanwhile. -/
theorem gone_after_close (henv : env.ActBy (Served False)) (address : String) (id : UInt64)
    (r : Registry Ω) :
    ∃ entries, (r.channelClosed env address id).1.journal = entries ++ r.journal ∧
      ((∀ group, .began (.register group id) ∉ entries) →
        ∀ group, (r.channelClosed env address id).1.clientOn? group id = none) := by
  have hbars : env.ActBy (Bars id) := henv.mono fun _ _ h => h.bars id
  have hsteps : env.ActBy (Steps False) := henv.mono fun _ _ h => h.steps
  obtain ⟨entries, hentries⟩ := (Steps.removing.channelClosed hsteps address id r).journal
  refine ⟨entries, hentries.symm, ?_⟩
  intro hnone group
  let begun := r.note (.began (.channelClosed id))
  let walk := env.walk.records r.table.values
  have hcount : registrationsOn id
      (walk.foldl (fun r i => r.closeIn env address id i) begun).journal =
      registrationsOn id begun.journal := by
    have hall : registrationsOn id (r.channelClosed env address id).1.journal =
        registrationsOn id r.journal := by
      rw [← hentries, registrationsOn_append, registrationsOn_eq_zero_iff.mpr hnone, Nat.zero_add]
    exact hall
  have hclears := clears_closeInAll hbars address walk begun hcount
  refine Option.eq_none_iff_forall_ne_some.mpr ?_
  intro c hc
  obtain ⟨g, hg, hc⟩ := Option.bind_eq_some_iff.mp hc
  exact hclears.all (fun _ _ hi => mem_walk env hi) hg hc rfl

/-! ## A sweep -/

/-- The clients that were silent for too long at a time. -/
abbrev Expired (now limit : UInt64) : UInt64 → Client → Prop :=
  fun _ c => c.expired now limit = true

/-- The clock shows this time or a later one, and this is how long clients may be silent. -/
structure AsOf (now limit : UInt64) (r : Registry Ω) : Prop where
  clock : now ≤ r.clock.now
  expiry : r.settings.expiry = limit

/-- From this time on the clock does not go back, and no one who had expired at this time comes into
a record. -/
def Renews (now limit : UInt64) (r s : Registry Ω) : Prop :=
  AsOf now limit r → AsOf now limit s ∧ KeepsOut (Expired now limit) r s

variable {now limit : UInt64}

theorem Renews.tolerant : Tolerant (Renews (Ω := Ω) now limit) where
  aside := by
    intro r s h _ hclock hr
    refine ⟨⟨?_, ?_⟩, .aside h⟩
    · rw [hclock]
      exact hr.clock
    · rw [h.settings]
      exact hr.expiry
  trans := by
    intro r s t h h' hr
    obtain ⟨hs, hfirst⟩ := h hr
    obtain ⟨ht, hsecond⟩ := h' hs
    exact ⟨ht, hfirst.trans hsecond⟩

/-- A client that was just heard of has not expired. -/
theorem not_expired_heardRecord {clock : UInt64} (h : now ≤ clock) (q : Registration)
    (old : Option Client) : ¬ Expired now limit q.client.channel.id
      (Group.heardRecord old { q.client with heardAt := clock }) := by
  unfold Expired
  rw [Client.expired_iff, (heardRecord_claims old _).2,
    Nat.sub_eq_zero_of_le (UInt64.le_iff_toNat_le.mp h)]
  exact Nat.not_lt_zero _

theorem Renews.admitting : Admitting (fun _ => True) (Renews (Ω := Ω) now limit) where
  toTolerant := Renews.tolerant
  release := fun hg _ hr => ⟨⟨hr.clock, hr.expiry⟩, .release hg _ _⟩
  unmap := fun call _ _ _ hr => ⟨⟨hr.clock, hr.expiry⟩, .unmap _ _ _ call⟩
  found := fun policy _ hnew hr => ⟨⟨hr.clock, hr.expiry⟩, .found policy hnew⟩
  revise := fun _ hg hr =>
    ⟨⟨hr.clock, hr.expiry⟩, .revise hg (not_expired_heardRecord hr.clock _)⟩

/-- A registry before and after others attended to it for a while, in which the clock was never set
back, no channel came in that panics when it is told to close, and every reading returned. -/
inductive Onward : Registry Ω → Registry Ω → Prop where
  | nothing (r : Registry Ω) : Onward r r
  | beside {r s : Registry Ω} (clock : Clock) (wires : Table String Wire) (lines : List LogLine)
      (outside : Ω) (h : Onward r s) (hforward : s.clock.now ≤ clock.now) :
      Onward r (s.beside clock wires lines outside)
  | request {r s : Registry Ω} {env : Surroundings Ω} {request : Request} (h : Onward r s)
      (reading : ∀ t, Onward t (env.beforeReading t).1)
      (listener : ∀ l group event t, Onward t (env.listener l group event t).1)
      (returns : ∀ t, (env.beforeReading t).2 = .ok ()) (ends : env.Bounded)
      (hcalm : request.IsCalm)
      (hforward : ∀ clock, request = .setClock clock → s.clock.now ≤ clock.now) :
      Onward r (s.serve env request)

theorem Onward.attended (h : Onward r s) : Attended False r s := by
  induction h with
  | nothing r => exact .nothing r
  | beside clock wires lines outside _ _ ih => exact .beside clock wires lines outside ih
  | request _ _ _ _ ends _ _ ih reading listener =>
    exact .request ih reading listener (fun hc => hc.elim) ends

theorem Onward.served {calm : Prop} (h : Onward r s) : Served calm r s := by
  induction h with
  | nothing r => exact .nothing r
  | beside clock wires lines outside _ _ ih => exact .beside clock wires lines outside ih
  | request _ _ _ returns _ hcalm _ ih reading listener =>
    exact .request ih reading listener (fun _ => returns) (fun _ => hcalm)

theorem Onward.renews (h : Onward r s) (now limit : UInt64) : Renews now limit r s := by
  induction h with
  | nothing r => exact Renews.tolerant.refl r
  | beside clock wires lines outside _ hforward ih =>
    refine Renews.tolerant.trans ih ?_
    exact fun hs => ⟨⟨UInt64.le_trans hs.clock hforward, hs.expiry⟩, .aside (aside_beside ..)⟩
  | @request r s env request _ _ _ _ _ _ hforward ih reading listener =>
    refine Renews.tolerant.trans ih ?_
    refine Renews.admitting.serve ⟨reading, listener⟩ (fun _ _ _ => trivial) ?_
    intro clock hclock hs
    have hlater := UInt64.le_trans hs.clock (hforward clock hclock)
    exact ⟨⟨hlater, hs.expiry⟩, .aside (.setClock s clock)⟩

theorem clear_sweepRecord (henv : env.ActBy (Renews now limit)) (hr : AsOf now limit r) (i : Nat) :
    Clear (Expired now limit) (r.sweepRecord env now i).1 i := by
  cases hg : r.record? i with
  | none =>
    rw [sweepRecord_of_missing hg]
    intro g id c hg'
    rw [hg] at hg'
    cases hg'
  | some g =>
    rw [sweepRecord_of_some hg, hr.expiry]
    let gone := expiredOf env g now limit
    let taken := r.takeFrom i (g.withoutExpired now limit) gone
    have hclear : Clear (Expired now limit) taken i := by
      intro g' id c hg' hc
      have hleft : taken.record? i = some (g.withoutExpired now limit) :=
        record?_setRecord_self r hg _
      rw [hleft, Option.some.injEq] at hg'
      rw [← hg', Group.withoutExpired, Table.find?_filter, Option.filter_eq_some_iff] at hc
      simpa using hc.2
    have hdiscarded : Renews now limit taken (taken.discard env now g i gone).1 :=
      Renews.tolerant.discard henv now g i gone taken
    refine ((Renews.tolerant.andThen hdiscarded ?_) ⟨hr.clock, hr.expiry⟩).2.clear i hclear
    intro s n _
    have hremoved : Renews now limit s (s.removeIfVacant g.name i .sweep).1 :=
      Renews.admitting.removeIfVacant g.name i .sweep s
    exact Renews.tolerant.trans hremoved (Renews.tolerant.logAll _ _)

theorem clears_sweepAll (henv : env.ActBy (Renews now limit)) {n : Nat} (is : List Nat)
    (hr : AsOf now limit r) (hn : (r.sweepAll env now is).2 = .ok n) :
    Clears (Expired now limit) is r (r.sweepAll env now is).1 := by
  induction is generalizing r n with
  | nil => exact clears_nil r
  | cons i rest ih =>
    obtain ⟨hs, hfirst⟩ := Renews.admitting.sweepRecord henv now i r hr
    have hclear := clear_sweepRecord henv hr i
    obtain ⟨s, m, k, hswept, hrest, -, hdone⟩ := sweepAll_cons_of_ok hn
    rw [hswept] at hs hfirst hclear
    rw [hdone]
    exact .cons hfirst hclear (ih hs hrest)

/-- After a sweep that returned, no one is in a group who had expired at its reading. -/
theorem fresh_after_sweep (henv : env.ActBy Onward) {n : Nat}
    (hreturns : (env.beforeReading (r.note (.began .sweep))).2 = .ok ())
    (hn : (r.sweep env).2 = .ok n) {group : String} {g : Group} {id : UInt64} {c : Client}
    (hg : (r.sweep env).1.group? group = some g) (hc : g.clients.find? id = some c) :
    elapsed (env.beforeReading (r.note (.began .sweep))).1.clock.now c.heardAt ≤
      r.settings.expiry := by
  let read := (env.beforeReading (r.note (.began .sweep))).1
  have hsteps : Steps True (r.note (.began .sweep)) read := (henv.reading _).served.steps
  have hsettings : read.settings.expiry = r.settings.expiry := by
    rw [hsteps.settings]
    rfl
  rw [sweep_of_returns hreturns] at hn hg
  have hclears := clears_sweepAll (henv.mono fun _ _ h => h.renews read.clock.now r.settings.expiry)
    (env.walk.records read.table.values) ⟨UInt64.le_refl _, hsettings⟩ hn
  have hkept : ¬ c.expired read.clock.now r.settings.expiry = true :=
    hclears.all (fun _ _ hi => mem_walk env hi) hg hc
  rw [Client.expired, decide_eq_true_iff] at hkept
  exact UInt64.not_lt.mp hkept

/-! ## Nobody is left who should have gone -/

/-- Whatever listeners ask for meanwhile, when a channel has closed its client is in no group unless
it has registered since. And when a sweep is over, and nobody has set the clock back, no one is in a
group who had expired at the reading of the sweep; the sweep returns how many clients it has taken
out itself, and it has told the listeners as many times itself that a client left. -/
theorem closing_and_sweeping_are_thorough {settings : Settings} {listeners : List Nat}
    {clock : Clock} {measured : Bool} {outside : Ω}
    (h : Attended False (Registry.new settings listeners clock measured outside) r)
    (env : Surroundings Ω) :
    (env.ActBy (Served False) → ∀ address id, ∃ entries,
      (r.channelClosed env address id).1.journal = entries ++ r.journal ∧
        ((∀ group, .began (.register group id) ∉ entries) →
          ∀ group, (r.channelClosed env address id).1.clientOn? group id = none)) ∧
    (env.ActBy Onward → env.Bounded → (∀ t, (env.beforeReading t).2 = .ok ()) → r.Gentle →
      ∃ now n entries, ((r.note (.began .sweep)).readClock env).2 = .ok now ∧
        (r.sweep env).2 = .ok n ∧
        (r.sweep env).1.journal = .ended :: (entries ++ .began .sweep :: r.journal) ∧
        Balanced entries ∧ (own entries).countP Entry.isRemoval = n ∧
        (own entries).countP Entry.isDeparture = n ∧
        ∀ group g id c, (r.sweep env).1.group? group = some g → g.clients.find? id = some c →
          elapsed now c.heardAt ≤ r.settings.expiry) := by
  have hnew : (Registry.new settings listeners clock measured outside).Kept False :=
    kept_new settings listeners clock measured outside
  have hr : r.Kept False := (h.course hnew none).kept hnew
  refine ⟨fun henv address id => gone_after_close henv address id r, ?_⟩
  intro henv hends hreturns hgentle
  have hsteps : env.ActBy (Steps True) := henv.mono fun _ _ h => h.served.steps
  have horderly : env.Orderly False :=
    ⟨henv.mono fun _ _ h => h.attended.course, henv.mono fun _ _ h => h.attended.steps,
      fun hc => hc.elim, hends⟩
  obtain ⟨n, entries, hn, hjournal, hbalanced, hremovals, hdepartures⟩ :=
    tallies_sweep horderly hsteps (hreturns _) hgentle hr
  refine ⟨(env.beforeReading (r.note (.began .sweep))).1.clock.now, n, entries, ?_, hn, hjournal,
    hbalanced, hremovals, hdepartures, ?_⟩
  · exact congrArg Prod.snd (readClock_of_returns (hreturns _))
  · exact fun _ _ _ _ hg hc => fresh_after_sweep henv (hreturns _) hn hg hc

theorem onward_still {requests : List Request}
    (hrequests : ∀ request ∈ requests, request.IsCalm ∧ ∀ clock, request ≠ .setClock clock)
    (h : Onward r s) : Onward r (s.serveAll (.still Ω) requests) := by
  induction requests generalizing s with
  | nil => exact h
  | cons request rest ih =>
    obtain ⟨hcalm, hclock⟩ := hrequests request List.mem_cons_self
    refine ih (fun request' h' => hrequests request' (List.mem_cons_of_mem request h')) ?_
    refine .request h ?_ ?_ (fun _ => rfl) (Surroundings.bounded_still Ω) hcalm ?_
    · exact fun t => .nothing t
    · exact fun _ _ _ t => .nothing t
    · exact fun clock h => absurd h (hclock clock)

/-- Whenever a client leaves, one registers with the group. -/
def comingBack : Nat → Event → List Request
  | _, .clientLeft .. => [.register true (.sample "g" 7)]
  | _, _ => []

/-- Two clients of a group were silent for a long time. -/
def silentPair : Registry Unit :=
  (Registry.new default [0] default false ()).serveAll (.still Unit)
    [.register true (.sample "g" 7), .register true (.sample "g" 8), .setClock ⟨200000⟩]

theorem gentle_silentPair : silentPair.Gentle := by
  have hpair : Onward (Registry.new default [0] default false ())
      ((Registry.new default [0] default false ()).serveAll (.still Unit)
        [.register true (.sample "g" 7), .register true (.sample "g" 8)]) := by
    refine onward_still ?_ (.nothing _)
    simp [Request.IsCalm, Registration.sample, Client.new]
  have hgentle := hpair.served.steps.gentle (gentle_new default [0] default false ())
  exact (Aside.setClock _ ⟨200000⟩).gentle hgentle

theorem onward_comingBack : (Surroundings.asking comingBack).ActBy Onward := by
  refine ⟨fun t => .nothing t, fun l _ event t => ?_⟩
  refine onward_still ?_ (.nothing t)
  cases event with
  | clientLeft => simp [comingBack, Request.IsCalm, Registration.sample, Client.new]
  | _ => simp [comingBack]

/-- Both clients of a group expire, and one of them registers again while the sweep tells of it. -/
theorem a_client_comes_back_during_a_sweep :
    Attended False (Registry.new default [0] default false ()) silentPair ∧
    (silentPair.channelClosed (.asking comingBack) "there" 8).1.clientOn? "g" 8 = none ∧
    (silentPair.sweep (.asking comingBack)).2 = .ok 2 ∧
    (∃ entries, (silentPair.sweep (.asking comingBack)).1.journal =
        .ended :: (entries ++ .began .sweep :: silentPair.journal) ∧
      (own entries).countP Entry.isRemoval = 2 ∧ (own entries).countP Entry.isDeparture = 2) ∧
    ((silentPair.sweep (.asking comingBack)).1.clientOn? "g" 7).map (·.heardAt) = some 200000 ∧
    ∀ group g id c, (silentPair.sweep (.asking comingBack)).1.group? group = some g →
      g.clients.find? id = some c → elapsed 200000 c.heardAt ≤ silentPair.settings.expiry := by
  have hattended : Attended False (Registry.new default [0] default false ()) silentPair :=
    attended_still _ (.nothing _)
  obtain ⟨hclosed, hswept⟩ := closing_and_sweeping_are_thorough hattended (.asking comingBack)
  obtain ⟨entries, hentries, hgone⟩ :=
    hclosed (onward_comingBack.mono fun _ _ h => h.served) "there" 8
  obtain ⟨now, n, entries', hnow, hn, hjournal, -, hremovals, hdepartures, hfresh⟩ :=
    hswept onward_comingBack (Surroundings.bounded_asking comingBack) (fun _ => rfl)
      gentle_silentPair
  have htwo : (silentPair.sweep (.asking comingBack)).2 = .ok 2 := by rfl
  have hnow' : ((silentPair.note (.began .sweep)).readClock (.asking comingBack)).2 =
      .ok 200000 := by rfl
  obtain rfl : now = 200000 := by
    rw [hnow, Except.ok.injEq] at hnow'
    exact hnow'
  obtain rfl : n = 2 := by
    rw [hn, Except.ok.injEq] at htwo
    exact htwo
  refine ⟨hattended, hgone ?_ "g", hn, ⟨entries', hjournal, hremovals, hdepartures⟩, by rfl, hfresh⟩
  have hafter : registrationsOn 8
      (silentPair.channelClosed (.asking comingBack) "there" 8).1.journal = 1 := by rfl
  have hbefore : registrationsOn 8 silentPair.journal = 1 := by rfl
  rw [hentries, registrationsOn_append, hbefore] at hafter
  exact registrationsOn_eq_zero_iff.mp (by omega)

end Registry

end ConsumerGroups
