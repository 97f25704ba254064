-- The order in which tables are walked does not matter. A closed channel and a sweep go through the
-- table of groups, and a sweep also through the channels of each group. Whatever the order, they
-- come to the same records and the same table, give the same answer and tell the same wires to
-- close as often, also those that several clients share; and of each group the same is told.
import Mathlib.Data.List.Perm.Basic
import ConsumerGroups.Proofs.Apart
import ConsumerGroups.Proofs.Wires

set_option autoImplicit false

namespace ConsumerGroups

/-- A request that walks the table of groups. -/
def Request.Walks : Request → Prop
  | .channelClosed .. => True
  | .sweep => True
  | _ => False

/-! ## Wires closed in another order -/

/-- How a wire takes it that it is told to close does not depend on anything else. -/
theorem Wire.closeQuietly_congr (w : Wire) {c c' : Channel} (h : c.closing = c'.closing) :
    (w.closeQuietly c).1 = (w.closeQuietly c').1 := by
  unfold closeQuietly close
  rw [h]
  split
  · cases c'.closing <;> rfl
  · rfl

namespace Registry

variable {Ω : Type} {env : Surroundings Ω} {r s s' : Registry Ω}

theorem closeOn_comm (wires : Table String Wire) {c c' : Channel}
    (h : c.key = c'.key → c.closing = c'.closing) :
    closeOn (closeOn wires c) c' = closeOn (closeOn wires c') c := by
  unfold closeOn
  by_cases hkey : c.key = c'.key
  · -- the same wire is told twice, and takes it in the same way
    have hsame : ∀ w : Wire, (w.closeQuietly c).1 = (w.closeQuietly c').1 := fun w =>
      w.closeQuietly_congr (h hkey)
    rw [← hkey, Table.insert_insert_self, Table.insert_insert_self, Table.find?_insert_self,
      Table.find?_insert_self]
    simp only [hsame]
  · rw [Table.find?_insert_of_ne _ _ (Ne.symm hkey), Table.find?_insert_of_ne _ _ hkey,
      Table.insert_comm _ _ _ hkey]

/-- In which order wires are told to close does not matter, as long as clients with the same wire
agree on how it closes. -/
theorem foldl_closeOn_perm {cs cs' : List Client} (hperm : cs.Perm cs')
    (h : ∀ c ∈ cs, ∀ c' ∈ cs, c.channel.key = c'.channel.key →
      c.channel.closing = c'.channel.closing) (wires : Table String Wire) :
    cs'.foldl (fun wires c => closeOn wires c.channel) wires =
      cs.foldl (fun wires c => closeOn wires c.channel) wires := by
  refine (hperm.foldl_eq' ?_ wires).symm
  intro c hc c' hc' wires
  exact closeOn_comm wires (h c hc c' hc')

/-- The clients of all groups agree on how the wires close that they share. -/
def OneWay (r : Registry Ω) : Prop :=
  ∀ g ∈ r.groups, ∀ g' ∈ r.groups, ∀ c ∈ g.clients.values, ∀ c' ∈ g'.clients.values,
    c.channel.key = c'.channel.key → c.channel.closing = c'.channel.closing

instance (r : Registry Ω) : Decidable r.OneWay :=
  inferInstanceAs (Decidable (∀ g ∈ r.groups, ∀ g' ∈ r.groups, ∀ c ∈ g.clients.values,
    ∀ c' ∈ g'.clients.values, _ → _))

/-! ## Records treated in another order -/

theorem Treats.perm {T T' : Treatment} {is is' : List Nat} (hw : r.WellFormed)
    (h : Treats T is r s) (h' : Treats T' is' r s') (hleft : T'.left = T.left)
    (hends : T'.ends = T.ends) (hperm : is.Perm is') :
    s'.records = s.records ∧ s'.table = s.table := by
  constructor
  · refine List.ext_getElem? ?_
    intro j
    have hj := h.records j
    have hj' := h'.records j
    rw [hleft] at hj'
    simp only [← hperm.mem_iff] at hj'
    exact hj'.trans hj.symm
  · refine Table.ext_find? ?_
    intro group
    by_cases hi : ∃ i ∈ is, r.current? group = some i
    · obtain ⟨i, hi, hcurrent⟩ := hi
      obtain ⟨g, hg, -⟩ := hw.recorded group i hcurrent
      have hone := (h.treated group i g hi hcurrent hg).1
      have htwo := (h'.treated group i g (hperm.mem_iff.mp hi) hcurrent hg).1
      rw [hends] at htwo
      exact htwo.trans hone.symm
    · have hno : ∀ i ∈ is, r.current? group ≠ some i := fun i his hcurrent =>
        hi ⟨i, his, hcurrent⟩
      have hone := (h.passed group hno).1
      have htwo := (h'.passed group fun i his => hno i (hperm.mem_iff.mpr his)).1
      exact htwo.trans hone.symm

/-! ## Two walks -/

section

variable (env : Surroundings Ω) (r : Registry Ω) (walk : Walk)

theorem perm_records (is : List Nat) :
    (env.walk.records is).Perm ((env.walking walk).walk.records is) :=
  (env.walk.records_perm is).trans (walk.records_perm is).symm

theorem perm_goneFrom (now : UInt64) (is : List Nat) :
    ((env.walk.records is).flatMap (r.goneFrom env now)).Perm
      (((env.walking walk).walk.records is).flatMap (r.goneFrom (env.walking walk) now)) := by
  refine (perm_records env walk is).flatMap ?_
  intro i _
  unfold goneFrom
  split
  · exact perm_expiredOf env (env.walking walk) _ now _
  · exact .refl []

end

/-- Whoever is taken out by a sweep was in a group. -/
theorem mem_groups_of_gone {now : UInt64} {c : Client}
    (hc : c ∈ (env.walk.records r.table.values).flatMap (r.goneFrom env now)) :
    ∃ g ∈ r.groups, c ∈ g.clients.values := by
  obtain ⟨i, hi, hc⟩ := List.mem_flatMap.mp hc
  unfold goneFrom at hc
  split at hc
  · rename_i g hg
    have hvalue := (env.walk.records_perm _).mem_iff.mp hi
    exact ⟨g, List.mem_filterMap.mpr ⟨i, hvalue, hg⟩,
      Table.mem_values_iff.mpr ((mem_expiredOf env g now _ c).mp hc).1⟩
  · cases hc

/-! ## Whatever the order -/

/-- Two registries that are in the same state, whatever they noted on the way there. The clock and
what is outside are not part of it: those are in the hands of others, who act on them while they are
asked for the time and while they listen. -/
structure SameState (s s' : Registry Ω) : Prop where
  records : s'.records = s.records
  table : s'.table = s.table
  settings : s'.settings = s.settings
  listeners : s'.listeners = s.listeners
  samples : s'.samples = s.samples
  wires : s'.wires = s.wires

section

variable (henv : env.Quiet) (hwires : env.ActBy LeavesWires) (walk : Walk)
include henv hwires

/-- To set up another walk gives nobody a chance to deal with wires. -/
theorem closes_of_walking : (env.walking walk).ActBy (Closes []) :=
  closes_of_quiet (henv.walking walk) ⟨hwires.reading, hwires.listener⟩

theorem sameState_channelClosed (hw : r.WellFormed) (address : String) (id : UInt64) :
    SameState (r.channelClosed env address id).1
      (r.channelClosed (env.walking walk) address id).1 := by
  let env' := env.walking walk
  let begun := r.note (.began (.channelClosed id))
  have henv' : env'.Quiet := henv.walking walk
  have hw : begun.WellFormed := (Aside.note r rfl).wellFormed hw
  obtain ⟨hrecords, htable⟩ := (treats_closeInAll henv hw address id (onTable_walk hw env)).perm hw
    (treats_closeInAll henv' hw address id (onTable_walk hw env')) rfl rfl (perm_records env walk _)
  have hsteps : Steps False r (r.channelClosed env address id).1 :=
    Steps.removing.channelClosed henv.steps address id r
  have hsteps' : Steps False r (r.channelClosed env' address id).1 :=
    Steps.removing.channelClosed henv'.steps address id r
  have hclosed := Closes.channelClosed (closes_of_quiet henv hwires) address id r
  have hclosed' := Closes.channelClosed (closes_of_walking henv hwires walk) address id r
  exact ⟨hrecords, htable, hsteps'.settings.trans hsteps.settings.symm,
    hclosed'.listeners.trans hclosed.listeners.symm, hclosed'.samples.trans hclosed.samples.symm,
    hclosed'.wires.trans hclosed.wires.symm⟩

theorem sameState_sweep (hw : r.WellFormed) (hgentle : r.Gentle) (hone : r.OneWay) :
    SameState (r.sweep env).1 (r.sweep (env.walking walk)).1 ∧
      (r.sweep (env.walking walk)).2 = (r.sweep env).2 := by
  let env' := env.walking walk
  let begun := r.note (.began .sweep)
  let read := (env.beforeReading begun).1
  have henv' : env'.Quiet := henv.walking walk
  have hread : r.Aside read := (Aside.note r rfl).trans (henv.aside.reading begun)
  have hw : read.WellFormed := hread.wellFormed hw
  have hgentle : read.Gentle := hread.gentle hgentle
  have hgroups : read.groups = r.groups := by
    have hrecord : read.record? = r.record? := funext hread.record?
    rw [groups, hread.table, hrecord, groups]
  obtain ⟨hrecords, htable⟩ :=
    (treats_sweepAll henv hw hgentle read.clock.now (onTable_walk hw env)).perm hw
      (treats_sweepAll henv' hw hgentle read.clock.now (onTable_walk hw env')) rfl rfl
      (perm_records env walk _)
  have hclosed := closes_sweepAll henv (closes_of_quiet henv hwires) hw hgentle read.clock.now
    (onTable_walk hw env)
  have hclosed' := closes_sweepAll henv' (closes_of_walking henv hwires walk) hw hgentle
    read.clock.now (onTable_walk hw env')
  have hn := counts_sweepAll henv hw hgentle read.clock.now (onTable_walk hw env)
  have hn' := counts_sweepAll henv' hw hgentle read.clock.now (onTable_walk hw env')
  have hgone := perm_goneFrom env read walk read.clock.now read.table.values
  have hwired := foldl_closeOn_perm hgone (fun c hc c' hc' => by
    obtain ⟨g, hg, hc⟩ := mem_groups_of_gone hc
    obtain ⟨g', hg', hc'⟩ := mem_groups_of_gone hc'
    rw [hgroups] at hg hg'
    exact hone g hg g' hg' c hc c' hc') read.wires
  have hsteps : Steps True r (r.sweep env).1 := Steps.removing.sweep henv.steps r
  have hsteps' : Steps True r (r.sweep env').1 := Steps.removing.sweep henv'.steps r
  have hsettings := hsteps'.settings.trans hsteps.settings.symm
  rw [sweep_of_returns (henv.returns begun), sweep_of_returns (henv'.returns begun)] at hsettings ⊢
  refine ⟨⟨hrecords, htable, hsettings, hclosed'.listeners.trans hclosed.listeners.symm,
    hclosed'.samples.trans hclosed.samples.symm, ?_⟩, ?_⟩
  · exact (hclosed'.wires.trans hwired).trans hclosed.wires.symm
  · dsimp only
    rw [hn, hgone.length_eq]
    exact hn'

end

/-- A closed channel and a sweep come to the same state in whatever order the tables are walked: the
same records, the same table, and every wire as often told to close and as open, whoever shares it.
The same answer comes back, and the listeners are told the same of every group, up to the order in
which one sweep takes clients out of it and in which a change names them. -/
theorem the_order_of_walks_does_not_matter (hr : r.Reachable) (hgentle : r.Gentle)
    (hone : r.OneWay) (henv : env.Quiet) (hwires : env.ActBy LeavesWires) (walk : Walk)
    {request : Request} (hwalks : request.Walks) :
    let env' := env.walking walk
    let s := r.serve env request
    let s' := r.serve env' request
    SameState s s' ∧ r.reply env' request = r.reply env request ∧
    ∀ group, ∃ es es', tidings group s.journal = tidings group r.journal ++ es ∧
      tidings group s'.journal = tidings group r.journal ++ es' ∧ request.SameNews es es' := by
  intro env' s s'
  have hw := hr.wellFormed
  have hnews : r.readFor env' request = r.readFor env request → ∀ group,
      ∃ es es', tidings group s.journal = tidings group r.journal ++ es ∧
        tidings group s'.journal = tidings group r.journal ++ es' ∧ request.SameNews es es' := by
    intro htime group
    have hfares := fares_serve henv hw hgentle request group
    have hfares' := fares_serve (henv.walking walk) hw hgentle request group
    rw [htime] at hfares'
    exact ⟨_, _, hfares.events, hfares'.events, Request.sameNews_fate env env' _ _ group _ request⟩
  cases request with
  | channelClosed address id =>
    exact ⟨sameState_channelClosed henv hwires walk hw address id, rfl, hnews rfl⟩
  | sweep =>
    obtain ⟨hsame, hn⟩ := sameState_sweep henv hwires walk hw hgentle hone
    refine ⟨hsame, ?_, hnews rfl⟩
    rw [reply, hn, reply]
  | _ => exact hwalks.elim

/-- Two groups share a channel that refuses to close, one of them has another client, and all were
silent for a long time. -/
def sharing : Registry Unit :=
  let shared : Client := .new ⟨"7", 7, localAddress 7, .refuses⟩ "client" .java 1
  (Registry.new default [0] default false ()).serveAll (.still Unit)
    [.register true { Registration.sample "g" 7 with client := shared },
      .register true { Registration.sample "h" 7 with client := shared },
      .register true (.sample "g" 8), .setClock ⟨200000⟩]

/-- The shared wire is told twice to close, whichever group comes first. -/
theorem a_shared_wire_is_told_twice :
    sharing.Reachable ∧ sharing.Gentle ∧ sharing.OneWay ∧
      let env := Surroundings.still Unit
      let env' := env.walking .descending
      SameState (sharing.sweep env).1 (sharing.sweep env').1 ∧
      (sharing.sweep env).1.wires.find? "7" = some ⟨2, true⟩ ∧
      (sharing.sweep env').1.wires.find? "7" = some ⟨2, true⟩ := by
  have hquiet := Surroundings.quiet_still Unit
  have hsteps : Steps True (Registry.new default [0] default false ()) sharing := by
    refine steps_serveAll hquiet.steps (fun _ => ?_) _
    simp [Request.IsCalm, Registration.sample, Client.new]
  have hreachable : sharing.Reachable :=
    ⟨default, [0], default, false, (), steps_serveAll hquiet.steps (fun hc => hc.elim) _⟩
  have hgentle : sharing.Gentle := hsteps.gentle (gentle_new default [0] default false ())
  have hone : sharing.OneWay := by decide +kernel
  have hwires : (Surroundings.still Unit).ActBy LeavesWires :=
    ⟨fun _ => rfl, fun _ _ _ _ => rfl⟩
  have hwalks : Request.sweep.Walks := trivial
  obtain ⟨hsame, -, -⟩ := the_order_of_walks_does_not_matter hreachable hgentle hone hquiet hwires
    .descending hwalks
  exact ⟨hreachable, hgentle, hone, hsame, by rfl, by rfl⟩

end Registry

end ConsumerGroups
