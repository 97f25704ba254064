-- A sweep is exact. It takes out the clients that were silent for too long and no others, takes the
-- groups off the table that are left without clients and no others, counts those it took out, tells
-- of each of them once and of nothing else, and closes their wires as often as that takes.
import ConsumerGroups.Proofs.Walks

set_option autoImplicit false

namespace ConsumerGroups

/-! ## Wires that are told to close again and again -/

/-- A wire that is not open is left alone, however often it is told. -/
theorem Wire.foldl_closeQuietly_inactive {w : Wire} (h : w.active = false) (cs : List Client) :
    cs.foldl (fun w c => (w.closeQuietly c.channel).1) w = w := by
  induction cs with
  | nil => rfl
  | cons c rest ih => rw [List.foldl_cons, w.closeQuietly_inactive c.channel h, ih]

/-- A wire that closes when it is told is told once. -/
theorem Wire.foldl_closeQuietly_succeeds {w : Wire} (hactive : w.active = true) {cs : List Client}
    (hsome : cs ≠ []) (h : ∀ c ∈ cs, c.channel.closing = .succeeds) :
    cs.foldl (fun w c => (w.closeQuietly c.channel).1) w = ⟨w.closes + 1, false⟩ := by
  cases cs with
  | nil => exact absurd rfl hsome
  | cons c rest =>
    have hfirst : (w.closeQuietly c.channel).1 = ⟨w.closes + 1, false⟩ := by
      simp [closeQuietly, close, hactive, h c List.mem_cons_self]
    rw [List.foldl_cons, hfirst, foldl_closeQuietly_inactive rfl]

/-- A wire that refuses to close is told every time. -/
theorem Wire.foldl_closeQuietly_refuses {w : Wire} (hactive : w.active = true) {cs : List Client}
    (h : ∀ c ∈ cs, c.channel.closing = .refuses) :
    cs.foldl (fun w c => (w.closeQuietly c.channel).1) w = ⟨w.closes + cs.length, true⟩ := by
  induction cs generalizing w with
  | nil => rw [List.foldl_nil, List.length_nil, Nat.add_zero, ← hactive]
  | cons c rest ih =>
    have hfirst : (w.closeQuietly c.channel).1 = ⟨w.closes + 1, true⟩ := by
      simp [closeQuietly, close, hactive, h c List.mem_cons_self]
    rw [List.foldl_cons, hfirst, ih rfl (fun d hd => h d (List.mem_cons_of_mem c hd)),
      List.length_cons, Nat.add_assoc, Nat.add_comm 1]

/-- The wire that has a key. A wire that nobody was told of is new. -/
def wireAt (wires : Table String Wire) (key : String) : Wire := (wires.find? key).getD default

namespace Registry

variable {Ω : Type} {env : Surroundings Ω} {r s : Registry Ω}

theorem wireAt_closeOn (wires : Table String Wire) (c : Channel) (key : String) :
    wireAt (closeOn wires c) key =
      if c.key = key then ((wireAt wires key).closeQuietly c).1 else wireAt wires key := by
  unfold wireAt closeOn
  split
  · rename_i hkey
    rw [← hkey, Table.find?_insert_self, Option.getD_some]
  · rename_i hkey
    rw [Table.find?_insert_of_ne _ _ (Ne.symm hkey)]

/-- Of all the clients whose wires are told to close, those on a wire matter to it. -/
theorem wireAt_foldl_closeOn (cs : List Client) (wires : Table String Wire) (key : String) :
    wireAt (cs.foldl (fun wires c => closeOn wires c.channel) wires) key =
      (cs.filter (fun c => c.channel.key == key)).foldl (fun w c => (w.closeQuietly c.channel).1)
        (wireAt wires key) := by
  induction cs generalizing wires with
  | nil => rfl
  | cons c rest ih =>
    rw [List.foldl_cons, ih, wireAt_closeOn, List.filter_cons]
    by_cases hkey : c.channel.key = key
    · simp [hkey]
    · simp [hkey]

/-! ## Who goes -/

end Registry

/-- Whether a client was silent for more than `limit` milliseconds. One that was heard of after
`now` was not silent at all. -/
def Client.Overdue (c : Client) (now limit : UInt64) : Prop :=
  limit.toNat < now.toNat - c.heardAt.toNat

instance (c : Client) (now limit : UInt64) : Decidable (c.Overdue now limit) :=
  inferInstanceAs (Decidable (_ < _))

theorem Client.expired_eq_overdue (c : Client) (now limit : UInt64) :
    c.expired now limit = decide (c.Overdue now limit) := by
  rw [Bool.eq_iff_iff, decide_eq_true_iff]
  exact c.expired_iff now limit

def Group.overdue (g : Group) (now limit : UInt64) : List Client :=
  g.clients.values.filter (fun c => c.Overdue now limit)

/-- A group is left without clients when all of them are overdue. -/
theorem Group.isEmpty_withoutExpired_iff {g : Group} {now limit : UInt64} :
    (g.withoutExpired now limit).isEmpty = true ↔
      ∀ id c, g.clients.find? id = some c → c.Overdue now limit := by
  have hempty : (g.withoutExpired now limit).isEmpty = true ↔
      ∀ id, (g.clients.find? id).filter (fun c => !c.expired now limit) = none := by
    rw [Group.isEmpty, Table.isEmpty_iff]
    simp only [Group.withoutExpired, Table.find?_filter]
  rw [hempty]
  refine forall_congr' fun id => ?_
  cases g.clients.find? id with
  | none => simp
  | some c => simp [Option.filter_some, Client.expired_eq_overdue]

namespace Registry

variable {Ω : Type} {env : Surroundings Ω} {r s : Registry Ω}

/-- All clients on the table that are overdue. -/
def overdue (r : Registry Ω) (now limit : UInt64) : List Client :=
  r.groups.flatMap (·.overdue now limit)

theorem perm_overdue (env : Surroundings Ω) (g : Group) (now limit : UInt64) :
    (expiredOf env g now limit).Perm (g.overdue now limit) := by
  unfold expiredOf Group.overdue
  simp only [Client.expired_eq_overdue]
  exact (clientsOf_perm env g).filter _

/-- Whoever is taken out of some records is overdue there, and comes up as often. -/
theorem perm_flatMap_goneFrom (env : Surroundings Ω) (r : Registry Ω) (now : UInt64)
    (is : List Nat) :
    (is.flatMap (r.goneFrom env now)).Perm
      ((is.filterMap r.record?).flatMap (·.overdue now r.settings.expiry)) := by
  induction is with
  | nil => exact .refl []
  | cons i rest ih =>
    rw [List.flatMap_cons, goneFrom]
    cases hg : r.record? i with
    | none =>
      rw [List.filterMap_cons_none hg]
      exact ih
    | some g =>
      rw [List.filterMap_cons_some hg, List.flatMap_cons]
      exact (perm_overdue env g now r.settings.expiry).append ih

/-- A walk over the table comes by all who are overdue. -/
theorem perm_walk_overdue (env : Surroundings Ω) (r : Registry Ω) (now : UInt64) :
    ((env.walk.records r.table.values).flatMap (r.goneFrom env now)).Perm
      (r.overdue now r.settings.expiry) :=
  (perm_flatMap_goneFrom env r now _).trans
    (((env.walk.records_perm _).filterMap _).flatMap_right _)

theorem Aside.overdue (h : r.Aside s) (now limit : UInt64) :
    s.overdue now limit = r.overdue now limit := by
  have hrecord : s.record? = r.record? := funext h.record?
  rw [Registry.overdue, groups, h.table, hrecord, Registry.overdue, groups]

/-- A sweep gives back how many clients are overdue. -/
theorem counts_sweep (henv : env.Quiet) (hw : r.WellFormed) (hgentle : r.Gentle) :
    (r.sweep env).2 = .ok (r.overdue (r.sweepTime env) r.settings.expiry).length := by
  let begun := r.note (.began .sweep)
  let read := (env.beforeReading begun).1
  have hread : r.Aside read := (Aside.note r rfl).trans (henv.aside.reading begun)
  have hw : read.WellFormed := hread.wellFormed hw
  have hgone := perm_walk_overdue env read read.clock.now
  rw [hread.settings, hread.overdue] at hgone
  rw [sweep_of_returns (henv.returns begun)]
  dsimp only
  rw [counts_sweepAll henv hw (hread.gentle hgentle) read.clock.now (onTable_walk hw env),
    hgone.length_eq]
  rfl

/-- A sweep tells the wires of those who are overdue to close, in some order. -/
theorem wires_sweep (henv : env.Quiet) (hwires : env.ActBy LeavesWires) (hw : r.WellFormed)
    (hgentle : r.Gentle) :
    ∃ gone : List Client, gone.Perm (r.overdue (r.sweepTime env) r.settings.expiry) ∧
      (r.sweep env).1.wires = gone.foldl (fun wires c => closeOn wires c.channel) r.wires := by
  let begun := r.note (.began .sweep)
  let read := (env.beforeReading begun).1
  have hread : r.Aside read := (Aside.note r rfl).trans (henv.aside.reading begun)
  have hsame : read.wires = r.wires := hwires.reading begun
  have hw : read.WellFormed := hread.wellFormed hw
  have hgone := perm_walk_overdue env read read.clock.now
  rw [hread.settings, hread.overdue] at hgone
  have hclosed := closes_sweepAll henv (closes_of_quiet henv hwires) hw (hread.gentle hgentle)
    read.clock.now (onTable_walk hw env)
  refine ⟨_, hgone, ?_⟩
  rw [sweep_of_returns (henv.returns begun), ← hsame]
  exact hclosed.wires

/-! ## What a sweep comes to -/

/-- What becomes of a group in a sweep at `now`: it goes when all of its clients are overdue, and is
otherwise left as it was but for those who are. -/
structure SweptOut (now limit : UInt64) (g : Group) (left : Option Group) : Prop where
  goes : left = none ↔ ∀ id c, g.clients.find? id = some c → c.Overdue now limit
  name : ∀ g', left = some g' → g'.name = g.name
  policy : ∀ g', left = some g' → g'.policy = g.policy
  subscriptions : ∀ g', left = some g' → g'.subscriptions = g.subscriptions
  touchedAt : ∀ g', left = some g' → g'.touchedAt = g.touchedAt
  clients : ∀ g', left = some g' → ∀ id,
    g'.clients.find? id = (g.clients.find? id).filter (fun c => ¬ c.Overdue now limit)

theorem sweptOut_fate (env : Surroundings Ω) (now limit : UInt64) (g : Group) :
    SweptOut now limit g ((Treatment.sweeping env now limit).fate (some g)).group := by
  have hfate : ((Treatment.sweeping env now limit).fate (some g)).group =
      if (g.withoutExpired now limit).isEmpty then none else some (g.withoutExpired now limit) :=
    rfl
  rw [hfate]
  split
  · rename_i hempty
    refine ⟨?_, ?_, ?_, ?_, ?_, ?_⟩
    · exact ⟨fun _ => Group.isEmpty_withoutExpired_iff.mp hempty, fun _ => rfl⟩
    all_goals simp
  · rename_i hsome
    refine ⟨?_, ?_, ?_, ?_, ?_, ?_⟩
    · rw [← Group.isEmpty_withoutExpired_iff]
      simp [hsome]
    · rintro g' ⟨⟩
      rfl
    · rintro g' ⟨⟩
      rfl
    · rintro g' ⟨⟩
      rfl
    · rintro g' ⟨⟩
      rfl
    · rintro g' ⟨⟩ id
      rw [Group.withoutExpired, Table.find?_filter]
      simp only [Client.expired_eq_overdue, decide_not]

/-- What becomes of the wire of these clients when they are swept out. -/
structure WireSwept (backed : List Client) (before after : Wire) : Prop where
  spared : backed = [] → after = before
  inactive : before.active = false → after = before
  succeeds : before.active = true → backed ≠ [] →
    (∀ c ∈ backed, c.channel.closing = .succeeds) → after = ⟨before.closes + 1, false⟩
  refuses : before.active = true → (∀ c ∈ backed, c.channel.closing = .refuses) →
    after = ⟨before.closes + backed.length, true⟩

theorem wireSwept_foldl {backed gone : List Client} (hperm : gone.Perm backed) (w : Wire) :
    WireSwept backed w (gone.foldl (fun w c => (w.closeQuietly c.channel).1) w) := by
  have hmem : ∀ {p : Client → Prop}, (∀ c ∈ backed, p c) → ∀ c ∈ gone, p c :=
    fun h c hc => h c (hperm.mem_iff.mp hc)
  refine ⟨?_, ?_, ?_, ?_⟩
  · rintro rfl
    rw [hperm.eq_nil]
    rfl
  · exact fun h => Wire.foldl_closeQuietly_inactive h gone
  · intro hactive hsome h
    refine Wire.foldl_closeQuietly_succeeds hactive ?_ (hmem h)
    rintro rfl
    exact hsome hperm.symm.eq_nil
  · intro hactive h
    rw [← hperm.length_eq]
    exact Wire.foldl_closeQuietly_refuses hactive (hmem h)

/-- A sweep takes out exactly the clients that are overdue when it reads the clock, and gives back
how many these are. The groups all of whose clients are overdue go off the table; of the other
groups nothing else changes. For each client that is taken out one event is sent out, with the
record that was stored and the topics of its group, and no other event. A wire that is open and
closes is told so once, whoever shares it; one that refuses is told as often as clients on it are
taken out; one that is not open, or has none of these clients on it, is left alone. -/
theorem a_sweep_is_exact (hr : r.Reachable) (hgentle : r.Gentle) (henv : env.Quiet) :
    let now := r.sweepTime env
    let limit := r.settings.expiry
    let swept := r.sweep env
    swept.2 = .ok (r.overdue now limit).length ∧
    (∀ group, r.group? group = none →
      swept.1.group? group = none ∧
      tidings group swept.1.journal = tidings group r.journal) ∧
    (∀ group g, r.group? group = some g →
      SweptOut now limit g (swept.1.group? group) ∧
      ∃ events, tidings group swept.1.journal = tidings group r.journal ++ events ∧
        events.Perm ((g.overdue now limit).map (.clientLeft · g.topics))) ∧
    (env.ActBy LeavesWires → ∀ key,
      WireSwept ((r.overdue now limit).filter (fun c => c.channel.key == key))
        (wireAt r.wires key) (wireAt swept.1.wires key)) := by
  intro now limit swept
  have hw := hr.wellFormed
  have hfares : ∀ group,
      Fares group ((Treatment.sweeping env now limit).fate (r.group? group)) r swept.1 :=
    fares_sweep henv hw hgentle
  refine ⟨counts_sweep henv hw hgentle, ?_, ?_, ?_⟩
  · intro group hg
    have hgroup := hfares group
    rw [hg] at hgroup
    exact ⟨hgroup.comes, hgroup.events.trans (List.append_nil _)⟩
  · intro group g hg
    have hgroup := hfares group
    rw [hg] at hgroup
    refine ⟨?_, _, hgroup.events, (perm_overdue env g now limit).map _⟩
    rw [hgroup.comes]
    exact sweptOut_fate env now limit g
  · intro hwires key
    obtain ⟨gone, hperm, hclosed⟩ := wires_sweep henv hwires hw hgentle
    rw [hclosed, wireAt_foldl_closeOn]
    exact wireSwept_foldl (hperm.filter _) _

/-- Two groups share a channel that refuses to close and was silent for a long time. One of them has
another client, of which was heard after the time that the clock shows now. -/
def halfSilent : Registry Unit :=
  let shared : Client := .new ⟨"7", 7, localAddress 7, .refuses⟩ "client" .java 1
  (Registry.new default [0] default false ()).serveAll (.still Unit)
    [.register true { Registration.sample "g" 7 with client := shared },
      .register true { Registration.sample "h" 7 with client := shared }, .setClock ⟨200000⟩,
      .register true (.sample "g" 8), .setClock ⟨150000⟩]

/-- The shared wire is told twice and stays open, one group goes, and the other keeps its client. -/
theorem a_client_from_the_future_stays :
    halfSilent.Reachable ∧ halfSilent.Gentle ∧
    let swept := halfSilent.sweep (.still Unit)
    swept.2 = .ok 2 ∧ swept.1.groupNames = ["g"] ∧
      (∃ g, halfSilent.group? "g" = some g ∧
        SweptOut 150000 120000 g (swept.1.group? "g")) ∧
      wireAt swept.1.wires "7" = ⟨2, true⟩ := by
  have hquiet := Surroundings.quiet_still Unit
  have hsteps : Steps True (Registry.new default [0] default false ()) halfSilent := by
    refine steps_serveAll hquiet.steps (fun _ => ?_) _
    simp [Request.IsCalm, Registration.sample, Client.new]
  have hreachable : halfSilent.Reachable :=
    ⟨default, [0], default, false, (), steps_serveAll hquiet.steps (fun hc => hc.elim) _⟩
  have hgentle : halfSilent.Gentle := hsteps.gentle (gentle_new default [0] default false ())
  have hwires : (Surroundings.still Unit).ActBy LeavesWires :=
    ⟨fun _ => rfl, fun _ _ _ _ => rfl⟩
  obtain ⟨hcount, -, hgroups, hclosed⟩ := a_sweep_is_exact hreachable hgentle hquiet
  refine ⟨hreachable, hgentle, hcount, by rfl, ⟨_, rfl, (hgroups "g" _ rfl).1⟩, ?_⟩
  exact (hclosed hwires "7").refuses (by rfl) (by decide +kernel)

end Registry

end ConsumerGroups
