-- A registration that comes again at once makes no difference but for times. It meets what it has
-- stored itself, or what was newer and has stayed. So nothing else is stored the second time, and
-- the listeners hear no more than that it came. There is one exception: a declaration that names a
-- topic twice under one version, with something else each time, always contradicts itself.
import ConsumerGroups.Proofs.Changes
import ConsumerGroups.Proofs.Declaring
import ConsumerGroups.Proofs.Resting

set_option autoImplicit false

namespace ConsumerGroups

/-- A registration declares what is stored of a topic, and something else of this topic under the
same version. -/
def Registration.Contradicts (q : Registration) (stored : String → Option Subscription) : Prop :=
  q.declares = true ∧ ∃ sub ∈ q.subscriptions, ∃ other ∈ q.subscriptions,
    other.topic = sub.topic ∧ other.version = sub.version ∧ other ≠ sub ∧
      stored sub.topic = some other

namespace Group

variable {g : Group} {t : Table String Subscription} {sub : Subscription}
  {subs : List Subscription}

/-! ## A declaration once more -/

/-- Where nothing older is stored, an entry makes a difference to what has its version. -/
theorem differs_iff_of_le {stored : Subscription} (hstored : t.find? sub.topic = some stored)
    (hle : sub.version ≤ stored.version) :
    differs t sub = true ↔ stored.version = sub.version ∧ stored ≠ sub := by
  simp only [differs, isStale, hstored, Bool.and_eq_true, Bool.not_eq_true',
    decide_eq_false_iff_not, UInt64.not_lt, bne_iff_ne, ne_eq, Option.some.injEq]
  constructor
  · rintro ⟨hversion, hne⟩
    exact ⟨UInt64.le_antisymm hversion hle, hne⟩
  · rintro ⟨hversion, hne⟩
    exact ⟨UInt64.le_of_eq hversion, hne⟩

/-- What a declaration leaves of a topic in it: what was newer than all its entries, or one of
them, and nothing older than any of them. -/
theorem find?_declare_of_mem (g : Group) (now : UInt64) (hsub : sub ∈ subs) :
    ∃ stored, (g.declare subs now).group.subscriptions.find? sub.topic = some stored ∧
      sub.version ≤ stored.version ∧
      (stored.version = sub.version → stored ∈ subs ∧ stored.topic = sub.topic) := by
  have hentry : sub ∈ entriesOf sub.topic subs := mem_entriesOf.mpr ⟨hsub, rfl⟩
  rw [find?_declare, if_pos (names_iff.mpr ⟨sub, hsub, rfl⟩)]
  rcases foldl_newerOf_cases (List.ne_nil_of_mem hentry) (g.subscriptions.find? sub.topic) with
    ⟨old, -, hlt, hstored⟩ | ⟨s, hs, -, hstored⟩
  · refine ⟨old, hstored, UInt64.le_of_lt (hlt sub hentry), ?_⟩
    intro hversion
    exact absurd hversion (UInt64.ne_of_lt (hlt sub hentry)).symm
  · exact ⟨s, hstored, hs.le sub hentry, fun _ => mem_entriesOf.mp hs.mem⟩

/-- A declaration that comes again makes a difference on the way only when it has two entries to a
topic under the version that is stored. -/
theorem changed_declare_again {after : Group} {now : UInt64}
    (h : after.subscriptions = (g.declare subs now).group.subscriptions) (now' : UInt64) :
    (after.declare subs now').changed = true ↔
      ∃ sub ∈ subs, ∃ other ∈ subs, other.topic = sub.topic ∧ other.version = sub.version ∧
        other ≠ sub ∧ after.subscriptions.find? sub.topic = some other := by
  have hnames : ∀ topic, after.wants topic = true → names subs topic = true := by
    intro topic hwants
    rw [wants, h] at hwants
    rw [← wants_declare g subs now topic]
    exact hwants
  have hchanged : (after.declare subs now').changed = true ↔
      anyDiffers after.subscriptions subs = true := by
    rw [← Bool.not_eq_false, changed_declare_eq_false_iff, and_iff_left hnames, Bool.not_eq_false]
  rw [hchanged, anyDiffers_eq_any, List.any_eq_true]
  refine exists_congr fun sub => and_congr_right fun hsub => ?_
  obtain ⟨stored, hstored, hle, hmem⟩ := find?_declare_of_mem g now hsub
  rw [← h] at hstored
  rw [differs_iff_of_le hstored hle]
  constructor
  · rintro ⟨hversion, hne⟩
    obtain ⟨hmem, htopic⟩ := hmem hversion
    exact ⟨stored, hmem, htopic, hversion, hne, hstored⟩
  · rintro ⟨other, -, -, hversion, hne, hother⟩
    rw [hstored, Option.some.injEq] at hother
    subst hother
    exact ⟨hversion, hne⟩

end Group

namespace Registry

/-! ## A registration once more -/

section

variable (q : Registration) (now now' : UInt64) (g : Group)

/-- Of a group that has just taken a registration, the same registration renews the times only. -/
theorem revised_again : ∃ c, (revised q now g).group.clients.find? q.client.channel.id = some c ∧
    (revised q now' (revised q now g).group).group =
      { (revised q now g).group with
        clients := (revised q now g).group.clients.insert q.client.channel.id
          { c with heardAt := now' }
        touchedAt := now' } := by
  let c := Group.heardRecord (g.clients.find? q.client.channel.id) { q.client with heardAt := now }
  have hc : (revised q now g).group.clients.find? q.client.channel.id = some c :=
    find?_revised_self q now g
  have hsame : c.sameClaims { q.client with heardAt := now' } = true := (heardRecord_claims _ _).1
  refine ⟨c, hc, Group.ext ?_ ?_ ?_ ?_ ?_⟩
  · exact revised_name q now' _
  · rw [revised_policy, revised_policy]
  · rw [revised_clients, hc, Group.heardRecord, if_pos hsame]
  · apply Table.ext_find?
    intro topic
    rw [find?_revised_subscriptions, find?_revised_subscriptions]
    split
    · split
      · exact Group.foldl_newerOf_again _ _
      · rfl
    · rfl
  · exact revised_touchedAt q now' _

/-- The same registration makes a difference on the way only when it contradicts itself. -/
theorem changed_revised_again :
    (revised q now' (revised q now g).group).changed = true ↔
      q.Contradicts (revised q now g).group.subscriptions.find? := by
  have hclaims : ((revised q now g).group.clients.mapValues Client.claims).find?
      q.client.channel.id = some q.client.claims := by
    rw [Table.find?_mapValues, find?_revised_self, Option.map_some]
    exact congrArg some (Client.sameClaims_iff_claims.mp (heardRecord_claims _ _).1)
  rw [← Bool.not_eq_false, changed_revised_eq_false_iff, and_iff_right (revised_policy q now g),
    and_iff_right hclaims, Registration.Contradicts, Classical.not_imp, Bool.not_eq_false]
  refine and_congr_right fun hdeclares => ?_
  have hstored : ((revised q now g).group.hear q.client q.policy now').group.subscriptions =
      ((g.hear q.client q.policy now).group.declare q.subscriptions now).group.subscriptions := by
    rw [Group.hear_subscriptions, revised, if_pos hdeclares]
  exact Group.changed_declare_again hstored now'

end

variable {Ω : Type} {env : Surroundings Ω} {r : Registry Ω} {q : Registration}

theorem holdsSame_proclaim (henv : env.Quiet) (start : UInt64) (i : Nat) (changed : Bool)
    (r : Registry Ω) : HoldsSame r (r.proclaim env q start i changed).1 := by
  have hsampled : ∀ s : Registry Ω, HoldsSame s (s.sample env start).1 := by
    intro s
    unfold sample
    split
    · exact (Rests.refl s).toHoldsSame
    · have hread := Rests.reading henv s
      rw [readClock_of_returns (henv.returns s), andThen_ok]
      exact ⟨hread.settings, hread.records, hread.table, hread.listeners⟩
  have htold : HoldsSame r (if changed && q.announce then r.sendChanged env q.group i else r) := by
    split
    · exact (Rests.sendChanged henv.listener q.group i r).toHoldsSame
    · exact (Rests.refl r).toHoldsSame
  unfold proclaim
  rw [andThen_of_ok (sample_returns henv start _)]
  exact (htold.trans (hsampled _)).trans (Rests.send henv.listener q.group _ _).toHoldsSame

/-- When a group is on the table a registration puts its record in place of the one before, and the
registry holds nothing else that is different. -/
theorem holdsSame_register (henv : env.Quiet) (hname : IsName q.group) (strict : Bool) {i : Nat}
    {g : Group} (hi : r.current? q.group = some i) (hg : r.record? i = some g) :
    HoldsSame (r.setRecord i (revised q (r.registerTime env q) g).group)
      (r.serve env (.register strict q)) := by
  let begun := r.started env q
  have hbegun : Rests r begun := (Rests.note r _).trans (.reading henv _)
  have hfound : begun.findOrFound env q = (begun, i) :=
    findOrFound_of_current (by rw [hbegun.current?, hi]) env
  have hread : Rests r (begun.read env q) := by
    rw [read, hfound]
    exact hbegun.trans (.reading henv begun)
  have hplaced : HoldsSame (r.setRecord i (revised q (r.registerTime env q) g).group)
      (begun.attempted env q).1 := by
    rw [attempted, target, hfound, update, hread.record?, hg]
    exact (hread.setRecord i _).trans (Rests.logAll _ _).toHoldsSame
  have hproclaimed := holdsSame_proclaim (q := q) henv begun.clock.now (begun.target env q)
    (begun.attempted env q).2 (begun.attempted env q).1
  have htry : HoldsSame (begun.attempted env q).1 (r.tryRegister env q).1 := by
    rw [tryRegister_of_quiet henv hname]
    exact hproclaimed.trans (Rests.note _ .ended).toHoldsSame
  obtain ⟨lines, hserve⟩ := serve_register env strict q r
  rw [hserve]
  exact (hplaced.trans htry).trans (Rests.logAll _ lines).toHoldsSame

/-- A registration that comes again at once, whatever the clock shows by then, renews the time of
its client and that of its group, and nothing else is different in what the registry holds. Its
listeners hear that it came. They hear of a change, and the caller is told of one, only when the
registration contradicts itself. -/
theorem a_repeated_registration_renews_times (hr : r.Reachable) (henv : env.Quiet)
    (hname : IsName q.group) (strict : Bool) (clock : Clock) :
    let once := r.serve env (.register strict q)
    let later := once.serve env (.setClock clock)
    let twice := later.serve env (.register strict q)
    let now := later.registerTime env q
    ∃ i g c changed, once.current? q.group = some i ∧ once.record? i = some g ∧
      g.clients.find? q.client.channel.id = some c ∧
      let renewed := { g with
        clients := g.clients.insert q.client.channel.id { c with heardAt := now }
        touchedAt := now }
      HoldsSame (once.setRecord i renewed) twice ∧
      Tells q.group ((if changed && q.announce then [.changed (clientsOf env renewed)] else []) ++
        [.declared q.subscriptions]) once twice ∧
      (later.reply env (.register strict q)).changed? = some changed ∧
      (changed = true ↔ q.Contradicts (once.subscription? q.group)) := by
  intro once later twice now
  have hw := hr.wellFormed
  have hsteps : Steps False r once := steps_serve henv.steps (fun hc => hc.elim) r
  have hwonce : once.WellFormed := hsteps.wellFormed hw
  have hwlater : later.WellFormed := (Aside.setClock once clock).wellFormed hwonce
  let before := (r.group? q.group).getD (Group.new q.group q.policy)
  have honce : once.group? q.group = some (revised q (r.registerTime env q) before).group := by
    rw [group?_register henv hw hname, if_pos rfl]
  obtain ⟨i, hi, hg⟩ := Option.bind_eq_some_iff.mp honce
  obtain ⟨c, hc, hrenewed⟩ := revised_again q (r.registerTime env q) now before
  have hchanged := changed_revised_again q (r.registerTime env q) now before
  have hlater : later.group? q.group = some _ := honce
  have hholds : HoldsSame _ twice := holdsSame_register (r := later) henv hname strict hi hg
  have htells : Tells q.group _ later twice := tells_register henv hwlater hname strict
  have hreply := changed?_of_quiet henv hwlater hname strict
  rw [hlater, Option.getD_some] at hreply
  rw [hlater, registering, Option.getD_some, Option.isNone_some, if_neg Bool.false_ne_true,
    List.nil_append, hrenewed] at htells
  rw [hrenewed] at hholds
  have hstored : once.subscription? q.group =
      (revised q (r.registerTime env q) before).group.subscriptions.find? := by
    funext topic
    rw [subscription?, honce, Option.bind_some]
  refine ⟨i, _, c, _, hi, hg, hc, ?_, htells, hreply, ?_⟩
  · exact ⟨hholds.settings, hholds.records, hholds.table, hholds.listeners⟩
  · rw [hstored]
    exact hchanged

/-- A client that names its topic twice under one version, with another filter each time. -/
def wavering : Registration :=
  { Registration.sample "g" 7 with
    subscriptions := [.ofTags "topic" "a" 1, .ofTags "topic" "b" 1] }

/-- Whenever it comes again the listeners hear of a change, although nothing has changed. -/
theorem a_contradiction_looks_like_a_change :
    let r : Registry Unit := Registry.new default [0] default false ()
    let once := r.serve (.still Unit) (.register true wavering)
    let twice := (once.serve (.still Unit) (.setClock ⟨5⟩)).serve (.still Unit)
      (.register true wavering)
    r.Reachable ∧ wavering.Contradicts (once.subscription? "g") ∧
      (∀ topic, twice.subscription? "g" topic = once.subscription? "g" topic) ∧
      ∃ cs, tidings "g" twice.journal = tidings "g" once.journal ++
        [.changed cs, .declared wavering.subscriptions] := by
  intro r once twice
  have hreachable : r.Reachable := ⟨default, [0], default, false, (), .refl⟩
  have hname : IsName wavering.group := checkName_eq_ok_iff.mp (by rfl)
  have hstored : once.subscription? "g" "topic" = some (.ofTags "topic" "b" 1) := by
    decide +kernel
  have hwavers : wavering.Contradicts (once.subscription? "g") := by
    refine ⟨rfl, .ofTags "topic" "a" 1, .head _, .ofTags "topic" "b" 1, .tail _ (.head _), rfl, rfl,
      by decide +kernel, hstored⟩
  obtain ⟨i, g, c, changed, hi, hg, -, hholds, htells, -, hchanged⟩ :=
    a_repeated_registration_renews_times (q := wavering) hreachable (Surroundings.quiet_still Unit)
      hname true ⟨5⟩
  have hchanged := hchanged.mpr hwavers
  subst hchanged
  refine ⟨hreachable, hwavers, ?_, _, htells.own⟩
  intro topic
  have honce : once.group? "g" = some g := (group?_of_current hi).trans hg
  have hi' : twice.current? "g" = some i := (hholds.current? "g").trans hi
  have htwice : twice.group? "g" = some _ :=
    (group?_of_current hi').trans ((hholds.record? i).trans (record?_setRecord_self once hg _))
  rw [subscription?, htwice, subscription?, honce]
  rfl

end Registry

end ConsumerGroups
