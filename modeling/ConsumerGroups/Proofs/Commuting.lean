-- Registrations commute. When clients on different channels register in a group at one time, say
-- the same policy and the same topics, and agree on every version of a subscription, it does not
-- matter who comes first. A version that comes late never takes the place of a newer one.
import Mathlib.Data.List.Nodup
import Mathlib.Data.List.Perm.Basic
import ConsumerGroups.Proofs.Apart
import ConsumerGroups.Proofs.Declaring

set_option autoImplicit false

namespace ConsumerGroups

namespace Group

/-! ## Subscriptions in any order -/

/-- The newer of two subscriptions is stored in the end, unless they have one version and differ. -/
theorem newerOf_comm (best : Option Subscription) {s t : Subscription}
    (h : s.version = t.version → s = t) :
    newerOf (newerOf best s) t = newerOf (newerOf best t) s := by
  by_cases hst : s = t
  · rw [hst]
  · have hne : s.version.toNat ≠ t.version.toNat := fun e => hst (h (UInt64.toNat_inj.mp e))
    cases best with
    | none =>
      simp only [newerOf, UInt64.lt_iff_toNat_lt]
      split <;> split <;> first | rfl | omega
    | some old =>
      simp only [newerOf, UInt64.lt_iff_toNat_lt]
      grind

theorem foldl_newerOf_perm {subs subs' : List Subscription} (hperm : subs.Perm subs')
    (h : ∀ s ∈ subs, ∀ t ∈ subs, s.version = t.version → s = t) (best : Option Subscription) :
    subs.foldl newerOf best = subs'.foldl newerOf best :=
  hperm.foldl_eq' (fun s hs t ht best => newerOf_comm best (h s hs t ht)) best

/-- A subscription is stored, and its version is at least this one. -/
def Covers (version : UInt64) (stored : Option Subscription) : Prop :=
  ∃ s, stored = some s ∧ version ≤ s.version

/-- Nothing older takes the place of what is stored. -/
theorem Covers.foldl {version : UInt64} {best : Option Subscription} (h : Covers version best)
    (subs : List Subscription) : Covers version (subs.foldl newerOf best) := by
  obtain ⟨stored, hstored, hle⟩ := h
  by_cases hsubs : subs = []
  · rw [hsubs]
    exact ⟨stored, hstored, hle⟩
  · rcases foldl_newerOf_cases hsubs best with ⟨old, hold, -, hfold⟩ | ⟨s, -, hbest, hfold⟩
    · rw [hold, Option.some.injEq] at hstored
      exact ⟨old, hfold, hstored ▸ hle⟩
    · exact ⟨s, hfold, UInt64.le_trans hle (hbest stored hstored)⟩

theorem covers_foldl {subs : List Subscription} {sub : Subscription} (h : sub ∈ subs)
    (best : Option Subscription) : Covers sub.version (subs.foldl newerOf best) := by
  rcases foldl_newerOf_cases (List.ne_nil_of_mem h) best with
    ⟨old, -, hlt, hfold⟩ | ⟨s, hs, -, hfold⟩
  · exact ⟨old, hfold, UInt64.le_of_lt (hlt sub h)⟩
  · exact ⟨s, hfold, hs.le sub h⟩

end Group

/-- Registrations in one group that do not contradict each other: clients on different channels with
the same policy, which all declare the same topics, and know no two subscriptions to a topic under
one version. -/
structure Compatible (group : String) (policy : Policy) (qs : List Registration) : Prop where
  group : ∀ q ∈ qs, q.group = group
  policy : ∀ q ∈ qs, q.policy = policy
  declares : ∀ q ∈ qs, q.declares = true
  channels : (qs.map fun q => q.client.channel.id).Nodup
  topics : ∀ q ∈ qs, ∀ q' ∈ qs, ∀ topic,
    Group.names q.subscriptions topic = Group.names q'.subscriptions topic
  versions : ∀ q ∈ qs, ∀ q' ∈ qs, ∀ s ∈ q.subscriptions, ∀ s' ∈ q'.subscriptions,
    s.topic = s'.topic → s.version = s'.version → s = s'

namespace Registry

variable {Ω : Type} {env : Surroundings Ω} {r : Registry Ω}

/-! ## One group -/

/-- A group after a client registered in it at `now`; if there was none it is new. -/
def afterJoining (now : UInt64) (old : Option Group) (q : Registration) : Option Group :=
  some (revised q now (old.getD (Group.new q.group q.policy))).group

theorem revised_comm {group : String} {policy : Policy} {qs : List Registration}
    (h : Compatible group policy qs) {q q' : Registration} (hq : q ∈ qs) (hq' : q' ∈ qs)
    (hid : q.client.channel.id ≠ q'.client.channel.id) (now : UInt64) (g : Group) :
    (revised q' now (revised q now g).group).group =
      (revised q now (revised q' now g).group).group := by
  refine Group.ext ?_ ?_ ?_ ?_ ?_
  · simp only [revised_name]
  · rw [revised_policy, revised_policy, h.policy q hq, h.policy q' hq']
  · rw [revised_clients, revised_clients q, revised_clients q now (revised q' now g).group,
      revised_clients q', Table.find?_insert_of_ne _ _ hid, Table.find?_insert_of_ne _ _ hid.symm,
      Table.insert_comm _ _ _ hid]
  · refine Table.ext_find? ?_
    intro topic
    simp only [find?_revised_subscriptions, h.declares q hq, h.declares q' hq', if_true,
      h.topics q' hq' q hq]
    split
    · -- what the one stores and the other finds is the newest of all entries in either order
      rw [← List.foldl_append, ← List.foldl_append]
      refine Group.foldl_newerOf_perm List.perm_append_comm ?_ _
      have hentry : ∀ s ∈ Group.entriesOf topic q.subscriptions ++
          Group.entriesOf topic q'.subscriptions,
          ∃ p ∈ qs, s ∈ p.subscriptions ∧ s.topic = topic := by
        intro s hs
        rcases List.mem_append.mp hs with hs | hs
        · exact ⟨q, hq, Group.mem_entriesOf.mp hs⟩
        · exact ⟨q', hq', Group.mem_entriesOf.mp hs⟩
      intro s hs t ht hversion
      obtain ⟨p, hp, hs, hstopic⟩ := hentry s hs
      obtain ⟨p', hp', ht, httopic⟩ := hentry t ht
      exact h.versions p hp p' hp' s hs t ht (hstopic.trans httopic.symm) hversion
    · rfl
  · simp only [revised_touchedAt]

/-- In which order clients register in a group makes no difference to it. -/
theorem foldl_afterJoining_perm {group : String} {policy : Policy} {qs qs' : List Registration}
    (h : Compatible group policy qs) (hperm : qs.Perm qs') (now : UInt64) (old : Option Group) :
    qs.foldl (afterJoining now) old = qs'.foldl (afterJoining now) old := by
  refine hperm.foldl_eq' ?_ old
  intro q hq q' hq' old
  by_cases hsame : q = q'
  · rw [hsame]
  · have hid : q.client.channel.id ≠ q'.client.channel.id := fun hid =>
      hsame (List.inj_on_of_nodup_map h.channels hq hq' hid)
    simp only [afterJoining, Option.getD_some, h.group q hq, h.group q' hq', h.policy q hq,
      h.policy q' hq', revised_comm h hq hq' hid]

/-- Once clients have registered that all declare a topic, its subscription is as new as that of
each of them, and as the one that was stored before. -/
theorem covers_foldl_afterJoining {qs : List Registration} (hdeclares : ∀ q ∈ qs, q.declares = true)
    {topic : String} (hnames : ∀ q ∈ qs, Group.names q.subscriptions topic = true) (now : UInt64)
    (old : Option Group) (version : UInt64)
    (hversion : Group.Covers version (old.bind fun g => g.subscriptions.find? topic) ∨
      ∃ q ∈ qs, ∃ s ∈ q.subscriptions, s.topic = topic ∧ s.version = version) :
    Group.Covers version
      ((qs.foldl (afterJoining now) old).bind fun g => g.subscriptions.find? topic) := by
  induction qs generalizing old with
  | nil =>
    rcases hversion with h | ⟨q, hq, -⟩
    · exact h
    · cases hq
  | cons q rest ih =>
    have hstored : (afterJoining now old q).bind (fun g => g.subscriptions.find? topic) =
        (Group.entriesOf topic q.subscriptions).foldl Group.newerOf
          (old.bind fun g => g.subscriptions.find? topic) := by
      rw [afterJoining, Option.bind_some, find?_revised_subscriptions,
        if_pos (hdeclares q List.mem_cons_self), if_pos (hnames q List.mem_cons_self)]
      cases old <;> rfl
    refine ih (fun p hp => hdeclares p (List.mem_cons_of_mem q hp))
      (fun p hp => hnames p (List.mem_cons_of_mem q hp)) (afterJoining now old q) ?_
    rw [hstored]
    rcases hversion with h | ⟨p, hp, s, hs, htopic, rfl⟩
    · exact .inl (h.foldl _)
    · rcases List.mem_cons.mp hp with rfl | hp
      · exact .inl (Group.covers_foldl (Group.mem_entriesOf.mpr ⟨hs, htopic⟩) _)
      · exact .inr ⟨p, hp, s, hs, htopic, rfl⟩

/-! ## Calls -/

/-- A registration as it is asked for. -/
def asked (call : Bool × Registration) : Request := .register call.1 call.2

/-- What registrations at one time make of the groups. -/
theorem group?_registrations (henv : env.Quiet) (htime : env.ActBy KeepsTime) (hw : r.WellFormed)
    {group : String} (hname : IsName group) {calls : List (Bool × Registration)}
    (hgroup : ∀ call ∈ calls, call.2.group = group) (group' : String) :
    (r.serveAll env (calls.map asked)).group? group' =
      if group' = group then
        (calls.map Prod.snd).foldl (afterJoining r.clock.now) (r.group? group)
      else r.group? group' := by
  induction calls generalizing r with
  | nil =>
    split
    · rename_i h
      rw [h]
      rfl
    · rfl
  | cons call rest ih =>
    obtain ⟨strict, q⟩ := call
    have hq : q.group = group := hgroup (strict, q) List.mem_cons_self
    subst hq
    let next := r.serve env (.register strict q)
    have hsteps : Steps False r next := steps_serve henv.steps (fun hc => hc.elim) r
    have hclock : next.clock = r.clock := clock_serve htime (.register strict q)
    have hnext := group?_register henv hw hname strict
    rw [registerTime_of_keepsTime htime hname] at hnext
    have hrest := ih (hsteps.wellFormed hw) (fun c hc => hgroup c (List.mem_cons_of_mem _ hc))
    rw [hclock, hnext q.group, if_pos rfl, hnext group'] at hrest
    refine hrest.trans ?_
    split
    · rfl
    · rfl

/-- It does not matter in which order clients on different channels register in a group at one time,
as long as they do not contradict each other: all groups are the same in the end. So what is said
late never rolls a subscription back. What is stored for a topic is as new as what any of the
clients knows, and as what was stored before. -/
theorem registrations_commute (hr : r.Reachable) {group : String} (hname : IsName group)
    (henv : env.Quiet) (htime : env.ActBy KeepsTime) {policy : Policy}
    {calls calls' : List (Bool × Registration)}
    (hcompatible : Compatible group policy (calls.map Prod.snd)) (hperm : calls.Perm calls') :
    let s := r.serveAll env (calls.map asked)
    let s' := r.serveAll env (calls'.map asked)
    (∀ group', s'.group? group' = s.group? group') ∧
    ∀ call ∈ calls, ∀ sub ∈ call.2.subscriptions, ∃ stored,
      s.subscription? group sub.topic = some stored ∧ sub.version ≤ stored.version ∧
      ∀ old, r.subscription? group sub.topic = some old → old.version ≤ stored.version := by
  intro s s'
  have hw := hr.wellFormed
  have hgroup : ∀ call ∈ calls, call.2.group = group := fun call hcall =>
    hcompatible.group _ (List.mem_map_of_mem hcall)
  have hs := group?_registrations henv htime hw hname hgroup
  have hs' := group?_registrations henv htime hw hname
    (fun call hcall => hgroup call (hperm.mem_iff.mpr hcall))
  constructor
  · intro group'
    rw [hs, hs', foldl_afterJoining_perm hcompatible (hperm.map Prod.snd)]
  · intro call hcall sub hsub
    have hnames : ∀ q ∈ calls.map Prod.snd, Group.names q.subscriptions sub.topic = true := by
      intro q hq
      rw [hcompatible.topics q hq call.2 (List.mem_map_of_mem hcall), Group.names, List.any_eq_true]
      exact ⟨sub, hsub, beq_self_eq_true _⟩
    have hcovers := fun version => covers_foldl_afterJoining hcompatible.declares hnames
      r.clock.now (r.group? group) version
    have hstored : s.subscription? group sub.topic =
        ((calls.map Prod.snd).foldl (afterJoining r.clock.now) (r.group? group)).bind
          fun g => g.subscriptions.find? sub.topic := by
      rw [subscription?, hs, if_pos rfl]
    obtain ⟨stored, hfound, hle⟩ := hcovers sub.version
      (.inr ⟨call.2, List.mem_map_of_mem hcall, sub, hsub, rfl, rfl⟩)
    refine ⟨stored, hstored.trans hfound, hle, ?_⟩
    intro old hold
    obtain ⟨stored', hfound', hle'⟩ := hcovers old.version (.inl ⟨old, hold, UInt64.le_refl _⟩)
    rw [hfound, Option.some.injEq] at hfound'
    rw [hfound']
    exact hle'

/-- A client that declares one topic, under this version. -/
def knowing (id version : UInt64) (expression : String) : Registration :=
  { Registration.sample "g" id with subscriptions := [.ofTags "topic" expression version] }

/-- A group that has the second version of a subscription. -/
def secondVersion : Registry Unit :=
  (Registry.new default [0] default false ()).serveAll (.still Unit)
    [.register true (knowing 9 2 "b")]

/-- The third version stays whether the first one comes before or after it. -/
theorem a_late_version_changes_nothing :
    let calls := [(true, knowing 7 3 "c"), (false, knowing 8 1 "a")]
    let calls' := [(false, knowing 8 1 "a"), (true, knowing 7 3 "c")]
    let policy := (Registration.sample "g" 7).policy
    secondVersion.Reachable ∧ Compatible "g" policy (calls.map Prod.snd) ∧ calls.Perm calls' ∧
      let s := secondVersion.serveAll (.still Unit) (calls.map asked)
      let s' := secondVersion.serveAll (.still Unit) (calls'.map asked)
      s'.group? "g" = s.group? "g" ∧
      (s.subscription? "g" "topic").map (·.version) = some 3 := by
  intro calls calls' policy
  have hquiet := Surroundings.quiet_still Unit
  have hreachable : secondVersion.Reachable :=
    ⟨default, [0], default, false, (), steps_serveAll hquiet.steps (fun hc => hc.elim) _⟩
  have hname : IsName "g" := checkName_eq_ok_iff.mp (by rfl)
  have htime : (Surroundings.still Unit).ActBy KeepsTime := ⟨fun _ => rfl, fun _ _ _ _ => rfl⟩
  have hcompatible : Compatible "g" policy (calls.map Prod.snd) := by
    refine ⟨?_, ?_, ?_, ?_, ?_, ?_⟩
    · simp [calls, knowing, Registration.sample]
    · simp [calls, policy, knowing, Registration.sample]
    · simp [calls, knowing, Registration.sample]
    · decide
    · simp [calls, knowing, Registration.sample, Group.names, Subscription.ofTags]
    · simp [calls, knowing, Registration.sample, Subscription.ofTags]
  have hperm : calls.Perm calls' := .swap _ _ []
  obtain ⟨hsame, -⟩ := registrations_commute hreachable hname hquiet htime hcompatible hperm
  exact ⟨hreachable, hcompatible, hperm, hsame "g", by rfl⟩

end Registry

end ConsumerGroups
