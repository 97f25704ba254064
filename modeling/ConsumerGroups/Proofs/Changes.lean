-- The result of a registration is right: it tells whether what can be seen of the group is
-- different afterwards. No change is ever missed. One that nobody can see is told only when a
-- declaration names a topic more than once, because then an entry may undo what the entry before it
-- has done.
import Mathlib.Data.List.Nodup
import ConsumerGroups.Proofs.Fates

set_option autoImplicit false

namespace ConsumerGroups

/-! ## What can be seen -/

/-- What a client says of itself. -/
structure Claims where
  name : String
  language : Language
  version : UInt32
deriving DecidableEq

def Client.claims (c : Client) : Claims := ⟨c.name, c.language, c.version⟩

/-- What can be seen of a group: everything but its times and where its clients are. -/
structure Look where
  policy : Policy
  clients : Table UInt64 Claims
  subscriptions : Table String Subscription
deriving DecidableEq

def Group.look (g : Group) : Look :=
  ⟨g.policy, g.clients.mapValues Client.claims, g.subscriptions⟩

/-- What can be seen of a group, if it is there. -/
def Registry.look? {Ω : Type} (r : Registry Ω) (group : String) : Option Look :=
  (r.group? group).map Group.look

theorem Client.sameClaims_iff_claims {a b : Client} :
    a.sameClaims b = true ↔ a.claims = b.claims := by
  simp only [sameClaims_iff, claims, Claims.mk.injEq]

namespace Group

variable {g : Group} {t : Table String Subscription} {sub : Subscription}
  {subs : List Subscription}

/-! ## Declarations -/

/-- An entry that makes a difference is stored, and it was not stored before. -/
theorem find?_accept_of_differs (h : differs t sub = true) :
    (accept t sub).find? sub.topic = some sub ∧ t.find? sub.topic ≠ some sub := by
  simp only [differs, Bool.and_eq_true, Bool.not_eq_true', bne_iff_ne] at h
  obtain ⟨hfresh, hne⟩ := h
  refine ⟨?_, hne⟩
  rw [accept, hfresh, if_neg Bool.false_ne_true, Table.find?_insert_self]

/-- An entry that makes no difference leaves the table as it is. -/
theorem accept_of_same (h : differs t sub = false) : accept t sub = t := by
  unfold accept
  split
  · rfl
  · rename_i hfresh
    simp only [differs, hfresh, Bool.not_false, Bool.true_and, bne_eq_false_iff_eq] at h
    exact Table.insert_eq_self_iff.mpr h

/-- Whether entries make a difference can be told from the table as it was at first. -/
theorem anyDiffers_eq_any (t : Table String Subscription) (subs : List Subscription) :
    anyDiffers t subs = subs.any (differs t) := by
  induction subs generalizing t with
  | nil => rfl
  | cons sub rest ih =>
    rw [anyDiffers, List.any_cons]
    cases h : differs t sub with
    | true => rfl
    | false => rw [ih, accept_of_same h]

theorem acceptAll_of_same (h : anyDiffers t subs = false) : acceptAll t subs = t := by
  induction subs with
  | nil => rfl
  | cons sub rest ih =>
    rw [anyDiffers, Bool.or_eq_false_iff] at h
    rw [accept_of_same h.1] at h
    rw [acceptAll, List.foldl_cons, accept_of_same h.1]
    exact ih h.2

/-- A topic that is named once has one entry. -/
theorem entriesOf_of_nodup (hnodup : (subs.map (·.topic)).Nodup) (h : sub ∈ subs) :
    entriesOf sub.topic subs = [sub] := by
  induction subs with
  | nil => cases h
  | cons first rest ih =>
    rw [List.map_cons, List.nodup_cons] at hnodup
    obtain ⟨hfirst, hrest⟩ := hnodup
    rw [entriesOf, List.filter_cons]
    rcases List.mem_cons.mp h with rfl | h
    · rw [if_pos (beq_self_eq_true _), ← entriesOf, entriesOf_eq_nil_iff.mpr]
      rw [Bool.eq_false_iff, ne_eq, names_iff]
      rintro ⟨e, he, htopic⟩
      exact hfirst (htopic ▸ List.mem_map_of_mem he)
    · have hne : ¬ (first.topic == sub.topic) = true := by
        rw [beq_iff_eq]
        intro htopic
        exact hfirst (htopic ▸ List.mem_map_of_mem h)
      rw [if_neg hne, ← entriesOf]
      exact ih hrest h

/-- A declaration makes no difference when none of its entries does and it drops no topic. -/
theorem changed_declare_eq_false_iff (g : Group) (subs : List Subscription) (now : UInt64) :
    (g.declare subs now).changed = false ↔
      anyDiffers g.subscriptions subs = false ∧
        ∀ topic, g.wants topic = true → names subs topic = true := by
  simp only [declare, Bool.or_eq_false_iff, Bool.not_eq_false']
  refine and_congr_right fun hsame => ?_
  rw [acceptAll_of_same hsame, Table.isEmpty_iff]
  refine forall_congr' fun topic => ?_
  rw [Table.find?_filter, wants, Table.contains]
  cases g.subscriptions.find? topic with
  | none => simp
  | some stored => simp [Option.filter]

theorem subscriptions_of_unchanged {now : UInt64} (h : (g.declare subs now).changed = false) :
    (g.declare subs now).group.subscriptions = g.subscriptions := by
  obtain ⟨hsame, hnames⟩ := (changed_declare_eq_false_iff g subs now).mp h
  apply Table.ext_find?
  intro topic
  rw [find?_declare, ← find?_acceptAll, acceptAll_of_same hsame]
  split
  · rfl
  · rename_i hno
    have hwants : ¬ g.wants topic = true := fun h => hno (hnames topic h)
    rw [wants, Table.contains, Option.isSome_iff_ne_none, not_not] at hwants
    exact hwants.symm

/-- When no topic is named twice, no entry undoes another. -/
theorem subscriptions_of_changed {now : UInt64} (hnodup : (subs.map (·.topic)).Nodup)
    (h : (g.declare subs now).changed = true) :
    (g.declare subs now).group.subscriptions ≠ g.subscriptions := by
  intro hsame
  rw [← Bool.not_eq_false, changed_declare_eq_false_iff] at h
  refine h ⟨?_, ?_⟩
  · rw [anyDiffers_eq_any, List.any_eq_false]
    intro sub hsub hdiffers
    obtain ⟨hnew, hold⟩ := find?_accept_of_differs hdiffers
    have hstored : (g.declare subs now).group.subscriptions.find? sub.topic = some sub := by
      rw [find?_declare, if_pos (names_iff.mpr ⟨sub, hsub, rfl⟩), entriesOf_of_nodup hnodup hsub]
      rw [find?_accept, if_pos rfl] at hnew
      exact hnew
    rw [hsame] at hstored
    exact hold hstored
  · intro topic hwants
    rw [← wants_declare g subs now topic, wants, hsame]
    exact hwants

end Group

/-! ## Registrations -/

namespace Registry

section

variable (q : Registration) (now : UInt64) (g : Group)

theorem look_revised : (revised q now g).group.look =
    ⟨q.policy, (g.clients.mapValues Client.claims).insert q.client.channel.id q.client.claims,
      if q.declares = true then
        ((g.hear q.client q.policy now).group.declare q.subscriptions now).group.subscriptions
      else g.subscriptions⟩ := by
  have hclaims : (Group.heardRecord (g.clients.find? q.client.channel.id)
      { q.client with heardAt := now }).claims = q.client.claims :=
    Client.sameClaims_iff_claims.mp (heardRecord_claims _ _).1
  rw [Group.look, revised_policy, revised_clients, Table.mapValues_insert, hclaims]
  unfold revised
  dsimp only
  split <;> rfl

/-- A client is no news when the group knows it under what it says of itself now. -/
theorem isNews_eq_false_iff (old : Option Client) (client : Client) :
    Group.isNews old client = false ↔ old.map Client.claims = some client.claims := by
  cases old with
  | none => simp [Group.isNews]
  | some old =>
    simp only [Group.isNews, Bool.not_eq_false', Option.map_some, Option.some.injEq]
    exact Client.sameClaims_iff_claims

theorem changed_revised_eq_false_iff : (revised q now g).changed = false ↔
    g.policy = q.policy ∧
    (g.clients.mapValues Client.claims).find? q.client.channel.id = some q.client.claims ∧
    (q.declares = true →
      ((g.hear q.client q.policy now).group.declare q.subscriptions now).changed = false) := by
  have hheard : (g.hear q.client q.policy now).changed = false ↔ g.policy = q.policy ∧
      (g.clients.mapValues Client.claims).find? q.client.channel.id = some q.client.claims := by
    rw [Group.hear, Bool.or_eq_false_iff, decide_eq_false_iff_not, not_not, isNews_eq_false_iff,
      Table.find?_mapValues]
    rfl
  unfold revised
  dsimp only
  split
  · rename_i hdeclares
    rw [Bool.or_eq_false_iff, hheard, and_assoc]
    simp only [hdeclares, forall_const]
  · rename_i hno
    rw [hheard]
    simp [hno]

/-- What makes no difference cannot be seen. -/
theorem look_of_unchanged (h : (revised q now g).changed = false) :
    (revised q now g).group.look = g.look := by
  obtain ⟨hpolicy, hclient, hdeclared⟩ := (changed_revised_eq_false_iff q now g).mp h
  rw [look_revised, Table.insert_eq_self_iff.mpr hclient, ← hpolicy]
  split
  · rename_i hdeclares
    rw [hpolicy, Group.subscriptions_of_unchanged (hdeclared hdeclares), Group.hear_subscriptions,
      ← hpolicy]
    rfl
  · rfl

/-- What makes a difference can be seen, unless entries of a declaration undo each other. -/
theorem look_of_changed
    (hnodup : q.declares = true → (q.subscriptions.map (·.topic)).Nodup)
    (h : (revised q now g).changed = true) : (revised q now g).group.look ≠ g.look := by
  intro hsame
  rw [look_revised, Group.look, Look.mk.injEq] at hsame
  obtain ⟨hpolicy, hclients, hsubscriptions⟩ := hsame
  rw [← Bool.not_eq_false, changed_revised_eq_false_iff] at h
  refine h ⟨hpolicy.symm, Table.insert_eq_self_iff.mp hclients, ?_⟩
  intro hdeclares
  rw [if_pos hdeclares] at hsubscriptions
  rw [Bool.eq_false_iff]
  intro hchanged
  exact Group.subscriptions_of_changed (hnodup hdeclares) hchanged hsubscriptions

/-- A new client is always news. -/
theorem changed_revised_new (name : String) :
    (revised q now (Group.new name q.policy)).changed = true := by
  rw [← Bool.not_eq_false, changed_revised_eq_false_iff]
  rintro ⟨-, hclient, -⟩
  rw [Table.find?_mapValues] at hclient
  cases hclient

/-- A registration that makes no difference has found the group, and it looks the same. -/
theorem look_found_of_unchanged (found : Option Group)
    (h : (revised q now (found.getD (Group.new q.group q.policy))).changed = false) :
    found.map Group.look =
      some (revised q now (found.getD (Group.new q.group q.policy))).group.look := by
  cases found with
  | none =>
    rw [Option.getD_none, changed_revised_new] at h
    cases h
  | some g => exact congrArg some (look_of_unchanged q now g h).symm

theorem look_found_of_changed (found : Option Group)
    (hnodup : q.declares = true → (q.subscriptions.map (·.topic)).Nodup)
    (h : (revised q now (found.getD (Group.new q.group q.policy))).changed = true) :
    found.map Group.look ≠
      some (revised q now (found.getD (Group.new q.group q.policy))).group.look := by
  cases found with
  | none => exact (Option.some_ne_none _).symm
  | some g =>
    intro hsame
    exact look_of_changed q now g hnodup h (Option.some.inj hsame).symm

end

/-- Whether a registration has changed anything, as the caller is told. -/
def Reply.changed? : Reply → Option Bool
  | .tried (.ok (.ok changed)) => some changed
  | .registered (.ok changed) => some changed
  | _ => none

variable {Ω : Type} {env : Surroundings Ω} {r : Registry Ω} {q : Registration}

theorem proclaim_returns (henv : env.Quiet) (start : UInt64) (i : Nat) (changed : Bool)
    (r : Registry Ω) : (r.proclaim env q start i changed).2 = .ok changed := by
  unfold proclaim
  rw [andThen_of_ok (sample_returns henv start _)]

/-- However a registration is asked for, the caller is told what came of the attempt. -/
theorem changed?_register {changed : Bool} (h : (r.tryRegister env q).2 = .ok (.ok changed))
    (strict : Bool) : (r.reply env (.register strict q)).changed? = some changed := by
  cases strict with
  | true => rw [reply, h, Reply.changed?]
  | false => rw [reply, register, andThen_of_ok h, Reply.changed?]

theorem serve_register_of_ok {changed : Bool} (h : (r.tryRegister env q).2 = .ok (.ok changed))
    (strict : Bool) : r.serve env (.register strict q) = (r.tryRegister env q).1 := by
  cases strict with
  | true => rfl
  | false => rw [serve, register, andThen_of_ok h]

/-- The caller of a registration is told whether it made a difference to its record. -/
theorem changed?_of_quiet (henv : env.Quiet) (hw : r.WellFormed) (hname : IsName q.group)
    (strict : Bool) :
    (r.reply env (.register strict q)).changed? = some (revised q (r.registerTime env q)
      ((r.group? q.group).getD (Group.new q.group q.policy))).changed := by
  rw [← (attempted_of_quiet henv hw q).2]
  apply changed?_register
  rw [tryRegister_of_quiet henv hname]
  dsimp only
  rw [proclaim_returns henv]
  rfl

/-- A registration that nobody interferes with tells its caller whether anything has changed that
can be seen of its group. It misses no change. When it declares no topic twice, or nothing at all,
it tells of a change only if there is one. When it declares nothing, the subscriptions stay. -/
theorem the_caller_is_told_of_every_change (hr : r.Reachable) (henv : env.Quiet)
    (hname : IsName q.group) (strict : Bool) :
    let after := r.serve env (.register strict q)
    ∃ changed, (r.reply env (.register strict q)).changed? = some changed ∧
      (after.look? q.group ≠ r.look? q.group → changed = true) ∧
      ((q.declares = true → (q.subscriptions.map (·.topic)).Nodup) → changed = true →
        after.look? q.group ≠ r.look? q.group) ∧
      (q.declares = false → ∀ topic,
        after.subscription? q.group topic = r.subscription? q.group topic) := by
  intro after
  have hw := hr.wellFormed
  have hafter := group?_register henv hw hname strict q.group
  rw [if_pos rfl] at hafter
  have hlook : after.look? q.group = some (revised q (r.registerTime env q)
      ((r.group? q.group).getD (Group.new q.group q.policy))).group.look := by
    rw [look?, hafter, Option.map_some]
  refine ⟨_, changed?_of_quiet henv hw hname strict, ?_, ?_, ?_⟩
  · intro hne
    rw [← Bool.not_eq_false]
    intro hunchanged
    exact hne (hlook.trans (look_found_of_unchanged _ _ _ hunchanged).symm)
  · intro hnodup hchanged hsame
    exact look_found_of_changed _ _ _ hnodup hchanged (hsame.symm.trans hlook)
  · intro hdeclares topic
    have hno : ¬ q.declares = true := by
      rw [hdeclares]
      exact Bool.false_ne_true
    rw [subscription?, hafter, subscription?, Option.bind_some, find?_revised_subscriptions,
      if_neg hno]
    cases r.group? q.group <;> rfl

/-- A group with one client, which declares one topic. -/
def oneTopic : Registry Unit :=
  (Registry.new default [0] default false ()).serve (.still Unit) (.register true (.sample "g" 7))

/-- The client declares its topic twice, and comes back in the end to what it has declared before.
Its caller is told of a change that cannot be seen. With the new entry last it can be seen. -/
theorem a_change_may_be_undone :
    let topic := Subscription.ofTags "topic"
    let undone := { Registration.sample "g" 7 with subscriptions := [topic "a" 1, topic "*" 1] }
    let lasting := { Registration.sample "g" 7 with subscriptions := [topic "a" 1] }
    oneTopic.Reachable ∧
      (oneTopic.reply (.still Unit) (.register true undone)).changed? = some true ∧
      (oneTopic.serve (.still Unit) (.register true undone)).look? "g" = oneTopic.look? "g" ∧
      (oneTopic.reply (.still Unit) (.register true lasting)).changed? = some true ∧
      (oneTopic.serve (.still Unit) (.register true lasting)).look? "g" ≠ oneTopic.look? "g" := by
  intro topic undone lasting
  have hquiet := Surroundings.quiet_still Unit
  have hreachable : oneTopic.Reachable :=
    ⟨default, [0], default, false, (), steps_serve hquiet.steps (fun hc => hc.elim) _⟩
  have hname : IsName "g" := checkName_eq_ok_iff.mp (by rfl)
  obtain ⟨changed, htold, -, hseen, -⟩ :=
    the_caller_is_told_of_every_change (q := lasting) hreachable hquiet hname true
  have hchanged : (oneTopic.reply (.still Unit) (.register true lasting)).changed? = some true := by
    decide +kernel
  rw [hchanged, Option.some.injEq] at htold
  subst htold
  have hnodup : lasting.declares = true → (lasting.subscriptions.map (·.topic)).Nodup :=
    fun _ => List.nodup_singleton _
  exact ⟨hreachable, by decide +kernel, by decide +kernel, hchanged, hseen hnodup rfl⟩

end Registry

end ConsumerGroups
