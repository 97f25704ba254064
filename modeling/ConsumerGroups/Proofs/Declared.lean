-- What a group wants follows from what happened. Of the topics in its latest declaration since it
-- came to have clients it stores what is newest among all that was declared of them in a row, and
-- its policy is that of its last registration. When its last client is gone, all of this is lost.
import Mathlib.Data.List.Induction
import ConsumerGroups.Proofs.History
import ConsumerGroups.Proofs.Soundness

set_option autoImplicit false

namespace ConsumerGroups

/-! ## The newest of several subscriptions -/

def newestOf (subs : List Subscription) : Option Subscription := subs.foldl Group.newerOf none

/-- A subscription has the greatest version in a list, and is the last one that has it. -/
def IsNewest (subs : List Subscription) (s : Subscription) : Prop :=
  ∃ before after, subs = before ++ s :: after ∧ (∀ e ∈ before, e.version ≤ s.version) ∧
    ∀ e ∈ after, e.version < s.version

theorem newestOf_append (subs : List Subscription) (sub : Subscription) :
    newestOf (subs ++ [sub]) = Group.newerOf (newestOf subs) sub := by
  simp [newestOf]

theorem newestOf_eq_none_iff {subs : List Subscription} : newestOf subs = none ↔ subs = [] := by
  simp [newestOf, Group.foldl_newerOf_eq_none_iff]

theorem IsNewest.le {subs : List Subscription} {s : Subscription} (h : IsNewest subs s) :
    ∀ e ∈ subs, e.version ≤ s.version := by
  obtain ⟨before, after, rfl, hbefore, hafter⟩ := h
  intro e he
  rcases List.mem_append.mp he with he | he
  · exact hbefore e he
  · rcases List.mem_cons.mp he with rfl | he
    · exact UInt64.le_refl _
    · exact UInt64.le_of_lt (hafter e he)

theorem isNewest_of_newestOf {subs : List Subscription} {s : Subscription}
    (h : newestOf subs = some s) : IsNewest subs s := by
  induction subs using List.reverseRecOn generalizing s with
  | nil => cases h
  | append_singleton subs sub ih =>
    rw [newestOf_append] at h
    cases hold : newestOf subs with
    | none =>
      rw [hold, Group.newerOf, Option.some.injEq] at h
      subst h
      rw [newestOf_eq_none_iff.mp hold]
      exact ⟨[], [], rfl, by simp, by simp⟩
    | some old =>
      rw [hold, Group.newerOf] at h
      have hnewest := ih hold
      split at h
      · -- the later one is stale
        rename_i hstale
        rw [Option.some.injEq] at h
        subst h
        obtain ⟨before, after, rfl, hbefore, hafter⟩ := hnewest
        refine ⟨before, after ++ [sub], by simp, hbefore, ?_⟩
        intro e he
        rcases List.mem_append.mp he with he | he
        · exact hafter e he
        · rw [List.mem_singleton.mp he]
          exact hstale
      · rename_i hfresh
        rw [Option.some.injEq] at h
        subst h
        refine ⟨subs, [], rfl, ?_, by simp⟩
        intro e he
        exact UInt64.le_trans (hnewest.le e he) (UInt64.not_lt.mp hfresh)

/-! ## What a history says of a group -/

/-- The registrations with a group and their times, newest first. -/
def arrivals (group : String) (h : List Happening) : List (Registration × UInt64) :=
  h.filterMap fun
    | .registered q time => if q.group = group then some (q, time) else none
    | _ => none

/-- The registrations with a group that declare what it wants, newest first. -/
def declarations (group : String) (h : List Happening) : List Registration :=
  ((arrivals group h).map (·.1)).filter (·.declares)

/-- Everything that was declared of a topic in the latest declarations in a row that name it, oldest
first. -/
def entriesFor (topic : String) (ds : List Registration) : List Subscription :=
  Group.entriesOf topic ((ds.takeWhile fun q => Group.names q.subscriptions topic).reverse.flatMap
    (·.subscriptions))

/-- A history says that a group has clients. -/
def Peopled (limit : UInt64) (group : String) (h : List Happening) : Prop :=
  ∃ id, Belongs limit group id h

/-- From the end of `before` on a group has had clients without a break, but it had none then. -/
structure Lasts (limit : UInt64) (group : String) (since before : List Happening) : Prop where
  vacant : ¬ Peopled limit group before
  peopled : Throughout (Peopled limit group) since before

/-- The latest declaration names a topic. -/
def Wants (group topic : String) (since : List Happening) : Prop :=
  ∃ q, (declarations group since).head? = some q ∧ Group.names q.subscriptions topic = true

/-- A history tells what a group wants: of every topic, what is newest of all that was declared of
it in a row since the group came to have clients. -/
def Tells (limit : UInt64) (group : String) (h : List Happening)
    (t : Table String Subscription) : Prop :=
  ∃ since before, h = since ++ before ∧ Lasts limit group since before ∧
    ∀ topic, t.find? topic = newestOf (entriesFor topic (declarations group since))

/-- The last registration with a group brought its policy and the time that it has. -/
def BroughtBy (group : String) (h : List Happening) (g : Group) : Prop :=
  ∃ q time, (arrivals group h).head? = some (q, time) ∧ g.policy = q.policy ∧ g.touchedAt = time

section

variable {limit : UInt64} {group : String} {h since before : List Happening} {e : Happening}

theorem arrivals_cons_self {q : Registration} (hq : q.group = group) (time : UInt64)
    (h : List Happening) :
    arrivals group (.registered q time :: h) = (q, time) :: arrivals group h := by
  simp [arrivals, hq]

theorem arrivals_cons_other (he : ∀ q time, e = .registered q time → q.group ≠ group) :
    arrivals group (e :: h) = arrivals group h := by
  cases e with
  | registered q time =>
    have hq := he q time rfl
    simp [arrivals, hq]
  | _ => rfl

theorem declarations_cons_other (he : ∀ q time, e = .registered q time → q.group ≠ group) :
    declarations group (e :: h) = declarations group h := by
  rw [declarations, arrivals_cons_other he, declarations]

theorem declarations_cons_self {q : Registration} (hq : q.group = group) (time : UInt64)
    (h : List Happening) :
    declarations group (.registered q time :: h) =
      if q.declares = true then q :: declarations group h else declarations group h := by
  rw [declarations, arrivals_cons_self hq, List.map_cons, List.filter_cons, declarations]

theorem entriesFor_cons (topic : String) (q : Registration) (ds : List Registration) :
    entriesFor topic (q :: ds) =
      if Group.names q.subscriptions topic = true then
        entriesFor topic ds ++ Group.entriesOf topic q.subscriptions
      else [] := by
  unfold entriesFor
  rw [List.takeWhile_cons]
  split
  · simp [Group.entriesOf]
  · rfl

/-- What is newest is there if the latest declaration names the topic. -/
theorem newestOf_entriesFor_ne_none_iff (group topic : String) (since : List Happening) :
    newestOf (entriesFor topic (declarations group since)) ≠ none ↔ Wants group topic since := by
  rw [ne_eq, newestOf_eq_none_iff, Wants]
  cases declarations group since with
  | nil => simp [entriesFor, Group.entriesOf]
  | cons q ds =>
    rw [entriesFor_cons]
    cases hnames : Group.names q.subscriptions topic with
    | true => simp [hnames, Group.entriesOf_eq_nil_iff]
    | false => simp [hnames]

/-- A group without clients wants nothing. -/
theorem tells_of_vacant (hno : ¬ Peopled limit group h) : Tells limit group h Table.empty :=
  ⟨[], h, rfl, ⟨hno, throughout_nil _ h⟩, fun _ => rfl⟩

/-- What is not a registration with a group leaves what it wants alone while it has clients. -/
theorem Tells.cons {t : Table String Subscription} (ht : Tells limit group h t)
    (he : ∀ q time, e = .registered q time → q.group ≠ group)
    (hp : Peopled limit group (e :: h)) : Tells limit group (e :: h) t := by
  obtain ⟨since, before, rfl, hl, hstored⟩ := ht
  refine ⟨e :: since, before, rfl, ⟨hl.vacant, hl.peopled.cons hp⟩, ?_⟩
  rw [declarations_cons_other he]
  exact hstored

end

namespace Registry

/-! ## A history of registrations and the groups after it -/

/-- A registration goes into the history as it goes into the record. -/
theorem tells_of_registered {limit : UInt64} {group : String} {h : List Happening} {g : Group}
    (ht : Tells limit group h g.subscriptions) {q : Registration} (hq : q.group = group)
    (time : UInt64) :
    Tells limit group (.registered q time :: h) (revised q time g).group.subscriptions := by
  have hp : Peopled limit group (.registered q time :: h) :=
    ⟨q.client.channel.id, belongs_of_registered ⟨hq.symm, rfl⟩ time h⟩
  obtain ⟨since, before, rfl, hl, hstored⟩ := ht
  refine ⟨.registered q time :: since, before, rfl, ⟨hl.vacant, hl.peopled.cons hp⟩, ?_⟩
  intro topic
  rw [find?_revised_subscriptions, hstored, declarations_cons_self hq]
  by_cases hd : q.declares = true
  · rw [if_pos hd, if_pos hd, entriesFor_cons]
    by_cases hn : Group.names q.subscriptions topic = true
    · rw [if_pos hn, if_pos hn, newestOf, newestOf, List.foldl_append]
    · rw [if_neg hn, if_neg hn]
      rfl
  · rw [if_neg hd, if_neg hd]

/-! ## Groups that wane -/

variable {Ω : Type} {env : Surroundings Ω} {r s : Registry Ω}

/-- Groups lose clients or go, and are otherwise as before. -/
def Wanes (r s : Registry Ω) : Prop :=
  ∀ group g', s.group? group = some g' →
    ∃ g, r.group? group = some g ∧ g' = { g with clients := g'.clients }

theorem Aside.wanes (h : r.Aside s) : r.Wanes s := by
  intro group g' hg'
  rw [h.group?] at hg'
  exact ⟨g', hg', rfl⟩

theorem wanes_setRecord {i : Nat} {g : Group} (hg : r.record? i = some g)
    (clients : Table UInt64 Client) : r.Wanes (r.setRecord i { g with clients }) := by
  intro group g' hg'
  by_cases hi : r.current? group = some i
  · have hi' : (r.setRecord i { g with clients }).current? group = some i := hi
    rw [group?_of_current hi', record?_setRecord_self r hg, Option.some.injEq] at hg'
    subst hg'
    exact ⟨g, by rw [group?_of_current hi, hg], rfl⟩
  · rw [group?_setRecord_of_ne hi] at hg'
    exact ⟨g', hg', rfl⟩

theorem wanes_removeRecord (r : Registry Ω) (group : String) (i : Nat) (g : Group) (call : Call) :
    r.Wanes (r.removeRecord group i g call) := by
  intro group' g' hg'
  by_cases hn : group' = group
  · subst hn
    rw [group?, current?_removeRecord] at hg'
    cases hg'
  · rw [group?, current?_removeRecord_of_ne r hn] at hg'
    exact ⟨g', hg', rfl⟩

theorem Wanes.removing : Removing (Wanes (Ω := Ω)) where
  aside := fun h _ _ => h.wanes
  trans := by
    intro r s t hrs hst group g'' hg''
    obtain ⟨g', hg', hsame'⟩ := hst group g'' hg''
    obtain ⟨g, hg, hsame⟩ := hrs group g' hg'
    refine ⟨g, hg, ?_⟩
    rw [hsame', hsame]
  release := fun hg _ => wanes_setRecord hg _
  unmap := fun {r group i g} call _ _ _ => wanes_removeRecord r group i g call

theorem wanes_serve (henv : env.ActBy Wanes) {request : Request}
    (hno : ∀ strict q, request ≠ .register strict q) : r.Wanes (r.serve env request) := by
  cases request with
  | register strict q => exact absurd rfl (hno strict q)
  | leave group client announce => exact Wanes.removing.leave henv group client announce r
  | channelClosed address id => exact Wanes.removing.channelClosed henv address id r
  | sweep => exact Wanes.removing.sweep henv r
  | addListener l => exact (Aside.addListener r l).wanes
  | setClock clock => exact (Aside.setClock r clock).wanes

/-- A group after a request: it took a registration, or it is as before but for its clients. -/
theorem group_after (henv : env.Quiet) (hw : r.WellFormed) {request : Request} {group : String}
    {g' : Group} (hg' : (r.serve env request).group? group = some g') :
    (∃ q time, r.happening? env request = some (.registered q time) ∧ q.group = group ∧
      g' = (revised q time ((r.group? group).getD (Group.new group q.policy))).group) ∨
    ((∀ q time, r.happening? env request = some (.registered q time) → q.group ≠ group) ∧
      ∃ g, r.group? group = some g ∧ g' = { g with clients := g'.clients }) := by
  have hacts : env.ActBy Wanes := henv.aside.mono fun _ _ h => h.wanes
  cases request with
  | register strict q =>
    by_cases hname : IsName q.group
    · have hhappened : r.happening? env (.register strict q) =
          some (.registered q (r.registerTime env q)) := by
        rw [happening?, checkName_eq_ok_iff.mpr hname]
      rw [group?_register henv hw hname] at hg'
      rw [hhappened]
      by_cases hn : group = q.group
      · subst hn
        rw [if_pos rfl, Option.some.injEq] at hg'
        exact .inl ⟨q, _, rfl, rfl, hg'.symm⟩
      · rw [if_neg hn] at hg'
        refine .inr ⟨?_, g', hg', rfl⟩
        intro q' time heq
        cases heq
        exact Ne.symm hn
    · right
      refine ⟨?_, (aside_of_flaw hname strict).wanes group g' hg'⟩
      intro q' time heq
      unfold happening? at heq
      dsimp only at heq
      split at heq
      · rename_i hcheck
        exact absurd (checkName_eq_ok_iff.mp hcheck) hname
      · cases heq
  | _ => exact .inr ⟨by simp [happening?], wanes_serve hacts (by simp) group g' hg'⟩

/-! ## A history accounts for a registry -/

/-- What a group has declared. -/
def declared (r : Registry Ω) (group : String) : Table String Subscription :=
  ((r.group? group).map (·.subscriptions)).getD Table.empty

/-- Between calls, a history accounts for the clients of a registry. -/
structure Accounted (limit : UInt64) (h : List Happening) (r : Registry Ω) : Prop where
  expiry : r.settings.expiry = limit
  wellFormed : r.WellFormed
  gentle : r.Gentle
  peopled : ∀ group i, ¬ r.Vacant group i
  clients : ∀ group id, AccountsFor limit group id h (r.clientOn? group id)

variable {limit : UInt64} {h : List Happening}

theorem Accounted.serve (hr : r.Accounted limit h) (henv : env.Quiet) {request : Request}
    (hcalm : request.IsCalm) :
    (r.serve env request).Accounted limit ((r.happening? env request).toList ++ h) := by
  have hsteps : Steps True r (r.serve env request) := steps_serve henv.steps (fun _ => hcalm) r
  have htidy : r.Tidy (r.serve env request) :=
    tidy_serve (henv.aside.mono fun _ _ h => h.tidy) henv.returns hcalm r
  refine ⟨?_, hsteps.wellFormed hr.wellFormed, hsteps.gentle hr.gentle, ?_, ?_⟩
  · rw [hsteps.settings, hr.expiry]
  · intro group i hv
    exact hr.peopled group i (htidy.2 hr.wellFormed hr.gentle group i hv)
  · intro group id
    rw [clientOn?_serve henv hr.wellFormed hr.gentle, hr.expiry]
    cases r.happening? env request with
    | none => exact hr.clients group id
    | some e => exact (hr.clients group id).cons e

/-- A group is on the table when the history says that it has clients. -/
theorem Accounted.group_iff (hr : r.Accounted limit h) (group : String) :
    (∃ g, r.group? group = some g) ↔ Peopled limit group h := by
  constructor
  · rintro ⟨g, hg⟩
    obtain ⟨i, hi, hgi⟩ := Option.bind_eq_some_iff.mp hg
    have hempty : g.isEmpty = false := by
      rw [Bool.eq_false_iff]
      exact fun hempty => hr.peopled group i ⟨hi, g, hgi, hempty⟩
    obtain ⟨id, c, hc⟩ := Group.isEmpty_eq_false_iff.mp hempty
    have hclient := hr.clients group id
    rw [clientOn?_of_record hi hgi, hc] at hclient
    exact ⟨id, Explains.belongs hclient⟩
  · rintro ⟨id, hb⟩
    have hclient := hr.clients group id
    cases hg : r.group? group with
    | some g => exact ⟨g, rfl⟩
    | none =>
      rw [clientOn?, hg] at hclient
      exact absurd hb hclient

/-- Between calls, a history accounts for everything that a registry stores of its groups. -/
structure Recounted (limit : UInt64) (h : List Happening) (r : Registry Ω) : Prop
    extends Accounted limit h r where
  brought : ∀ group g, r.group? group = some g → BroughtBy group h g
  told : ∀ group, Tells limit group h (r.declared group)

theorem declared_of_some {group : String} {g : Group} (hg : r.group? group = some g) :
    r.declared group = g.subscriptions := by
  rw [declared, hg]
  rfl

/-- A new group has declared nothing, so it does not matter whether a group is new. -/
theorem subscriptions_getD_new (r : Registry Ω) (group name : String) (policy : Policy) :
    ((r.group? group).getD (Group.new name policy)).subscriptions = r.declared group := by
  unfold declared
  cases r.group? group <;> rfl

theorem Recounted.serve (hr : r.Recounted limit h) (henv : env.Quiet) {request : Request}
    (hcalm : request.IsCalm) :
    (r.serve env request).Recounted limit ((r.happening? env request).toList ++ h) := by
  have haccounted := hr.toAccounted.serve henv hcalm
  refine ⟨haccounted, ?_, ?_⟩
  · intro group g' hg'
    rcases group_after henv hr.wellFormed hg' with ⟨q, time, hq, rfl, rfl⟩ | ⟨hother, g, hg, hsame⟩
    · refine ⟨q, time, ?_, revised_policy .., revised_touchedAt ..⟩
      rw [hq, Option.toList_some, List.singleton_append, arrivals_cons_self rfl]
      rfl
    · obtain ⟨q, time, hhead, hpolicy, htime⟩ := hr.brought group g hg
      refine ⟨q, time, ?_, by rw [hsame]; exact hpolicy, by rw [hsame]; exact htime⟩
      cases he : r.happening? env request with
      | none => exact hhead
      | some e =>
        rw [Option.toList_some, List.singleton_append, arrivals_cons_other, hhead]
        exact fun q' time' heq => hother q' time' (by rw [he, heq])
  · intro group
    cases hg' : (r.serve env request).group? group with
    | none =>
      have hno := mt (haccounted.group_iff group).mpr (by simp [hg'])
      rw [declared, hg']
      exact tells_of_vacant hno
    | some g' =>
      have hp := (haccounted.group_iff group).mp ⟨g', hg'⟩
      rw [declared_of_some hg']
      rcases group_after henv hr.wellFormed hg' with
        ⟨q, time, hq, rfl, rfl⟩ | ⟨hother, g, hg, hsame⟩
      · rw [hq]
        refine tells_of_registered ?_ rfl time
        rw [subscriptions_getD_new]
        exact hr.told q.group
      · have htold := hr.told group
        rw [declared_of_some hg] at htold
        rw [hsame]
        cases he : r.happening? env request with
        | none => exact htold
        | some e =>
          rw [he] at hp
          exact htold.cons (fun q' time' heq => hother q' time' (by rw [he, heq])) hp

theorem Recounted.serveAll (henv : env.Quiet) {requests : List Request}
    (hcalm : ∀ a ∈ requests, a.IsCalm) (hr : r.Recounted limit h) :
    (r.serveAll env requests).Recounted limit (history env requests r ++ h) := by
  induction requests generalizing r h with
  | nil => exact hr
  | cons a rest ih =>
    have hrest := ih (fun b hb => hcalm b (List.mem_cons_of_mem a hb))
      (hr.serve henv (hcalm a List.mem_cons_self))
    rw [← List.append_assoc] at hrest
    exact hrest

theorem recounted_new (settings : Settings) (listeners : List Nat) (clock : Clock)
    (measured : Bool) (outside : Ω) :
    (Registry.new settings listeners clock measured outside).Recounted settings.expiry [] where
  expiry := rfl
  wellFormed := wellFormed_new settings listeners clock measured outside
  gentle := gentle_new settings listeners clock measured outside
  peopled := by
    rintro group i ⟨hi, -⟩
    cases hi
  clients := fun _ _ => not_belongs_nil
  brought := by
    intro group g hg
    cases hg
  told := fun _ => tells_of_vacant fun ⟨_, hb⟩ => not_belongs_nil hb

/-! ## What can be looked up -/

theorem subscription?_eq (r : Registry Ω) (group topic : String) :
    r.subscription? group topic = (r.declared group).find? topic := by
  unfold subscription? declared
  cases r.group? group <;> rfl

theorem subscriptionCount_eq (r : Registry Ω) (group : String) :
    r.subscriptionCount group = (r.declared group).keys.length := by
  unfold subscriptionCount declared Table.keys
  rw [List.length_map]
  cases r.group? group <;> rfl

theorem mem_wanting_iff (r : Registry Ω) (group topic : String) :
    group ∈ r.wanting topic ↔ ∃ s, (r.declared group).find? topic = some s := by
  unfold wanting groupNames declared
  rw [List.mem_filter, Table.mem_keys_iff]
  cases hg : r.group? group with
  | none => simp
  | some g =>
    obtain ⟨i, hi, -⟩ := Option.bind_eq_some_iff.mp hg
    have hi : r.table.find? group = some i := hi
    simp [hi, Group.wants, Table.contains, Option.isSome_iff_exists]

/-- As long as nobody interferes, the history tells which topics a group wants and what is stored of
them, and what its policy is and when it was last touched. -/
theorem subscriptions_follow_from_history (henv : env.Quiet) (settings : Settings)
    (listeners : List Nat) (clock : Clock) (measured : Bool) (outside : Ω)
    {requests : List Request} (hcalm : ∀ a ∈ requests, a.IsCalm) (group : String) :
    let r₀ := Registry.new settings listeners clock measured outside
    let r := r₀.serveAll env requests
    let h := history env requests r₀
    ((∃ g, r.group? group = some g) ↔ Peopled settings.expiry group h) ∧
    (∀ g, r.group? group = some g → BroughtBy group h g) ∧
    ∃ since before, h = since ++ before ∧ Lasts settings.expiry group since before ∧
      (∀ topic,
        (group ∈ r.wanting topic ↔
          (∃ g, r.group? group = some g) ∧ Wants group topic since) ∧
        ((∃ s, r.subscription? group topic = some s) ↔
          (∃ g, r.group? group = some g) ∧ Wants group topic since) ∧
        ∀ s, r.subscription? group topic = some s →
          IsNewest (entriesFor topic (declarations group since)) s) ∧
      ∃ topics : List String, topics.Nodup ∧
        (∀ topic, topic ∈ topics ↔ (∃ g, r.group? group = some g) ∧ Wants group topic since) ∧
        r.subscriptionCount group = topics.length := by
  intro r₀ r h
  have hr : r.Recounted settings.expiry h := by
    have hnew := recounted_new settings listeners clock measured outside
    have hall := hnew.serveAll henv hcalm
    rwa [List.append_nil] at hall
  obtain ⟨since, before, hsplit, hl, hstored⟩ := hr.told group
  have hwants : ∀ topic, (∃ s, (r.declared group).find? topic = some s) ↔
      (∃ g, r.group? group = some g) ∧ Wants group topic since := by
    intro topic
    rw [← newestOf_entriesFor_ne_none_iff, ← hstored, Option.ne_none_iff_exists']
    constructor
    · rintro ⟨s, hs⟩
      refine ⟨?_, s, hs⟩
      cases hg : r.group? group with
      | some g => exact ⟨g, rfl⟩
      | none =>
        rw [declared, hg] at hs
        cases hs
    · exact fun h => h.2
  refine ⟨hr.group_iff group, hr.brought group, since, before, hsplit, hl, ?_, ?_⟩
  · intro topic
    refine ⟨?_, ?_, ?_⟩
    · rw [mem_wanting_iff]
      exact hwants topic
    · rw [subscription?_eq]
      exact hwants topic
    · intro s hs
      rw [subscription?_eq, hstored] at hs
      exact isNewest_of_newestOf hs
  · refine ⟨(r.declared group).keys, Table.nodup_keys _, ?_, r.subscriptionCount_eq group⟩
    intro topic
    rw [Table.mem_keys_iff]
    exact hwants topic

/-- A client declares two topics, and later it drops one of them and declares the other one twice,
the first time with an old version. -/
def revisions : List Request :=
  [.register true { Registration.sample "g" 7 with
      subscriptions := [.ofTags "a" "x" 2, .ofTags "b" "*" 1] },
    .setClock ⟨1000⟩,
    .register false { Registration.sample "g" 7 with
      subscriptions := [.ofTags "a" "y" 1, .ofTags "a" "z" 2] },
    .leave "g" (Registration.sample "g" 8).client true]

/-- Of several subscriptions to a topic the last of those with the greatest version is stored. -/
theorem a_topic_keeps_its_newest_subscription :
    (∀ a ∈ revisions, a.IsCalm) ∧
      ∃ since before s,
        history (.still Unit) revisions (Registry.new default [] default false ()) =
          since ++ before ∧
        Lasts (Settings.expiry default) "g" since before ∧
        ((Registry.new default [] default false ()).serveAll (.still Unit)
          revisions).subscription? "g" "a" = some s ∧
        s.expression = "z" ∧ IsNewest (entriesFor "a" (declarations "g" since)) s := by
  have hcalm : ∀ a ∈ revisions, a.IsCalm := by
    simp [revisions, Request.IsCalm, Registration.sample, Client.new]
  obtain ⟨-, -, since, before, hsplit, hl, htopics, -⟩ := subscriptions_follow_from_history
    (Surroundings.quiet_still Unit) default [] default false () hcalm "g"
  exact ⟨hcalm, since, before, _, hsplit, hl, rfl, rfl, (htopics "a").2.2 _ rfl⟩

end Registry

end ConsumerGroups
