-- The laws of one record. Every client and every subscription is stored under its own key, and a
-- registration leaves behind the client, the policy and the topics that it came with.
import Mathlib.Data.List.Basic
import ConsumerGroups.Registry.Register
import ConsumerGroups.Registry.Sweep

set_option autoImplicit false

namespace ConsumerGroups

namespace Group

theorem isEmpty_eq_false_iff {g : Group} :
    g.isEmpty = false ↔ ∃ id c, g.clients.find? id = some c := by
  have h : g.isEmpty = true ↔ ∀ id, g.clients.find? id = none := Table.isEmpty_iff
  rw [Bool.eq_false_iff, ne_eq, h]
  simp only [Classical.not_forall, ← ne_eq, Option.ne_none_iff_exists']

/-! ## Subscriptions -/

/-- Which of two subscriptions to a topic is stored: the later one, unless its version is smaller
than that of the other. -/
def newerOf (best : Option Subscription) (sub : Subscription) : Option Subscription :=
  match best with
  | none => some sub
  | some old => if sub.version < old.version then some old else some sub

theorem foldl_newerOf_eq_none_iff {best : Option Subscription} {subs : List Subscription} :
    subs.foldl newerOf best = none ↔ best = none ∧ subs = [] := by
  induction subs generalizing best with
  | nil => simp
  | cons sub rest ih =>
    have hsome : newerOf best sub ≠ none := by
      cases best with
      | none => simp [newerOf]
      | some old =>
        simp only [newerOf]
        split <;> simp
    simp [ih, hsome]

/-- The subscriptions to one topic in a list. -/
def entriesOf (topic : String) (subs : List Subscription) : List Subscription :=
  subs.filter (fun s => s.topic == topic)

theorem mem_entriesOf {topic : String} {subs : List Subscription} {sub : Subscription} :
    sub ∈ entriesOf topic subs ↔ sub ∈ subs ∧ sub.topic = topic := by
  rw [entriesOf, List.mem_filter, beq_iff_eq]

theorem names_iff {topic : String} {subs : List Subscription} :
    names subs topic = true ↔ ∃ sub ∈ subs, sub.topic = topic := by
  simp only [names, List.any_eq_true, beq_iff_eq]

theorem entriesOf_eq_nil_iff {topic : String} {subs : List Subscription} :
    entriesOf topic subs = [] ↔ names subs topic = false := by
  rw [entriesOf, List.filter_eq_nil_iff, names, List.any_eq_false]

theorem find?_accept (t : Table String Subscription) (sub : Subscription) (topic : String) :
    (accept t sub).find? topic =
      if sub.topic = topic then newerOf (t.find? topic) sub else t.find? topic := by
  by_cases ht : sub.topic = topic
  · subst ht
    rw [if_pos rfl]
    unfold accept isStale
    cases hold : t.find? sub.topic with
    | none => simp [newerOf, Table.find?_insert_self]
    | some old =>
      by_cases hstale : sub.version < old.version
      · simp [hstale, newerOf, hold]
      · simp [hstale, newerOf, Table.find?_insert_self]
  · rw [if_neg ht]
    unfold accept
    split
    · rfl
    · exact Table.find?_insert_of_ne _ _ (Ne.symm ht)

theorem find?_acceptAll (t : Table String Subscription) (subs : List Subscription)
    (topic : String) :
    (acceptAll t subs).find? topic = (entriesOf topic subs).foldl newerOf (t.find? topic) := by
  induction subs generalizing t with
  | nil => rfl
  | cons sub rest ih =>
    have ih := ih (accept t sub)
    rw [acceptAll, List.foldl_cons, ← acceptAll, ih, find?_accept]
    by_cases ht : sub.topic = topic
    · simp [entriesOf, ht]
    · simp [entriesOf, ht]

/-- After a declaration a group has of every topic in it what is newest, and nothing else. -/
theorem find?_declare (g : Group) (subs : List Subscription) (now : UInt64) (topic : String) :
    (g.declare subs now).group.subscriptions.find? topic =
      if names subs topic = true then (entriesOf topic subs).foldl newerOf
        (g.subscriptions.find? topic)
      else none := by
  simp only [declare, Table.find?_filter, find?_acceptAll]
  cases names subs topic with
  | true => cases (entriesOf topic subs).foldl newerOf (g.subscriptions.find? topic) <;> rfl
  | false => simp

/-- After a declaration a group wants the topics that are named in it, and no others. -/
theorem wants_declare (g : Group) (subs : List Subscription) (now : UInt64) (topic : String) :
    (g.declare subs now).group.wants topic = names subs topic := by
  rw [wants, Table.contains, find?_declare]
  cases hnames : names subs topic with
  | false => rfl
  | true =>
    have hentries : entriesOf topic subs ≠ [] := by
      rw [ne_eq, entriesOf_eq_nil_iff, hnames]
      simp
    rw [if_pos rfl, Option.isSome_iff_ne_none, ne_eq, foldl_newerOf_eq_none_iff]
    exact fun h => hentries h.2

/-! ## Every entry under its own key -/

/-- The clients are stored by their channels, and the subscriptions by their topics. -/
structure Keyed (g : Group) : Prop where
  clients : ∀ id c, g.clients.find? id = some c → c.channel.id = id
  subscriptions : ∀ topic s, g.subscriptions.find? topic = some s → s.topic = topic

theorem keyed_new (name : String) (policy : Policy) : (Group.new name policy).Keyed := by
  constructor
  · intro id c h
    cases h
  · intro topic s h
    cases h

theorem Keyed.withClients {g : Group} (h : g.Keyed) (p : UInt64 → Client → Bool) :
    ({ g with clients := g.clients.filter p } : Group).Keyed := by
  refine ⟨?_, h.subscriptions⟩
  intro id c hc
  rw [Table.find?_filter, Option.filter_eq_some_iff] at hc
  exact h.clients id c hc.1

theorem channel_id_heardRecord {old : Option Client} {client : Client}
    (h : ∀ c, old = some c → c.channel.id = client.channel.id) :
    (heardRecord old client).channel.id = client.channel.id := by
  cases old with
  | none => rfl
  | some old =>
    simp only [heardRecord]
    split
    · exact h old rfl
    · rfl

theorem Keyed.hear {g : Group} (h : g.Keyed) (client : Client) (policy : Policy) (now : UInt64) :
    (g.hear client policy now).group.Keyed := by
  refine ⟨?_, h.subscriptions⟩
  intro id c hc
  by_cases hid : id = client.channel.id
  · subst hid
    rw [Group.hear, Table.find?_insert_self, Option.some.injEq] at hc
    rw [← hc]
    refine channel_id_heardRecord ?_
    exact fun old hold => h.clients _ old hold
  · rw [Group.hear, Table.find?_insert_of_ne _ _ hid] at hc
    exact h.clients id c hc

theorem keyed_accept {t : Table String Subscription} (sub : Subscription)
    (h : ∀ topic s, t.find? topic = some s → s.topic = topic) :
    ∀ topic s, (accept t sub).find? topic = some s → s.topic = topic := by
  intro topic s hs
  unfold accept at hs
  split at hs
  · exact h topic s hs
  · by_cases ht : topic = sub.topic
    · subst ht
      rw [Table.find?_insert_self, Option.some.injEq] at hs
      rw [← hs]
    · rw [Table.find?_insert_of_ne _ _ ht] at hs
      exact h topic s hs

theorem keyed_acceptAll {t : Table String Subscription} (subs : List Subscription)
    (h : ∀ topic s, t.find? topic = some s → s.topic = topic) :
    ∀ topic s, (acceptAll t subs).find? topic = some s → s.topic = topic := by
  induction subs generalizing t with
  | nil => exact h
  | cons sub rest ih => exact ih (keyed_accept sub h)

theorem Keyed.declare {g : Group} (h : g.Keyed) (subs : List Subscription) (now : UInt64) :
    (g.declare subs now).group.Keyed := by
  refine ⟨h.clients, ?_⟩
  intro topic s hs
  simp only [Group.declare, Table.find?_filter, Option.filter_eq_some_iff] at hs
  exact keyed_acceptAll subs h.subscriptions topic s hs.1

end Group

/-! ## A group after a registration -/

namespace Registry

/-- The clients of a record, whatever the order of the walk. -/
theorem mem_clientsOf {Ω : Type} (env : Surroundings Ω) (g : Group) (c : Client) :
    c ∈ clientsOf env g ↔ ∃ id, g.clients.find? id = some c := by
  unfold clientsOf
  rw [List.mem_filterMap]
  constructor
  · rintro ⟨id, -, h⟩
    exact ⟨id, h⟩
  · rintro ⟨id, h⟩
    exact ⟨id, (env.walk.channels_perm _ _).mem_iff.mpr (Table.mem_keys_iff.mpr ⟨c, h⟩), h⟩

/-- A walk over a record meets each of its clients once. -/
theorem clientsOf_perm {Ω : Type} (env : Surroundings Ω) (g : Group) :
    (clientsOf env g).Perm g.clients.values := by
  have hvalues : g.clients.keys.filterMap g.clients.find? = g.clients.values := by
    rw [Table.keys, Table.values, List.filterMap_map,
      List.filterMap_eq_map_iff_forall_eq_some]
    exact fun e he => Table.mem_entries_iff.mp he
  rw [← hvalues]
  exact (env.walk.channels_perm g.name g.clients.keys).filterMap g.clients.find?

theorem mem_expiredOf {Ω : Type} (env : Surroundings Ω) (g : Group) (now limit : UInt64)
    (c : Client) : c ∈ expiredOf env g now limit ↔
      (∃ id, g.clients.find? id = some c) ∧ c.expired now limit = true := by
  unfold expiredOf
  rw [List.mem_filter, mem_clientsOf]

/-- To take out a client who is not there changes nothing. -/
theorem without_of_absent {g : Group} {id : UInt64} (h : g.clients.find? id = none) :
    g.without id = g := by
  have hclients : g.clients.erase id = g.clients := by
    refine Table.ext_find? ?_
    intro id'
    by_cases hid : id' = id
    · subst hid
      rw [Table.find?_erase_self, h]
    · rw [Table.find?_erase_of_ne _ hid]
  rw [Group.without, hclients]

/-- Who goes when the client on one channel is taken out. -/
theorem mem_gone_without {g : Group} {id : UInt64} {stored : Client}
    (hs : g.clients.find? id = some stored) (c : Client) :
    c ∈ [stored] ↔ ∃ id', g.clients.find? id' = some c ∧ (compare id id' != .eq) = false := by
  rw [List.mem_singleton]
  constructor
  · rintro rfl
    exact ⟨id, hs, by simp⟩
  · rintro ⟨j, hj, hid⟩
    simp only [bne_eq_false_iff_eq, Std.LawfulEqCmp.compare_eq_iff_eq] at hid
    subst hid
    rw [hs, Option.some.injEq] at hj
    exact hj.symm

/-- Who goes when those who have expired are taken out. -/
theorem mem_gone_withoutExpired {Ω : Type} (env : Surroundings Ω) (g : Group) (now limit : UInt64)
    (c : Client) : c ∈ expiredOf env g now limit ↔
      ∃ id, g.clients.find? id = some c ∧ (!c.expired now limit) = false := by
  rw [mem_expiredOf]
  simp

section

variable (q : Registration) (now : UInt64) (g : Group)

theorem revised_name : (revised q now g).group.name = g.name := by
  unfold revised
  dsimp only
  split <;> rfl

theorem revised_policy : (revised q now g).group.policy = q.policy := by
  unfold revised
  dsimp only
  split <;> rfl

theorem revised_touchedAt : (revised q now g).group.touchedAt = now := by
  unfold revised
  dsimp only
  split <;> rfl

theorem revised_clients : (revised q now g).group.clients =
    g.clients.insert q.client.channel.id
      (Group.heardRecord (g.clients.find? q.client.channel.id)
        { q.client with heardAt := now }) := by
  unfold revised
  dsimp only
  split <;> rfl

/-- The client of a registration is in the group afterwards. -/
theorem find?_revised_self : (revised q now g).group.clients.find? q.client.channel.id =
    some (Group.heardRecord (g.clients.find? q.client.channel.id)
      { q.client with heardAt := now }) := by
  rw [revised_clients, Table.find?_insert_self]

/-- A registration leaves the clients on other channels alone. -/
theorem find?_revised_of_ne {id : UInt64} (h : id ≠ q.client.channel.id) :
    (revised q now g).group.clients.find? id = g.clients.find? id := by
  rw [revised_clients, Table.find?_insert_of_ne _ _ h]

/-- Whoever was in the group stays in it. -/
theorem find?_revised_isSome {id : UInt64} (h : (g.clients.find? id).isSome = true) :
    ((revised q now g).group.clients.find? id).isSome = true := by
  by_cases hid : id = q.client.channel.id
  · subst hid
    rw [find?_revised_self]
    rfl
  · rw [find?_revised_of_ne q now g hid]
    exact h

theorem isEmpty_revised : (revised q now g).group.isEmpty = false := by
  rw [Bool.eq_false_iff, ne_eq, Group.isEmpty, Table.isEmpty_iff]
  intro h
  have := h q.client.channel.id
  rw [find?_revised_self] at this
  cases this

theorem keyed_revised {g : Group} (h : g.Keyed) : (revised q now g).group.Keyed := by
  unfold revised
  dsimp only
  split
  · exact (h.hear _ _ _).declare _ _
  · exact h.hear _ _ _

end

/-- The subscriptions of a group after a registration: those that it declares are taken up, and if
it declares none, all is as before. -/
theorem find?_revised_subscriptions (q : Registration) (now : UInt64) (g : Group)
    (topic : String) :
    (revised q now g).group.subscriptions.find? topic =
      if q.declares = true then
        if Group.names q.subscriptions topic = true then
          (Group.entriesOf topic q.subscriptions).foldl Group.newerOf
            (g.subscriptions.find? topic)
        else none
      else g.subscriptions.find? topic := by
  unfold revised
  dsimp only
  split
  · rw [Group.find?_declare, Group.hear_subscriptions]
  · rw [Group.hear_subscriptions]

/-- The topics of a declaration are those of the group afterwards. -/
theorem wants_revised {q : Registration} (h : q.declares = true) (now : UInt64) (g : Group)
    (topic : String) :
    (revised q now g).group.wants topic = Group.names q.subscriptions topic := by
  unfold revised
  simp only [h, if_true]
  exact Group.wants_declare _ _ _ _

/-- The record of a client that is heard of says of it what the client says, at this time. -/
theorem heardRecord_claims (old : Option Client) (client : Client) :
    (Group.heardRecord old client).sameClaims client = true ∧
      (Group.heardRecord old client).heardAt = client.heardAt := by
  unfold Group.heardRecord
  split
  · simp [Client.sameClaims]
  · split
    · rename_i h
      exact ⟨h, rfl⟩
    · simp [Client.sameClaims]

end Registry

end ConsumerGroups
