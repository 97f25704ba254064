-- What comes of a declaration. A group goes through it entry by entry, and each entry meets what
-- the entries before it have stored. In the end the group has of every topic in it what it had
-- before, if nothing declared is as new, and else what is declared last of what has the greatest
-- version.
import ConsumerGroups.Proofs.Declared

set_option autoImplicit false

namespace ConsumerGroups

namespace Group

variable {best : Option Subscription} {subs : List Subscription} {s : Subscription}

/-! ## Entries to one topic, one after the other -/

/-- What is stored stays when all that comes is older. -/
theorem foldl_newerOf_of_lt (h : ∀ e ∈ subs, e.version < s.version) :
    subs.foldl newerOf (some s) = some s := by
  induction subs with
  | nil => rfl
  | cons e rest ih =>
    have hstale : newerOf (some s) e = some s := if_pos (h e List.mem_cons_self)
    rw [List.foldl_cons, hstale]
    exact ih fun e he => h e (List.mem_cons_of_mem _ he)

theorem newerOf_of_le (h : ∀ old, best = some old → old.version ≤ s.version) :
    newerOf best s = some s := by
  cases best with
  | none => rfl
  | some old => exact if_neg (UInt64.not_lt.mpr (h old rfl))

/-- Nothing stored is newer than all that was there before and all that came. -/
theorem foldl_newerOf_le {version : UInt64} (hbest : ∀ old, best = some old → old.version ≤ version)
    (h : ∀ e ∈ subs, e.version ≤ version) {stored : Subscription}
    (hstored : subs.foldl newerOf best = some stored) : stored.version ≤ version := by
  induction subs generalizing best with
  | nil => exact hbest stored hstored
  | cons e rest ih =>
    refine ih ?_ (fun e he => h e (List.mem_cons_of_mem _ he)) hstored
    intro old hold
    cases best with
    | none =>
      rw [newerOf, Option.some.injEq] at hold
      exact hold ▸ h e List.mem_cons_self
    | some older =>
      rw [newerOf] at hold
      split at hold
      · exact hbest old hold
      · rw [Option.some.injEq] at hold
        exact hold ▸ h e List.mem_cons_self

/-- The newest of what comes is stored in the end, unless what was there before is newer still. -/
theorem foldl_newerOf_of_isNewest (h : IsNewest subs s)
    (hbest : ∀ old, best = some old → old.version ≤ s.version) :
    subs.foldl newerOf best = some s := by
  obtain ⟨before, after, rfl, hbefore, hafter⟩ := h
  have hmet : ∀ old, before.foldl newerOf best = some old → old.version ≤ s.version :=
    fun old hold => foldl_newerOf_le hbest hbefore hold
  rw [List.foldl_append, List.foldl_cons, newerOf_of_le hmet]
  exact foldl_newerOf_of_lt hafter

end Group

theorem exists_isNewest {subs : List Subscription} (h : subs ≠ []) : ∃ s, IsNewest subs s := by
  obtain ⟨s, hs⟩ := Option.ne_none_iff_exists'.mp (mt newestOf_eq_none_iff.mp h)
  exact ⟨s, isNewest_of_newestOf hs⟩

theorem IsNewest.mem {subs : List Subscription} {s : Subscription} (h : IsNewest subs s) :
    s ∈ subs := by
  obtain ⟨before, after, rfl, -⟩ := h
  exact List.mem_append_right before List.mem_cons_self

namespace Group

variable {best : Option Subscription} {subs : List Subscription}

/-- Either what was there before is newer than all that comes, or the newest of what comes is
stored. -/
theorem foldl_newerOf_cases (hsubs : subs ≠ []) (best : Option Subscription) :
    (∃ old, best = some old ∧ (∀ e ∈ subs, e.version < old.version) ∧
      subs.foldl newerOf best = some old) ∨
    (∃ s, IsNewest subs s ∧ (∀ old, best = some old → old.version ≤ s.version) ∧
      subs.foldl newerOf best = some s) := by
  obtain ⟨s, hs⟩ := exists_isNewest hsubs
  by_cases hbest : ∀ old, best = some old → old.version ≤ s.version
  · exact .inr ⟨s, hs, hbest, foldl_newerOf_of_isNewest hs hbest⟩
  · left
    simp only [not_forall, UInt64.not_le] at hbest
    obtain ⟨old, rfl, hlt⟩ := hbest
    have hall : ∀ e ∈ subs, e.version < old.version :=
      fun e he => UInt64.lt_of_le_of_lt (hs.le e he) hlt
    exact ⟨old, rfl, hall, foldl_newerOf_of_lt hall⟩

/-- To go through the same entries again makes no difference in the end. -/
theorem foldl_newerOf_again (subs : List Subscription) (best : Option Subscription) :
    subs.foldl newerOf (subs.foldl newerOf best) = subs.foldl newerOf best := by
  by_cases hsubs : subs = []
  · rw [hsubs]
    rfl
  · rcases foldl_newerOf_cases hsubs best with ⟨old, -, hlt, hstored⟩ | ⟨s, hs, -, hstored⟩
    · rw [hstored]
      exact foldl_newerOf_of_lt hlt
    · rw [hstored]
      refine foldl_newerOf_of_isNewest hs ?_
      rintro old ⟨⟩
      exact UInt64.le_refl _

/-! ## A whole declaration -/

/-- What a declaration of these subscriptions at `now` makes of a group. -/
structure Declares (g : Group) (subs : List Subscription) (now : UInt64) (after : Group) :
    Prop where
  topics : ∀ topic, after.wants topic = true ↔ ∃ e ∈ subs, e.topic = topic
  /-- of a topic in it, what is newer than all that is declared stays -/
  stays : ∀ topic old, (∃ e ∈ subs, e.topic = topic) →
    g.subscriptions.find? topic = some old →
    (∀ e ∈ subs, e.topic = topic → e.version < old.version) →
    after.subscriptions.find? topic = some old
  /-- otherwise the last one of the greatest version is stored -/
  newest : ∀ topic, (∃ e ∈ subs, e.topic = topic) →
    (∀ old, g.subscriptions.find? topic = some old →
      ∃ e ∈ subs, e.topic = topic ∧ old.version ≤ e.version) →
    ∃ s, IsNewest (entriesOf topic subs) s ∧ after.subscriptions.find? topic = some s
  touchedAt : after.touchedAt = now
  clients : after.clients = g.clients
  policy : after.policy = g.policy
  name : after.name = g.name

/-- What is stored after a declaration is settled by what was stored before and by the entries to
each topic, however often and in whatever order of versions they name it. -/
theorem a_declaration_is_exact (g : Group) (subs : List Subscription) (now : UInt64) :
    Declares g subs now (g.declare subs now).group := by
  have hstored : ∀ topic, (∃ e ∈ subs, e.topic = topic) →
      (g.declare subs now).group.subscriptions.find? topic =
        (entriesOf topic subs).foldl newerOf (g.subscriptions.find? topic) := by
    intro topic htopic
    rw [find?_declare, if_pos (names_iff.mpr htopic)]
  refine ⟨?_, ?_, ?_, rfl, rfl, rfl, rfl⟩
  · intro topic
    rw [wants_declare, names_iff]
  · intro topic old htopic hold hlt
    rw [hstored topic htopic, hold]
    refine foldl_newerOf_of_lt ?_
    intro e he
    obtain ⟨he, htopic⟩ := mem_entriesOf.mp he
    exact hlt e he htopic
  · intro topic htopic hle
    have hentries : entriesOf topic subs ≠ [] := by
      rw [ne_eq, entriesOf_eq_nil_iff, names_iff.mpr htopic]
      simp
    obtain ⟨s, hs⟩ := exists_isNewest hentries
    refine ⟨s, hs, ?_⟩
    rw [hstored topic htopic]
    refine foldl_newerOf_of_isNewest hs ?_
    intro old hold
    obtain ⟨e, he, htopic, hversion⟩ := hle old hold
    exact UInt64.le_trans hversion (hs.le e (mem_entriesOf.mpr ⟨he, htopic⟩))

end Group

end ConsumerGroups
