-- What holds of a registry at every moment, also halfway through an operation: the table leads to
-- records of the right groups, and records keep their entries under the right keys. Every step
-- keeps it, so it is never lost.
import ConsumerGroups.Proofs.Steps

set_option autoImplicit false

namespace ConsumerGroups.Registry

variable {Ω : Type} {calm : Prop} {r s : Registry Ω}

/-- What holds of a registry at every moment. -/
structure WellFormed (r : Registry Ω) : Prop where
  /-- the table leads from a group to a record of this group -/
  recorded : ∀ group i, r.current? group = some i → ∃ g, r.record? i = some g ∧ g.name = group
  named : ∀ i g, r.record? i = some g → IsName g.name
  keyed : ∀ i g, r.record? i = some g → g.Keyed

/-- No client of a record is on a channel that panics when it is told to close. -/
def Gentle (r : Registry Ω) : Prop :=
  ∀ i g id c, r.record? i = some g → g.clients.find? id = some c → c.channel.closing ≠ .panics

/-- The sweep gets through a record of which no channel panics. -/
theorem Gentle.discard_returns (hr : r.Gentle) {i : Nat} {g : Group} (hg : r.record? i = some g)
    (env : Surroundings Ω) (now limit : UInt64) (s : Registry Ω) :
    (discard env now g i (expiredOf env g now limit) s).2 =
      .ok (expiredOf env g now limit).length := by
  refine Registry.discard_returns env now g i ?_ s
  intro c hc
  obtain ⟨⟨id, hid⟩, -⟩ := (mem_expiredOf env g now limit c).mp hc
  exact hr i g id c hg hid

/-- Where no channel panics, a sweep gets as far as taking an empty record off the table. -/
theorem Gentle.sweepRecord (hr : r.Gentle) {i : Nat} {g : Group} (hg : r.record? i = some g)
    (env : Surroundings Ω) (now : UInt64) :
    let gone := expiredOf env g now r.settings.expiry
    let taken := r.takeFrom i (g.withoutExpired now r.settings.expiry) gone
    ∃ lines, r.sweepRecord env now i =
      (((taken.discard env now g i gone).1.removeIfVacant g.name i .sweep).1.logAll lines,
        .ok gone.length) :=
  sweepRecord_of_discarded hg (Prod.ext rfl (hr.discard_returns hg env now _ _))

/-! ## What a step does to a record -/

/-- A record after a step: the same as before, a new one, or one that took a registration or lost
clients. -/
theorem Step.record_cases (h : Step calm r s) {i : Nat} {g' : Group}
    (hg' : s.record? i = some g') :
    r.record? i = some g' ∨
    (∃ name policy, IsName name ∧ g' = Group.new name policy) ∨
    (∃ g q now, r.record? i = some g ∧ (calm → q.client.channel.closing ≠ .panics) ∧
      g' = (revised q now g).group) ∨
    (∃ g stays, r.record? i = some g ∧ g' = { g with clients := g.clients.filter stays }) := by
  cases h with
  | aside h =>
    rw [h.record?] at hg'
    exact .inl hg'
  | found policy hname hnew =>
    rcases record?_of_addRecord hg' with hg | ⟨-, rfl⟩
    · exact .inl hg
    · exact .inr (.inl ⟨_, policy, hname, rfl⟩)
  | @revise j g q now hg hq =>
    by_cases hij : i = j
    · subst hij
      rw [record?_setRecord_self r hg, Option.some.injEq] at hg'
      exact .inr (.inr (.inl ⟨g, q, now, hg, hq, hg'.symm⟩))
    · rw [record?_setRecord_of_ne r hij] at hg'
      exact .inl hg'
  | @release j g stays gone hg _ =>
    rw [record?_takeFrom] at hg'
    by_cases hij : i = j
    · subst hij
      rw [record?_setRecord_self r hg, Option.some.injEq] at hg'
      exact .inr (.inr (.inr ⟨g, stays, hg, hg'.symm⟩))
    · rw [record?_setRecord_of_ne r hij] at hg'
      exact .inl hg'
  | unmap => exact .inl hg'

/-- A record is never lost, and keeps its name. -/
theorem Step.record_stays (h : Step calm r s) {i : Nat} {g : Group} (hg : r.record? i = some g) :
    ∃ g', s.record? i = some g' ∧ g'.name = g.name := by
  cases h with
  | aside h => exact ⟨g, by rw [h.record?, hg], rfl⟩
  | found policy hname hnew => exact ⟨g, record?_addRecord_of_some r hg _, rfl⟩
  | @revise j g₀ q now hg₀ _ =>
    by_cases hij : i = j
    · subst hij
      rw [hg, Option.some.injEq] at hg₀
      subst hg₀
      exact ⟨_, record?_setRecord_self r hg _, revised_name q now g⟩
    · exact ⟨g, by rw [record?_setRecord_of_ne r hij, hg], rfl⟩
  | @release j g₀ stays gone hg₀ _ =>
    by_cases hij : i = j
    · subst hij
      rw [hg, Option.some.injEq] at hg₀
      subst hg₀
      exact ⟨_, record?_setRecord_self r hg _, rfl⟩
    · exact ⟨g, by rw [record?_takeFrom, record?_setRecord_of_ne r hij, hg], rfl⟩
  | unmap => exact ⟨g, hg, rfl⟩

/-- A record that is on the table after a step was there before, or is new. -/
theorem Step.current_cases (h : Step calm r s) {group : String} {i : Nat}
    (hi : s.current? group = some i) :
    r.current? group = some i ∨ ∃ policy, s.record? i = some (Group.new group policy) := by
  cases h with
  | aside h =>
    rw [h.current?] at hi
    exact .inl hi
  | @found name policy hname hnew =>
    by_cases hgn : group = name
    · subst hgn
      have hself := current?_addRecord_self r (Group.new group policy)
      rw [show (Group.new group policy).name = group from rfl, hi, Option.some.injEq] at hself
      subst hself
      exact .inr ⟨policy, record?_addRecord_new r _⟩
    · rw [current?_addRecord_of_ne r hgn] at hi
      exact .inl hi
  | revise => exact .inl hi
  | release => exact .inl hi
  | @unmap group' j g call hj hg hempty =>
    by_cases hgn : group = group'
    · subst hgn
      rw [current?_removeRecord] at hi
      cases hi
    · rw [current?_removeRecord_of_ne r hgn] at hi
      exact .inl hi

theorem Step.settings (h : Step calm r s) : s.settings = r.settings := by
  cases h with
  | aside h => exact h.settings
  | found => rfl
  | revise => rfl
  | release => rfl
  | unmap => rfl

theorem Step.listeners (h : Step calm r s) : r.listeners <+: s.listeners := by
  cases h with
  | aside h => exact h.listeners
  | found => exact List.prefix_rfl
  | revise => exact List.prefix_rfl
  | release => exact List.prefix_rfl
  | unmap => exact List.prefix_rfl

/-- What was noted stays noted. -/
theorem Step.journal (h : Step calm r s) : r.journal <:+ s.journal := by
  cases h with
  | aside h =>
    obtain ⟨es, hes, -⟩ := h.journal
    exact ⟨es, hes.symm⟩
  | found => exact List.suffix_cons _ _
  | revise => exact List.suffix_rfl
  | release => exact List.suffix_append _ _
  | unmap => exact List.suffix_cons _ _

/-! ## What every step keeps -/

theorem Step.wellFormed (h : Step calm r s) (hr : r.WellFormed) : s.WellFormed := by
  refine ⟨?_, ?_, ?_⟩
  · intro group i hi
    rcases h.current_cases hi with hi | ⟨policy, hg⟩
    · obtain ⟨g, hg, hname⟩ := hr.recorded group i hi
      obtain ⟨g', hg', hname'⟩ := h.record_stays hg
      exact ⟨g', hg', hname'.trans hname⟩
    · exact ⟨_, hg, rfl⟩
  · intro i g' hg'
    rcases h.record_cases hg' with hg | ⟨name, policy, hname, rfl⟩ | ⟨g, q, now, hg, -, rfl⟩ |
      ⟨g, stays, hg, rfl⟩
    · exact hr.named i g' hg
    · exact hname
    · rw [revised_name]
      exact hr.named i g hg
    · exact hr.named i g hg
  · intro i g' hg'
    rcases h.record_cases hg' with hg | ⟨name, policy, -, rfl⟩ | ⟨g, q, now, hg, -, rfl⟩ |
      ⟨g, stays, hg, rfl⟩
    · exact hr.keyed i g' hg
    · exact Group.keyed_new name policy
    · exact keyed_revised q now (hr.keyed i g hg)
    · exact (hr.keyed i g hg).withClients stays

theorem Step.gentle (h : Step True r s) (hr : r.Gentle) : s.Gentle := by
  intro i g' id c hg' hc
  rcases h.record_cases hg' with hg | ⟨name, policy, -, rfl⟩ | ⟨g, q, now, hg, hq, rfl⟩ |
    ⟨g, stays, hg, rfl⟩
  · exact hr i g' id c hg hc
  · cases hc
  · by_cases hid : id = q.client.channel.id
    · subst hid
      rw [find?_revised_self, Option.some.injEq] at hc
      -- the record keeps the old channel or takes the one that the client came in on
      rw [← hc]
      cases hold : g.clients.find? q.client.channel.id with
      | none => exact hq trivial
      | some old =>
        simp only [Group.heardRecord]
        split
        · exact hr i g _ old hg hold
        · exact hq trivial
    · rw [find?_revised_of_ne q now g hid] at hc
      exact hr i g id c hg hc
  · rw [Table.find?_filter, Option.filter_eq_some_iff] at hc
    exact hr i g id c hg hc.1

theorem Aside.wellFormed (h : r.Aside s) (hr : r.WellFormed) : s.WellFormed := by
  have hstep : Step False r s := .aside h
  exact hstep.wellFormed hr

theorem Aside.gentle (h : r.Aside s) (hr : r.Gentle) : s.Gentle := by
  have hstep : Step True r s := .aside h
  exact hstep.gentle hr

/-! ## What every run keeps -/

theorem Steps.wellFormed (h : Steps calm r s) (hr : r.WellFormed) : s.WellFormed := by
  induction h with
  | refl => exact hr
  | tail _ hstep ih => exact hstep.wellFormed ih

theorem Steps.gentle (h : Steps True r s) (hr : r.Gentle) : s.Gentle := by
  induction h with
  | refl => exact hr
  | tail _ hstep ih => exact hstep.gentle ih

theorem Steps.settings (h : Steps calm r s) : s.settings = r.settings := by
  induction h with
  | refl => rfl
  | tail _ hstep ih => exact hstep.settings.trans ih

theorem Steps.listeners (h : Steps calm r s) : r.listeners <+: s.listeners := by
  induction h with
  | refl => exact List.prefix_rfl
  | tail _ hstep ih => exact ih.trans hstep.listeners

theorem Steps.journal (h : Steps calm r s) : r.journal <:+ s.journal := by
  induction h with
  | refl => exact List.suffix_rfl
  | tail _ hstep ih => exact ih.trans hstep.journal

theorem Steps.record_stays (h : Steps calm r s) {i : Nat} {g : Group} (hg : r.record? i = some g) :
    ∃ g', s.record? i = some g' ∧ g'.name = g.name := by
  induction h with
  | refl => exact ⟨g, hg, rfl⟩
  | tail _ hstep ih =>
    obtain ⟨g₁, hg₁, hname₁⟩ := ih
    obtain ⟨g₂, hg₂, hname₂⟩ := hstep.record_stays hg₁
    exact ⟨g₂, hg₂, hname₂.trans hname₁⟩

/-! ## The beginning -/

theorem wellFormed_new (settings : Settings) (listeners : List Nat) (clock : Clock)
    (measured : Bool) (outside : Ω) :
    (Registry.new settings listeners clock measured outside).WellFormed := by
  refine ⟨?_, ?_, ?_⟩
  · intro group i hi
    cases hi
  · intro i g hg
    simp [Registry.new, record?] at hg
  · intro i g hg
    simp [Registry.new, record?] at hg

theorem gentle_new (settings : Settings) (listeners : List Nat) (clock : Clock) (measured : Bool)
    (outside : Ω) : (Registry.new settings listeners clock measured outside).Gentle := by
  intro i g id c hg _
  simp [Registry.new, record?] at hg

/-! ## Lookups in a well-formed registry -/

theorem group?_of_current {group : String} {i : Nat} (h : r.current? group = some i) :
    r.group? group = r.record? i := by
  rw [group?, h, Option.bind_some]

theorem group?_eq_none_iff (hw : r.WellFormed) {group : String} :
    r.group? group = none ↔ r.current? group = none := by
  cases hi : r.current? group with
  | none => simp [group?, hi]
  | some i =>
    obtain ⟨g, hg, -⟩ := hw.recorded group i hi
    simp [group?_of_current hi, hg]

/-- A record is on the table for its own group only. -/
theorem WellFormed.name_of_current (hr : r.WellFormed) {group : String} {i : Nat} {g : Group}
    (hi : r.current? group = some i) (hg : r.record? i = some g) : g.name = group := by
  obtain ⟨g', hg', hname⟩ := hr.recorded group i hi
  rw [hg, Option.some.injEq] at hg'
  rw [hg', hname]

theorem WellFormed.current_unique (hr : r.WellFormed) {group group' : String} {i : Nat}
    (h : r.current? group = some i) (h' : r.current? group' = some i) : group = group' := by
  obtain ⟨g, hg, hname⟩ := hr.recorded group i h
  rw [← hname, hr.name_of_current h' hg]

end ConsumerGroups.Registry
