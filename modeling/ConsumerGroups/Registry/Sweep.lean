-- The sweep: clients that were silent for too long are taken out of their groups and their channels
-- closed. A group that is left without clients goes silently.
import ConsumerGroups.Registry.Leave

set_option autoImplicit false

namespace ConsumerGroups.Registry

variable {Ω : Type}

/-- The clients of a record that have expired, in the order of the walk. -/
def expiredOf (env : Surroundings Ω) (g : Group) (now limit : UInt64) : List Client :=
  (clientsOf env g).filter (fun c => c.expired now limit)

def sweptLine (g : Group) (now : UInt64) (c : Client) : LogLine :=
  ⟨.warn, s!"SCAN: remove expired channel from consumer table, channel={c.channel.address}, " ++
    s!"group={g.name}, idle_ms={(elapsed now c.heardAt).toNat}"⟩

def clearedLine (g : Group) : LogLine :=
  ⟨.warn, s!"SCAN: remove expired channel from consumer table, all clear, group={g.name}"⟩

/-- Closes the channels of clients that were taken out, and tells the listeners of each. The result
counts the clients. A channel that panics ends the sweep. -/
def discard (env : Surroundings Ω) (now : UInt64) (g : Group) (i : Nat) :
    List Client → Registry Ω → Registry Ω × Returned Nat
  | [], r => (r, .ok 0)
  | c :: rest, r =>
    andThen ((r.logAll [sweptLine g now c]).closeQuietly c.channel) fun r _ =>
      andThen (discard env now g i rest (r.sendLeft env g.name i c)) fun r n => (r, .ok (n + 1))

/-- When no channel panics, every client is discarded. -/
theorem discard_returns (env : Surroundings Ω) (now : UInt64) (g : Group) (i : Nat)
    {cs : List Client} (h : ∀ c ∈ cs, c.channel.closing ≠ .panics) (r : Registry Ω) :
    (discard env now g i cs r).2 = .ok cs.length := by
  induction cs generalizing r with
  | nil => rfl
  | cons c rest ih =>
    have hc := closeQuietly_returns (r.logAll [sweptLine g now c]) (h c (by simp))
    have hrest := ih (fun d hd => h d (by simp [hd]))
    rw [discard, andThen_of_ok hc, andThen_of_ok (hrest _)]
    rfl

def sweepRecord (env : Surroundings Ω) (now : UInt64) (i : Nat) (r : Registry Ω) :
    Registry Ω × Returned Nat :=
  match r.record? i with
  | none => (r, .ok 0)
  | some g =>
    let limit := r.settings.expiry
    let gone := expiredOf env g now limit
    andThen (discard env now g i gone (r.takeFrom i (g.withoutExpired now limit) gone)) fun r n =>
      match r.removeIfVacant g.name i .sweep with
      | (r, true) => (r.logAll [clearedLine g], .ok n)
      | (r, false) => (r, .ok n)

def sweepAll (env : Surroundings Ω) (now : UInt64) :
    List Nat → Registry Ω → Registry Ω × Returned Nat
  | [], r => (r, .ok 0)
  | i :: rest, r =>
    andThen (r.sweepRecord env now i) fun r n =>
      andThen (sweepAll env now rest r) fun r m => (r, .ok (n + m))

/-- Sweeps the groups that are on the table now. The result counts the clients that were taken
out. -/
def sweep (env : Surroundings Ω) (r : Registry Ω) : Registry Ω × Returned Nat :=
  let (r, result) :=
    andThen ((r.note (.began .sweep)).readClock env) fun r now =>
      r.sweepAll env now (env.walk.records r.table.values)
  (r.note .ended, result)

/-! ## What was done when a sweep has returned -/

section

variable {env : Surroundings Ω} {now : UInt64} {r : Registry Ω} {n : Nat}

theorem discard_cons_of_ok {g : Group} {i : Nat} {c : Client} {rest : List Client}
    (h : (r.discard env now g i (c :: rest)).2 = .ok n) :
    ∃ closed m, (r.logAll [sweptLine g now c]).closeQuietly c.channel = (closed, .ok ()) ∧
      ((closed.sendLeft env g.name i c).discard env now g i rest).2 = .ok m ∧ n = m + 1 ∧
      (r.discard env now g i (c :: rest)).1 =
        ((closed.sendLeft env g.name i c).discard env now g i rest).1 := by
  rw [discard] at h ⊢
  obtain ⟨⟨⟩, hclosed, hgone⟩ := andThen_returns h
  rw [hgone] at h ⊢
  obtain ⟨m, hm, hrest⟩ := andThen_returns h
  rw [hrest, Except.ok.injEq] at h
  exact ⟨_, m, Prod.ext rfl hclosed, hm, h.symm, fst_andThen_ok _ _⟩

theorem sweepRecord_of_missing {i : Nat} (hg : r.record? i = none) (env : Surroundings Ω)
    (now : UInt64) : r.sweepRecord env now i = (r, .ok 0) := by
  unfold sweepRecord
  rw [hg]

/-- What is logged at the end of the sweep of a record. -/
def clearedLines (g : Group) (cleared : Bool) : List LogLine :=
  if cleared then [clearedLine g] else []

theorem sweepRecord_of_some {i : Nat} {g : Group} (hg : r.record? i = some g)
    (env : Surroundings Ω) (now : UInt64) :
    let gone := expiredOf env g now r.settings.expiry
    let taken := r.takeFrom i (g.withoutExpired now r.settings.expiry) gone
    r.sweepRecord env now i = andThen (taken.discard env now g i gone) fun s n =>
      let removed := s.removeIfVacant g.name i .sweep
      (removed.1.logAll (clearedLines g removed.2), .ok n) := by
  unfold sweepRecord
  simp only [hg]
  congr
  funext s n
  rcases s.removeIfVacant g.name i .sweep with ⟨t, _ | _⟩ <;> rfl

/-- Once those who have expired are discarded, the record is taken off the table if nobody is left
in it. -/
theorem sweepRecord_of_discarded {i : Nat} {g : Group} (hg : r.record? i = some g)
    {discarded : Registry Ω}
    (h : discard env now g i (expiredOf env g now r.settings.expiry)
      (r.takeFrom i (g.withoutExpired now r.settings.expiry)
        (expiredOf env g now r.settings.expiry)) = (discarded, .ok n)) :
    ∃ lines, r.sweepRecord env now i =
      ((discarded.removeIfVacant g.name i .sweep).1.logAll lines, .ok n) := by
  rw [sweepRecord_of_some hg, h, andThen_ok]
  exact ⟨_, rfl⟩

theorem discarded_of_ok {i : Nat} {g : Group} (hg : r.record? i = some g)
    (h : (r.sweepRecord env now i).2 = .ok n) :
    ∃ discarded, discard env now g i (expiredOf env g now r.settings.expiry)
      (r.takeFrom i (g.withoutExpired now r.settings.expiry)
        (expiredOf env g now r.settings.expiry)) = (discarded, .ok n) := by
  obtain ⟨m, hm, -⟩ : ∃ m, (discard env now g i (expiredOf env g now r.settings.expiry)
      (r.takeFrom i (g.withoutExpired now r.settings.expiry)
        (expiredOf env g now r.settings.expiry))).2 = .ok m ∧ _ := by
    rw [sweepRecord_of_some hg] at h
    exact andThen_returns h
  obtain ⟨lines, hdone⟩ := sweepRecord_of_discarded hg (Prod.ext rfl hm)
  rw [hdone, Except.ok.injEq] at h
  exact ⟨_, Prod.ext rfl (h ▸ hm)⟩

theorem sweepAll_cons_of_ok {i : Nat} {rest : List Nat}
    (h : (r.sweepAll env now (i :: rest)).2 = .ok n) :
    ∃ swept m k, r.sweepRecord env now i = (swept, .ok m) ∧
      (swept.sweepAll env now rest).2 = .ok k ∧ n = m + k ∧
      (r.sweepAll env now (i :: rest)).1 = (swept.sweepAll env now rest).1 := by
  rw [sweepAll] at h ⊢
  obtain ⟨m, hm, hswept⟩ := andThen_returns h
  rw [hswept] at h ⊢
  obtain ⟨k, hk, hrest⟩ := andThen_returns h
  rw [hrest, Except.ok.injEq] at h
  exact ⟨_, m, k, Prod.ext rfl hm, hk, h.symm, fst_andThen_ok _ _⟩

/-- When the reading has returned, the records are swept that are on the table by then. -/
theorem sweep_of_returns (h : (env.beforeReading (r.note (.began .sweep))).2 = .ok ()) :
    let read := (env.beforeReading (r.note (.began .sweep))).1
    let swept := read.sweepAll env read.clock.now (env.walk.records read.table.values)
    r.sweep env = (swept.1.note .ended, swept.2) := by
  rw [sweep, readClock_of_returns h, andThen_ok]

end

end ConsumerGroups.Registry
