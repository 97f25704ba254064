-- The attempts of a registration, one by one. An attempt comes to nothing only when others took
-- its record off the table at its own reading of the clock, so there is at most one more of them
-- than others act. What the listeners hear of the registration itself, and what is measured of it,
-- is what it should be, however many attempts there are and whatever others do at the readings.
import ConsumerGroups.Proofs.Changes
import ConsumerGroups.Proofs.Resting
import ConsumerGroups.Proofs.Retirement
import ConsumerGroups.Proofs.Uttering

set_option autoImplicit false

namespace ConsumerGroups

/-- Surroundings in which listeners ask for nothing, while others attend to the registry whenever
the clock is read, and come to an end. -/
structure Surroundings.Interrupting {Ω : Type} (env : Surroundings Ω) : Prop where
  listener : env.OnlyListens
  reading : ∀ r : Registry Ω, Registry.Attended False r (env.beforeReading r).1
  ends : env.Bounded

theorem Surroundings.Interrupting.steps {Ω : Type} {env : Surroundings Ω} (h : env.Interrupting) :
    env.ActBy (Registry.Steps False) := by
  constructor
  · exact fun r => (h.reading r).steps
  · intro l group event r
    obtain ⟨clock, wires, lines, outside, hheard⟩ := h.listener l group event r
    rw [hheard]
    exact .single (.aside (Registry.aside_beside r clock wires lines outside))

namespace Registry

variable {Ω : Type} {env : Surroundings Ω} {q : Registration} {r s t last : Registry Ω}
  {failed : List (Registry Ω)}

/-! ## Attempts that come to nothing -/

/-- The attempts of a registration, by the states in which they begin: those that come to nothing,
and the last. -/
inductive Retries (env : Surroundings Ω) (q : Registration) :
    Registry Ω → List (Registry Ω) → Registry Ω → Prop where
  | last (r : Registry Ω) : Retries env q r [] r
  | again {r s last : Registry Ω} {failed : List (Registry Ω)} {i : Nat} {changed : Bool}
      (done : r.attempt env q = (s, .ok (i, changed))) (gone : s.current? q.group ≠ some i)
      (h : Retries env q (s.retried q) failed last) : Retries env q r (r :: failed) last

theorem Attempts.retries (h : Attempts env q r last) : ∃ failed, Retries env q r failed last := by
  induction h with
  | first r => exact ⟨[], .last r⟩
  | again done gone _ ih =>
    obtain ⟨failed, hfailed⟩ := ih
    exact ⟨_, .again done gone hfailed⟩

/-- Whether others act at the reading of an attempt, so that they may act less often from then
on. -/
def interrupted (env : Surroundings Ω) (q : Registration) (a : Registry Ω) : Bool :=
  env.interruptions (a.read env q).outside < env.interruptions (a.findOrFound env q).1.outside

/-- An attempt is foiled: others act at its reading, and then they take its record off the table. -/
structure Foiled (env : Surroundings Ω) (q : Registration) (a : Registry Ω) : Prop where
  interrupted : a.interrupted env q = true
  unmapped : ∃ es last call, (a.read env q).journal = es ++ (a.findOrFound env q).1.journal ∧
    .unmapped q.group (a.target env q) last call ∈ es

/-- What an attempt has done when it returns. -/
theorem attempted_of_done {i : Nat} {changed : Bool}
    (done : r.attempt env q = (s, .ok (i, changed))) :
    r.attempted env q = (s, changed) ∧ r.target env q = i := by
  rcases attempt_cases env q r with ⟨_, _, -, hpanic⟩ | ⟨-, hdone⟩
  · rw [done] at hpanic
    cases hpanic
  · rw [hdone] at done
    cases done
    exact ⟨rfl, rfl⟩

theorem foiled_of_gone (henv : env.Interrupting) {i : Nat} {changed : Bool}
    (done : r.attempt env q = (s, .ok (i, changed))) (gone : s.current? q.group ≠ some i) :
    Foiled env q r := by
  obtain ⟨hdone, rfl⟩ := attempted_of_done done
  have hs : s = (r.attempted env q).1 := (congrArg Prod.fst hdone).symm
  have hgone : (r.read env q).current? q.group ≠ some (r.target env q) := by
    rw [hs, attempted, current?, table_update] at gone
    exact gone
  have hfound := current?_findOrFound env q r
  constructor
  · rcases henv.ends.spends (r.findOrFound env q).1 with htable | hless
    · rw [read, current?, htable] at hgone
      exact absurd hfound hgone
    · exact decide_eq_true hless
  · exact (henv.steps.reading (r.findOrFound env q).1).goes_off hfound hgone

namespace Retries

theorem foiled (h : Retries env q r failed last) (henv : env.Interrupting) :
    ∀ a ∈ failed, Foiled env q a := by
  induction h with
  | last r => simp
  | again done gone _ ih =>
    intro a ha
    rcases List.mem_cons.mp ha with rfl | ha
    · exact foiled_of_gone henv done gone
    · exact ih a ha

/-- Every attempt but the last one is interrupted. -/
theorem length_le_interrupted (h : Retries env q r failed last) (henv : env.Interrupting) :
    (failed ++ [last]).length ≤ (failed ++ [last]).countP (interrupted env q) + 1 := by
  have hall : failed.countP (interrupted env q) = failed.length :=
    List.countP_eq_length.mpr fun a ha => (h.foiled henv a ha).interrupted
  rw [List.length_append, List.countP_append, hall, List.length_singleton]
  omega

/-- There are no more attempts that come to nothing than others may still act. -/
theorem length_le (h : Retries env q r failed last) (hends : env.Bounded) :
    failed.length + env.interruptions last.outside ≤ env.interruptions r.outside := by
  induction h with
  | last r => simp
  | @again r s last failed i changed done gone _ ih =>
    have hless := (attempt_spends hends done).resolve_left gone
    have hretried : (s.retried q).outside = s.outside := rfl
    rw [hretried] at ih
    rw [List.length_cons]
    omega

end Retries

/-! ## What is uttered -/

/-- What an attempt utters: that the client joins, if the group is not there. -/
def joining (q : Registration) (a : Registry Ω) : List (String × Event) :=
  if a.current? q.group = none then [(q.group, .clientJoined q.client q.topics)] else []

theorem utters_findOrFound (henv : env.OnlyListens) (q : Registration) (r : Registry Ω) :
    Utters (joining q r) r (r.findOrFound env q).1 := by
  unfold joining
  cases hi : r.current? q.group with
  | some i =>
    rw [if_neg (by simp), findOrFound_of_current hi env]
    exact .refl r
  | none =>
    let joined := (r.send env q.group (.clientJoined q.client q.topics)).1
    have hsent : Utters [(q.group, .clientJoined q.client q.topics)] r joined :=
      .send henv q.group _ r
    have hfounded : Utters [] joined (joined.addRecord (Group.new q.group q.policy)) :=
      .of_unmarked [.mapped q.group joined.records.length] rfl (by simp [Entry.isMark])
    rw [if_pos rfl]
    unfold findOrFound
    rw [hi]
    dsimp only
    split
    · exact hsent
    · exact hsent.before hfounded

theorem utters_update (q : Registration) (i : Nat) (now : UInt64) (r : Registry Ω) :
    Utters [] r (r.update q i now).1 := by
  unfold update
  split
  · exact .refl r
  · exact Utters.logAll (r.setRecord i _) _

/-- What others do before a reading is not uttered by the call that reads the clock. -/
theorem utters_reading (henv : env.Interrupting) (hr : r.Kept False) :
    Utters [] r (env.beforeReading r).1 := .of_course ((henv.reading r).course hr none)

theorem utters_attempt (henv : env.Interrupting) (hname : IsName q.group) (hr : r.Kept False)
    {i : Nat} {changed : Bool} (done : r.attempt env q = (s, .ok (i, changed))) :
    Utters (joining q r) r s := by
  have hfound : Steps False r (r.findOrFound env q).1 :=
    Steps.admitting.findOrFound henv.steps hname r
  have hread : Utters [] (r.findOrFound env q).1 (r.read env q) :=
    utters_reading henv (hfound.kept hr)
  have hs : (r.attempted env q).1 = s := congrArg Prod.fst (attempted_of_done done).1
  rw [← hs]
  exact ((utters_findOrFound henv.listener q r).before hread).before (utters_update q _ _ _)

theorem steps_attempt (henv : env.Interrupting) (hname : IsName q.group)
    {result : Returned (Nat × Bool)} (done : r.attempt env q = (s, result)) : Steps False r s := by
  have hattempt : Steps False r (r.attempt env q).1 :=
    Steps.admitting.attempt henv.steps hname (fun hc => hc.elim) r
  rwa [done] at hattempt

theorem Retries.kept (h : Retries env q r failed last) (henv : env.Interrupting)
    (hname : IsName q.group) (hr : r.Kept False) : last.Kept False := by
  induction h with
  | last r => exact hr
  | again done gone _ ih => exact ih (((steps_attempt henv hname done).kept hr).aside (.logAll _ _))

/-- Each attempt that comes to nothing has uttered that the client joins, if it found no group. -/
theorem Retries.utters (h : Retries env q r failed last) (henv : env.Interrupting)
    (hname : IsName q.group) (hr : r.Kept False) : Utters (failed.flatMap (joining q)) r last := by
  induction h with
  | last r => exact .refl r
  | @again r s last failed i changed done gone _ ih =>
    have hretried : (s.retried q).Kept False :=
      ((steps_attempt henv hname done).kept hr).aside (.logAll _ _)
    rw [List.flatMap_cons]
    exact ((utters_attempt henv hname hr done).before (.logAll s _)).trans (ih hretried)

/-- So has the last attempt, which is for good. -/
theorem Retries.utters_placed (h : Retries env q r failed last) (henv : env.Interrupting)
    (hname : IsName q.group) (hr : r.Kept False) {i : Nat} {changed : Bool}
    (done : last.attempt env q = (s, .ok (i, changed))) :
    Utters ((failed ++ [last]).flatMap (joining q)) r s := by
  rw [List.flatMap_append, List.flatMap_singleton]
  exact (h.utters henv hname hr).trans (utters_attempt henv hname (h.kept henv hname hr) done)

/-! ## What is measured -/

/-- From a state on the samples stay as they are until the clock is read in the first of these
states, from the end of this reading until the next one, and so on to the last state. -/
def SamplesStay (env : Surroundings Ω) : Registry Ω → List (Registry Ω) → Registry Ω → Prop
  | r, [], s => s.samples = r.samples
  | r, reading :: rest, s =>
    reading.samples = r.samples ∧ SamplesStay env (env.beforeReading reading).1 rest s

theorem SamplesStay.congr_left {readings : List (Registry Ω)} (h : SamplesStay env s readings t)
    (hsame : s.samples = r.samples) : SamplesStay env r readings t := by
  cases readings with
  | nil => exact h.trans hsame
  | cons first rest => exact ⟨h.1.trans hsame, h.2⟩

theorem SamplesStay.append {readings readings' : List (Registry Ω)}
    (h : SamplesStay env r readings s) (h' : SamplesStay env s readings' t) :
    SamplesStay env r (readings ++ readings') t := by
  induction readings generalizing r with
  | nil => exact h'.congr_left h
  | cons first rest ih => exact ⟨h.1, ih h.2⟩

/-- The state in which an attempt reads the clock. -/
def found (env : Surroundings Ω) (q : Registration) (a : Registry Ω) : Registry Ω :=
  (a.findOrFound env q).1

theorem samples_found (henv : env.OnlyListens) (q : Registration) (r : Registry Ω) :
    (r.found env q).samples = r.samples := by
  have hsent := Rests.send henv q.group (.clientJoined q.client q.topics) r
  unfold found findOrFound
  split
  · rfl
  · dsimp only
    split
    · exact hsent.samples
    · exact hsent.samples

theorem samples_update (q : Registration) (i : Nat) (now : UInt64) (r : Registry Ω) :
    (r.update q i now).1.samples = r.samples := by
  unfold update
  split <;> rfl

theorem samplesStay_attempt (henv : env.OnlyListens) {i : Nat} {changed : Bool}
    (done : r.attempt env q = (s, .ok (i, changed))) : SamplesStay env r [r.found env q] s := by
  have hs : (r.attempted env q).1 = s := congrArg Prod.fst (attempted_of_done done).1
  rw [← hs]
  exact ⟨samples_found henv q r, samples_update q _ _ _⟩

theorem Retries.samplesStay (h : Retries env q r failed last) (henv : env.OnlyListens) :
    SamplesStay env r (failed.map (found env q)) last := by
  induction h with
  | last r => exact rfl
  | @again r s last failed i changed done gone _ ih =>
    have hretried : (s.retried q).samples = s.samples := rfl
    exact (samplesStay_attempt henv done).append (ih.congr_left hretried)

theorem Retries.samplesStay_placed (h : Retries env q r failed last) (henv : env.OnlyListens)
    {i : Nat} {changed : Bool} (done : last.attempt env q = (s, .ok (i, changed))) :
    SamplesStay env r ((failed ++ [last]).map (found env q)) s := by
  rw [List.map_append, List.map_singleton]
  exact (h.samplesStay henv).append (samplesStay_attempt henv done)

/-- The samples once it is measured how long it took from `start` on, if that is measured. -/
def sampled (env : Surroundings Ω) (start : UInt64) (r : Registry Ω) : Option (List UInt64) :=
  match r.samples with
  | none => none
  | some _ =>
    let read := (env.beforeReading r).1
    read.samples.map (· ++ [elapsed read.clock.now start])

/-- Measuring panics with its reading of the clock, or takes the sample and utters nothing. -/
theorem sample_cases (henv : env.Interrupting) (hr : r.Kept False) (start : UInt64) :
    (∃ panic, (env.beforeReading r).2 = .error panic ∧ (r.sample env start).2 = .error panic) ∨
    ((r.sample env start).2 = .ok () ∧ (r.sample env start).1.samples = r.sampled env start ∧
      Utters [] r (r.sample env start).1) := by
  unfold sample sampled
  cases hsamples : r.samples with
  | none => exact .inr ⟨rfl, hsamples, .refl r⟩
  | some _ =>
    dsimp only
    cases h : (env.beforeReading r).2 with
    | error panic =>
      left
      rw [readClock_of_panics h, andThen_error]
      exact ⟨panic, rfl, rfl⟩
    | ok _ =>
      right
      rw [readClock_of_returns h, andThen_ok]
      exact ⟨rfl, rfl, (utters_reading henv hr).before (.of_journal rfl)⟩

/-! ## A whole registration -/

/-- The state after the last attempt once the listeners were told of a change, if there was one. -/
def announced (env : Surroundings Ω) (q : Registration) (i : Nat) (changed : Bool)
    (r : Registry Ω) : Registry Ω :=
  if changed && q.announce then r.sendChanged env q.group i else r

/-- What a registration utters after its last attempt. -/
def proclaimed (env : Surroundings Ω) (q : Registration) (g : Group) (changed : Bool) :
    List (String × Event) :=
  (if changed && q.announce then [(q.group, .changed (clientsOf env g))] else []) ++
    [(q.group, .declared q.subscriptions)]

theorem proclaim_cases (henv : env.Interrupting) (hr : r.Kept False) (start : UInt64) {i : Nat}
    {g : Group} (hg : r.record? i = some g) (changed : Bool) :
    let announced := r.announced env q i changed
    (∃ panic, (env.beforeReading announced).2 = .error panic ∧
      (r.proclaim env q start i changed).2 = .error panic) ∨
    ((r.proclaim env q start i changed).2 = .ok changed ∧ announced.samples = r.samples ∧
      (r.proclaim env q start i changed).1.samples = announced.sampled env start ∧
      Utters (proclaimed env q g changed) r (r.proclaim env q start i changed).1) := by
  intro announced
  have htold : Rests r announced ∧
      Utters (if changed && q.announce then [(q.group, .changed (clientsOf env g))] else []) r
        announced := by
    unfold announced Registry.announced
    split
    · exact ⟨.sendChanged henv.listener q.group i r, .sendChanged henv.listener q.group hg⟩
    · exact ⟨.refl r, .refl r⟩
  have hkept : announced.Kept False := by
    unfold announced Registry.announced
    split
    · exact (Steps.tolerant.sendChanged henv.steps q.group i r).kept hr
    · exact hr
  have hproclaim : r.proclaim env q start i changed = andThen (announced.sample env start)
      fun s _ => ((s.send env q.group (.declared q.subscriptions)).1, .ok changed) := rfl
  rw [hproclaim]
  rcases sample_cases henv hkept start with ⟨panic, hpanic, hsample⟩ | ⟨hsample, hsamples, hutters⟩
  · left
    rw [andThen_of_error hsample]
    exact ⟨panic, hpanic, rfl⟩
  · right
    let sampled := (announced.sample env start).1
    have hsent := Utters.send henv.listener q.group (.declared q.subscriptions) sampled
    have hrests := Rests.send henv.listener q.group (.declared q.subscriptions) sampled
    rw [andThen_of_ok hsample]
    exact ⟨rfl, htold.1.samples, hrests.samples.trans hsamples,
      (htold.2.before hutters).trans hsent⟩

/-- A registration begins when it first reads the clock. -/
theorem start_of_place {start : UInt64} {i : Nat} {changed : Bool}
    (h : r.place env q = (s, .ok (start, i, changed))) :
    start = (env.beforeReading r).1.clock.now := by
  unfold place at h
  cases hread : (env.beforeReading r).2 with
  | error panic =>
    rw [readClock_of_panics hread, andThen_error] at h
    cases h
  | ok _ =>
    rw [readClock_of_returns hread, andThen_ok] at h
    obtain ⟨result, -, hdone⟩ := andThen_returns (congrArg Prod.snd h)
    rw [hdone] at h
    cases h
    rfl

/-- Where others come to an end, a registration has attempts and the last of them is for good,
unless a reading panics. -/
theorem place_retries (henv : env.Interrupting) (q : Registration) (r : Registry Ω) :
    (∃ s panic, (env.beforeReading s).2 = .error panic ∧ (r.place env q).2 = .error panic) ∨
    ∃ failed last placed i changed,
      r.place env q = (placed, .ok ((env.beforeReading r).1.clock.now, i, changed)) ∧
      Retries env q (env.beforeReading r).1 failed last ∧
      last.attempt env q = (placed, .ok (i, changed)) ∧ placed.current? q.group = some i := by
  rcases place_cases henv.ends q r with
    hpanic | ⟨start, last, placed, i, changed, hplaced, hlast, hattempt, hcurrent⟩
  · exact .inl hpanic
  · obtain ⟨failed, hfailed⟩ := hlast.retries
    rw [fst_readClock] at hfailed
    rw [start_of_place hplaced] at hplaced
    exact .inr ⟨failed, last, placed, i, changed, hplaced, hfailed, hattempt, hcurrent⟩

/-- While listeners ask for nothing and others come to an end, a registration returns, unless a
reading of the clock panics. An attempt comes to nothing only when it is foiled, so there is at most
one attempt more than there are attempts at whose readings others act. The caller is told what came
of the last attempt. The registration utters that its client joins, once for each attempt that found
no group; then that the clients have changed, if the last attempt says so and this is to be
announced; and then its subscriptions as they were given. If it is measured, it takes one sample in
the end: the time from its first reading to that after the announcement. -/
theorem a_registration_utters_what_it_should (hr : r.Reachable) (henv : env.Interrupting)
    (hname : IsName q.group) (strict : Bool) :
    let begun := r.note (.began (.register q.group q.client.channel.id))
    let started := (env.beforeReading begun).1
    let after := r.serve env (.register strict q)
    (∃ s panic, (env.beforeReading s).2 = .error panic ∧
      (r.tryRegister env q).2 = .error panic) ∨
    ∃ failed last placed i g changed inner,
      let attempts := failed ++ [last]
      let announced := placed.announced env q i changed
      Retries env q started failed last ∧ (∀ a ∈ failed, Foiled env q a) ∧
      attempts.length ≤ attempts.countP (interrupted env q) + 1 ∧
      attempts.length ≤ env.interruptions started.outside + 1 ∧
      last.attempt env q = (placed, .ok (i, changed)) ∧
      placed.current? q.group = some i ∧ placed.record? i = some g ∧
      (r.reply env (.register strict q)).changed? = some changed ∧
      after.journal = .ended :: (inner ++ begun.journal) ∧ Balanced inner ∧
      uttered inner = attempts.flatMap (joining q) ++ proclaimed env q g changed ∧
      SamplesStay env r (begun :: attempts.map (found env q)) announced ∧
      after.samples = announced.sampled env started.clock.now := by
  intro begun started after
  have hbegun : begun.Kept False := hr.kept.aside (.note r rfl)
  have hstarted : started.Kept False := (henv.steps.reading begun).kept hbegun
  have htry : r.tryRegister env q = ((begun.registerChecked env q).1.note .ended,
      (begun.registerChecked env q).2.map .ok) := by
    rw [tryRegister_of_name env hname]
  rcases place_retries henv q begun with
    ⟨s, panic, hs, hpanic⟩ |
      ⟨failed, last, placed, i, changed, hplaced, hfailed, hattempt, hcurrent⟩
  · left
    rw [htry, registerChecked, andThen_of_error hpanic]
    exact ⟨s, panic, hs, rfl⟩
  have hkept : placed.Kept False :=
    (steps_attempt henv hname hattempt).kept (hfailed.kept henv hname hstarted)
  obtain ⟨g, hg, -⟩ := hkept.wellFormed.recorded q.group i hcurrent
  have hchecked : begun.registerChecked env q =
      placed.proclaim env q started.clock.now i changed := by
    rw [registerChecked, hplaced, andThen_ok]
  rcases proclaim_cases henv hkept started.clock.now hg changed with
    ⟨panic, hs, hpanic⟩ | ⟨hreturns, hsame, hsamples, hproclaimed⟩
  · left
    rw [htry, hchecked, hpanic]
    exact ⟨_, panic, hs, rfl⟩
  right
  have hresult : (r.tryRegister env q).2 = .ok (.ok changed) := by
    rw [htry, hchecked, hreturns]
    rfl
  have hafter : after = (placed.proclaim env q started.clock.now i changed).1.note .ended := by
    rw [show after = _ from serve_register_of_ok hresult strict, htry, hchecked]
  obtain ⟨inner, hinner, hbalanced, huttered⟩ := ((utters_reading henv hbegun).trans
    (hfailed.utters_placed henv hname hstarted hattempt)).trans hproclaimed
  refine ⟨failed, last, placed, i, g, changed, inner, hfailed, hfailed.foiled henv,
    hfailed.length_le_interrupted henv, ?_, hattempt, hcurrent, hg,
    changed?_register hresult strict, ?_, hbalanced, huttered, ⟨rfl, ?_⟩, ?_⟩
  · have hlength : failed.length + _ ≤ env.interruptions started.outside :=
      hfailed.length_le henv.ends
    rw [List.length_append, List.length_singleton]
    omega
  · rw [hafter, note, hinner]
  · rw [← List.append_nil (List.map _ _)]
    exact (hfailed.samplesStay_placed henv.listener hattempt).append hsame
  · rw [hafter]
    exact hsamples

theorem interrupting_scripted : scripted.Interrupting := by
  refine ⟨onlyListens_still _, ?_, bounded_scripted⟩
  intro r
  unfold scripted
  dsimp only
  split
  · exact .nothing r
  · rename_i request rest h
    have hattended : Attended False r (r.serve (.still _) request) :=
      .request (.nothing r) (fun t => .nothing t) (fun _ _ _ t => .nothing t)
        (fun hno => hno.elim) (Surroundings.bounded_still _)
    exact .beside _ _ [] rest hattended

theorem returns_scripted (r : Registry (List Request)) : (scripted.beforeReading r).2 = .ok () := by
  unfold scripted
  dsimp only
  split <;> rfl

/-- A measured group with one client, who is going to leave before the second reading from now. -/
def measured : Registry (List Request) :=
  (Registry.new default [0] default true
    [.setClock ⟨1⟩, .setClock ⟨2⟩, .setClock ⟨3⟩, .setClock ⟨10⟩,
      .leave "g" (Registration.sample "g" 8).client true, .setClock ⟨12⟩, .setClock ⟨15⟩]).serve
    scripted (.register true (.sample "g" 8))

/-- Another client registers meanwhile. Its first attempt is foiled. Its caller is told of a change,
its listeners hear of it before they hear of the subscriptions, and it has taken from its first
reading, which shows 10, to its last, which shows 15. -/
theorem a_foiled_registration_is_measured :
    let q := Registration.sample "g" 7
    let begun := measured.note (.began (.register "g" 7))
    let after := measured.serve scripted (.register true q)
    measured.Reachable ∧ Foiled scripted q (scripted.beforeReading begun).1 ∧
      after.samples = some [2, 5] ∧
      ∃ inner joins clients, after.journal = .ended :: (inner ++ begun.journal) ∧
        uttered inner = joins ++ [("g", .changed clients), ("g", .declared q.subscriptions)] := by
  intro q begun after
  have hreachable : measured.Reachable :=
    ⟨default, [0], default, true, _,
      steps_serve interrupting_scripted.steps (fun hc => hc.elim) _⟩
  have hname : IsName (Registration.sample "g" 7).group := checkName_eq_ok_iff.mp (by rfl)
  have hfoiled : Foiled scripted q (scripted.beforeReading begun).1 := by
    refine foiled_of_gone interrupting_scripted (attempt_of_returns (returns_scripted _)).2 ?_
    decide +kernel
  have htold : (measured.reply scripted (.register true q)).changed? = some true := by
    decide +kernel
  refine ⟨hreachable, hfoiled, by decide +kernel, ?_⟩
  rcases a_registration_utters_what_it_should hreachable interrupting_scripted hname true with
    ⟨s, panic, hs, -⟩ | ⟨failed, last, placed, i, g, changed, inner, -, -, -, -, -, -, -, hchanged,
      hjournal, -, huttered, -⟩
  · rw [returns_scripted] at hs
    cases hs
  · rw [htold, Option.some.injEq] at hchanged
    subst hchanged
    exact ⟨inner, _, _, hjournal, huttered⟩

end Registry

end ConsumerGroups
