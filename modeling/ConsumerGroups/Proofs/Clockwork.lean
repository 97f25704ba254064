-- The timers of a scenario beside their diary. Whatever is done with one of them, its history has
-- it, and the others are left alone. So every timer always is as its history says, and no timer
-- that is due is overlooked: its task is ready to run.
import ConsumerGroups.Proofs.Spells

set_option autoImplicit false

namespace ConsumerGroups.Scenario

namespace Outside

/-- The timer of a number, if there is one. -/
def timer? (o : Outside) (n : Nat) : Option Timer :=
  (o.slots.find? (·.number == n)).map (·.timer)

/-- What the diary has of a timer. -/
def history (o : Outside) (n : Nat) : List DiaryEntry := o.diary.filter (·.timer == n)

/-- How often tasks have swept. -/
def sweeps (o : Outside) : Nat := (o.diary.filter (·.event.isStrike)).length

/-- No two timers have one number. -/
def Distinct (o : Outside) : Prop := (o.slots.map (·.number)).Nodup

variable {o : Outside} {slot : Slot} {n : Nat} {t : Timer}

theorem mem_of_timer? (h : o.timer? n = some t) :
    ∃ slot ∈ o.slots, slot.number = n ∧ slot.timer = t := by
  obtain ⟨slot, hfind, ht⟩ := Option.map_eq_some_iff.mp h
  exact ⟨slot, List.mem_of_find?_eq_some hfind, by simpa using List.find?_some hfind, ht⟩

theorem Distinct.timer?_of_mem (h : o.Distinct) (hslot : slot ∈ o.slots) :
    o.timer? slot.number = some slot.timer := by
  obtain ⟨other, hother⟩ : ∃ other, o.slots.find? (·.number == slot.number) = some other := by
    rw [← Option.isSome_iff_exists, List.find?_isSome]
    exact ⟨slot, hslot, by simp⟩
  have hnumber : other.number = slot.number := by simpa using List.find?_some hother
  have heq : other = slot :=
    List.inj_on_of_nodup_map h (List.mem_of_find?_eq_some hother) hslot hnumber
  rw [timer?, hother, heq, Option.map_some]

end Outside

/-- The number of the task of a timer that is in the midst of a strike. -/
def strikingOf (striking : Option Task) (n : Nat) : Option Nat :=
  striking.bind (fun task => if task.timer = n then some task.start else none)

/-- The timers are as their histories say, and the task of each that is due is ready to run. One
task may be in the midst of a strike. -/
structure Regular (striking : Option Task) (o : Outside) : Prop where
  distinct : o.Distinct
  unmade : ∀ n, o.made ≤ n →
    o.timer? n = none ∧ o.history n = [] ∧ strikingOf striking n = none
  accords : ∀ n < o.made, ∃ delay interval,
    Accords delay interval o.time (strikingOf striking n) (o.timer? n) (o.history n)
  prompt : ∀ n t due, o.timer? n = some t → t.phase = .waiting due → due ≤ o.time →
    ⟨n, t.starts⟩ ∈ o.ready ∨ strikingOf striking n = some t.starts

section

variable {striking striking' : Option Task} {w : World} {o o' : Outside} {n : Nat} {slot : Slot}

theorem strikingOf_none (n : Nat) : strikingOf none n = none := rfl

theorem strikingOf_self (task : Task) : strikingOf (some task) task.timer = some task.start := by
  simp [strikingOf]

theorem strikingOf_of_ne {task : Task} (h : n ≠ task.timer) :
    strikingOf (some task) n = none := by
  simp [strikingOf, Ne.symm h]

/-! ## One timer and the others -/

theorem timer?_setTimer (w : World) (n m : Nat) (f : Timer → Timer) :
    (w.setTimer n f).outside.timer? m =
      if m = n then (w.outside.timer? n).map f else w.outside.timer? m := by
  have hnumber : ((·.number == m) ∘ fun s : Slot =>
      if s.number = n then { s with timer := f s.timer } else s) = (·.number == m) := by
    funext s
    simp only [Function.comp_apply]
    split <;> rfl
  unfold World.setTimer World.withSlots World.around Outside.timer?
  simp only [List.find?_map, hnumber]
  by_cases hm : m = n
  · subst hm
    rw [if_pos rfl]
    cases hfind : w.outside.slots.find? (·.number == m) with
    | none => rfl
    | some s =>
      have hs : s.number = m := by simpa using List.find?_some hfind
      simp [hs]
  · rw [if_neg hm]
    cases hfind : w.outside.slots.find? (·.number == m) with
    | none => rfl
    | some s =>
      have hs : s.number = m := by simpa using List.find?_some hfind
      simp [hs, hm]

theorem distinct_setTimer (h : w.outside.Distinct) (n : Nat) (f : Timer → Timer) :
    (w.setTimer n f).outside.Distinct := by
  unfold World.setTimer World.withSlots World.around Outside.Distinct
  have hnumber : ((·.number) ∘ fun s : Slot =>
      if s.number = n then { s with timer := f s.timer } else s) = (·.number) := by
    funext s
    simp only [Function.comp_apply]
    split <;> rfl
  rw [List.map_map, hnumber]
  exact h

theorem history_jot (w : World) (n m : Nat) (event : TimerEvent) :
    (w.jot n event).outside.history m =
      if m = n then ⟨w.outside.time, n, event, w.journal.length⟩ :: w.outside.history m
      else w.outside.history m := by
  unfold World.jot World.around Outside.history
  by_cases hm : m = n
  · subst hm
    simp
  · simp [hm, Ne.symm hm]

theorem history_jot_self (w : World) (n : Nat) (event : TimerEvent) :
    (w.jot n event).outside.history n =
      ⟨w.outside.time, n, event, w.journal.length⟩ :: w.outside.history n :=
  (history_jot w n n event).trans (if_pos rfl)

theorem history_jot_of_ne (w : World) {n m : Nat} (h : m ≠ n) (event : TimerEvent) :
    (w.jot n event).outside.history m = w.outside.history m :=
  (history_jot w n m event).trans (if_neg h)

/-- All that matters to the timers is the same. -/
theorem Regular.of_same (h : Regular striking o) (hslots : o'.slots = o.slots)
    (hready : o'.ready = o.ready) (hmade : o'.made = o.made) (hdiary : o'.diary = o.diary)
    (htime : o'.time = o.time) : Regular striking o' := by
  have htimer : ∀ n, o'.timer? n = o.timer? n := by
    intro n
    rw [Outside.timer?, hslots, Outside.timer?]
  have hhistory : ∀ n, o'.history n = o.history n := by
    intro n
    rw [Outside.history, hdiary, Outside.history]
  refine ⟨?_, ?_, ?_, ?_⟩
  · rw [Outside.Distinct, hslots]
    exact h.distinct
  · intro n hn
    rw [htimer, hhistory]
    exact h.unmade n (hmade ▸ hn)
  · intro n hn
    rw [htimer, hhistory, htime]
    exact h.accords n (hmade ▸ hn)
  · intro n t due
    rw [htimer, htime, hready]
    exact h.prompt n t due

/-- One timer changes and the others are left alone. -/
theorem Regular.change (h : Regular striking o) (hn : n < o.made) (hdistinct : o'.Distinct)
    (htime : o'.time = o.time) (hmade : o'.made = o.made)
    (htimers : ∀ m, m ≠ n → o'.timer? m = o.timer? m)
    (hhistories : ∀ m, m ≠ n → o'.history m = o.history m)
    (hstriking : ∀ m, m ≠ n → strikingOf striking' m = strikingOf striking m)
    (hready : ∀ task ∈ o.ready, task.timer ≠ n → task ∈ o'.ready)
    (haccords : ∀ delay interval,
      Accords delay interval o.time (strikingOf striking n) (o.timer? n) (o.history n) →
      Accords delay interval o.time (strikingOf striking' n) (o'.timer? n) (o'.history n))
    (hprompt : ∀ t due, o'.timer? n = some t → t.phase = .waiting due → due ≤ o.time →
      ⟨n, t.starts⟩ ∈ o'.ready ∨ strikingOf striking' n = some t.starts) :
    Regular striking' o' := by
  refine ⟨hdistinct, ?_, ?_, ?_⟩
  · intro m hm
    have hne : m ≠ n := by omega
    rw [htimers m hne, hhistories m hne, hstriking m hne]
    exact h.unmade m (hmade ▸ hm)
  · intro m hm
    rw [htime]
    by_cases hmn : m = n
    · subst hmn
      obtain ⟨delay, interval, hacc⟩ := h.accords m hn
      exact ⟨delay, interval, haccords delay interval hacc⟩
    · rw [htimers m hmn, hhistories m hmn, hstriking m hmn]
      exact h.accords m (hmade ▸ hm)
  · intro m t due ht hphase hdue
    rw [htime] at hdue
    by_cases hmn : m = n
    · subst hmn
      exact hprompt t due ht hphase hdue
    · rw [htimers m hmn] at ht
      rw [hstriking m hmn]
      rcases h.prompt m t due ht hphase hdue with hmem | hstrikes
      · exact .inl (hready _ hmem hmn)
      · exact .inr hstrikes

/-- A timer that there is was made. -/
theorem Regular.lt_made (h : Regular striking o) (hslot : slot ∈ o.slots) :
    slot.number < o.made := by
  by_contra hge
  have hnone := (h.unmade slot.number (by omega)).1
  rw [h.distinct.timer?_of_mem hslot] at hnone
  cases hnone

/-! ## What is done with timers -/

/-- A timer that is in a spell or not comes to rest, and its history has it. -/
theorem Regular.finish (h : Regular striking w.outside) (hslot : slot ∈ w.outside.slots)
    {f : Timer → Timer} {event : TimerEvent} (hevent : event.isEnd = true)
    (hf : ∀ t, (f t).isRunning = false ∧ (f t).delay = t.delay ∧ (f t).interval = t.interval ∧
      (f t).starts = t.starts) :
    Regular striking ((w.setTimer slot.number f).jot slot.number event).outside := by
  have htimer := h.distinct.timer?_of_mem hslot
  have hself : ((w.setTimer slot.number f).jot slot.number event).outside.timer? slot.number =
      some (f slot.timer) := by
    refine (timer?_setTimer w slot.number slot.number f).trans ?_
    rw [if_pos rfl, htimer, Option.map_some]
  refine h.change (h.lt_made hslot) (distinct_setTimer h.distinct _ _) rfl rfl ?_ ?_
    (fun _ _ => rfl) (fun _ ht _ => ht) ?_ ?_
  · intro m hm
    exact (timer?_setTimer w slot.number m f).trans (if_neg hm)
  · intro m hm
    exact history_jot_of_ne _ hm _
  · intro delay interval hacc
    rw [hself, history_jot_self]
    refine hacc.finished rfl hevent ?_
    rintro t' ⟨⟩
    exact ⟨(hf _).1, slot.timer, htimer, (hf _).2⟩
  · intro t due ht hphase _
    rw [hself] at ht
    cases ht
    have := (hf slot.timer).1
    rw [isRunning_iff.mpr ⟨due, hphase⟩] at this
    cases this

theorem find?_without (slots : List Slot) (n m : Nat) :
    (slots.filter (·.number != n)).find? (·.number == m) =
      if m = n then none else slots.find? (·.number == m) := by
  rw [List.find?_filter]
  by_cases hm : m = n
  · subst hm
    rw [if_pos rfl, List.find?_eq_none]
    simp
  · rw [if_neg hm]
    congr
    funext s
    by_cases hs : s.number = m <;> simp [hs, hm]

/-- Without a timer the others are the same. -/
theorem timer?_without (w : World) (n m : Nat) :
    (w.withSlots (fun slots => slots.filter (·.number != n))).outside.timer? m =
      if m = n then none else w.outside.timer? m := by
  unfold World.withSlots World.around Outside.timer?
  simp only [find?_without]
  split <;> rfl

/-- A timer goes, and its history has it. -/
theorem Regular.remove (h : Regular striking w.outside) (hslot : slot ∈ w.outside.slots) :
    Regular striking ((w.withSlots (fun slots => slots.filter (·.number != slot.number))).jot
      slot.number .dropped).outside := by
  have hself : ((w.withSlots (fun slots => slots.filter (·.number != slot.number))).jot
      slot.number .dropped).outside.timer? slot.number = none :=
    (timer?_without w slot.number slot.number).trans (if_pos rfl)
  refine h.change (h.lt_made hslot) (h.distinct.sublist (List.filter_sublist.map _)) rfl rfl
    ?_ ?_ (fun _ _ => rfl) (fun _ ht _ => ht) ?_ ?_
  · intro m hm
    exact (timer?_without w slot.number m).trans (if_neg hm)
  · intro m hm
    exact history_jot_of_ne _ hm _
  · intro delay interval hacc
    rw [hself, history_jot_self]
    exact hacc.finished rfl rfl (by simp)
  · intro t due ht
    rw [hself] at ht
    cases ht

theorem timer?_addTimer (w : World) (name : String) (delay interval m : Nat)
    (hnone : w.outside.timer? w.outside.made = none) :
    (w.addTimer name delay interval).outside.timer? m =
      if m = w.outside.made then some (Timer.new delay interval) else w.outside.timer? m := by
  have hnone := Option.map_eq_none_iff.mp hnone
  unfold World.addTimer World.around Outside.timer?
  simp only [List.find?_append, List.find?_singleton]
  by_cases hm : m = w.outside.made
  · subst hm
    rw [show List.find? _ (w.jot _ _).outside.slots = none from hnone]
    simp [World.jot, World.around]
  · simp [World.jot, World.around, hm, Ne.symm hm]

theorem history_addTimer (w : World) (name : String) (delay interval m : Nat) :
    (w.addTimer name delay interval).outside.history m =
      if m = w.outside.made then
        ⟨w.outside.time, w.outside.made, .made delay interval, w.journal.length⟩ ::
          w.outside.history m
      else w.outside.history m := history_jot w w.outside.made m _

/-- A timer that is made has a number of its own. -/
theorem Regular.addTimer (h : Regular striking w.outside) (name : String)
    (delay interval : Nat) : Regular striking (w.addTimer name delay interval).outside := by
  obtain ⟨hnone, hempty, hresting⟩ := h.unmade w.outside.made (Nat.le_refl _)
  have hmade : (w.addTimer name delay interval).outside.made = w.outside.made + 1 := rfl
  have htime : (w.addTimer name delay interval).outside.time = w.outside.time := rfl
  have hready : (w.addTimer name delay interval).outside.ready = w.outside.ready := rfl
  refine ⟨?_, ?_, ?_, ?_⟩
  · have hnew : w.outside.made ∉ w.outside.slots.map (·.number) := by
      intro hmem
      obtain ⟨slot, hslot, hnumber⟩ := List.mem_map.mp hmem
      have := h.lt_made hslot
      omega
    have hadded := List.nodup_append.mpr ⟨h.distinct, List.nodup_singleton w.outside.made,
      fun a ha b hb hab => hnew (List.mem_singleton.mp hb ▸ hab ▸ ha)⟩
    simpa [Outside.Distinct, World.addTimer, World.around, World.jot] using hadded
  · intro m hm
    rw [hmade] at hm
    have hne : m ≠ w.outside.made := by omega
    rw [timer?_addTimer w name delay interval m hnone, history_addTimer, if_neg hne, if_neg hne]
    exact h.unmade m (by omega)
  · intro m hm
    rw [hmade] at hm
    rw [timer?_addTimer w name delay interval m hnone, history_addTimer, htime]
    by_cases hne : m = w.outside.made
    · rw [if_pos hne, if_pos hne, hne, hempty, hresting]
      exact ⟨delay, interval, accords_new delay interval _ _ _⟩
    · rw [if_neg hne, if_neg hne]
      exact h.accords m (by omega)
  · intro m t due ht hphase hdue
    rw [timer?_addTimer w name delay interval m hnone] at ht
    rw [hready]
    by_cases hne : m = w.outside.made
    · rw [if_pos hne] at ht
      cases ht
      cases hphase
    · rw [if_neg hne] at ht
      exact h.prompt m t due ht hphase hdue

theorem timer?_beginTask (w : World) (slot : Slot) (m : Nat) :
    (w.beginTask slot).outside.timer? m =
      if m = slot.number then
        (w.outside.timer? slot.number).map (fun _ => slot.timer.start w.outside.time)
      else w.outside.timer? m :=
  timer?_setTimer w slot.number m (fun _ => slot.timer.start w.outside.time)

theorem Regular.startAgain (h : Regular striking w.outside) (hslot : slot ∈ w.outside.slots)
    (hrun : slot.timer.isRunning = true) :
    Regular striking (w.jot slot.number .started).outside := by
  have hself : (w.jot slot.number .started).outside.timer? slot.number = some slot.timer :=
    h.distinct.timer?_of_mem hslot
  refine h.change (h.lt_made hslot) h.distinct rfl rfl (fun _ _ => rfl) ?_ (fun _ _ => rfl)
    (fun _ ht _ => ht) ?_ (fun t due => h.prompt _ t due)
  · intro m hm
    exact history_jot_of_ne _ hm _
  · intro delay interval hacc
    rw [h.distinct.timer?_of_mem hslot] at hacc
    rw [hself, history_jot_self]
    exact hacc.startedAgain rfl rfl hrun

theorem Regular.beginTask (h : Regular striking w.outside) (hslot : slot ∈ w.outside.slots)
    (hrest : slot.timer.isRunning = false) :
    Regular striking ((w.beginTask slot).jot slot.number .started).outside := by
  have htimer := h.distinct.timer?_of_mem hslot
  have hself : ((w.beginTask slot).jot slot.number .started).outside.timer? slot.number =
      some (slot.timer.start w.outside.time) := by
    refine (timer?_beginTask w slot slot.number).trans ?_
    rw [if_pos rfl, htimer, Option.map_some]
  have hdistinct : ((w.beginTask slot).jot slot.number .started).outside.Distinct :=
    distinct_setTimer h.distinct slot.number (fun _ => slot.timer.start w.outside.time)
  have hready : ((w.beginTask slot).jot slot.number .started).outside.ready =
      w.outside.ready ++ [⟨slot.number, (slot.timer.start w.outside.time).starts⟩] := rfl
  refine h.change (h.lt_made hslot) hdistinct rfl rfl ?_ ?_ (fun _ _ => rfl) ?_ ?_ ?_
  · intro m hm
    exact (timer?_beginTask w slot m).trans (if_neg hm)
  · intro m hm
    exact history_jot_of_ne _ hm _
  · intro task htask _
    rw [hready]
    exact List.mem_append_left _ htask
  · intro delay interval hacc
    rw [htimer] at hacc
    rw [hself, history_jot_self]
    exact hacc.started rfl rfl hrest
  · intro t due ht _ _
    rw [hself] at ht
    cases ht
    rw [hready]
    exact .inl (List.mem_append_right _ (List.mem_singleton_self _))

/-! ## When tasks run -/

theorem runs_iff {t : Timer} {start : Nat} :
    t.runs start = true ↔ t.isRunning = true ∧ t.starts = start := by
  rw [Timer.runs, Bool.and_eq_true, beq_iff_eq]

theorem of_holder? {task : Task} (h : w.holder? task = some slot) :
    slot ∈ w.outside.slots ∧ slot.number = task.timer ∧ slot.timer.starts = task.start ∧
      ∃ due, slot.timer.phase = .waiting due := by
  have hholds : slot.number = task.timer ∧ slot.timer.runs task.start = true := by
    simpa using List.find?_some h
  obtain ⟨hrun, hstarts⟩ := runs_iff.mp hholds.2
  exact ⟨List.mem_of_find?_eq_some h, hholds.1, hstarts, isRunning_iff.mp hrun⟩

theorem timer?_of_holder? {task : Task} (hdistinct : w.outside.Distinct)
    (h : w.holder? task = some slot) : w.outside.timer? task.timer = some slot.timer := by
  obtain ⟨hmem, hnumber, -⟩ := of_holder? h
  rw [← hnumber]
  exact hdistinct.timer?_of_mem hmem

theorem runs_of_holder?_none {task : Task} {t : Timer} (h : w.holder? task = none)
    (ht : w.outside.timer? task.timer = some t) : t.runs task.start = false := by
  obtain ⟨slot, hslot, hnumber, rfl⟩ := Outside.mem_of_timer? ht
  simpa [hnumber] using List.find?_eq_none.mp h slot hslot

theorem timer?_rest {task : Task} (h : w.holder? task = some slot) (due m : Nat) :
    (w.rest task due).outside.timer? m =
      if m = task.timer then some (slot.timer.waitUntil due) else w.outside.timer? m := by
  rw [← (of_holder? h).2.1]
  unfold World.rest World.withSlots World.around Outside.timer?
  simp only [h, List.find?_append, find?_without, List.find?_singleton]
  by_cases hm : m = slot.number
  · simp [hm]
  · simp [hm, Ne.symm hm]

theorem distinct_rest (h : w.outside.Distinct) (task : Task) (due : Nat) :
    (w.rest task due).outside.Distinct := by
  unfold World.rest
  split
  · exact h
  · rename_i slot _
    have hothers : ((w.outside.slots.filter (·.number != slot.number)).map (·.number)).Nodup :=
      h.sublist (List.filter_sublist.map _)
    have hadded := List.nodup_append.mpr ⟨hothers, List.nodup_singleton slot.number,
      fun a ha b hb hab => by
        obtain ⟨s, hs, rfl⟩ := List.mem_map.mp ha
        have hne := (List.mem_filter.mp hs).2
        rw [hab, List.mem_singleton.mp hb] at hne
        simp at hne⟩
    simpa [World.withSlots, World.around, Outside.Distinct] using hadded

theorem waitUntil_self {t : Timer} {due : Nat} (h : t.phase = .waiting due) :
    t.waitUntil due = t := by
  rw [Timer.waitUntil, ← h]

theorem Regular.le_due (h : Regular striking o) {t : Timer} {due : Nat} (ht : o.timer? n = some t)
    (hphase : t.phase = .waiting due) : o.time ≤ due := by
  rcases Nat.lt_or_ge n o.made with hn | hn
  · obtain ⟨delay, interval, hacc⟩ := h.accords n hn
    rw [ht] at hacc
    exact hacc.le_due hphase
  · rw [(h.unmade n hn).1] at ht
    cases ht

/-- A task that has ended is passed over. -/
theorem Regular.skip {task : Task}
    (h : Regular none { w.outside with ready := task :: w.outside.ready })
    (hnone : w.holder? task = none) : Regular none w.outside := by
  refine ⟨h.distinct, h.unmade, h.accords, ?_⟩
  intro m t due ht hphase hdue
  rcases h.prompt m t due ht hphase hdue with hmem | hstrikes
  · rcases List.mem_cons.mp hmem with rfl | hmem
    · have hruns := runs_of_holder?_none hnone ht
      rw [runs_iff.mpr ⟨isRunning_iff.mpr ⟨due, hphase⟩, rfl⟩] at hruns
      cases hruns
    · exact .inl hmem
  · exact .inr hstrikes

theorem rest_others (w : World) (task : Task) (due : Nat) :
    (w.rest task due).outside.diary = w.outside.diary ∧
      (w.rest task due).outside.made = w.outside.made ∧
      (w.rest task due).outside.time = w.outside.time ∧
      (w.rest task due).outside.ready = w.outside.ready := by
  unfold World.rest
  split <;> exact ⟨rfl, rfl, rfl, rfl⟩

theorem history_rest (w : World) (task : Task) (due m : Nat) :
    (w.rest task due).outside.history m = w.outside.history m := by
  rw [Outside.history, (rest_others w task due).1, Outside.history]

/-- Of the tasks that are ready, those of other timers remain. -/
theorem mem_ready_of_ne {task other : Task} {ready : List Task} (h : other ∈ task :: ready)
    (hne : other.timer ≠ task.timer) : other ∈ ready := by
  rcases List.mem_cons.mp h with rfl | h
  · exact absurd rfl hne
  · exact h

/-- A task that runs before it is due goes on waiting. -/
theorem Regular.waitOn {task : Task} {due : Nat}
    (h : Regular none { w.outside with ready := task :: w.outside.ready })
    (hslot : w.holder? task = some slot) (hphase : slot.timer.phase = .waiting due)
    (hlater : w.outside.time < due) : Regular none (w.rest task due).outside := by
  obtain ⟨hmem, hnumber, -, -⟩ := of_holder? hslot
  obtain ⟨-, hmade, htime, hready⟩ := rest_others w task due
  have htimer := timer?_of_holder? (w := w) h.distinct hslot
  have hsame : ∀ m, (w.rest task due).outside.timer? m = w.outside.timer? m := by
    intro m
    rw [timer?_rest hslot, waitUntil_self hphase]
    split
    · rename_i hm
      rw [hm, htimer]
    · rfl
  refine h.change (n := task.timer) (hnumber ▸ h.lt_made hmem) (distinct_rest h.distinct task due)
    htime hmade (fun m _ => hsame m) (fun m _ => history_rest w task due m) (fun _ _ => rfl)
    ?_ ?_ ?_
  · intro other hother hne
    rw [hready]
    exact mem_ready_of_ne hother hne
  · intro delay interval hacc
    rw [hsame, history_rest]
    exact hacc
  · intro t due' ht hphase' hdue'
    rw [hsame, htimer, Option.some.injEq] at ht
    subst ht
    obtain rfl : due' = due := Phase.waiting.inj (hphase'.symm.trans hphase)
    exact absurd hdue' (Nat.not_le.mpr hlater)

/-- A task that is due sweeps, and its history has it. -/
theorem Regular.strike {task : Task}
    (h : Regular none { w.outside with ready := task :: w.outside.ready })
    (hslot : w.holder? task = some slot) (hphase : slot.timer.phase = .waiting w.outside.time) :
    Regular (some task) (w.jot task.timer (.struck task.start)).outside := by
  obtain ⟨hmem, hnumber, hstarts, -⟩ := of_holder? hslot
  have htimer := timer?_of_holder? (w := w) h.distinct hslot
  have hself : (w.jot task.timer (.struck task.start)).outside.timer? task.timer =
      some slot.timer := htimer
  refine h.change (n := task.timer) (hnumber ▸ h.lt_made hmem) h.distinct rfl rfl (fun _ _ => rfl)
    ?_ (fun m hm => strikingOf_of_ne hm) (fun _ ht hne => mem_ready_of_ne ht hne) ?_ ?_
  · intro m hm
    exact history_jot_of_ne w hm _
  · intro delay interval hacc
    change Accords delay interval w.outside.time none (w.outside.timer? task.timer)
      (w.outside.history task.timer) at hacc
    rw [htimer] at hacc
    rw [hself, history_jot_self, strikingOf_self, ← hstarts]
    exact hacc.struck rfl rfl hphase
  · intro t due ht _ _
    rw [hself, Option.some.injEq] at ht
    rw [← ht, hstarts]
    exact .inr (strikingOf_self task)

/-- Nothing is left of a strike whose task has ended. -/
theorem Regular.release {task : Task} (h : Regular (some task) o)
    (hgone : ∀ t, o.timer? task.timer = some t → t.runs task.start = false) : Regular none o := by
  refine ⟨h.distinct, ?_, ?_, ?_⟩
  · intro m hm
    obtain ⟨hnone, hempty, -⟩ := h.unmade m hm
    exact ⟨hnone, hempty, rfl⟩
  · intro m hm
    obtain ⟨delay, interval, hacc⟩ := h.accords m hm
    refine ⟨delay, interval, ?_⟩
    rw [strikingOf_none]
    by_cases hself : m = task.timer
    · rw [hself, strikingOf_self] at hacc
      rw [hself]
      exact hacc.gone hgone
    · rw [strikingOf_of_ne hself] at hacc
      exact hacc
  · intro m t due ht hphase hdue
    rcases h.prompt m t due ht hphase hdue with hmem | hstrikes
    · exact .inl hmem
    · by_cases hself : m = task.timer
      · rw [hself, strikingOf_self, Option.some.injEq] at hstrikes
        have hruns := hgone t (hself ▸ ht)
        rw [runs_iff.mpr ⟨isRunning_iff.mpr ⟨due, hphase⟩, hstrikes.symm⟩] at hruns
        cases hruns
      · rw [strikingOf_of_ne hself] at hstrikes
        cases hstrikes

/-- After a strike the task comes to rest for an interval, unless it has ended. -/
theorem Regular.rest {task : Task} {due : Nat} (h : Regular (some task) w.outside)
    (hdue : ∀ slot, w.holder? task = some slot → due = w.outside.time + slot.timer.interval) :
    Regular none (w.rest task due).outside := by
  cases hslot : w.holder? task with
  | none =>
    have hsame : w.rest task due = w := by
      unfold World.rest
      rw [hslot]
    rw [hsame]
    exact h.release fun t ht => runs_of_holder?_none hslot ht
  | some slot =>
    obtain ⟨hmem, hnumber, hstarts, due', hphase⟩ := of_holder? hslot
    obtain ⟨-, hmade, htime, hready⟩ := rest_others w task due
    have hlt : task.timer < w.outside.made := hnumber ▸ h.lt_made hmem
    have htimer := timer?_of_holder? h.distinct hslot
    have hself : (w.rest task due).outside.timer? task.timer = some (slot.timer.waitUntil due) :=
      (timer?_rest hslot due task.timer).trans (if_pos rfl)
    refine h.change hlt (distinct_rest h.distinct task due)
      htime hmade (fun m hm => (timer?_rest hslot due m).trans (if_neg hm))
      (fun m _ => history_rest w task due m) (fun m hm => (strikingOf_of_ne hm).symm) ?_ ?_ ?_
    · intro other hother _
      rw [hready]
      exact hother
    · intro delay interval hacc
      rw [htimer, strikingOf_self, ← hstarts] at hacc
      obtain rfl := hacc.due_now hphase
      rw [hself, history_rest, strikingOf_none, hdue slot hslot]
      exact hacc.rested hphase
    · intro t due'' ht hphase'' hle
      rw [hself, Option.some.injEq] at ht
      subst ht
      obtain rfl := Phase.waiting.inj hphase''
      have hpos := slot.timer.interval_pos
      have := hdue slot hslot
      omega

/-- A task whose sweep panicked breaks off, unless it has ended. -/
theorem Regular.breakOff {task : Task} (h : Regular (some task) w.outside) :
    Regular none (w.breakOff task).outside := by
  cases hslot : w.holder? task with
  | none =>
    have hsame : w.breakOff task = w := by
      unfold World.breakOff
      rw [hslot]
    rw [hsame]
    exact h.release fun t ht => runs_of_holder?_none hslot ht
  | some slot =>
    obtain ⟨hmem, hnumber, -, -⟩ := of_holder? hslot
    have hbroken : w.breakOff task =
        (w.setTimer slot.number Timer.breakOff).jot slot.number .broke := by
      unfold World.breakOff
      rw [hslot]
    rw [hbroken]
    refine Regular.release (h.finish hmem rfl fun _ => ⟨rfl, rfl, rfl, rfl⟩) ?_
    intro t ht
    have hafter := (timer?_setTimer w slot.number task.timer Timer.breakOff).symm.trans ht
    rw [if_pos hnumber.symm] at hafter
    obtain ⟨t', -, rfl⟩ := Option.map_eq_some_iff.mp hafter
    rfl

/-- Time passes until the first of the timers is due, and the tasks of those that are wake up. -/
theorem Regular.later (h : Regular none o) {present : Nat} {ready : List Task}
    (hpast : o.time ≤ present)
    (hdue : ∀ n t due, o.timer? n = some t → t.phase = .waiting due →
      present ≤ due ∧ (due = present → ⟨n, t.starts⟩ ∈ ready)) :
    Regular none { o with time := present, ready := ready } := by
  refine ⟨h.distinct, h.unmade, ?_, ?_⟩
  · intro m hm
    obtain ⟨delay, interval, hacc⟩ := h.accords m hm
    exact ⟨delay, interval, hacc.later hpast fun t due ht hphase => (hdue m t due ht hphase).1⟩
  · intro m t due ht hphase hle
    obtain ⟨hge, hready⟩ := hdue m t due ht hphase
    exact .inl (hready (Nat.le_antisymm hle hge))

end

end ConsumerGroups.Scenario
