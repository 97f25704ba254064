-- The rhythm of the timers. When time passes, whatever is due is done before time goes on, however
-- much of it there is. So in a scenario that never puts the time forward at once all timers keep
-- their rhythm, from beginning to end.
import Mathlib.Algebra.Order.BigOperators.Group.List
import Mathlib.Algebra.Order.Group.Nat
import ConsumerGroups.Proofs.Instants
import ConsumerGroups.Proofs.Strikes

set_option autoImplicit false

namespace ConsumerGroups.Scenario

section

variable {env : Surroundings Outside} {w : World} {o o' : Outside} {task : Task} {due seen : Nat}

/-! ## A task runs -/

/-- Whatever is done, a timer keeps its interval. -/
theorem Regular.interval_eq {striking striking' : Option Task} {n : Nat} {t t' : Timer}
    (h : Regular striking o) (h' : Regular striking' o') (hdiary : o.diary <:+ o'.diary)
    (ht : o.timer? n = some t) (ht' : o'.timer? n = some t') : t'.interval = t.interval := by
  obtain ⟨slot, hslot, rfl, rfl⟩ := Outside.mem_of_timer? ht
  obtain ⟨slot', hslot', hnumber, rfl⟩ := Outside.mem_of_timer? ht'
  obtain ⟨delay, interval, hacc⟩ := h.accords _ (h.lt_made hslot)
  obtain ⟨delay', interval', hacc'⟩ := h'.accords _ (hnumber ▸ h'.lt_made hslot')
  obtain ⟨e, he, hmade⟩ := hacc.made
  have he' : e ∈ o'.history slot.number :=
    (hdiary.sublist.filter _).subset he
  rw [(hacc.times _ ht).2, (hacc'.times _ ht').2, (hacc'.madeOnce e he' delay interval hmade).2]

theorem strikeFrom_of_later (now : Nat) (t : Timer) (h : seen < due) :
    strikeFrom env now seen task t due w = (w.rest task due, 0) := by
  rw [strikeFrom, if_pos h]

/-- A strike after which the task comes to rest. -/
theorem strikeFrom_of_due {now : Nat} {t : Timer} (h : ¬ seen < due)
    (hnext : seen < Timer.nextDue t.interval now due) :
    strikeFrom env now seen task t due w =
      match (w.jot task.timer (.struck task.start)).sweep env with
      | (w, .error _) => (World.breakOff w task, 1)
      | (w, .ok n) =>
        (World.rest (w.logAll (sweptOutLines n)) task (Timer.nextDue t.interval now due), 1) := by
  rw [strikeFrom, if_neg h]
  rcases (w.jot task.timer (.struck task.start)).sweep env with ⟨s, panic | n⟩
  · rfl
  · dsimp only
    rw [strikeFrom_of_later now t hnext]

theorem spends_rest (h : Regular none (w.rest task due).outside) (hinstant : w.outside.Instant) :
    Spends none 0 0 w.outside (w.rest task due).outside := by
  unfold World.rest at h ⊢
  split at h
  · exact h.spends hinstant rfl List.suffix_rfl rfl (Nat.le_refl _) (Nat.le_refl _)
  · rename_i slot hslot
    refine h.spends hinstant rfl List.suffix_rfl rfl ?_ (Nat.le_refl _)
    have hless : (w.outside.slots.filter (fun s => s.number != slot.number)).length <
        w.outside.slots.length :=
      List.length_filter_lt_length_iff_exists.mpr ⟨slot, (of_holder? hslot).1, by simp⟩
    exact Nat.le_trans (Nat.le_of_eq List.length_append) hless

theorem spends_breakOff (h : Sound (some task) w.outside) :
    Spends none 0 0 w.outside (w.breakOff task).outside := by
  have hregular := h.toRegular.breakOff
  unfold World.breakOff at hregular ⊢
  split at hregular
  · exact hregular.spends h.toInstant rfl List.suffix_rfl rfl (Nat.le_refl _) (Nat.le_refl _)
  · exact hregular.spends h.toInstant rfl (List.suffix_cons _ _) rfl
      (Nat.le_of_eq (List.length_map _)) (Nat.le_refl _)

/-- A task that is due sweeps and comes to rest again. -/
theorem spends_strike {slot : Slot} (henv : env.ActBy (Thrifty (some task)))
    (h : Sound none { w.outside with ready := task :: w.outside.ready })
    (hslot : w.holder? task = some slot) (hphase : slot.timer.phase = .waiting w.outside.time) :
    Spends none 0 1 w.outside (strikeFrom env w.outside.time w.outside.time task slot.timer
        w.outside.time w).1.outside ∧
      (strikeFrom env w.outside.time w.outside.time task slot.timer w.outside.time w).2 = 1 := by
  have hstruck := h.toRegular.strike hslot hphase
  have hjotted : Spends (some task) 0 1 w.outside
      (w.jot task.timer (.struck task.start)).outside :=
    hstruck.spends ⟨h.cast, h.scripts⟩ rfl (List.suffix_cons _ _) rfl (Nat.le_refl _)
      (Nat.le_refl _)
  have hswept := (Thrifty.admitting (some task)).sweep henv _ hjotted.toSound
  have hpos := slot.timer.interval_pos
  have hnext := Timer.nextDue_on_time slot.timer.interval w.outside.time
  rw [strikeFrom_of_due (Nat.lt_irrefl _) (by omega), hnext]
  rcases hsweep : (w.jot task.timer (.struck task.start)).sweep env with ⟨s, panic | n⟩ <;>
    rw [hsweep] at hswept
  · exact ⟨(hjotted.trans hswept).trans (spends_breakOff hswept.toSound), rfl⟩
  · have hrested : Regular none ((World.rest (s.logAll (sweptOutLines n)) task
        (w.outside.time + slot.timer.interval))).outside := by
      refine Regular.rest (w := s.logAll (sweptOutLines n)) hswept.toRegular fun slot' hslot' => ?_
      have htimer := timer?_of_holder? (w := w) hstruck.distinct hslot
      have htimer' := timer?_of_holder? (w := s) hswept.distinct hslot'
      rw [hstruck.interval_eq hswept.toRegular hswept.diary htimer htimer']
      exact congrArg (· + _) hswept.time.symm
    exact ⟨(hjotted.trans hswept).trans
      (spends_rest (w := s.logAll (sweptOutLines n)) hrested hswept.toInstant), rfl⟩

theorem due?_eq_some {t : Timer} : t.due? = some due ↔ t.phase = .waiting due := by
  unfold Timer.due?
  split
  · rename_i h
    rw [h, Option.some.injEq, Phase.waiting.injEq]
  · rename_i h
    exact ⟨fun hnone => by simp at hnone, fun hdue => absurd hdue (h due)⟩

/-- A task that runs may have ended, or it may wait on, or it strikes. -/
theorem spends_runTask (henv : env.ActBy (Thrifty (some task)))
    (h : Sound none { w.outside with ready := task :: w.outside.ready }) :
    Spends none 0 (runTask env w.outside.time task w).2 w.outside
      (runTask env w.outside.time task w).1.outside := by
  have hinstant : w.outside.Instant := ⟨h.cast, h.scripts⟩
  unfold runTask
  split
  · rename_i hnone
    exact .refl ⟨h.toRegular.skip hnone, hinstant⟩
  · rename_i slot hslot
    obtain ⟨hmem, -, -, due, hphase⟩ := of_holder? hslot
    rw [due?_eq_some.mpr hphase]
    dsimp only
    rcases Nat.lt_or_ge w.outside.time due with hlater | hdue
    · rw [strikeFrom_of_later _ _ hlater]
      exact spends_rest (h.toRegular.waitOn hslot hphase hlater) hinstant
    · have hpast := h.toRegular.le_due (h.distinct.timer?_of_mem hmem) hphase
      obtain rfl : due = w.outside.time := Nat.le_antisymm hdue hpast
      obtain ⟨hstruck, hcount⟩ := spends_strike henv h hslot hphase
      rwa [hcount]

/-- The first of the tasks that are ready runs. -/
theorem spends_next {others : List Task} (henv : env.ActBy (Thrifty (some task)))
    (h : Sound none w.outside) (hready : w.outside.ready = task :: others) :
    Spends none 0 (runTask env w.outside.time task
        (World.around w (fun o => { o with ready := others }))).2
      { w.outside with ready := others } (runTask env w.outside.time task
        (World.around w (fun o => { o with ready := others }))).1.outside := by
  have hpopped : Sound none { w.outside with ready := task :: others } := by
    rw [← hready]
    exact h
  exact spends_runTask (w := World.around w (fun o => { o with ready := others })) henv hpopped

/-! ## Time passes -/

theorem nextDue?_eq_some {slots : List Slot} (h : World.nextDue? slots = some due) :
    (∃ slot ∈ slots, slot.timer.phase = .waiting due) ∧
      ∀ slot ∈ slots, ∀ due', slot.timer.phase = .waiting due' → due ≤ due' := by
  obtain ⟨hmem, hleast⟩ := List.min?_eq_some_iff.mp h
  obtain ⟨slot, hslot, hdue⟩ := List.mem_filterMap.mp hmem
  refine ⟨⟨slot, hslot, due?_eq_some.mp hdue⟩, fun slot' hslot' due' hdue' => hleast due' ?_⟩
  exact List.mem_filterMap.mpr ⟨slot', hslot', due?_eq_some.mpr hdue'⟩

theorem nextDue?_eq_none {slots : List Slot} (h : World.nextDue? slots = none) :
    ∀ slot ∈ slots, ∀ due, slot.timer.phase ≠ .waiting due := by
  intro slot hslot due hdue
  have hempty := List.min?_eq_none_iff.mp h
  have hmem : due ∈ slots.filterMap (·.timer.due?) :=
    List.mem_filterMap.mpr ⟨slot, hslot, due?_eq_some.mpr hdue⟩
  rw [hempty] at hmem
  cases hmem

theorem length_dueTasks_le (now : Nat) (slots : List Slot) :
    (World.dueTasks now slots).length ≤ slots.length := by
  unfold World.dueTasks
  rw [List.length_map, List.length_mergeSort]
  exact List.length_filterMap_le _ _

theorem mem_dueTasks {now : Nat} {slots : List Slot} {slot : Slot} (hslot : slot ∈ slots)
    (hphase : slot.timer.phase = .waiting due) (hdue : due ≤ now) :
    ⟨slot.number, slot.timer.starts⟩ ∈ World.dueTasks now slots := by
  unfold World.dueTasks
  refine List.mem_map.mpr ⟨(due, ⟨slot.number, slot.timer.starts⟩), ?_, rfl⟩
  rw [List.mem_mergeSort]
  refine List.mem_filterMap.mpr ⟨slot, hslot, ?_⟩
  simp [due?_eq_some.mpr hphase, hdue]

/-- Every strike lies ahead of a time. -/
def Outside.Ahead (o : Outside) (time : Nat) : Prop :=
  ∀ slot ∈ o.slots, ∀ due, slot.timer.phase = .waiting due → time < due

/-- When no task is ready, nothing is due. -/
theorem Regular.ahead (h : Regular none o) (hready : o.ready = []) : o.Ahead o.time := by
  intro slot hslot due hphase
  by_contra hdue
  have hprompt := h.prompt slot.number slot.timer due (h.distinct.timer?_of_mem hslot) hphase
    (Nat.not_lt.mp hdue)
  rw [hready, strikingOf_none] at hprompt
  rcases hprompt with hmem | hstrikes
  · cases hmem
  · cases hstrikes

/-- The tasks of the timers that are due first wake up. -/
theorem Sound.wake (h : Sound none w.outside) (hready : w.outside.ready = [])
    (hdue : World.nextDue? w.outside.slots = some due) : Sound none (w.wake due).outside := by
  obtain ⟨⟨slot, hslot, hphase⟩, hleast⟩ := nextDue?_eq_some hdue
  have hpast : w.outside.time < due := h.toRegular.ahead hready slot hslot due hphase
  refine ⟨h.toRegular.later (Nat.le_of_lt hpast) fun n t due' ht hphase' => ?_, h.cast, h.scripts⟩
  obtain ⟨slot', hslot', rfl, rfl⟩ := Outside.mem_of_timer? ht
  refine ⟨hleast slot' hslot' due' hphase', ?_⟩
  rintro rfl
  exact List.mem_append_right _ (mem_dueTasks hslot' hphase' (Nat.le_refl _))

/-- How much there can be to do up to a time. -/
def Outside.agenda (o : Outside) (stop : Nat) : Nat :=
  o.ready.length + o.allowance + (stop - o.time) * (o.slots.length + o.allowance + 1)

/-- Whatever is due up to a time is done, and the sweeps are counted. -/
structure Done (stop count : Nat) (o : Outside) (result : World × Nat) : Prop
    extends Sound none result.1.outside where
  time : result.1.outside.time ≤ stop
  ahead : result.1.outside.Ahead stop
  allowance : result.1.outside.allowance ≤ o.allowance
  sweeps : result.1.outside.sweeps + count = o.sweeps + result.2

theorem Sound.done {stop : Nat} (h : Sound none w.outside) (htime : w.outside.time ≤ stop)
    (hahead : w.outside.Ahead stop) (count : Nat) : Done stop count w.outside (w, count) :=
  ⟨h, htime, hahead, Nat.le_refl _, rfl⟩

/-- What was done before counts. -/
theorem Done.after {stop count n : Nat} {result : World × Nat} (h : Done stop (count + n) o' result)
    (hallowance : o'.allowance ≤ o.allowance) (hsweeps : o'.sweeps = o.sweeps + n) :
    Done stop count o result := by
  refine ⟨h.toSound, h.time, h.ahead, Nat.le_trans h.allowance hallowance, ?_⟩
  have := h.sweeps
  omega

theorem Sound.ahead_of_idle {stop : Nat} (h : Sound none o) (htime : o.time ≤ stop)
    (hidle : o.agenda stop = 0) : o.Ahead stop := by
  unfold Outside.agenda at hidle
  have hready : o.ready = [] := List.length_eq_zero_iff.mp (by omega)
  have hstop : o.time = stop := by
    rcases Nat.mul_eq_zero.mp (Nat.eq_zero_of_add_eq_zero_left hidle) with hspan | hspan <;> omega
  exact hstop ▸ h.toRegular.ahead hready

/-- With each task that runs there is less to do. -/
theorem agenda_runTask {others : List Task} {sweeps : Nat} (stop : Nat)
    (hready : w.outside.ready = task :: others)
    (h : Spends none 0 sweeps { w.outside with ready := others } o') :
    o'.agenda stop < w.outside.agenda stop := by
  have htime := h.time
  have hslots := h.slots
  have hless := h.ready
  have hallowance : ({ w.outside with ready := others } : Outside).allowance =
      w.outside.allowance := allowance_of_same rfl rfl rfl
  rw [hallowance] at hslots hless
  dsimp only at htime hslots hless
  have hmul := Nat.mul_le_mul_left (stop - w.outside.time) (Nat.succ_le_succ hslots)
  unfold Outside.agenda
  rw [htime, hready, List.length_cons]
  simp only [Nat.succ_eq_add_one, Nat.add_zero] at hmul hslots
  omega

/-- When the tasks wake up that are due first there is less to do. -/
theorem agenda_wake {stop : Nat} (hready : w.outside.ready = []) (hpast : w.outside.time < due)
    (hstop : due ≤ stop) : (w.wake due).outside.agenda stop < w.outside.agenda stop := by
  have hwoken : (w.wake due).outside.ready.length ≤ w.outside.slots.length := by
    unfold World.wake World.around
    dsimp only
    rw [hready, List.nil_append]
    exact length_dueTasks_le due w.outside.slots
  have hallowance : (w.wake due).outside.allowance = w.outside.allowance :=
    allowance_of_same rfl rfl rfl
  have htime : (w.wake due).outside.time = due := rfl
  have hslots : (w.wake due).outside.slots = w.outside.slots := rfl
  -- of the milliseconds that are left at least one has passed
  have hmul := Nat.mul_le_mul_right (w.outside.slots.length + w.outside.allowance + 1)
    (show stop - due + 1 ≤ stop - w.outside.time by omega)
  rw [Nat.succ_mul] at hmul
  unfold Outside.agenda
  rw [hallowance, htime, hslots, hready, List.length_nil]
  omega

/-- With enough fuel all is done that is due. -/
theorem done_pass (henv : ∀ striking, env.ActBy (Thrifty striking)) {stop : Nat} (fuel count : Nat)
    (w : World) (h : Sound none w.outside) (htime : w.outside.time ≤ stop)
    (hfuel : w.outside.agenda stop ≤ fuel) :
    Done stop count w.outside (pass env stop fuel w.outside.time count w) := by
  induction fuel generalizing count w with
  | zero => exact h.done htime (h.ahead_of_idle htime (Nat.le_zero.mp hfuel)) count
  | succ fuel ih =>
    rw [pass]
    split
    · rename_i task others hready
      have hran := spends_next (henv _) h hready
      have hless := agenda_runTask stop hready hran
      generalize runTask env w.outside.time task
        (World.around w (fun o => { o with ready := others })) = ran at hran hless ⊢
      have hnow : ran.1.outside.time = w.outside.time := hran.time
      have hdone := ih (count + ran.2) ran.1 hran.toSound (hnow ▸ htime) (by omega)
      rw [hnow] at hdone
      exact hdone.after hran.allowance hran.sweeps
    · rename_i hready
      split
      · rename_i hnone
        exact h.done htime (fun slot hslot due hphase =>
          absurd hphase (nextDue?_eq_none hnone slot hslot due)) count
      · rename_i due hdue
        obtain ⟨⟨slot, hslot, hphase⟩, hleast⟩ := nextDue?_eq_some hdue
        have hpast : w.outside.time < due := h.toRegular.ahead hready slot hslot due hphase
        split
        · rename_i hstop
          have hnow : max w.outside.time due = due := Nat.max_eq_right (Nat.le_of_lt hpast)
          have hless := agenda_wake hready hpast hstop
          have hdone := ih count (w.wake due) (h.wake hready hdue) hstop (by omega)
          dsimp only
          rw [hnow]
          exact hdone.after (n := 0) (Nat.le_refl _) rfl
        · rename_i hstop
          refine h.done htime (fun slot' hslot' due' hphase' => ?_) count
          exact Nat.lt_of_lt_of_le (Nat.not_le.mp hstop) (hleast slot' hslot' due' hphase')

/-- The bound on what there is to do in a span holds. -/
theorem agenda_le_passBound {depth : Nat} (span : Nat) (h : w.outside.allowance ≤ depth) :
    w.outside.agenda (w.outside.time + span) ≤ passBound depth span w := by
  have hspan := Nat.mul_le_mul_right span (show w.outside.slots.length + w.outside.allowance + 1 ≤
    w.outside.slots.length + w.outside.ready.length + depth + 2 by omega)
  unfold Outside.agenda passBound
  rw [Nat.add_sub_cancel_left, Nat.mul_comm span, Nat.mul_add _ span 2]
  omega

/-- When time passes all that is due is done, and the timers stay as their histories say. The
answer is how many sweeps there were. -/
theorem Sound.sleep (henv : ∀ striking, env.ActBy (Thrifty striking)) (depth span : Nat)
    (h : Sound none w.outside) (hdepth : w.outside.allowance ≤ depth) :
    Sound none (sleep env depth span w).1.outside ∧
      (sleep env depth span w).1.outside.allowance ≤ w.outside.allowance ∧
      (sleep env depth span w).1.outside.sweeps =
        w.outside.sweeps + (sleep env depth span w).2 := by
  have hdone := done_pass henv (passBound depth span w) 0 w h (Nat.le_add_right _ span)
    (agenda_le_passBound span hdepth)
  refine ⟨⟨hdone.toRegular.later hdone.time fun n t due ht hphase => ?_, hdone.cast,
    hdone.scripts⟩, hdone.allowance, hdone.sweeps⟩
  obtain ⟨slot, hslot, -, rfl⟩ := Outside.mem_of_timer? ht
  have hahead := hdone.ahead slot hslot due hphase
  exact ⟨Nat.le_of_lt hahead, fun hnow => absurd hnow (Nat.ne_of_gt hahead)⟩

end

/-! ## A scenario -/

/-- Whether time passes in the course of something only if that is what it is. -/
def Op.isUnhurried : Op → Bool
  | .sleep _ => true
  | op => op.isInstant

/-- How much time passes in the course of something. -/
def Op.span : Op → Nat
  | .sleep span => span
  | _ => 0

/-- Whether a step neither puts the time forward at once nor has time pass in the midst of it. -/
def Step.isUnhurried (s : Step) : Bool :=
  s.op.isUnhurried && s.scripts.all (fun script => Op.allInstant script.ops)

theorem foldl_add {α : Type} (f : α → Nat) (l : List α) (n : Nat) :
    l.foldl (fun n a => n + f a) n = n + (l.map f).sum := by
  induction l generalizing n with
  | nil => rfl
  | cons a rest ih => rw [List.foldl_cons, ih, List.map_cons, List.sum_cons, Nat.add_assoc]

section

variable {w : World}

/-- A sleep answers how often tasks swept in it, and the timers stay as their histories say. -/
theorem sound_asleep (depth span : Nat) (h : Sound none w.outside)
    (hdepth : w.outside.allowance < depth) :
    Sound none (perform depth (.sleep span) w).1.outside ∧
      (perform depth (.sleep span) w).1.outside.allowance ≤ w.outside.allowance ∧
      ∃ n, (perform depth (.sleep span) w).2 = .ok (.sweeps n) ∧
        (perform depth (.sleep span) w).1.outside.sweeps = w.outside.sweeps + n := by
  obtain ⟨depth, rfl⟩ : ∃ d, depth = d + 1 := ⟨depth - 1, by omega⟩
  obtain ⟨hsound, hless, hsweeps⟩ := h.sleep
    (fun striking => thrifty_surroundings (frugal_perform striking depth)) depth span (by omega)
  exact ⟨hsound, hless, _, rfl, hsweeps⟩

/-- Whatever is done, the timers stay as their histories say. -/
theorem sound_perform (depth : Nat) {op : Op} (hop : op.isUnhurried = true)
    (h : Sound none w.outside) (hdepth : w.outside.allowance < depth) :
    Sound none (perform depth op w).1.outside ∧
      (perform depth op w).1.outside.allowance ≤ w.outside.allowance + op.weight ∧
      (perform depth op w).1.outside.time = w.outside.time + op.span := by
  have hinstant : op.isInstant = true → Sound none (perform depth op w).1.outside ∧
      (perform depth op w).1.outside.allowance ≤ w.outside.allowance + op.weight ∧
      (perform depth op w).1.outside.time = w.outside.time := by
    intro hop
    have hspent := frugal_perform none depth op w hop h
    exact ⟨hspent.toSound, hspent.allowance, hspent.time⟩
  cases op with
  | sleep span =>
    obtain ⟨hsound, hless, -⟩ := sound_asleep depth span h hdepth
    obtain ⟨depth, rfl⟩ : ∃ d, depth = d + 1 := ⟨depth - 1, by omega⟩
    exact ⟨hsound, Nat.le_trans hless (Nat.le_add_right _ _), rfl⟩
  | _ => exact hinstant hop

theorem sound_runStep (depth : Nat) {s : Step} (hs : s.isUnhurried = true)
    (h : Sound none w.outside) (hdepth : w.outside.castAllowance + s.weight < depth) :
    Sound none (runStep depth w s).1.outside ∧
      (runStep depth w s).1.outside.castAllowance ≤ w.outside.castAllowance + s.weight ∧
      (runStep depth w s).1.outside.time = w.outside.time + s.op.span := by
  rw [Step.isUnhurried, Bool.and_eq_true, List.all_eq_true] at hs
  generalize hbegun : World.around w (fun o =>
    { o with scripts := s.scripts, readings := 0, playing := false }) = begun
  have hsound : Sound none begun.outside := by
    rw [← hbegun]
    exact ⟨h.toRegular.of_same rfl rfl rfl rfl rfl, h.cast, hs.2⟩
  have hallowance : begun.outside.allowance + s.op.weight ≤ w.outside.castAllowance + s.weight := by
    have hscripted : begun.outside.scripted ≤
        (s.scripts.map (fun script => Op.totalWeight script.ops)).sum := by
      rw [← hbegun]
      exact (List.filter_sublist.map _).sum_le_sum fun _ _ => Nat.zero_le _
    have hcast : begun.outside.castAllowance = w.outside.castAllowance := by
      rw [← hbegun]
      rfl
    rw [Outside.allowance, hcast, Step.weight, foldl_add]
    omega
  have htime : begun.outside.time = w.outside.time := by
    rw [← hbegun]
    rfl
  obtain ⟨hdone, hless, hpassed⟩ := sound_perform depth hs.1 hsound (by omega)
  have hcast : (perform depth s.op begun).1.outside.castAllowance ≤
      (perform depth s.op begun).1.outside.allowance := Nat.le_add_right _ _
  unfold runStep
  rw [hbegun]
  exact ⟨hdone, Nat.le_trans hcast (Nat.le_trans hless hallowance), htime ▸ hpassed⟩

theorem sound_runSteps (depth : Nat) {steps : List Step}
    (hsteps : ∀ s ∈ steps, s.isUnhurried = true) (h : Sound none w.outside)
    (hdepth : w.outside.castAllowance + Step.totalWeight steps < depth) :
    Sound none (runSteps depth w steps).1.outside ∧
      (runSteps depth w steps).1.outside.time =
        w.outside.time + (steps.map (·.op.span)).sum := by
  induction steps generalizing w with
  | nil => exact ⟨h, rfl⟩
  | cons s rest ih =>
    have hweight : Step.totalWeight (s :: rest) = s.weight + Step.totalWeight rest := by
      simp only [Step.totalWeight, foldl_add, List.map_cons, List.sum_cons, Nat.zero_add]
    obtain ⟨hstep, hless, htime⟩ := sound_runStep depth (hsteps s List.mem_cons_self) h (by omega)
    obtain ⟨hsound, hpassed⟩ := ih (w := (runStep depth w s).1)
      (fun s' hs' => hsteps s' (List.mem_cons_of_mem s hs')) hstep (by omega)
    refine ⟨hsound, hpassed.trans ?_⟩
    rw [htime, List.map_cons, List.sum_cons, Nat.add_assoc]

theorem sound_world {s : Setup} (hlisteners : ∀ l ∈ s.listeners, l.2.isInstant = true) :
    Sound none s.world.outside := by
  refine ⟨⟨List.nodup_nil, ?_, ?_, ?_⟩, ?_, ?_⟩
  · exact fun n _ => ⟨rfl, rfl, rfl⟩
  · exact fun n hn => absurd hn (Nat.not_lt_zero n)
  · exact fun n t due ht => by cases ht
  · intro role hrole
    obtain ⟨l, hl, rfl⟩ := List.mem_map.mp hrole
    exact hlisteners l hl
  · exact fun script hscript => by cases hscript

/-- The depth of a scenario is greater than all that can be done in it. -/
theorem allowance_lt_depthFor (s : Setup) (steps : List Step) :
    s.world.outside.castAllowance + Step.totalWeight steps <
      depthFor s.world.outside.cast steps := by
  have hcast : s.world.outside.castAllowance =
      (s.world.outside.cast.map (·.manner.weight)).sum := by
    change ((s.listeners.map (fun l => Role.new l.1 l.2)).map Role.allowance).sum =
      ((s.listeners.map (fun l => Role.new l.1 l.2)).map (·.manner.weight)).sum
    simp only [List.map_map, Function.comp_def, allowance_new]
    rfl
  rw [depthFor, foldl_add, hcast]
  omega

/-- In a scenario without haste the timers are always as their histories say. -/
theorem sound_run {s : Setup} {steps : List Step}
    (hlisteners : ∀ l ∈ s.listeners, l.2.isInstant = true)
    (hsteps : ∀ step ∈ steps, step.isUnhurried = true) :
    Sound none (run s.world steps).1.outside ∧
      (run s.world steps).1.outside.time = (steps.map (·.op.span)).sum := by
  have hran := sound_runSteps _ hsteps (sound_world hlisteners) (allowance_lt_depthFor s steps)
  exact ⟨hran.1, hran.2.trans (Nat.zero_add _)⟩

end

/-! ## Every timer keeps its rhythm -/

/-- A timer that was made with these times has swept in each of its spells as it should, and nothing
of it has swept but in one of them. -/
structure Timely (delay interval now : Nat) (history : List DiaryEntry) : Prop where
  swept : ∀ later spell earlier, spells history = later ++ spell :: earlier →
    spell.Swept delay (max interval 1) now (strikes (earlier.length + 1) history)
  owned : ∀ e ∈ history, ∀ start, e.event = .struck start →
    ∃ later spell earlier, spells history = later ++ spell :: earlier ∧ start = earlier.length + 1

theorem Accords.timely {delay interval now : Nat} {timer? : Option Timer}
    {history : List DiaryEntry} (h : Accords delay interval now none timer? history) :
    Timely delay interval now history := by
  refine ⟨fun later spell earlier hspell => h.swept hspell, fun e he start hstruck => ?_⟩
  obtain ⟨hpos, hle⟩ := h.numbered start
    (List.ne_nil_of_mem (mem_strikes.mpr ⟨e, he, hstruck, rfl⟩))
  generalize spells history = ss at hle
  have hlt : ss.length - start < ss.length := by omega
  refine ⟨ss.take (ss.length - start), ss[ss.length - start], ss.drop (ss.length - start + 1),
    ?_, ?_⟩
  · rw [List.getElem_cons_drop, List.take_append_drop]
  · rw [List.length_drop]
    omega

/-- Whatever is done with a timer is the newest entry of its history, noted when its lines are in
the log. -/
structure Noted (w : World) (name : String) (slot : Slot) : Prop where
  start : slot.timer.isRunning = true ∨ w.outside.canStart = true →
    (w.onTimer name .start).1.outside.history slot.number =
      ⟨w.outside.time, slot.number, .started, w.journal.length + 1⟩ ::
        w.outside.history slot.number
  cancel : (w.onTimer name .cancel).1.outside.history slot.number =
    ⟨w.outside.time, slot.number, .cancelled, (w.logAll slot.timer.cancelLines).journal.length⟩ ::
      w.outside.history slot.number
  drop : (w.onTimer name .drop).1.outside.history slot.number =
    ⟨w.outside.time, slot.number, .dropped, (w.logAll slot.timer.cancelLines).journal.length⟩ ::
      w.outside.history slot.number

theorem noted {w : World} {name : String} {slot : Slot} (hslot : w.slot? name = some slot) :
    Noted w name slot := by
  refine ⟨fun hcan => ?_, ?_, ?_⟩
  · rw [World.onTimer, hslot]
    dsimp only
    unfold World.startTimer
    dsimp only
    split
    · exact history_jot_self _ _ _
    · rename_i hrest
      split
      · exact history_jot_self _ _ _
      · rename_i hcannot
        exact absurd (hcan.resolve_left hrest) hcannot
  · rw [World.onTimer, hslot]
    exact history_jot_self _ _ _
  · rw [World.onTimer, World.dropTimer, hslot]
    exact history_jot_self _ _ _

/-- Starting a timer that is running is noted, and nothing else comes of it. -/
theorem start_of_running {w : World} {name : String} {slot : Slot}
    (hslot : w.slot? name = some slot) (hrun : slot.timer.isRunning = true) :
    w.onTimer name .start =
      (World.jot (w.logAll [⟨.warn, "Channel scanner already running"⟩]) slot.number .started,
        .ok (.truth true)) := by
  rw [World.onTimer, hslot]
  dsimp only
  rw [World.startTimer, if_pos hrun, Timer.startLine, if_pos hrun]

theorem Regular.running {o : Outside} (h : Regular none o) (n : Nat) :
    (o.timer? n).any Timer.isRunning = underway (spells (o.history n)) := by
  rcases Nat.lt_or_ge n o.made with hn | hn
  · obtain ⟨delay, interval, hacc⟩ := h.accords n hn
    exact hacc.running
  · obtain ⟨hnone, hempty, -⟩ := h.unmade n hn
    rw [hnone, hempty]
    rfl

/-- Whatever has a history was made. -/
theorem Regular.accords_of_history {o : Outside} {n : Nat} (h : Regular none o)
    (hne : o.history n ≠ []) :
    ∃ delay interval, Accords delay interval o.time none (o.timer? n) (o.history n) := by
  refine h.accords n (Nat.lt_of_not_le fun hn => ?_)
  exact hne (h.unmade n hn).2.1

/-- The timers of a world are in rhythm. -/
structure InRhythm (w : World) : Prop where
  noted : ∀ name slot, w.slot? name = some slot → Noted w name slot
  /-- a sleep answers how many sweeps were noted in it -/
  counted : ∀ depth span, w.outside.allowance < depth →
    ∃ n, (perform depth (.sleep span) w).2 = .ok (.sweeps n) ∧
      (perform depth (.sleep span) w).1.outside.sweeps = w.outside.sweeps + n
  /-- to start a timer that is running changes nothing -/
  again : ∀ name slot, w.slot? name = some slot → slot.timer.isRunning = true →
    w.onTimer name .start =
        (World.jot (w.logAll [⟨.warn, "Channel scanner already running"⟩]) slot.number .started,
          .ok (.truth true)) ∧
      spells ((w.onTimer name .start).1.outside.history slot.number) =
        spells (w.outside.history slot.number)
  /-- a timer is running when its newest spell is open -/
  running : ∀ n, (w.outside.timer? n).any Timer.isRunning = underway (spells (w.outside.history n))
  timely : ∀ n, ∀ e ∈ w.outside.history n, ∀ delay interval, e.event = .made delay interval →
    Timely delay interval w.outside.time (w.outside.history n)
  /-- whatever has a history was made, with the times that it has -/
  made : ∀ n, w.outside.history n ≠ [] →
    ∃ e ∈ w.outside.history n, ∃ delay interval, e.event = .made delay interval ∧
      ∀ t, w.outside.timer? n = some t → t.delay = delay ∧ t.interval = max interval 1
  /-- what is noted as a strike is a sweep of the registry -/
  faithful : Faithful w

theorem Sound.inRhythm {w : World} (h : Sound none w.outside) (hfaithful : Faithful w) :
    InRhythm w where
  noted := fun _ _ hslot => Scenario.noted hslot
  counted := fun depth span hdepth => (sound_asleep depth span h hdepth).2.2
  again := by
    intro name slot hslot hrun
    have hmem : slot ∈ w.outside.slots := List.mem_of_find?_eq_some hslot
    have hunder : underway (spells (w.outside.history slot.number)) = true := by
      rw [← h.running, h.distinct.timer?_of_mem hmem]
      exact hrun
    refine ⟨start_of_running hslot hrun, ?_⟩
    rw [(Scenario.noted hslot).start (.inl hrun), spells_of_start rfl,
      beginSpell_of_underway hunder]
  running := h.running
  timely := by
    intro n e he delay interval hmade
    obtain ⟨delay', interval', hacc⟩ := h.accords_of_history (List.ne_nil_of_mem he)
    obtain ⟨rfl, rfl⟩ := hacc.madeOnce e he delay interval hmade
    exact hacc.timely
  made := by
    intro n hne
    obtain ⟨delay, interval, hacc⟩ := h.accords_of_history hne
    obtain ⟨e, he, hmade⟩ := hacc.made
    exact ⟨e, he, delay, interval, hmade, hacc.times⟩
  faithful := hfaithful

/-- In a scenario that never puts the time forward at once, the present is as late as its sleeps
were long, and every timer keeps its rhythm. It is running from a start to the next time that it is
cancelled or dropped, or that a sweep of its task panics. In that spell it sweeps when its delay has
passed and then at its interval, once each time, and it sweeps at no other time. Each of its strikes
is a sweep of the registry. -/
theorem timers_keep_their_rhythm (s : Setup) (steps : List Step)
    (hlisteners : ∀ l ∈ s.listeners, l.2.isInstant = true)
    (hsteps : ∀ step ∈ steps, step.isUnhurried = true) :
    (run s.world steps).1.outside.time = (steps.map (·.op.span)).sum ∧
      InRhythm (run s.world steps).1 := by
  obtain ⟨hsound, htime⟩ := sound_run hlisteners hsteps
  exact ⟨htime, hsound.inRhythm (faithful_run s steps)⟩

/-- A timer that is started, started again, cancelled after some sweeps, started anew out of its
old rhythm and then dropped. -/
def restarting : Setup × List Step :=
  ({ settings := default, time := 0, steady := false, measured := false, canStart := true,
     channels := [], listeners := [] },
    [Op.timer "t" (.new (some 10) (some 20)), .timer "t" .start, .timer "t" .start, .sleep 35,
      .timer "t" .cancel, .timer "t" .start, .sleep 15, .timer "t" .drop, .sleep 50].map
      (fun op => ⟨op, [], false⟩))

theorem a_restarted_timer_keeps_its_rhythm :
    let o := (run restarting.1.world restarting.2).1.outside
    (∀ l ∈ restarting.1.listeners, l.2.isInstant = true) ∧
      (∀ step ∈ restarting.2, step.isUnhurried = true) ∧
      spells (o.history 0) = [⟨35, some 50⟩, ⟨0, some 35⟩] ∧
      strikes 1 (o.history 0) = [30, 10] ∧ strikes 2 (o.history 0) = [45] ∧
      Timely 10 20 100 (o.history 0) := by
  intro o
  have hlisteners : ∀ l ∈ restarting.1.listeners, l.2.isInstant = true := by decide
  have hsteps : ∀ step ∈ restarting.2, step.isUnhurried = true := by decide
  obtain ⟨htime, hrhythm⟩ :=
    timers_keep_their_rhythm restarting.1 restarting.2 hlisteners hsteps
  have hmade : ⟨0, 0, .made 10 20, 0⟩ ∈ o.history 0 := by decide +kernel
  have htimely := hrhythm.timely 0 _ hmade 10 20 rfl
  rw [htime] at htimely
  exact ⟨hlisteners, hsteps, by decide +kernel, by decide +kernel, by decide +kernel, htimely⟩

end ConsumerGroups.Scenario
