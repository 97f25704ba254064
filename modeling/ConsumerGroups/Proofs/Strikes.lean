-- The strikes of the timers are sweeps. A strike is noted in the diary right before the registry
-- begins to sweep, and every strike has a sweep of its own. This holds whatever is done in a
-- scenario, also when time is put forward at once or passes in the midst of a reaction.
import ConsumerGroups.Proofs.Instants

set_option autoImplicit false

namespace ConsumerGroups.Scenario

/-- What the diary of a world calls strikes are sweeps of its registry: at the place of each strike
in the journal, counted from the oldest entry, a sweep begins, and each has a place of its own. -/
structure Faithful (w : World) : Prop where
  swept : ∀ e ∈ w.outside.diary, e.event.isStrike = true →
    w.journal.reverse[e.place]? = some (.began .sweep)
  apart : (w.outside.diary.filter (·.event.isStrike)).Pairwise (fun e e' => e'.place < e.place)

/-- Whatever happens between two states, the diary stays faithful. -/
def Keeping (w w' : World) : Prop := Faithful w → Faithful w'

section

variable {w w' w'' : World} {event : TimerEvent} {env : Surroundings Outside} {task : Task}

/-! ## The diary stays faithful -/

theorem Faithful.place_lt (h : Faithful w) {e : DiaryEntry} (he : e ∈ w.outside.diary)
    (hstrike : e.event.isStrike = true) : e.place < w.journal.length := by
  have hplace := (List.getElem?_eq_some_iff.mp (h.swept e he hstrike)).1
  rwa [List.length_reverse] at hplace

/-- When the journal grows, what is at the place of a strike stays there. -/
theorem Faithful.swept_of_suffix (h : Faithful w) (hjournal : w.journal <:+ w'.journal)
    {e : DiaryEntry} (he : e ∈ w.outside.diary) (hstrike : e.event.isStrike = true) :
    w'.journal.reverse[e.place]? = some (.began .sweep) := by
  obtain ⟨es, hes⟩ := hjournal
  have hplace := h.place_lt he hstrike
  rw [← hes, List.reverse_append, List.getElem?_append_left (by simpa using hplace)]
  exact h.swept e he hstrike

/-- Nothing is written into the diary, and the journal loses nothing. -/
theorem keeping_of_same (hjournal : w.journal <:+ w'.journal)
    (hdiary : w'.outside.diary = w.outside.diary) : Keeping w w' := by
  refine fun h => ⟨fun e he hstrike => ?_, ?_⟩
  · rw [hdiary] at he
    exact h.swept_of_suffix hjournal he hstrike
  · rw [hdiary]
    exact h.apart

theorem Beside.keeping (h : Beside w w') : Keeping w w' := by
  have hcourse := h.course
  simp only [Outside.course, Prod.mk.injEq] at hcourse
  obtain ⟨-, -, -, hdiary, -⟩ := hcourse
  exact keeping_of_same h.journal hdiary

theorem Keeping.refl (w : World) : Keeping w w := id

theorem Keeping.trans (h : Keeping w w') (h' : Keeping w' w'') : Keeping w w'' := h' ∘ h

/-- Before it something may be done that is written neither into the journal nor into the diary. -/
theorem Keeping.after (h : Keeping w' w'') (hjournal : w'.journal = w.journal)
    (hdiary : w'.outside.diary = w.outside.diary) : Keeping w w'' :=
  (keeping_of_same (hjournal ▸ List.suffix_rfl) hdiary).trans h

/-- By itself a registry writes nothing into the diary. -/
theorem Keeping.admitting : Admitting (fun _ => True) Keeping where
  aside := by
    intro r s h houtside _
    obtain ⟨es, hes, -⟩ := h.journal
    exact keeping_of_same ⟨es, hes.symm⟩ (congrArg Outside.diary houtside)
  trans := Keeping.trans
  release := fun _ _ => keeping_of_same (List.suffix_append _ _) rfl
  unmap := fun _ _ _ _ => keeping_of_same (List.suffix_cons _ _) rfl
  found := fun _ _ _ => keeping_of_same (List.suffix_cons _ _) rfl
  revise := fun _ _ => keeping_of_same List.suffix_rfl rfl

/-- What is no strike need not be a sweep. -/
theorem keeping_jot (hevent : event.isStrike = false) (w : World) (n : Nat) :
    Keeping w (w.jot n event) := by
  intro h
  have hfilter : (w.jot n event).outside.diary.filter (·.event.isStrike) =
      w.outside.diary.filter (·.event.isStrike) := List.filter_cons_of_neg (by simp [hevent])
  refine ⟨fun e he hstrike => ?_, ?_⟩
  · have hmem : e ∈ (w.jot n event).outside.diary.filter (·.event.isStrike) :=
      List.mem_filter.mpr ⟨he, hstrike⟩
    rw [hfilter] at hmem
    exact h.swept e (List.mem_of_mem_filter hmem) hstrike
  · rw [hfilter]
    exact h.apart

/-- A strike is noted, and then the sweep begins. -/
theorem Faithful.strike (h : Faithful w) (n start : Nat) :
    Faithful (Registry.note (w.jot n (.struck start)) (.began .sweep)) := by
  refine ⟨fun e he hstrike => ?_, ?_⟩
  · rcases List.mem_cons.mp he with rfl | he
    · simp [Registry.note, World.jot, World.around]
    · exact h.swept_of_suffix (List.suffix_cons _ _) he hstrike
  · have hfilter : (w.jot n (.struck start)).outside.diary.filter (·.event.isStrike) =
        ⟨w.outside.time, n, .struck start, w.journal.length⟩ ::
          w.outside.diary.filter (·.event.isStrike) := List.filter_cons_of_pos rfl
    refine hfilter ▸ List.pairwise_cons.mpr ⟨fun e he => ?_, h.apart⟩
    obtain ⟨hmem, hstrike⟩ := List.mem_filter.mp he
    exact h.place_lt hmem hstrike

theorem Faithful.sweep (henv : env.ActBy Keeping) (h : Faithful w) (n start : Nat) :
    Faithful (Registry.sweep env (w.jot n (.struck start))).1 :=
  Keeping.admitting.sweep_of_begun henv _ (h.strike n start)

/-! ## Time passes -/

theorem keeping_rest (w : World) (task : Task) (due : Nat) : Keeping w (w.rest task due) := by
  unfold World.rest
  split
  · exact .refl w
  · exact keeping_of_same List.suffix_rfl rfl

theorem keeping_breakOff (w : World) (task : Task) : Keeping w (w.breakOff task) := by
  unfold World.breakOff
  split
  · exact .refl w
  · exact (keeping_jot rfl _ _).after rfl rfl

/-- A task strikes as often as it is due. Each time a strike and its sweep go together, since in
between the diary is not faithful. -/
theorem keeping_strikeFrom (henv : env.ActBy Keeping) (now seen : Nat) (task : Task) (t : Timer)
    (due : Nat) (w : World) : Keeping w (strikeFrom env now seen task t due w).1 := by
  induction due, w using strikeFrom.induct env now seen task t with
  | case1 due w hlater =>
    rw [strikeFrom, if_pos hlater]
    exact keeping_rest w task due
  | case2 due w hdue s panic hsweep =>
    intro h
    have hswept := h.sweep henv task.timer task.start
    rw [hsweep] at hswept
    rw [strikeFrom, if_neg hdue, hsweep]
    exact keeping_breakOff s task hswept
  | case3 due w hdue s n hsweep _ _ _ ih =>
    intro h
    have hswept := h.sweep henv task.timer task.start
    rw [hsweep] at hswept
    rw [strikeFrom, if_neg hdue, hsweep]
    exact ih (Keeping.admitting.logAll s _ hswept)

theorem keeping_runTask (henv : env.ActBy Keeping) (seen : Nat) (task : Task) (w : World) :
    Keeping w (runTask env seen task w).1 := by
  unfold runTask
  split
  · exact .refl w
  · split
    · exact .refl w
    · exact keeping_strikeFrom henv _ _ _ _ _ w

theorem keeping_pass (henv : env.ActBy Keeping) (stop fuel seen count : Nat) (w : World) :
    Keeping w (pass env stop fuel seen count w).1 := by
  induction fuel generalizing seen count w with
  | zero => exact .refl w
  | succ fuel ih =>
    rw [pass]
    split
    · rename_i task others _
      have hran := keeping_runTask henv seen task
        (World.around w (fun o => { o with ready := others }))
      exact (hran.trans (ih _ _ _)).after rfl rfl
    · split
      · exact .refl w
      · split
        · exact (ih _ _ _).after rfl rfl
        · exact .refl w

theorem keeping_sleep (henv : env.ActBy Keeping) (depth span : Nat) (w : World) :
    Keeping w (sleep env depth span w).1 := by
  have hpassed := keeping_pass henv (w.outside.time + span) (passBound depth span w)
    w.outside.time 0 w
  exact hpassed.trans (keeping_of_same List.suffix_rfl rfl)

theorem keeping_jump (henv : env.ActBy Keeping) (depth span : Nat) (w : World) :
    Keeping w (jump env depth span w).1 := by
  have hahead : Keeping w (World.around w fun o => { o with time := w.outside.time + span }) :=
    keeping_of_same List.suffix_rfl rfl
  exact hahead.trans (keeping_pass henv _ _ _ _ _)

/-! ## What is done with timers -/

theorem keeping_dropTimer (w : World) (name : String) : Keeping w (w.dropTimer name) := by
  unfold World.dropTimer
  split
  · exact .refl w
  · rename_i slot _
    exact (Keeping.admitting.logAll w slot.timer.cancelLines).trans
      ((keeping_jot rfl _ _).after rfl rfl)

theorem keeping_makeTimer (w : World) (name : String) (delay interval : Nat) :
    Keeping w (w.makeTimer name delay interval) := by
  refine (keeping_dropTimer w name).trans ?_
  exact (keeping_jot rfl _ _).trans (keeping_of_same List.suffix_rfl rfl)

theorem keeping_startTimer (w : World) (slot : Slot) : Keeping w (w.startTimer slot).1 := by
  have hlogged := Keeping.admitting.logAll w [slot.timer.startLine]
  unfold World.startTimer
  dsimp only
  split
  · exact hlogged.trans (keeping_jot rfl _ _)
  · split
    · exact hlogged.trans ((keeping_jot rfl _ _).after rfl rfl)
    · exact hlogged

theorem keeping_onTimer (w : World) (name : String) (op : TimerOp) :
    Keeping w (w.onTimer name op).1 := by
  cases op with
  | new delay interval => exact keeping_makeTimer w name _ _
  | drop => exact keeping_dropTimer w name
  | start =>
    unfold World.onTimer
    cases w.slot? name with
    | none => exact .refl w
    | some slot => exact keeping_startTimer w slot
  | cancel =>
    unfold World.onTimer
    cases w.slot? name with
    | none => exact .refl w
    | some slot =>
      refine (Keeping.admitting.logAll w slot.timer.cancelLines).trans ?_
      exact (keeping_jot rfl _ _).after rfl rfl
  | isRunning =>
    unfold World.onTimer
    cases w.slot? name <;> exact .refl w

/-! ## Listeners and scripts -/

section

variable {perform : Doing} (hperform : ∀ op w, Keeping w (perform op w).1)

include hperform

theorem keeping_react (name group : String) (ops : List Op) (w : World) :
    Keeping w (react perform name group ops w).1 := by
  induction ops generalizing w with
  | nil => exact .refl w
  | cons op rest ih =>
    refine Keeping.admitting.andThen (hperform op w) fun s answer _ => ?_
    exact (ih _).after rfl rfl

theorem keeping_play (ops : List Op) (w : World) : Keeping w (play perform ops w).1 := by
  induction ops generalizing w with
  | nil => exact .refl w
  | cons op rest ih => exact Keeping.admitting.andThen (hperform op w) fun s _ _ => ih s

theorem keeping_tell (l : Nat) (group : String) (event : Event) (w : World) :
    Keeping w (tell perform l group event w).1 := by
  unfold tell
  split
  · exact .refl w
  · rename_i role _
    dsimp only
    split
    · exact keeping_of_same List.suffix_rfl rfl
    · exact keeping_of_same List.suffix_rfl rfl
    · exact .refl w
    · exact .refl w
    · exact .refl w
    · exact .refl w
    · exact .refl w
    · rename_i ops _ _
      split
      · exact .refl w
      · have hreacted := (keeping_react hperform role.name group ops (World.setRole w l
          { role with left := role.left - 1 })).after (w := w) rfl rfl
        split <;> rename_i heq <;> rw [heq] at hreacted <;> exact hreacted

theorem keeping_beforeReading (w : World) : Keeping w (beforeReading perform w).1 := by
  unfold beforeReading
  split
  · exact .refl w
  · refine Keeping.admitting.andThen ?_ fun s _ _ => keeping_of_same List.suffix_rfl rfl
    exact (keeping_play hperform _ _).after rfl rfl

theorem keeping_surroundings : (surroundings perform).ActBy Keeping :=
  ⟨keeping_beforeReading hperform, keeping_tell hperform⟩

end

/-! ## Whatever is done -/

theorem keeping_look (w : World) (name : String) (look : Look) :
    Keeping w (World.look w name look).1 := by
  unfold World.look
  split
  · exact .refl w
  · split
    · exact .refl w
    · exact .refl w
    · exact .refl w
    · exact keeping_of_same List.suffix_rfl rfl

theorem keeping_act (henv : env.ActBy Keeping) (depth : Nat) (op : Op) (w : World) :
    Keeping w (act env depth w op).1 := by
  cases op with
  | append name manner => exact keeping_of_same List.suffix_rfl rfl
  | notebook name look => exact keeping_look w name look
  | timer name op => exact keeping_onTimer w name op
  | sleep span => exact keeping_sleep henv depth span w
  | jump span => exact keeping_jump henv depth span w
  | _ => exact related_act Keeping.admitting Beside.keeping henv depth rfl w

/-- Whatever is done, to whatever depth, the diary stays faithful. -/
theorem keeping_perform (depth : Nat) (op : Op) (w : World) :
    Keeping w (perform depth op w).1 := by
  induction depth generalizing op w with
  | zero => exact .refl w
  | succ depth ih => exact keeping_act (keeping_surroundings ih) depth op w

theorem keeping_runStep (depth : Nat) (w : World) (s : Step) :
    Keeping w (runStep depth w s).1 :=
  (keeping_perform depth s.op _).after rfl rfl

theorem keeping_runSteps (depth : Nat) (steps : List Step) (w : World) :
    Keeping w (runSteps depth w steps).1 := by
  induction steps generalizing w with
  | nil => exact .refl w
  | cons s rest ih => exact (keeping_runStep depth w s).trans (ih _)

/-- In every scenario the strikes of the timers are sweeps. -/
theorem faithful_run (s : Setup) (steps : List Step) : Faithful (run s.world steps).1 := by
  refine keeping_runSteps _ steps s.world ⟨?_, List.Pairwise.nil⟩
  exact fun e he => absurd he List.not_mem_nil

end

end ConsumerGroups.Scenario
