-- What happens in an instant. Listeners and scripts that never let time pass may do whatever else
-- they like, also with timers, and within what they do others may act in turn, to any depth. The
-- timers stay as their histories say, and how much can be done in this way is limited.
import Mathlib.Algebra.GroupWithZero.Nat
import ConsumerGroups.Scenario.Run
import ConsumerGroups.Proofs.Steps
import ConsumerGroups.Proofs.Clockwork

set_option autoImplicit false

namespace ConsumerGroups.Scenario

/-! ## What takes no time -/

mutual

/-- Whether no time passes in the course of something, nor in that of what it brings about later. -/
def Op.isInstant : Op → Bool
  | .sleep _ => false
  | .jump _ => false
  | .append _ manner => manner.isInstant
  | _ => true

def Manner.isInstant : Manner → Bool
  | .reacts _ _ ops _ => Op.allInstant ops
  | _ => true

def Op.allInstant : List Op → Bool
  | [] => true
  | op :: rest => op.isInstant && Op.allInstant rest

end

theorem Op.allInstant_iff {ops : List Op} :
    Op.allInstant ops = true ↔ ∀ op ∈ ops, op.isInstant = true := by
  induction ops with
  | nil => simp [Op.allInstant]
  | cons op rest ih => simp [Op.allInstant, ih]

/-- How much a listener may still do. -/
def Role.allowance (role : Role) : Nat :=
  match role.manner with
  | .reacts _ _ ops _ => role.left * (1 + Op.totalWeight ops)
  | _ => 0

namespace Outside

/-- How much the scripts of a step may still do. -/
def scripted (o : Outside) : Nat :=
  ((o.scripts.filter (fun s => o.readings < s.reading)).map (fun s => Op.totalWeight s.ops)).sum

def castAllowance (o : Outside) : Nat := (o.cast.map Role.allowance).sum

/-- How much listeners and scripts may still do. -/
def allowance (o : Outside) : Nat := o.castAllowance + o.scripted

/-- All that timers, listeners and scripts go by. -/
def course (o : Outside) :
    List Slot × List Task × Nat × List DiaryEntry × Nat × List Role × List Script × Nat :=
  (o.slots, o.ready, o.made, o.diary, o.time, o.cast, o.scripts, o.readings)

/-- No time passes in the course of what listeners and scripts do. -/
structure Instant (o : Outside) : Prop where
  cast : ∀ role ∈ o.cast, role.manner.isInstant = true
  scripts : ∀ script ∈ o.scripts, Op.allInstant script.ops = true

end Outside

/-- What is between two states is no business of the timers. So much of what listeners and scripts
may do is used up. -/
structure Untouched (used : Nat) (o o' : Outside) : Prop where
  slots : o'.slots = o.slots
  ready : o'.ready = o.ready
  made : o'.made = o.made
  diary : o'.diary = o.diary
  time : o'.time = o.time
  instant : o.Instant → o'.Instant
  allowance : o'.allowance + used ≤ o.allowance

/-- The timers are as their histories say, and nothing that listeners and scripts may do takes
time. -/
structure Sound (striking : Option Task) (o : Outside) : Prop
    extends Regular striking o, Outside.Instant o

/-- What was done took no time, and the timers are as their histories say. With `cost` to spend
besides what listeners and scripts may do, no more timers and tasks have come up than that. There
were so many sweeps of tasks. -/
structure Spends (striking : Option Task) (cost sweeps : Nat) (o o' : Outside) : Prop
    extends Sound striking o' where
  time : o'.time = o.time
  diary : o.diary <:+ o'.diary
  sweeps : o'.sweeps = o.sweeps + sweeps
  allowance : o'.allowance ≤ o.allowance + cost
  slots : o'.slots.length + o'.allowance ≤ o.slots.length + o.allowance + cost
  ready : o'.ready.length + o'.allowance ≤ o.ready.length + o.allowance + cost

section

variable {striking striking' : Option Task} {o o' o'' : Outside}
  {used cost cost' sweeps sweeps' : Nat}

theorem allowance_of_same (hcast : o'.cast = o.cast) (hscripts : o'.scripts = o.scripts)
    (hreadings : o'.readings = o.readings) : o'.allowance = o.allowance := by
  rw [Outside.allowance, Outside.castAllowance, Outside.scripted, hcast, hscripts, hreadings,
    Outside.allowance, Outside.castAllowance, Outside.scripted]

theorem untouched_of_course (h : o'.course = o.course) : Untouched 0 o o' := by
  simp only [Outside.course, Prod.mk.injEq] at h
  obtain ⟨hslots, hready, hmade, hdiary, htime, hcast, hscripts, hreadings⟩ := h
  refine ⟨hslots, hready, hmade, hdiary, htime, ?_, ?_⟩
  · rintro ⟨hi, hs⟩
    exact ⟨hcast ▸ hi, hscripts ▸ hs⟩
  · exact Nat.le_of_eq (allowance_of_same hcast hscripts hreadings)

theorem Untouched.sound (hu : Untouched used o o') (h : Sound striking o) : Sound striking o' :=
  ⟨h.toRegular.of_same hu.slots hu.ready hu.made hu.diary hu.time, hu.instant h.toInstant⟩

theorem Untouched.spends (hu : Untouched used o o') (h : Sound striking o) :
    Spends striking 0 0 o o' := by
  have hle := hu.allowance
  have hsweeps : o'.sweeps = o.sweeps := by rw [Outside.sweeps, hu.diary, Outside.sweeps]
  refine ⟨hu.sound h, hu.time, hu.diary ▸ List.suffix_rfl, hsweeps, by omega, ?_, ?_⟩
  · rw [hu.slots]
    omega
  · rw [hu.ready]
    omega

namespace Spends

theorem refl (h : Sound striking o) : Spends striking 0 0 o o :=
  (untouched_of_course rfl).spends h

theorem mono (h : Spends striking cost sweeps o o') (hle : cost ≤ cost') :
    Spends striking cost' sweeps o o' := by
  obtain ⟨hsound, htime, hdiary, hsweeps, hallowance, hslots, hready⟩ := h
  exact ⟨hsound, htime, hdiary, hsweeps, by omega, by omega, by omega⟩

theorem trans (h : Spends striking cost sweeps o o') (h' : Spends striking' cost' sweeps' o' o'') :
    Spends striking' (cost + cost') (sweeps + sweeps') o o'' := by
  obtain ⟨hsound, htime, hdiary, hsweeps, hallowance, hslots, hready⟩ := h'
  refine ⟨hsound, htime.trans h.time, h.diary.trans hdiary, ?_, ?_, ?_, ?_⟩
  · have := h.sweeps
    omega
  · have := h.allowance
    omega
  · have := h.slots
    omega
  · have := h.ready
    omega

/-- What listeners and scripts used up was there to be spent. -/
theorem after (h : Spends striking cost sweeps o' o'') (hu : Untouched used o o')
    (hle : cost ≤ used) : Spends striking 0 sweeps o o'' := by
  obtain ⟨hsound, htime, hdiary, hsweeps, hallowance, hslots, hready⟩ := h
  have hused := hu.allowance
  rw [Outside.sweeps, Outside.sweeps, hu.diary] at hsweeps
  rw [hu.diary] at hdiary
  rw [hu.slots] at hslots
  rw [hu.ready] at hready
  exact ⟨hsound, htime.trans hu.time, hdiary, hsweeps, by omega, by omega, by omega⟩

end Spends

end

/-- Between two states of a world nothing was spent but what listeners and scripts may do. -/
def Thrifty (striking : Option Task) (w w' : World) : Prop :=
  Sound striking w.outside → Spends striking 0 0 w.outside w'.outside

section

variable {striking : Option Task} {w : World}

theorem thrifty_of_course {w' : World} (h : w'.outside.course = w.outside.course) :
    Thrifty striking w w' :=
  (untouched_of_course h).spends

theorem Thrifty.trans {w' w'' : World} (h : Thrifty striking w w') (h' : Thrifty striking w' w'') :
    Thrifty striking w w'' :=
  fun hsound => (h hsound).trans (h' (h hsound).toSound)

/-- What a registry does by itself is no business of the timers. -/
theorem Thrifty.admitting (striking : Option Task) :
    Admitting (fun _ => True) (Thrifty striking) where
  aside := fun _ houtside _ => thrifty_of_course (congrArg Outside.course houtside)
  trans := Thrifty.trans
  release := fun _ _ => thrifty_of_course rfl
  unmap := fun _ _ _ _ => thrifty_of_course rfl
  found := fun _ _ _ => thrifty_of_course rfl
  revise := fun _ _ => thrifty_of_course rfl

/-! ## Listeners and scripts -/

/-- Something that is done with a world spends its weight at most, whatever it is. -/
def Frugal (striking : Option Task) (perform : Doing) : Prop :=
  ∀ op w, op.isInstant = true → Sound striking w.outside →
    Spends striking op.weight 0 w.outside (perform op w).1.outside

variable {perform : Doing}

theorem spends_andThen {α β : Type} {cost cost' : Nat} {done : World × Returned α}
    {next : World → α → World × Returned β}
    (first : Spends striking cost 0 w.outside done.1.outside)
    (second : ∀ a, Spends striking cost' 0 done.1.outside (next done.1 a).1.outside) :
    Spends striking (cost + cost') 0 w.outside (andThen done next).1.outside := by
  obtain ⟨s, p | a⟩ := done
  · exact first.mono (Nat.le_add_right _ _)
  · exact first.trans (second a)

theorem spends_react (hperform : Frugal striking perform) (name group : String) (ops : List Op)
    (hops : Op.allInstant ops = true) (w : World) (h : Sound striking w.outside) :
    Spends striking (Op.totalWeight ops) 0 w.outside
      (react perform name group ops w).1.outside := by
  induction ops generalizing w with
  | nil => exact .refl h
  | cons op rest ih =>
    rw [Op.allInstant, Bool.and_eq_true] at hops
    have hfirst := hperform op w hops.1 h
    rw [react, Op.totalWeight]
    refine spends_andThen hfirst fun answer => ?_
    have hrecorded : Spends striking 0 0 (perform op w).1.outside
        (World.record (perform op w).1 ⟨name, group, .did op.label answer⟩).outside :=
      Untouched.spends (untouched_of_course rfl) hfirst.toSound
    have hrest := hrecorded.trans (ih hops.2 _ hrecorded.toSound)
    rwa [Nat.zero_add] at hrest

theorem spends_play (hperform : Frugal striking perform) (ops : List Op)
    (hops : Op.allInstant ops = true) (w : World) (h : Sound striking w.outside) :
    Spends striking (Op.totalWeight ops) 0 w.outside (play perform ops w).1.outside := by
  induction ops generalizing w with
  | nil => exact .refl h
  | cons op rest ih =>
    rw [Op.allInstant, Bool.and_eq_true] at hops
    have hfirst := hperform op w hops.1 h
    rw [play, Op.totalWeight]
    exact spends_andThen hfirst fun _ => ih hops.2 _ hfirst.toSound

/-- What listeners may do when one of them was replaced. -/
theorem sum_allowance_set {cast : List Role} {l : Nat} {role : Role} (h : cast[l]? = some role)
    (role' : Role) :
    ((cast.set l role').map Role.allowance).sum + role.allowance =
      (cast.map Role.allowance).sum + role'.allowance := by
  induction cast generalizing l with
  | nil => simp at h
  | cons first rest ih =>
    cases l with
    | zero =>
      obtain rfl : first = role := by simpa using h
      simp only [List.set_cons_zero, List.map_cons, List.sum_cons]
      omega
    | succ l =>
      have := ih (l := l) (by simpa using h)
      simp only [List.set_cons_succ, List.map_cons, List.sum_cons]
      omega

/-- A listener is replaced by one that takes no more time and may do less. -/
theorem untouched_setRole {l used : Nat} {role role' : Role} (h : w.outside.cast[l]? = some role)
    (hmanner : role'.manner = role.manner) (hless : role'.allowance + used ≤ role.allowance) :
    Untouched used w.outside (World.setRole w l role').outside := by
  refine ⟨rfl, rfl, rfl, rfl, rfl, ?_, ?_⟩
  · intro hi
    refine ⟨fun r hr => ?_, hi.scripts⟩
    rcases List.mem_or_eq_of_mem_set hr with hr | rfl
    · exact hi.cast r hr
    · rw [hmanner]
      exact hi.cast role (List.mem_of_getElem? h)
  · have hsum := sum_allowance_set h role'
    have : (World.setRole w l role').outside.allowance =
        ((w.outside.cast.set l role').map Role.allowance).sum + w.outside.scripted := rfl
    rw [this, Outside.allowance, Outside.castAllowance]
    omega

/-- A listener that reacts uses up one of its reactions, which pays for what it does. -/
theorem thrifty_tell (hperform : Frugal striking perform) (l : Nat) (group : String)
    (event : Event) (w : World) : Thrifty striking w (tell perform l group event w).1 := by
  intro h
  unfold tell
  split
  · exact .refl h
  · rename_i role hrole
    dsimp only
    split
    · exact thrifty_of_course rfl h
    · have hnoted : Untouched 0 w.outside (World.setRole w l
          { role with notes := role.notes ++ [(group, event)] }).outside :=
        untouched_setRole hrole rfl (Nat.le_refl _)
      exact hnoted.spends h
    · exact .refl h
    · exact .refl h
    · exact .refl h
    · exact .refl h
    · exact .refl h
    · rename_i cue limit ops panicsAfter hmanner
      split
      · exact .refl h
      · rename_i hcue
        have hleft : role.left ≠ 0 := by
          intro hzero
          simp [hzero] at hcue
        have hused : Untouched (1 + Op.totalWeight ops) w.outside
            (World.setRole w l { role with left := role.left - 1 }).outside := by
          refine untouched_setRole hrole rfl ?_
          simp only [Role.allowance, hmanner]
          have hmul := Nat.succ_mul (role.left - 1) (1 + Op.totalWeight ops)
          rw [Nat.succ_eq_add_one, Nat.sub_add_cancel (by omega)] at hmul
          exact Nat.le_of_eq hmul.symm
        have hops : Op.allInstant ops = true := by
          have := h.cast role (List.mem_of_getElem? hrole)
          rwa [hmanner] at this
        have hreacted := (spends_react hperform role.name group ops hops _
          (hused.sound h)).after hused (by omega)
        split
        · rename_i heq
          rw [heq] at hreacted
          exact hreacted
        · rename_i heq
          rw [heq] at hreacted
          exact hreacted

theorem totalWeight_append (ops ops' : List Op) :
    Op.totalWeight (ops ++ ops') = Op.totalWeight ops + Op.totalWeight ops' := by
  induction ops with
  | nil => simp [Op.totalWeight]
  | cons op rest ih => simp [Op.totalWeight, ih, Nat.add_assoc]

/-- With a reading the scripts lose what they do before it. -/
theorem scripted_next (scripts : List Script) (readings : Nat) :
    ((scripts.filter (fun s => readings + 1 < s.reading)).map
        (fun s => Op.totalWeight s.ops)).sum +
      Op.totalWeight ((scripts.filter (·.reading == readings + 1)).flatMap (·.ops)) =
      ((scripts.filter (fun s => readings < s.reading)).map
        (fun s => Op.totalWeight s.ops)).sum := by
  induction scripts with
  | nil => rfl
  | cons s rest ih =>
    rcases Nat.lt_trichotomy s.reading (readings + 1) with hs | hs | hs
    · simpa [show ¬ readings + 1 < s.reading by omega, show s.reading ≠ readings + 1 by omega,
        show ¬ readings < s.reading by omega] using ih
    · simp only [hs, List.filter_cons, beq_self_eq_true, if_true, List.flatMap_cons,
        totalWeight_append, Nat.lt_irrefl, decide_false, Bool.false_eq_true, if_false,
        Nat.lt_add_one, decide_true, List.map_cons, List.sum_cons]
      omega
    · simp only [List.filter_cons, show readings + 1 < s.reading by omega,
        show readings < s.reading by omega, decide_true, if_true, List.map_cons, List.sum_cons,
        beq_false_of_ne (show s.reading ≠ readings + 1 by omega), Bool.false_eq_true, if_false]
      omega

/-- What the scripts do before a reading uses up what they may do then. -/
theorem thrifty_beforeReading (hperform : Frugal striking perform) (w : World) :
    Thrifty striking w (beforeReading perform w).1 := by
  intro h
  unfold beforeReading
  split
  · exact .refl h
  · dsimp only
    generalize hdue : (w.outside.scripts.filter
      (·.reading == w.outside.readings + 1)).flatMap (·.ops) = due
    have hused : Untouched (Op.totalWeight due) w.outside (World.around w fun o =>
        { o with readings := w.outside.readings + 1, playing := true }).outside := by
      refine ⟨rfl, rfl, rfl, rfl, rfl, fun hi => ⟨hi.cast, hi.scripts⟩, ?_⟩
      have hnext := scripted_next w.outside.scripts w.outside.readings
      rw [hdue] at hnext
      unfold Outside.allowance Outside.castAllowance Outside.scripted World.around
      dsimp only
      omega
    have hops : Op.allInstant due = true := by
      rw [← hdue, Op.allInstant_iff]
      intro op hop
      obtain ⟨script, hscript, hop⟩ := List.mem_flatMap.mp hop
      exact Op.allInstant_iff.mp (h.scripts script (List.mem_of_mem_filter hscript)) op hop
    have hplayed := spends_play hperform due hops _ (hused.sound h)
    refine Spends.after (spends_andThen hplayed fun _ => ?_) hused (Nat.le_of_eq (Nat.add_zero _))
    exact Untouched.spends (untouched_of_course rfl) hplayed.toSound

theorem thrifty_surroundings (hperform : Frugal striking perform) :
    (surroundings perform).ActBy (Thrifty striking) :=
  ⟨thrifty_beforeReading hperform, thrifty_tell hperform⟩

/-! ## What is named is found or made -/

/-- What is between two states is no business of timers, listeners and scripts, and the journal
loses nothing. -/
structure Beside (w w' : World) : Prop where
  journal : w.journal <:+ w'.journal
  course : w'.outside.course = w.outside.course

theorem Beside.refl (w : World) : Beside w w := ⟨List.suffix_rfl, rfl⟩

theorem Beside.trans {w' w'' : World} (h : Beside w w') (h' : Beside w' w'') : Beside w w'' :=
  ⟨h.journal.trans h'.journal, h'.course.trans h.course⟩

theorem Beside.thrifty {w' : World} (h : Beside w w') : Thrifty striking w w' :=
  thrifty_of_course h.course

theorem beside_channelOf (w : World) (ref : ChannelRef) : Beside w (World.channelOf w ref).1 := by
  unfold World.channelOf
  split
  · exact .refl w
  · split
    · exact .refl w
    · exact ⟨List.suffix_rfl, rfl⟩

theorem beside_clientOf (w : World) (spec : ClientSpec) : Beside w (World.clientOf w spec).1 :=
  beside_channelOf w spec.channel

theorem beside_clientsOf (w : World) (specs : List ClientSpec) :
    Beside w (World.clientsOf w specs).1 := by
  induction specs generalizing w with
  | nil => exact .refl w
  | cons spec rest ih => exact (beside_clientOf w spec).trans (ih _)

theorem beside_eventOf (w : World) (spec : EventSpec) : Beside w (World.eventOf w spec).1 := by
  cases spec with
  | clientJoined spec topics => exact beside_clientOf w spec
  | clientLeft spec topics => exact beside_clientOf w spec
  | declared subscriptions => exact .refl w
  | dissolved => exact .refl w
  | changed specs => exact beside_clientsOf w specs

theorem beside_keepAll (w : World) (handle : String) : Beside w (World.keepAll w handle) := by
  unfold World.keepAll
  generalize w.table.entries = entries
  induction entries generalizing w with
  | nil => exact .refl w
  | cons e rest ih =>
    have hkept : Beside w (World.keep w (handle ++ "/" ++ e.1) e.2) := ⟨List.suffix_rfl, rfl⟩
    exact hkept.trans (ih _)

theorem beside_setClock (w : World) (c : Clock) : Beside w (World.setClock w c) := by
  unfold World.setClock
  dsimp only
  split <;> exact ⟨List.suffix_rfl, rfl⟩

theorem beside_revise (i : Nat) (revision : Revision) (w : World) :
    Beside w (revise i revision w).1 := ⟨List.suffix_append _ _, rfl⟩

theorem beside_actOnRecord (i : Nat) (g : Group) (w : World) (op : GroupOp) :
    Beside w (actOnRecord i g w op).1 := by
  cases op with
  | hear spec policy now => exact (beside_clientOf w spec).trans (beside_revise _ _ _)
  | declare subscriptions now => exact beside_revise _ _ _
  | takeOut spec =>
    have hclient := beside_clientOf w spec
    unfold actOnRecord
    dsimp only
    split
    · exact hclient
    · exact hclient.trans ⟨List.suffix_append _ _, rfl⟩
  | channelClosed ref address =>
    have hchannel := beside_channelOf w ref
    unfold actOnRecord
    dsimp only
    split
    · exact hchannel
    · exact hchannel.trans ⟨List.suffix_append _ _, rfl⟩
  | expire now limit => exact ⟨List.suffix_rfl, rfl⟩
  | _ => exact .refl w

theorem beside_actOnKept (handle : String) (op : GroupOp) (w : World) :
    Beside w (actOnKept handle op w).1 := by
  unfold actOnKept
  split
  · exact .refl w
  · split
    · exact .refl w
    · exact beside_actOnRecord _ _ w op

theorem beside_closeWire (ref : ChannelRef) (w : World) : Beside w (closeWire ref w).1 := by
  have hchannel := beside_channelOf w ref
  unfold closeWire
  dsimp only
  split <;> exact hchannel.trans ⟨List.suffix_rfl, rfl⟩

/-- Whether something has to do neither with timers nor with what listeners do. -/
def Op.isApart : Op → Bool
  | .append .. => false
  | .notebook .. => false
  | .timer .. => false
  | .sleep _ => false
  | .jump _ => false
  | _ => true

section

variable {R : World → World → Prop} {env : Surroundings Outside}

theorem related_register (hR : Admitting (fun _ => True) R) (henv : env.ActBy R)
    (q : Registration) (w : World) (entrance : Entrance) : R w (register env q w entrance).1 := by
  cases entrance with
  | lenient => exact hR.register henv trivial w
  | whole => exact hR.register (q := { q with declares := true }) henv trivial w
  | strict =>
    refine hR.andThen (hR.tryRegister henv (q := q) trivial w) ?_
    intro s result _
    split <;> exact hR.refl s

/-- What a registry does by itself, and what happens beside it, is all that comes of such a
thing. -/
theorem related_act (hR : Admitting (fun _ => True) R) (hbeside : ∀ {w w'}, Beside w w' → R w w')
    (henv : env.ActBy R) (depth : Nat) {op : Op} (hop : op.isApart = true) (w : World) :
    R w (act env depth w op).1 := by
  cases op with
  | register spec entrance =>
    exact hR.trans (hbeside (beside_clientOf w spec.client)) (related_register hR henv _ _ entrance)
  | leave group spec announce =>
    exact hR.trans (hbeside (beside_clientOf w spec)) (hR.leave henv group _ _ _)
  | channelClosed ref address =>
    exact hR.trans (hbeside (beside_channelOf w ref)) (hR.channelClosed henv _ _ _)
  | sweep => exact hR.sweep henv w
  | findChannel group ref => exact hbeside (beside_channelOf w ref)
  | keep group handle =>
    unfold act
    dsimp only
    split
    · exact hR.refl w
    · exact hbeside ⟨List.suffix_rfl, rfl⟩
  | keepAll handle => exact hbeside (beside_keepAll w handle)
  | onKept handle op => exact hbeside (beside_actOnKept handle op w)
  | advance span => exact hbeside (beside_setClock w _)
  | setTime time => exact hbeside (beside_setClock w _)
  | closeWire ref => exact hbeside (beside_closeWire ref w)
  | closeQuietly ref =>
    refine hR.trans (hbeside (beside_channelOf w ref)) ?_
    exact hR.andThen (hR.closeQuietly _ _) fun s _ _ => hR.refl s
  | dispatch group spec =>
    exact hR.trans (hbeside (beside_eventOf w spec)) (hR.send henv group _ _)
  | append => cases hop
  | notebook => cases hop
  | timer => cases hop
  | sleep => cases hop
  | jump => cases hop
  | _ => exact hR.refl w

end

/-- Whoever empties a notebook may do the same as before. -/
theorem thrifty_look (w : World) (name : String) (look : Look) :
    Thrifty striking w (World.look w name look).1 := by
  unfold World.look
  split
  · exact thrifty_of_course rfl
  · split
    · exact thrifty_of_course rfl
    · exact thrifty_of_course rfl
    · exact thrifty_of_course rfl
    · refine Untouched.spends (show Untouched 0 _ _ from
        ⟨rfl, rfl, rfl, rfl, rfl, fun hi => ⟨?_, hi.scripts⟩, ?_⟩)
      · intro role hrole
        obtain ⟨r, hr, rfl⟩ := List.mem_map.mp hrole
        split <;> exact hi.cast r hr
      · have hsame : (Role.allowance ∘ fun role : Role =>
            if World.Role.keepsNotes name role then { role with notes := [] } else role) =
            Role.allowance := by
          funext role
          simp only [Function.comp_apply]
          split <;> rfl
        have hallowance : ∀ emptied : List Role, ({ w.outside with cast := emptied } :
            Outside).allowance = (emptied.map Role.allowance).sum + w.outside.scripted :=
          fun _ => rfl
        refine Nat.le_of_eq ((hallowance _).trans ?_)
        rw [List.map_map, hsame, Outside.allowance, Outside.castAllowance]

/-! ## Whatever is done -/

/-- What was done had to do with timers alone. -/
theorem Regular.spends {o o' : Outside} {cost sweeps : Nat} (hregular : Regular striking o')
    (hinstant : o.Instant)
    (hbeside : (o'.time, o'.cast, o'.scripts, o'.readings) =
      (o.time, o.cast, o.scripts, o.readings))
    (hdiary : o.diary <:+ o'.diary) (hsweeps : o'.sweeps = o.sweeps + sweeps)
    (hslots : o'.slots.length ≤ o.slots.length + cost)
    (hready : o'.ready.length ≤ o.ready.length + cost) : Spends striking cost sweeps o o' := by
  simp only [Prod.mk.injEq] at hbeside
  obtain ⟨htime, hcast, hscripts, hreadings⟩ := hbeside
  have hallowance := allowance_of_same hcast hscripts hreadings
  refine ⟨⟨hregular, ?_, ?_⟩, htime, hdiary, hsweeps, by omega, by omega, by omega⟩
  · rw [hcast]
    exact hinstant.cast
  · rw [hscripts]
    exact hinstant.scripts

theorem spends_dropTimer (h : Sound striking w.outside) (name : String) :
    Spends striking 0 0 w.outside (w.dropTimer name).outside := by
  unfold World.dropTimer
  split
  · exact .refl h
  · rename_i slot hfind
    have hregular := Regular.remove (w := w.logAll slot.timer.cancelLines) h.toRegular
      (List.mem_of_find?_eq_some hfind)
    exact hregular.spends h.toInstant rfl (List.suffix_cons _ _) rfl (List.length_filter_le _ _)
      (Nat.le_refl _)

theorem spends_addTimer (h : Sound striking w.outside) (name : String) (delay interval : Nat) :
    Spends striking 1 0 w.outside (w.addTimer name delay interval).outside := by
  have hregular := h.toRegular.addTimer name delay interval
  refine hregular.spends h.toInstant rfl (List.suffix_cons _ _) rfl ?_ (Nat.le_add_right _ _)
  exact Nat.le_of_eq (List.length_append.trans rfl)

/-- A start begins a task, unless the timer is running. -/
theorem spends_startTimer {slot : Slot} (h : Sound striking w.outside)
    (hslot : slot ∈ w.outside.slots) :
    Spends striking 1 0 w.outside (w.startTimer slot).1.outside := by
  unfold World.startTimer
  dsimp only
  split
  · rename_i hrun
    have hregular := Regular.startAgain (w := w.logAll [slot.timer.startLine]) h.toRegular hslot
      hrun
    exact hregular.spends h.toInstant rfl (List.suffix_cons _ _) rfl (Nat.le_add_right _ _)
      (Nat.le_add_right _ _)
  · rename_i hrest
    split
    · have hregular := Regular.beginTask (w := w.logAll [slot.timer.startLine]) h.toRegular hslot
        (by simpa using hrest)
      refine hregular.spends h.toInstant rfl (List.suffix_cons _ _) rfl ?_ ?_
      · exact Nat.le_trans (Nat.le_of_eq (List.length_map _)) (Nat.le_add_right _ _)
      · exact Nat.le_of_eq (List.length_append.trans rfl)
    · exact (Spends.refl h).mono (Nat.zero_le _)

/-- Something done with a timer brings up one more timer or task at most. -/
theorem spends_onTimer (h : Sound striking w.outside) (name : String) (op : TimerOp) :
    Spends striking 1 0 w.outside (w.onTimer name op).1.outside := by
  have hsame := (Spends.refl h).mono (Nat.zero_le 1)
  cases op with
  | new delay interval =>
    have hdropped := spends_dropTimer h name
    have hadded := hdropped.trans (spends_addTimer hdropped.toSound name
      (World.timesFor w.settings delay interval).1 (World.timesFor w.settings delay interval).2)
    rwa [Nat.zero_add] at hadded
  | start =>
    unfold World.onTimer
    cases hfind : w.slot? name with
    | none => exact hsame
    | some slot => exact spends_startTimer h (List.mem_of_find?_eq_some hfind)
  | cancel =>
    unfold World.onTimer
    cases hfind : w.slot? name with
    | none => exact hsame
    | some slot =>
      have hregular := Regular.finish (w := w.logAll slot.timer.cancelLines) h.toRegular
        (List.mem_of_find?_eq_some hfind) (f := Timer.cancel)
        (show TimerEvent.cancelled.isEnd = true from rfl)
        (fun _ => ⟨rfl, rfl, rfl, rfl⟩)
      exact hregular.spends h.toInstant rfl (List.suffix_cons _ _) rfl
        (Nat.le_trans (Nat.le_of_eq (List.length_map _)) (Nat.le_add_right _ _))
        (Nat.le_add_right _ _)
  | isRunning =>
    unfold World.onTimer
    cases w.slot? name <;> exact hsame
  | drop => exact (spends_dropTimer h name).mono (Nat.zero_le _)

theorem allowance_new (name : String) (manner : Manner) :
    (Role.new name manner).allowance = manner.weight := by
  cases manner <;> rfl

/-- A listener that joins may do what its manner says. -/
theorem spends_addRole (h : Sound striking w.outside) (name : String) {manner : Manner}
    (hmanner : manner.isInstant = true) :
    Spends striking manner.weight 0 w.outside (World.addRole w name manner).outside := by
  have hallowance : (World.addRole w name manner).outside.allowance =
      w.outside.allowance + manner.weight := by
    change ((w.outside.cast ++ [Role.new name manner]).map Role.allowance).sum +
      w.outside.scripted = _
    rw [List.map_append, List.sum_append, List.map_singleton, List.sum_singleton, allowance_new,
      Outside.allowance, Outside.castAllowance]
    omega
  have hsound : Sound striking (World.addRole w name manner).outside := by
    refine ⟨h.toRegular.of_same rfl rfl rfl rfl rfl, fun role hrole => ?_, h.scripts⟩
    rcases List.mem_append.mp hrole with hrole | hrole
    · exact h.cast role hrole
    · rw [List.mem_singleton.mp hrole]
      exact hmanner
  refine ⟨hsound, rfl, List.suffix_rfl, rfl, Nat.le_of_eq hallowance, ?_, ?_⟩
  · rw [hallowance]
    exact Nat.le_of_eq (Nat.add_assoc _ _ _).symm
  · rw [hallowance]
    exact Nat.le_of_eq (Nat.add_assoc _ _ _).symm

variable {env : Surroundings Outside}

/-- Whatever takes no time keeps the timers as their histories say, and it spends its weight at
most. -/
theorem spends_act (henv : env.ActBy (Thrifty striking)) (depth : Nat) (op : Op)
    (hop : op.isInstant = true) (h : Sound striking w.outside) :
    Spends striking op.weight 0 w.outside (act env depth w op).1.outside := by
  have hcheap : ∀ {w' : World}, Thrifty striking w w' → Spends striking 1 0 w.outside w'.outside :=
    fun hthrifty => (hthrifty h).mono (Nat.zero_le _)
  cases op with
  | append name manner => exact (spends_addRole h name hop).mono (Nat.le_add_left _ _)
  | notebook name look => exact hcheap (thrifty_look w name look)
  | timer name op => exact spends_onTimer h name op
  | sleep span => cases hop
  | jump span => cases hop
  | _ => exact hcheap (related_act (Thrifty.admitting striking) Beside.thrifty henv depth rfl w)

end

/-- Nothing that is done in an instant, to whatever depth, spends more than its weight. -/
theorem frugal_perform (striking : Option Task) (depth : Nat) :
    Frugal striking (perform depth) := by
  induction depth with
  | zero => exact fun op w _ h => (Spends.refl h).mono (Nat.zero_le _)
  | succ depth ih =>
    exact fun op w hop h => spends_act (thrifty_surroundings ih) depth op hop h

end ConsumerGroups.Scenario
