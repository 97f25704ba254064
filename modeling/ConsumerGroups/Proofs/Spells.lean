-- The spells of a timer. A spell is the while from a start to whatever ends it, and what was done
-- with a timer in the past says which spells there were. In each of them the timer sweeps a delay
-- after the start, and then at its interval, and at no other time.
import Mathlib.Data.List.Nodup
import ConsumerGroups.Scenario.World

set_option autoImplicit false

namespace ConsumerGroups.Scenario

/-! ## Spells -/

/-- A while in which a timer is running. -/
structure Spell where
  begun : Nat
  ended : Option Nat
deriving DecidableEq, Repr

def Spell.isOpen (s : Spell) : Bool := s.ended.isNone

/-- When a spell ended, or the present if it did not. -/
def Spell.stop (s : Spell) (now : Nat) : Nat := s.ended.getD now

/-- Whether the newest of these spells is open. -/
def underway (ss : List Spell) : Bool := ss.head?.any Spell.isOpen

/-- A start begins a spell, unless one is open. -/
def beginSpell (time : Nat) (ss : List Spell) : List Spell :=
  if underway ss then ss else ⟨time, none⟩ :: ss

/-- Ends the spell that is open, if there is one. -/
def endSpell (time : Nat) : List Spell → List Spell
  | ⟨begun, none⟩ :: earlier => ⟨begun, some time⟩ :: earlier
  | ss => ss

/-- What happens to the spells of a timer, newest first, with something that happens to it. -/
def TimerEvent.onSpells (time : Nat) (ss : List Spell) : TimerEvent → List Spell
  | .started => beginSpell time ss
  | .cancelled => endSpell time ss
  | .dropped => endSpell time ss
  | .broke => endSpell time ss
  | .made .. => ss
  | .struck _ => ss

/-- Whether this ends a spell. -/
def TimerEvent.isEnd : TimerEvent → Bool
  | .cancelled => true
  | .dropped => true
  | .broke => true
  | _ => false

def TimerEvent.isStrike : TimerEvent → Bool
  | .struck _ => true
  | _ => false

/-- The spells of a timer with this history. Both have the newest first. -/
def spells : List DiaryEntry → List Spell
  | [] => []
  | e :: earlier => e.event.onSpells e.time (spells earlier)

/-- When the task swept that a timer began as number `start`, newest first. -/
def strikes (start : Nat) (history : List DiaryEntry) : List Nat :=
  history.filterMap (fun e => if e.event = .struck start then some e.time else none)

/-- The sweeps of a spell: one at the delay after its beginning and at each interval after that, as
long as it lasts. One that falls on its very end may have come or not. -/
structure Spell.Swept (spell : Spell) (delay interval now : Nat) (sweeps : List Nat) : Prop where
  each : ∀ k, spell.begun + delay + k * interval < spell.stop now →
    sweeps.count (spell.begun + delay + k * interval) = 1
  last : sweeps.count (spell.stop now) ≤ 1
  only : ∀ time ∈ sweeps, time ≤ spell.stop now ∧ ∃ k, time = spell.begun + delay + k * interval

section

variable {e : DiaryEntry} {history : List DiaryEntry}

theorem spells_of_end (h : e.event.isEnd = true) :
    spells (e :: history) = endSpell e.time (spells history) := by
  obtain ⟨time, timer, event⟩ := e
  cases event <;> first | rfl | simp [TimerEvent.isEnd] at h

theorem spells_of_start (h : e.event = .started) :
    spells (e :: history) = beginSpell e.time (spells history) := by
  rw [spells, h, TimerEvent.onSpells]

theorem spells_of_strike {start : Nat} (h : e.event = .struck start) :
    spells (e :: history) = spells history := by
  rw [spells, h, TimerEvent.onSpells]

theorem strikes_cons_self {start : Nat} (h : e.event = .struck start) :
    strikes start (e :: history) = e.time :: strikes start history := by
  simp [strikes, h]

theorem strikes_cons_of_ne {start : Nat} (h : e.event ≠ .struck start) :
    strikes start (e :: history) = strikes start history := by
  simp [strikes, h]

theorem mem_strikes {start time : Nat} :
    time ∈ strikes start history ↔ ∃ e ∈ history, e.event = .struck start ∧ e.time = time := by
  simp [strikes]

theorem underway_iff {ss : List Spell} :
    underway ss = true ↔ ∃ begun earlier, ss = ⟨begun, none⟩ :: earlier := by
  rcases ss with _ | ⟨⟨begun, _ | ended⟩, earlier⟩ <;> simp [underway, Spell.isOpen]

theorem beginSpell_of_underway {time : Nat} {ss : List Spell} (h : underway ss = true) :
    beginSpell time ss = ss := by
  rw [beginSpell, if_pos h]

theorem beginSpell_of_resting {time : Nat} {ss : List Spell} (h : underway ss = false) :
    beginSpell time ss = ⟨time, none⟩ :: ss := by
  simp [beginSpell, h]

theorem endSpell_of_resting {time : Nat} {ss : List Spell} (h : underway ss = false) :
    endSpell time ss = ss := by
  rcases ss with _ | ⟨⟨begun, _ | ended⟩, earlier⟩
  · rfl
  · simp [underway, Spell.isOpen] at h
  · rfl

theorem length_endSpell (time : Nat) (ss : List Spell) :
    (endSpell time ss).length = ss.length := by
  rcases ss with _ | ⟨⟨begun, _ | ended⟩, earlier⟩ <;> rfl

theorem underway_endSpell (time : Nat) (ss : List Spell) : underway (endSpell time ss) = false := by
  rcases ss with _ | ⟨⟨begun, _ | ended⟩, earlier⟩ <;> rfl

/-- Only the newest spell can be open. -/
theorem ended_of_mem_tail (history : List DiaryEntry) :
    ∀ s ∈ (spells history).tail, s.isOpen = false := by
  induction history with
  | nil => simp [spells]
  | cons e earlier ih =>
    have hbegun : ∀ s ∈ (beginSpell e.time (spells earlier)).tail, s.isOpen = false := by
      cases h : underway (spells earlier) with
      | true => rwa [beginSpell_of_underway h]
      | false =>
        rw [beginSpell_of_resting h, List.tail_cons]
        rcases hss : spells earlier with _ | ⟨s, rest⟩
        · simp
        · rw [hss] at h ih
          simp only [underway, List.head?_cons, Option.any_some] at h
          simpa [h] using ih
    have hended : ∀ s ∈ (endSpell e.time (spells earlier)).tail, s.isOpen = false := by
      rcases hss : spells earlier with _ | ⟨⟨begun, _ | ended⟩, rest⟩ <;>
        rw [hss] at ih <;> exact ih
    rw [spells]
    cases e.event with
    | started => exact hbegun
    | made => exact ih
    | struck => exact ih
    | cancelled => exact hended
    | dropped => exact hended
    | broke => exact hended

/-! ## When a timer strikes -/

/-- When a timer strikes for the `k`th time, counted from zero, after a start. -/
def strikeTime (delay interval begun k : Nat) : Nat := begun + delay + k * interval

/-- The times of the first `k` strikes after a start, newest first. -/
def firstStrikes (delay interval begun : Nat) : Nat → List Nat
  | 0 => []
  | k + 1 => strikeTime delay interval begun k :: firstStrikes delay interval begun k

/-- The sweeps are the first strikes after a start, up to a time that the next does not precede. -/
def Paced (delay interval begun stop : Nat) (sweeps : List Nat) : Prop :=
  ∃ k, sweeps = firstStrikes delay interval begun k ∧ (∀ time ∈ sweeps, time ≤ stop) ∧
    stop ≤ strikeTime delay interval begun k

section

variable {delay interval begun : Nat}

theorem strikeTime_succ (delay interval begun k : Nat) :
    strikeTime delay interval begun (k + 1) = strikeTime delay interval begun k + interval := by
  rw [strikeTime, strikeTime, Nat.add_mul, Nat.one_mul, Nat.add_assoc _ (k * interval)]

theorem strikeTime_lt_iff (h : 0 < interval) {j k : Nat} :
    strikeTime delay interval begun j < strikeTime delay interval begun k ↔ j < k := by
  rw [strikeTime, strikeTime, Nat.add_lt_add_iff_left, Nat.mul_lt_mul_right h]

theorem mem_firstStrikes {k time : Nat} :
    time ∈ firstStrikes delay interval begun k ↔
      ∃ j < k, time = strikeTime delay interval begun j := by
  induction k with
  | zero => simp [firstStrikes]
  | succ k ih =>
    rw [firstStrikes, List.mem_cons, ih]
    constructor
    · rintro (rfl | ⟨j, hj, rfl⟩)
      · exact ⟨k, by omega, rfl⟩
      · exact ⟨j, by omega, rfl⟩
    · rintro ⟨j, hj, rfl⟩
      rcases Nat.lt_succ_iff_lt_or_eq.mp hj with hj | rfl
      · exact .inr ⟨j, hj, rfl⟩
      · exact .inl rfl

theorem nodup_firstStrikes (h : 0 < interval) (k : Nat) :
    (firstStrikes delay interval begun k).Nodup := by
  induction k with
  | zero => exact List.nodup_nil
  | succ k ih =>
    refine List.nodup_cons.mpr ⟨?_, ih⟩
    intro hmem
    obtain ⟨j, hj, heq⟩ := mem_firstStrikes.mp hmem
    have hlt : strikeTime delay interval begun j < strikeTime delay interval begun k :=
      (strikeTime_lt_iff h).mpr hj
    omega

theorem Paced.swept {spell : Spell} {now : Nat} {sweeps : List Nat} (h : 0 < interval)
    (hpaced : Paced delay interval spell.begun (spell.stop now) sweeps) :
    spell.Swept delay interval now sweeps := by
  obtain ⟨k, rfl, hpast, hnext⟩ := hpaced
  have hnodup : (firstStrikes delay interval spell.begun k).Nodup := nodup_firstStrikes h k
  refine ⟨?_, List.nodup_iff_count_le_one.mp hnodup _, ?_⟩
  · intro j hj
    have hjk : j < k := (strikeTime_lt_iff h).mp (Nat.lt_of_lt_of_le hj hnext)
    exact List.count_eq_one_of_mem hnodup (mem_firstStrikes.mpr ⟨j, hjk, rfl⟩)
  · intro time htime
    obtain ⟨j, -, heq⟩ := mem_firstStrikes.mp htime
    exact ⟨hpast time htime, j, heq⟩

end

/-! ## A timer and its history -/

/-- When the task of a timer strikes next. One that is in the midst of a strike is still due for
that one. -/
def nextStrike (striking : Option Nat) (t : Timer) (due : Nat) : Nat :=
  if striking = some t.starts then due + t.interval else due

/-- The history of a timer that was made with these times. -/
structure Dated (delay interval now : Nat) (history : List DiaryEntry) : Prop where
  made : ∃ e ∈ history, e.event = .made delay interval
  madeOnce : ∀ e ∈ history, ∀ d i, e.event = .made d i → d = delay ∧ i = interval
  past : ∀ e ∈ history, e.time ≤ now

/-- A timer is as its history has it, and so were its sweeps. There is no timer any more when it was
dropped. `striking` is the number of its task that is in the midst of a strike, if one is. -/
structure Accords (delay interval now : Nat) (striking : Option Nat) (timer? : Option Timer)
    (history : List DiaryEntry) : Prop extends Dated delay interval now history where
  times : ∀ t, timer? = some t → t.delay = delay ∧ t.interval = max interval 1
  starts : ∀ t, timer? = some t → t.starts = (spells history).length
  running : timer?.any Timer.isRunning = underway (spells history)
  awaits : ∀ t due begun earlier, timer? = some t → t.phase = .waiting due →
    spells history = ⟨begun, none⟩ :: earlier →
    now ≤ due ∧ (striking = some t.starts → due = now) ∧
      ∃ k, strikes t.starts history = firstStrikes delay (max interval 1) begun k ∧
        nextStrike striking t due = strikeTime delay (max interval 1) begun k
  paced : ∀ later begun ended earlier,
    spells history = later ++ ⟨begun, some ended⟩ :: earlier →
    Paced delay (max interval 1) begun ended (strikes (earlier.length + 1) history)
  numbered : ∀ start, strikes start history ≠ [] → 0 < start ∧ start ≤ (spells history).length
  striker : ∀ start, striking = some start → start ≤ (spells history).length

section

variable {delay interval now : Nat} {striking : Option Nat} {timer? : Option Timer} {t : Timer}

theorem isRunning_iff : t.isRunning = true ↔ ∃ due, t.phase = .waiting due := by
  unfold Timer.isRunning
  split
  · rename_i due h
    exact ⟨fun _ => ⟨due, h⟩, fun _ => rfl⟩
  · rename_i h
    exact ⟨fun hf => by simp at hf, fun ⟨due, hdue⟩ => absurd hdue (h due)⟩

theorem Dated.cons (h : Dated delay interval now history) (he : e.time = now)
    (hmade : ∀ d i, e.event ≠ .made d i) : Dated delay interval now (e :: history) := by
  obtain ⟨m, hm, hevent⟩ := h.made
  refine ⟨⟨m, List.mem_cons_of_mem e hm, hevent⟩, ?_, ?_⟩
  · intro e' he' d i hd
    rcases List.mem_cons.mp he' with rfl | he'
    · exact absurd hd (hmade d i)
    · exact h.madeOnce e' he' d i hd
  · intro e' he'
    rcases List.mem_cons.mp he' with rfl | he'
    · exact Nat.le_of_eq he
    · exact h.past e' he'

/-- A strike lies in the past. -/
theorem Dated.strikes_le (h : Dated delay interval now history) (start : Nat) :
    ∀ time ∈ strikes start history, time ≤ now := by
  intro time htime
  obtain ⟨e, he, -, rfl⟩ := mem_strikes.mp htime
  exact h.past e he

/-- A timer that was just made. -/
theorem accords_new (delay interval now timer place : Nat) :
    Accords delay interval now none (some (Timer.new delay interval))
      [⟨now, timer, .made delay interval, place⟩] where
  made := ⟨_, List.mem_singleton_self _, rfl⟩
  madeOnce := by simp
  past := by simp
  times := by simp [Timer.new]
  starts := by simp [Timer.new, spells, TimerEvent.onSpells]
  running := rfl
  awaits := by simp [spells, TimerEvent.onSpells]
  paced := by simp [spells, TimerEvent.onSpells]
  numbered := by simp [strikes]
  striker := by simp

namespace Accords

/-- A spell is open when there is a timer that is running. -/
theorem running_of_open (h : Accords delay interval now striking timer? history) {begun : Nat}
    {earlier : List Spell} (hopen : spells history = ⟨begun, none⟩ :: earlier) :
    ∃ t due, timer? = some t ∧ t.phase = .waiting due ∧ t.starts = earlier.length + 1 := by
  have hrun : timer?.any Timer.isRunning = true := by
    rw [h.running]
    exact underway_iff.mpr ⟨begun, earlier, hopen⟩
  rcases timer? with _ | t
  · cases hrun
  obtain ⟨due, hdue⟩ := isRunning_iff.mp hrun
  exact ⟨t, due, rfl, hdue, by rw [h.starts t rfl, hopen, List.length_cons]⟩

/-- So far the strikes of an open spell are the first ones of their row, and the next one is not
overdue. -/
theorem paced_open (h : Accords delay interval now striking timer? history) {begun : Nat}
    {earlier : List Spell} (hopen : spells history = ⟨begun, none⟩ :: earlier) :
    Paced delay (max interval 1) begun now (strikes (earlier.length + 1) history) := by
  obtain ⟨t, due, rfl, hdue, hstarts⟩ := h.running_of_open hopen
  obtain ⟨hle, -, k, hk, hnext⟩ := h.awaits t due begun earlier rfl hdue hopen
  have hnow : now ≤ nextStrike striking t due := by
    unfold nextStrike
    split <;> omega
  rw [← hstarts]
  exact ⟨k, hk, h.toDated.strikes_le _, hnext ▸ hnow⟩

/-- The spell of a timer that is running. -/
theorem open_of_waiting {due : Nat} (h : Accords delay interval now striking (some t) history)
    (hdue : t.phase = .waiting due) :
    ∃ begun earlier, spells history = ⟨begun, none⟩ :: earlier := by
  refine underway_iff.mp ?_
  rw [← h.running]
  exact isRunning_iff.mpr ⟨due, hdue⟩

/-- No timer is overdue. -/
theorem le_due {due : Nat} (h : Accords delay interval now striking (some t) history)
    (hdue : t.phase = .waiting due) : now ≤ due := by
  obtain ⟨begun, earlier, hopen⟩ := h.open_of_waiting hdue
  exact (h.awaits t due begun earlier rfl hdue hopen).1

/-- A task in the midst of a strike is due right now. -/
theorem due_now {due : Nat} (h : Accords delay interval now (some t.starts) (some t) history)
    (hdue : t.phase = .waiting due) : due = now := by
  obtain ⟨begun, earlier, hopen⟩ := h.open_of_waiting hdue
  exact (h.awaits t due begun earlier rfl hdue hopen).2.1 rfl

/-- Starting a timer that is running changes nothing. -/
theorem startedAgain (h : Accords delay interval now striking (some t) history)
    (he : e.time = now) (hevent : e.event = .started) (hrun : t.isRunning = true) :
    Accords delay interval now striking (some t) (e :: history) := by
  have hspells : spells (e :: history) = spells history := by
    rw [spells_of_start hevent, beginSpell_of_underway]
    rw [← h.running]
    exact hrun
  have hstrikes : ∀ start, strikes start (e :: history) = strikes start history :=
    fun start => strikes_cons_of_ne (by simp [hevent])
  constructor
  · exact h.toDated.cons he (by simp [hevent])
  · exact h.times
  · rw [hspells]
    exact h.starts
  · rw [hspells]
    exact h.running
  · simp only [hspells, hstrikes]
    exact h.awaits
  · simp only [hspells, hstrikes]
    exact h.paced
  · simp only [hspells, hstrikes]
    exact h.numbered
  · rw [hspells]
    exact h.striker

/-- With a start that takes effect a spell begins, in which nothing was struck so far. -/
theorem started (h : Accords delay interval now striking (some t) history) (he : e.time = now)
    (hevent : e.event = .started) (hrun : t.isRunning = false) :
    Accords delay interval now striking (some (t.start now)) (e :: history) := by
  have hrest : underway (spells history) = false := by rw [← h.running]; exact hrun
  have hspells : spells (e :: history) = ⟨now, none⟩ :: spells history := by
    rw [spells_of_start hevent, beginSpell_of_resting hrest, he]
  have hstrikes : ∀ start, strikes start (e :: history) = strikes start history :=
    fun start => strikes_cons_of_ne (by simp [hevent])
  have hstart : t.start now =
      { t with phase := .waiting (now + t.delay), starts := t.starts + 1 } := by
    simp [Timer.start, hrun]
  have hstarts := h.starts t rfl
  have hnew : strikes (t.starts + 1) history = [] := by
    by_contra hne
    have := (h.numbered _ hne).2
    omega
  rw [hstart]
  constructor
  · exact h.toDated.cons he (by simp [hevent])
  · rintro t' ⟨⟩
    exact h.times t rfl
  · rintro t' ⟨⟩
    rw [hspells, List.length_cons, hstarts]
  · rw [hspells]
    rfl
  · rintro t' due begun earlier ⟨⟩ ⟨⟩ hhead
    rw [hspells, List.cons.injEq, Spell.mk.injEq] at hhead
    obtain ⟨⟨rfl, -⟩, rfl⟩ := hhead
    have hnot : striking ≠ some (t.starts + 1) := by
      intro hs
      have := h.striker _ hs
      omega
    refine ⟨Nat.le_add_right _ _, fun hs => absurd hs hnot, 0, ?_, ?_⟩
    · rw [hstrikes]
      exact hnew
    · simp only [nextStrike, if_neg hnot, (h.times t rfl).1, strikeTime]
      omega
  · intro later begun ended earlier heq
    rw [hspells] at heq
    rcases later with _ | ⟨s, later⟩
    · simp at heq
    · rw [hstrikes]
      exact h.paced later begun ended earlier (List.cons.inj heq).2
  · intro start hne
    rw [hstrikes] at hne
    have := h.numbered start hne
    rw [hspells, List.length_cons]
    omega
  · intro start hs
    have := h.striker start hs
    rw [hspells, List.length_cons]
    omega

/-- Whatever ends a spell, the strikes that came are the first ones of their row, and the next one
was not due before. -/
theorem finished (h : Accords delay interval now striking timer? history) (he : e.time = now)
    (hevent : e.event.isEnd = true) {after : Option Timer}
    (hafter : ∀ t', after = some t' → t'.isRunning = false ∧ ∃ t, timer? = some t ∧
      t'.delay = t.delay ∧ t'.interval = t.interval ∧ t'.starts = t.starts) :
    Accords delay interval now striking after (e :: history) := by
  have hspells : spells (e :: history) = endSpell now (spells history) := by
    rw [spells_of_end hevent, he]
  have hlength : (spells (e :: history)).length = (spells history).length := by
    rw [hspells, length_endSpell]
  have hstrikes : ∀ start, strikes start (e :: history) = strikes start history := by
    intro start
    refine strikes_cons_of_ne fun hs => ?_
    rw [hs] at hevent
    cases hevent
  constructor
  · refine h.toDated.cons he fun d i hm => ?_
    rw [hm] at hevent
    cases hevent
  · intro t' ht'
    obtain ⟨-, t, ht, hdelay, hinterval, -⟩ := hafter t' ht'
    rw [hdelay, hinterval]
    exact h.times t ht
  · intro t' ht'
    obtain ⟨-, t, ht, -, -, hstarts⟩ := hafter t' ht'
    rw [hstarts, hlength]
    exact h.starts t ht
  · rw [hspells, underway_endSpell]
    cases after with
    | none => rfl
    | some t' => exact (hafter t' rfl).1
  · intro t' due begun earlier _ _ hhead
    have hunder := underway_endSpell now (spells history)
    rw [← hspells, hhead] at hunder
    cases hunder
  · intro later begun ended earlier heq
    rw [hstrikes]
    rw [hspells] at heq
    cases hunder : underway (spells history) with
    | false =>
      rw [endSpell_of_resting hunder] at heq
      exact h.paced later begun ended earlier heq
    | true =>
      obtain ⟨begun', earlier', hopen⟩ := underway_iff.mp hunder
      rw [hopen] at heq
      rcases later with _ | ⟨s, later⟩
      · -- the spell that ends now
        obtain ⟨⟨rfl, rfl⟩, rfl⟩ : (begun' = begun ∧ now = ended) ∧ earlier' = earlier := by
          simpa [endSpell] using heq
        exact h.paced_open hopen
      · obtain ⟨-, hrest⟩ := List.cons.inj heq
        exact h.paced (⟨begun', none⟩ :: later) begun ended earlier (hopen.trans (congrArg _ hrest))
  · rw [hlength]
    simpa only [hstrikes] using h.numbered
  · rw [hlength]
    exact h.striker

/-- The task of a timer sweeps when it is due, and then it is in the midst of a strike. -/
theorem struck (h : Accords delay interval now none (some t) history) (he : e.time = now)
    (hevent : e.event = .struck t.starts) (hdue : t.phase = .waiting now) :
    Accords delay interval now (some t.starts) (some t) (e :: history) := by
  have hspells : spells (e :: history) = spells history := spells_of_strike hevent
  obtain ⟨begun, earlier, hopen⟩ := h.open_of_waiting hdue
  have hstarts : t.starts = earlier.length + 1 := by
    rw [h.starts t rfl, hopen, List.length_cons]
  constructor
  · exact h.toDated.cons he (by simp [hevent])
  · exact h.times
  · rw [hspells]
    exact h.starts
  · rw [hspells]
    exact h.running
  · rintro t' due begun' earlier' ⟨⟩ hphase hhead
    rw [hspells] at hhead
    obtain ⟨hle, -, k, hk, hnext⟩ := h.awaits t due begun' earlier' rfl hphase hhead
    obtain rfl : due = now := Phase.waiting.inj (hphase.symm.trans hdue)
    rw [nextStrike, if_neg (by simp)] at hnext
    refine ⟨hle, fun _ => rfl, k + 1, ?_, ?_⟩
    · rw [strikes_cons_self hevent, he, hk, firstStrikes, ← hnext]
    · rw [nextStrike, if_pos rfl, strikeTime_succ, ← hnext, (h.times t rfl).2]
  · intro later begun' ended earlier' heq
    rw [hspells] at heq
    -- the spell that is open is not one of those that ended
    have hother : earlier'.length + 1 ≠ t.starts := by
      rw [hopen] at heq
      rcases later with _ | ⟨s, later⟩
      · simp at heq
      · have := congrArg List.length (List.cons.inj heq).2
        simp at this
        omega
    rw [strikes_cons_of_ne (by simp [hevent, Ne.symm hother])]
    exact h.paced later begun' ended earlier' heq
  · intro start hne
    rw [hspells]
    by_cases hself : start = t.starts
    · subst hself
      rw [hopen, List.length_cons]
      omega
    · rw [strikes_cons_of_ne (by simp [hevent, Ne.symm hself])] at hne
      exact h.numbered start hne
  · rintro start ⟨⟩
    rw [hspells]
    exact Nat.le_of_eq (h.starts t rfl)

/-- After the strike the task waits for the next one. -/
theorem rested {due : Nat} (h : Accords delay interval now (some t.starts) (some t) history)
    (hdue : t.phase = .waiting due) :
    Accords delay interval now none (some (t.waitUntil (due + t.interval))) history := by
  constructor
  · exact h.toDated
  · rintro t' ⟨⟩
    exact h.times t rfl
  · rintro t' ⟨⟩
    exact h.starts t rfl
  · rw [← h.running]
    simp [Timer.isRunning, Timer.waitUntil, hdue]
  · rintro t' due' begun earlier ⟨⟩ ⟨⟩ hhead
    obtain ⟨hle, -, k, hk, hnext⟩ := h.awaits t due begun earlier rfl hdue hhead
    refine ⟨by omega, by simp, k, hk, ?_⟩
    rw [nextStrike, if_pos rfl] at hnext
    rw [nextStrike, if_neg (by simp), hnext]
  · exact h.paced
  · exact h.numbered
  · simp

/-- When the task that was in the midst of a strike has ended, nothing is left of it. -/
theorem gone {start : Nat} (h : Accords delay interval now (some start) timer? history)
    (hgone : ∀ t, timer? = some t → t.runs start = false) :
    Accords delay interval now none timer? history := by
  refine ⟨h.toDated, h.times, h.starts, h.running, ?_, h.paced, h.numbered, by simp⟩
  intro t due begun earlier ht hdue hhead
  have hne : some start ≠ some t.starts := by
    rintro ⟨⟩
    have := hgone t ht
    rw [Timer.runs, isRunning_iff.mpr ⟨due, hdue⟩] at this
    simp at this
  obtain ⟨hle, -, k, hk, hnext⟩ := h.awaits t due begun earlier ht hdue hhead
  rw [nextStrike, if_neg hne] at hnext
  exact ⟨hle, by simp, k, hk, by rw [nextStrike, if_neg (by simp), hnext]⟩

/-- Time may pass until the timer is due. -/
theorem later {present : Nat} (h : Accords delay interval now none timer? history)
    (hnow : now ≤ present)
    (hdue : ∀ t due, timer? = some t → t.phase = .waiting due → present ≤ due) :
    Accords delay interval present none timer? history := by
  refine ⟨⟨h.made, h.madeOnce, fun e he => Nat.le_trans (h.past e he) hnow⟩, h.times, h.starts,
    h.running, ?_, h.paced, h.numbered, h.striker⟩
  intro t due begun earlier ht hphase hhead
  obtain ⟨-, -, hk⟩ := h.awaits t due begun earlier ht hphase hhead
  exact ⟨hdue t due ht hphase, by simp, hk⟩

/-- In every spell the timer swept as it should. -/
theorem swept (h : Accords delay interval now none timer? history) {later earlier : List Spell}
    {spell : Spell} (hspell : spells history = later ++ spell :: earlier) :
    spell.Swept delay (max interval 1) now (strikes (earlier.length + 1) history) := by
  refine Paced.swept (by omega) ?_
  obtain ⟨begun, ended⟩ := spell
  rcases ended with _ | ended
  · -- an open spell is the newest one
    obtain rfl : later = [] := by
      by_contra hne
      obtain ⟨s, later, rfl⟩ := List.exists_cons_of_ne_nil hne
      have hmem : (⟨begun, none⟩ : Spell) ∈ (spells history).tail := by simp [hspell]
      exact absurd (ended_of_mem_tail history _ hmem) (by simp [Spell.isOpen])
    exact h.paced_open hspell
  · exact h.paced later begun ended earlier hspell

end Accords

end

end

end ConsumerGroups.Scenario
