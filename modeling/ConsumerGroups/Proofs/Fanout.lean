-- How events reach the listeners. Whoever is there when an event is sent out is called, once and in
-- order, whatever the listeners do meanwhile: they may bring in others, and send events out
-- themselves, and so may those that hear of these. What happened is told as a story, in which the
-- calls of one sending may hold stories in turn.
import ConsumerGroups.Registry.Request
import ConsumerGroups.Proofs.Served

set_option autoImplicit false

namespace ConsumerGroups

/-! ## Stories -/

mutual

/-- What happened to the listeners of a registry, from the first to the last. -/
inductive Story where
  | done
  /-- a listener came to the list -/
  | came (l : Nat) (later : Story)
  /-- an event was sent out, and so many are said not to have taken it well -/
  | sent (group : String) (event : Event) (calls : Calls) (failures : Nat) (later : Story)

/-- The calls of one sending, from the first to the last. -/
inductive Calls where
  | done
  /-- a listener was called, and something happened until it came back -/
  | told (l : Nat) (group : String) (event : Event) (meanwhile : Story) (outcome : Outcome)
      (later : Calls)

end

mutual

/-- The listeners that came, in the order in which they came. -/
def Story.newcomers : Story → List Nat
  | .done => []
  | .came l later => l :: later.newcomers
  | .sent _ _ calls _ later => calls.newcomers ++ later.newcomers

def Calls.newcomers : Calls → List Nat
  | .done => []
  | .told _ _ _ meanwhile _ later => meanwhile.newcomers ++ later.newcomers

end

/-- Who is called, and of what. -/
def Calls.callees : Calls → List (Nat × String × Event)
  | .done => []
  | .told l group event _ _ later => (l, group, event) :: later.callees

/-- How many listeners failed or panicked. -/
def Calls.failures : Calls → Nat
  | .done => 0
  | .told _ _ _ _ outcome later => later.failures + if outcome.isHandled then 0 else 1

mutual

/-- Whenever an event is sent out, exactly those are called of it that are there then, and those of
them that fail or panic are counted. The list has these listeners when the story begins. -/
def Story.Orderly : Story → List Nat → Prop
  | .done, _ => True
  | .came l later, ls => later.Orderly (ls ++ [l])
  | .sent group event calls failures later, ls =>
    calls.callees = ls.map (fun l => (l, group, event)) ∧ failures = calls.failures ∧
      calls.Orderly ls ∧ later.Orderly (ls ++ calls.newcomers)

def Calls.Orderly : Calls → List Nat → Prop
  | .done, _ => True
  | .told _ _ _ meanwhile _ later, ls =>
    meanwhile.Orderly ls ∧ later.Orderly (ls ++ meanwhile.newcomers)

end

mutual

/-- A listener is called of every event that is sent out. -/
def Story.Reaches (l : Nat) : Story → Prop
  | .done => True
  | .came _ later => later.Reaches l
  | .sent group event calls _ later =>
    (l, group, event) ∈ calls.callees ∧ calls.Reaches l ∧ later.Reaches l

def Calls.Reaches (l : Nat) : Calls → Prop
  | .done => True
  | .told _ _ _ meanwhile _ later => meanwhile.Reaches l ∧ later.Reaches l

end

mutual

/-- The list loses nobody, so who is on it is called from then on. -/
theorem Story.reaches_of_orderly {l : Nat} : ∀ (story : Story) {ls : List Nat},
    story.Orderly ls → l ∈ ls → story.Reaches l
  | .done, _, _, _ => trivial
  | .came _ later, _, h, hl => later.reaches_of_orderly h (List.mem_append_left _ hl)
  | .sent group event calls _ later, ls, ⟨hcallees, _, hcalls, hlater⟩, hl => by
    refine ⟨?_, calls.reaches_of_orderly hcalls hl, ?_⟩
    · rw [hcallees]
      exact List.mem_map_of_mem hl
    · exact later.reaches_of_orderly hlater (List.mem_append_left _ hl)

theorem Calls.reaches_of_orderly {l : Nat} : ∀ (calls : Calls) {ls : List Nat},
    calls.Orderly ls → l ∈ ls → calls.Reaches l
  | .done, _, _, _ => trivial
  | .told _ _ _ meanwhile _ later, ls, ⟨hmeanwhile, hlater⟩, hl => by
    refine ⟨meanwhile.reaches_of_orderly hmeanwhile hl, ?_⟩
    exact later.reaches_of_orderly hlater (List.mem_append_left _ hl)

end

mutual

/-- What the journal has of a story: the events that are sent out and, of each call, whom it goes
to. -/
def Story.heard : Story → List (Option Nat × String × Event)
  | .done => []
  | .came _ later => later.heard
  | .sent group event calls _ later => (none, group, event) :: calls.heard ++ later.heard

def Calls.heard : Calls → List (Option Nat × String × Event)
  | .done => []
  | .told l group event meanwhile _ later =>
    (some l, group, event) :: meanwhile.heard ++ later.heard

end

/-- One story after another. -/
def Story.then : Story → Story → Story
  | .done, next => next
  | .came l later, next => .came l (later.then next)
  | .sent group event calls failures later, next =>
    .sent group event calls failures (later.then next)

/-- What an entry of the journal has of a story. -/
def Entry.heard? : Entry → Option (Option Nat × String × Event)
  | .sent group event _ => some (none, group, event)
  | .told l group event => some (some l, group, event)
  | _ => none

namespace Registry

variable {Ω : Type} {env : Surroundings Ω} {r s t : Registry Ω}

def heard (r : Registry Ω) : List (Option Nat × String × Event) := r.journal.filterMap Entry.heard?

/-! ## Runs -/

/-- What `callAll` does, told call by call; `tale` tells what a listener does in a call. -/
def callsOf (env : Surroundings Ω) (tale : Nat → String → Event → Registry Ω → Story)
    (group : String) (event : Event) : List Nat → Registry Ω → Calls
  | [], _ => .done
  | l :: rest, r =>
    let told := r.note (.told l group event)
    let done := env.listener l group event told
    .told l group event (tale l group event told) done.2
      (callsOf env tale group event rest (done.1.logAll (outcomeLines group event done.2)))

/-- A registry before and after what a story tells. -/
inductive Run : Registry Ω → Story → Registry Ω → Prop where
  | nothing (r : Registry Ω) : Run r .done r
  /-- something happens that is no business of the listeners -/
  | apart {r s t : Registry Ω} {story : Story} (hlisteners : s.listeners = r.listeners)
      (hheard : s.heard = r.heard) (later : Run s story t) : Run r story t
  | came {r t : Registry Ω} {story : Story} (l : Nat) (later : Run (r.addListener l) story t) :
      Run r (.came l story) t
  /-- an event is sent out; each call of a listener is a run in turn -/
  | sent {r t : Registry Ω} {story : Story} {env : Surroundings Ω}
      {tale : Nat → String → Event → Registry Ω → Story} (group : String) (event : Event)
      (hcalls : ∀ l group event s, Run s (tale l group event s) (env.listener l group event s).1)
      (later : Run (r.send env group event).1 story t) :
      Run r (.sent group event
        (callsOf env tale group event r.listeners (r.note (.sent group event (r.group? group))))
        (r.send env group event).2 story) t

/-- What a story has to say of what is there before and after. -/
structure AsTold (r : Registry Ω) (story : Story) (s : Registry Ω) : Prop where
  orderly : story.Orderly r.listeners
  listeners : s.listeners = r.listeners ++ story.newcomers
  heard : s.heard = story.heard.reverse ++ r.heard

section

variable {tale : Nat → String → Event → Registry Ω → Story}

theorem callees_callsOf (group : String) (event : Event) (ls : List Nat) (r : Registry Ω) :
    (callsOf env tale group event ls r).callees = ls.map (fun l => (l, group, event)) := by
  induction ls generalizing r with
  | nil => rfl
  | cons l rest ih =>
    unfold callsOf Calls.callees
    simp only [List.map_cons, ih]

/-- The listeners that are counted are those that fail or panic. -/
theorem failures_callsOf (group : String) (event : Event) (ls : List Nat) (r : Registry Ω) :
    (r.callAll env group event ls).2 = (callsOf env tale group event ls r).failures := by
  induction ls generalizing r with
  | nil => rfl
  | cons l rest ih =>
    unfold callAll callsOf Calls.failures
    simp only [ih]

theorem heard_logAll (r : Registry Ω) (lines : List LogLine) : (r.logAll lines).heard = r.heard := by
  simp [heard, Registry.logAll, Entry.heard?, List.filterMap_append]

/-- One call after another: those that come meanwhile are put behind the others on the list. -/
theorem asTold_callAll (htale : ∀ l group event s,
      AsTold s (tale l group event s) (env.listener l group event s).1)
    (group : String) (event : Event) (ls : List Nat) (r : Registry Ω) :
    (callsOf env tale group event ls r).Orderly r.listeners ∧
      (r.callAll env group event ls).1.listeners =
        r.listeners ++ (callsOf env tale group event ls r).newcomers ∧
      (r.callAll env group event ls).1.heard =
        (callsOf env tale group event ls r).heard.reverse ++ r.heard := by
  induction ls generalizing r with
  | nil => exact ⟨trivial, (List.append_nil _).symm, rfl⟩
  | cons l rest ih =>
    rw [callAll, callsOf, Calls.Orderly, Calls.newcomers, Calls.heard]
    have hcall := htale l group event (r.note (.told l group event))
    generalize tale l group event (r.note (.told l group event)) = meanwhile at hcall ⊢
    generalize env.listener l group event (r.note (.told l group event)) = done at hcall ⊢
    -- the other listeners are called from where this one came back
    obtain ⟨back, outcome⟩ := done
    have hcame : back.listeners = r.listeners ++ meanwhile.newcomers := hcall.listeners
    have hheard : back.heard = meanwhile.heard.reverse ++ (some l, group, event) :: r.heard :=
      hcall.heard
    obtain ⟨horderly, hlisteners, hrest⟩ := ih (back.logAll (outcomeLines group event outcome))
    refine ⟨⟨hcall.orderly, ?_⟩, ?_, ?_⟩
    · rw [← hcame]
      exact horderly
    · rw [← List.append_assoc, ← hcame]
      exact hlisteners
    · rw [heard_logAll, hheard] at hrest
      rw [List.cons_append, List.reverse_cons, List.reverse_append]
      simpa using hrest

/-- A run is as its story tells. -/
theorem Run.asTold {story : Story} (h : Run r story s) : AsTold r story s := by
  induction h with
  | nothing r => exact ⟨trivial, (List.append_nil _).symm, rfl⟩
  | apart hlisteners hheard _ ih =>
    obtain ⟨horderly, hcame, hlater⟩ := ih
    rw [hlisteners] at horderly hcame
    rw [hheard] at hlater
    exact ⟨horderly, hcame, hlater⟩
  | came l _ ih =>
    refine ⟨ih.orderly, ?_, ih.heard⟩
    rw [ih.listeners, addListener, Story.newcomers, List.append_assoc, List.singleton_append]
  | @sent r t story env tale group event _ _ htale ih =>
    have hnoted := asTold_callAll htale group event r.listeners
      (r.note (.sent group event (r.group? group)))
    obtain ⟨hcalls, hlisteners, hheard⟩ := hnoted
    have hcame : (r.send env group event).1.listeners = r.listeners ++ _ := hlisteners
    have hsent : (r.send env group event).1.heard = _ ++ (none, group, event) :: r.heard := hheard
    refine ⟨⟨callees_callsOf group event _ _, failures_callsOf group event _ _, hcalls, ?_⟩, ?_, ?_⟩
    · rw [← hcame]
      exact ih.orderly
    · rw [Story.newcomers, ← List.append_assoc, ← hcame]
      exact ih.listeners
    · rw [ih.heard, hsent, Story.heard]
      simp

theorem Run.then {story next : Story} (h : Run r story s) (h' : Run s next t) :
    Run r (story.then next) t := by
  induction h with
  | nothing => exact h'
  | apart hlisteners hheard _ ih => exact .apart hlisteners hheard (ih h')
  | came l _ ih => exact .came l (ih h')
  | sent group event hcalls _ _ ih => exact .sent group event hcalls (ih h')

end

/-! ## Every operation is a run -/

-- `Tolerant` is no help here: it would let events go out, and listeners come, of which nothing is
-- told.
/-- What has happened can be told. -/
def Ran (r s : Registry Ω) : Prop := ∃ story, Run r story s

namespace Ran

theorem apart (hlisteners : s.listeners = r.listeners) (hheard : s.heard = r.heard) : Ran r s :=
  ⟨.done, .apart hlisteners hheard (.nothing s)⟩

theorem refl (r : Registry Ω) : Ran r r := apart rfl rfl

theorem trans (h : Ran r s) (h' : Ran s t) : Ran r t := by
  obtain ⟨story, h⟩ := h
  obtain ⟨next, h'⟩ := h'
  exact ⟨story.then next, h.then h'⟩

theorem came (r : Registry Ω) (l : Nat) : Ran r (r.addListener l) := ⟨_, .came l (.nothing _)⟩

theorem note (r : Registry Ω) {e : Entry} (he : e.heard? = none) : Ran r (r.note e) :=
  apart rfl (List.filterMap_cons_none he)

theorem logAll (r : Registry Ω) (lines : List LogLine) : Ran r (r.logAll lines) :=
  apart rfl (heard_logAll r lines)

theorem setRecord (r : Registry Ω) (i : Nat) (g : Group) : Ran r (r.setRecord i g) := apart rfl rfl

theorem takeFrom (r : Registry Ω) (i : Nat) (left : Group) (gone : List Client) :
    Ran r (r.takeFrom i left gone) := by
  refine apart rfl ?_
  simp [heard, Registry.takeFrom, Entry.heard?, List.filterMap_append]

theorem andThen {α β : Type} {done : Registry Ω × Returned α}
    {next : Registry Ω → α → Registry Ω × Returned β} (first : Ran r done.1)
    (second : ∀ s a, Ran s (next s a).1) : Ran r (ConsumerGroups.andThen done next).1 :=
  andThen_induct first fun s a h => h.trans (second s a)

theorem closeQuietly (r : Registry Ω) (c : Channel) : Ran r (r.closeQuietly c).1 := by
  have hwire : ∀ w, Ran r (r.setWire c w) := fun w => apart rfl rfl
  unfold Registry.closeQuietly
  split
  · exact (hwire _).trans (logAll _ _)
  · exact hwire _

theorem removeIfVacant (group : String) (i : Nat) (call : Call) (r : Registry Ω) :
    Ran r (r.removeIfVacant group i call).1 := by
  unfold Registry.removeIfVacant
  split
  · exact refl r
  · split
    · exact apart rfl rfl
    · exact refl r

theorem update (q : Registration) (i : Nat) (now : UInt64) (r : Registry Ω) :
    Ran r (r.update q i now).1 := by
  unfold Registry.update
  split
  · exact refl r
  · exact (setRecord r i _).trans (logAll _ _)

section

variable (henv : env.ActBy Ran)
include henv

/-- An event is sent out, and the listeners do what can be told. -/
theorem send (group : String) (event : Event) (r : Registry Ω) :
    Ran r (r.send env group event).1 := by
  choose tale htale using henv.listener
  exact ⟨_, .sent group event htale (.nothing _)⟩

theorem sendChanged (group : String) (i : Nat) (r : Registry Ω) :
    Ran r (r.sendChanged env group i) := by
  unfold Registry.sendChanged
  split
  · exact send henv group _ r
  · exact refl r

theorem sendLeft (group : String) (i : Nat) (client : Client) (r : Registry Ω) :
    Ran r (r.sendLeft env group i client) := by
  unfold Registry.sendLeft
  split
  · exact send henv group _ r
  · exact refl r

theorem readClock (r : Registry Ω) : Ran r (r.readClock env).1 :=
  andThen (henv.reading r) fun s _ => refl s

/-! ### Registrations -/

theorem findOrFound (q : Registration) (r : Registry Ω) : Ran r (r.findOrFound env q).1 := by
  unfold Registry.findOrFound
  split
  · exact refl r
  · have hsent := send henv q.group (.clientJoined q.client q.topics) r
    dsimp only
    split
    · exact hsent
    · exact hsent.trans (apart rfl rfl)

theorem attempt (q : Registration) (r : Registry Ω) : Ran r (r.attempt env q).1 := by
  unfold Registry.attempt
  refine andThen ((findOrFound henv q r).trans (readClock henv _)) ?_
  exact fun s now => update q _ now s

theorem settle (q : Registration) (spare : Nat) (r : Registry Ω) :
    Ran r (r.settle env q spare).1 := by
  induction spare generalizing r with
  | zero => exact attempt henv q r
  | succ spare ih =>
    refine andThen (attempt henv q r) ?_
    intro s result
    dsimp only
    split
    · exact refl s
    · exact (logAll s _).trans (ih _)

theorem sample (start : UInt64) (r : Registry Ω) : Ran r (r.sample env start).1 := by
  unfold Registry.sample
  split
  · exact refl r
  · exact andThen (readClock henv r) fun s now => apart rfl rfl

theorem place (q : Registration) (r : Registry Ω) : Ran r (r.place env q).1 := by
  refine andThen (readClock henv r) ?_
  intro s start
  exact andThen (settle henv q _ s) fun t _ => refl t

theorem proclaim (q : Registration) (start : UInt64) (i : Nat) (changed : Bool)
    (r : Registry Ω) : Ran r (r.proclaim env q start i changed).1 := by
  have hchanged : Ran r (if changed && q.announce then r.sendChanged env q.group i else r) := by
    split
    · exact sendChanged henv q.group i r
    · exact refl r
  exact andThen (hchanged.trans (sample henv start _)) fun s _ => send henv q.group _ s

theorem tryRegister (q : Registration) (r : Registry Ω) : Ran r (r.tryRegister env q).1 := by
  unfold Registry.tryRegister
  split
  · exact refl r
  · have hdone : Ran r (r.note (.began (.register q.group q.client.channel.id))) := note r rfl
    refine (hdone.trans (andThen (place henv q _) ?_)).trans (note _ rfl)
    exact fun s result => proclaim henv q _ _ _ s

/-! ### Departures -/

theorem settleDeparture (group : String) (i : Nat) (announce : Bool) (call : Call)
    (r : Registry Ω) : Ran r (r.settleDeparture env group i announce call) := by
  have hremoved := removeIfVacant group i call r
  unfold Registry.settleDeparture
  split
  · rename_i s hs
    rw [hs] at hremoved
    exact (hremoved.trans (logAll s _)).trans (send henv group .dissolved _)
  · rename_i s hs
    rw [hs] at hremoved
    split
    · exact hremoved.trans (sendChanged henv group i s)
    · exact hremoved

theorem takeOut (group : String) (i : Nat) (client : Client) (r : Registry Ω) :
    Ran r (r.takeOut env group i client) := by
  unfold Registry.takeOut
  split
  · exact refl r
  · split
    · exact refl r
    · exact ((takeFrom r i _ _).trans (logAll _ _)).trans (sendLeft henv group i client _)

theorem leave (group : String) (client : Client) (announce : Bool) (r : Registry Ω) :
    Ran r (r.leave env group client announce) := by
  unfold Registry.leave
  split
  · exact refl r
  · rename_i i _
    have hbegan : Ran r (r.note (.began (.leave group client.channel.id))) := note r rfl
    exact ((hbegan.trans (takeOut henv group i client _)).trans
      (settleDeparture henv group i announce _ _)).trans (note _ rfl)

theorem closeIn (address : String) (id : UInt64) (i : Nat) (r : Registry Ω) :
    Ran r (r.closeIn env address id i) := by
  unfold Registry.closeIn
  split
  · exact refl r
  · rename_i g _
    split
    · exact refl r
    · rename_i stored _
      exact (((takeFrom r i _ _).trans (logAll _ _)).trans (sendLeft henv g.name i stored _)).trans
        (settleDeparture henv g.name i true _ _)

theorem channelClosed (address : String) (id : UInt64) (r : Registry Ω) :
    Ran r (r.channelClosed env address id).1 := by
  have hclosed : ∀ (is : List Nat) (s : Registry Ω),
      Ran s (is.foldl (fun r i => r.closeIn env address id i) s) := by
    intro is
    induction is with
    | nil => exact refl
    | cons i rest ih => exact fun s => (closeIn henv address id i s).trans (ih _)
  have hbegan : Ran r (r.note (.began (.channelClosed id))) := note r rfl
  exact (hbegan.trans (hclosed _ _)).trans (note _ rfl)

/-! ### Sweeps -/

theorem discard (now : UInt64) (g : Group) (i : Nat) (cs : List Client) (r : Registry Ω) :
    Ran r (r.discard env now g i cs).1 := by
  induction cs generalizing r with
  | nil => exact refl r
  | cons c rest ih =>
    refine andThen ((logAll r _).trans (closeQuietly _ c.channel)) ?_
    intro s _
    exact andThen ((sendLeft henv g.name i c s).trans (ih _)) fun t _ => refl t

theorem sweepRecord (now : UInt64) (i : Nat) (r : Registry Ω) :
    Ran r (r.sweepRecord env now i).1 := by
  cases hg : r.record? i with
  | none =>
    rw [sweepRecord_of_missing hg]
    exact refl r
  | some g =>
    rw [sweepRecord_of_some hg]
    refine andThen ((takeFrom r i _ _).trans (discard henv now g i _ _)) ?_
    exact fun s _ => (removeIfVacant g.name i .sweep s).trans (logAll _ _)

theorem sweepAll (now : UInt64) (is : List Nat) (r : Registry Ω) :
    Ran r (r.sweepAll env now is).1 := by
  induction is generalizing r with
  | nil => exact refl r
  | cons i rest ih =>
    refine andThen (sweepRecord henv now i r) ?_
    exact fun s _ => andThen (ih s) fun t _ => refl t

theorem sweep (r : Registry Ω) : Ran r (r.sweep env).1 := by
  have hbegan : Ran r (r.note (.began .sweep)) := note r rfl
  refine (andThen (hbegan.trans (readClock henv _)) ?_).trans (note _ rfl)
  exact fun s now => sweepAll henv now _ s

/-- Whatever is asked of a registry is a run if it is one whenever its surroundings act. -/
theorem serve (request : Request) (r : Registry Ω) : Ran r (r.serve env request) := by
  cases request with
  | register strict q =>
    obtain ⟨lines, hserved⟩ := serve_register env strict q r
    rw [hserved]
    exact (tryRegister henv q r).trans (logAll _ lines)
  | leave group client announce => exact leave henv group client announce r
  | channelClosed address id => exact channelClosed henv address id r
  | sweep => exact sweep henv r
  | addListener l => exact came r l
  | setClock clock => exact apart rfl rfl

end

end Ran

/-- In every run, whoever is on the list when an event is sent out is called of it, in the order of
the list, and nobody else is; what is returned counts those who failed or panicked. This is so for
events that are sent out while others are, to any depth. Listeners that come are put at the end of
the list, which loses nobody: they are not called of events that are being sent out, but a run that
begins when they are on the list calls them of all that is sent out. The journal has these calls and
no others. And whatever is asked of the registry next is more of the run, if its surroundings act by
runs. -/
theorem events_reach_whoever_is_listening {story : Story} (h : Run r story s) :
    story.Orderly r.listeners ∧ (∀ l ∈ r.listeners, story.Reaches l) ∧
      s.listeners = r.listeners ++ story.newcomers ∧
      s.heard = story.heard.reverse ++ r.heard ∧
      ∀ (env : Surroundings Ω) (request : Request), env.ActBy Ran →
        ∃ next, Run r (story.then next) (s.serve env request) := by
  obtain ⟨horderly, hlisteners, hheard⟩ := h.asTold
  refine ⟨horderly, fun l hl => story.reaches_of_orderly horderly hl, hlisteners, hheard, ?_⟩
  intro env request henv
  obtain ⟨next, hnext⟩ := Ran.serve henv request s
  exact ⟨next, h.then hnext⟩

/-- Surroundings in which the first listener takes things well, and others panic. -/
def meeting : Surroundings Unit :=
  { Surroundings.still Unit with
    listener := fun l _ _ r => (r, if l = 0 then .handled else .panicked none) }

/-- Surroundings in which a listener that is told of a group brings in another listener and tells
both of them of it, and then fails. -/
def welcoming : Surroundings Unit :=
  { Surroundings.still Unit with
    listener := fun _ _ _ r =>
      (((r.addListener 1).send meeting "inner" .dissolved).1, .failed "busy") }

/-- A listener is there at first. It is told of something and brings in another, who is told of the
next thing that comes up, and of what comes up later, but not of the thing that comes up first. -/
def welcome : Story :=
  .sent "outer" .dissolved
    (.told 0 "outer" .dissolved
      (.came 1 (.sent "inner" .dissolved
        (.told 0 "inner" .dissolved .done .handled
          (.told 1 "inner" .dissolved .done (.panicked none) .done)) 1 .done))
      (.failed "busy") .done) 1
    (.sent "later" .dissolved
      (.told 0 "later" .dissolved .done .handled
        (.told 1 "later" .dissolved .done (.panicked none) .done)) 1 .done)

/-- What is there after the welcome, and how many did not take the last event well. -/
def welcomed : Registry Unit × Nat :=
  ((Registry.new default [0] default false ()).send welcoming "outer" .dissolved).1.send meeting
    "later" .dissolved

theorem run_welcome : Run (Registry.new default [0] default false ()) welcome welcomed.1 := by
  have hmeeting : ∀ l group event (s : Registry Unit),
      Run s .done (meeting.listener l group event s).1 := fun _ _ _ s => .nothing s
  have hwelcoming := fun (l : Nat) (group : String) (event : Event) (s : Registry Unit) =>
    Run.came 1 (.sent "inner" .dissolved hmeeting (.nothing ((s.addListener 1).send meeting "inner"
      .dissolved).1))
  have hlater := Run.sent "later" .dissolved hmeeting (.nothing welcomed.1)
  exact Run.sent "outer" .dissolved hwelcoming hlater

theorem a_newcomer_hears_of_what_comes_next :
    Run (Registry.new default [0] default false ()) welcome welcomed.1 ∧ welcome.Orderly [0] ∧
      welcomed.1.listeners = [0, 1] ∧ welcomed.2 = 1 := by
  obtain ⟨horderly, -, hlisteners, -, -⟩ := events_reach_whoever_is_listening run_welcome
  exact ⟨run_welcome, horderly, hlisteners, rfl⟩

end Registry

end ConsumerGroups
