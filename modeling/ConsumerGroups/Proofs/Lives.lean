-- The life of a group. As long as listeners ask for nothing, a group is founded and ends by turns:
-- its listeners hear of it when a client is about to found it, and hear of its end unless a sweep
-- ended it. This holds whatever others ask for whenever the clock is read.
import Mathlib.Data.List.Chain
import Mathlib.Data.List.TakeWhile
import ConsumerGroups.Proofs.Settling

set_option autoImplicit false

namespace ConsumerGroups

/-- Whether listeners are told when this kind of call ends a group. -/
def Call.announcesEnd : Call → Bool
  | .leave .. => true
  | .channelClosed _ => true
  | _ => false

/-! ## Turns in the life of a group -/

inductive Turn where
  /-- listeners are told that a client is about to found the group -/
  | founded
  /-- its record is taken off the table -/
  | ended (call : Call)
  /-- listeners are told of the end -/
  | announced
deriving DecidableEq

def Entry.turn? (group : String) : Entry → Option Turn
  | .sent group' (.clientJoined ..) _ => if group' = group then some .founded else none
  | .sent group' .dissolved _ => if group' = group then some .announced else none
  | .unmapped group' _ _ call => if group' = group then some (.ended call) else none
  | _ => none

/-- The turns in the life of a group, newest first. -/
def turns (group : String) (journal : List Entry) : List Turn :=
  journal.filterMap (Entry.turn? group)

/-- The life of a group up to now, newest turn first, and whether the group is there. -/
inductive Life : Bool → List Turn → Prop where
  | unborn : Life false []
  | founded {ts : List Turn} (h : Life false ts) : Life true (.founded :: ts)
  | swept {ts : List Turn} (h : Life true ts) : Life false (.ended .sweep :: ts)
  | dissolved {ts : List Turn} {call : Call} (h : Life true ts)
      (hcall : call.announcesEnd = true) : Life false (.announced :: .ended call :: ts)

/-- Comings and goings by turns, newest first: the first of all is a coming, and so is the newest if
one is there. -/
structure Alternates (there : Bool) (comings : List Bool) : Prop where
  chain : comings.IsChain (· ≠ ·)
  oldest : comings.getLast? ≠ some false
  newest : there = true ↔ comings.head? = some true

/-- Foundings and ends. -/
def Turn.byEnd : Turn → Option Bool
  | .founded => some true
  | .ended _ => some false
  | .announced => none

/-- Foundings, and the ends that listeners are told of. -/
def Turn.byNotice : Turn → Option Bool
  | .founded => some true
  | .ended _ => none
  | .announced => some false

/-- The turns from some point of a life until the group is founded again, oldest first, given all
turns since then, newest first. -/
def untilFounded (since : List Turn) : List Turn := since.reverse.takeWhile (· ≠ .founded)

theorem alternates_nil : Alternates false [] := by
  refine ⟨.nil, ?_, ?_⟩ <;> simp

theorem Alternates.come {comings : List Bool} (h : Alternates false comings) :
    Alternates true (true :: comings) := by
  refine ⟨h.chain.cons ?_, ?_, by simp⟩
  · rintro y hy rfl
    exact absurd (h.newest.mpr hy) Bool.false_ne_true
  · intro hoffset
    cases comings with
    | nil => cases hoffset
    | cons c rest => exact h.oldest (by rwa [List.getLast?_cons_cons] at hoffset)

theorem Alternates.go {comings : List Bool} (h : Alternates true comings) :
    Alternates false (false :: comings) := by
  have hnewest := h.newest.mp rfl
  cases comings with
  | nil => cases hnewest
  | cons c rest =>
    rw [List.head?_cons, Option.some.injEq] at hnewest
    subst hnewest
    refine ⟨h.chain.cons ?_, ?_, by simp⟩
    · simp
    · rw [List.getLast?_cons_cons]
      exact h.oldest

namespace Life

variable {there : Bool} {ts after before : List Turn} {call : Call}

theorem alternates (h : Life there ts) : Alternates there (ts.filterMap Turn.byEnd) := by
  induction h with
  | unborn => exact alternates_nil
  | founded _ ih => exact ih.come
  | swept _ ih => exact ih.go
  | dissolved _ _ ih => exact ih.go

/-- When no sweep ends the group, its listeners hear of every end. -/
theorem alternates_of_unswept (h : Life there ts) (hswept : .ended .sweep ∉ ts) :
    Alternates there (ts.filterMap Turn.byNotice) := by
  induction h with
  | unborn => exact alternates_nil
  | founded _ ih => exact (ih fun h => hswept (List.mem_cons_of_mem _ h)).come
  | swept => exact absurd List.mem_cons_self hswept
  | dissolved _ _ ih =>
    exact (ih fun h => hswept (List.mem_cons_of_mem _ (List.mem_cons_of_mem _ h))).go

/-- A group that is there was founded last. -/
theorem newest (h : Life true ts) : ∃ rest, ts = .founded :: rest := by
  cases h with
  | @founded rest _ => exact ⟨rest, rfl⟩

theorem untilFounded_founded (since : List Turn) :
    untilFounded (.founded :: since) = untilFounded since := by
  unfold untilFounded
  rw [List.reverse_cons, List.takeWhile_append]
  split
  · rename_i h
    rw [(List.takeWhile_prefix _).eq_of_length h]
    simp
  · rfl

/-- What comes after the group was founded again does not matter. -/
theorem untilFounded_cons {since : List Turn} (h : .founded ∈ since) (t : Turn) :
    untilFounded (t :: since) = untilFounded since := by
  unfold untilFounded
  rw [List.reverse_cons, List.takeWhile_append, if_neg]
  intro hlength
  have hall := (List.takeWhile_prefix _).eq_of_length hlength
  have hfounded := List.takeWhile_eq_self_iff.mp hall .founded (List.mem_reverse.mpr h)
  simp at hfounded

/-- A group that is there was founded since any of its ends. -/
theorem founded_since (h : Life true (after ++ .ended call :: before)) : .founded ∈ after := by
  obtain ⟨older, hts⟩ := h.newest
  cases after with
  | nil => simp at hts
  | cons t rest =>
    rw [List.cons_append, List.cons.injEq] at hts
    rw [hts.1]
    exact List.mem_cons_self

/-- After an end listeners are told once, or not at all when a sweep ended the group. -/
theorem after_end (h : Life there (after ++ .ended call :: before)) :
    (call = .sweep ∧ untilFounded after = []) ∨
      (call.announcesEnd = true ∧ untilFounded after = [.announced]) := by
  generalize hts : after ++ .ended call :: before = ts at h
  induction h generalizing after with
  | unborn => simp at hts
  | founded _ ih =>
    cases after with
    | nil => simp at hts
    | cons t rest =>
      rw [List.cons_append, List.cons.injEq] at hts
      obtain ⟨rfl, hts⟩ := hts
      rw [untilFounded_founded]
      exact ih hts
  | swept hlife ih =>
    cases after with
    | nil =>
      rw [List.nil_append, List.cons.injEq] at hts
      cases hts.1
      exact .inl ⟨rfl, rfl⟩
    | cons t rest =>
      rw [List.cons_append, List.cons.injEq] at hts
      obtain ⟨rfl, rfl⟩ := hts
      rw [untilFounded_cons hlife.founded_since]
      exact ih rfl
  | @dissolved ts call' hlife hcall ih =>
    cases after with
    | nil => simp at hts
    | cons t rest =>
      cases rest with
      | nil =>
        simp only [List.cons_append, List.nil_append, List.cons.injEq, Turn.ended.injEq] at hts
        obtain ⟨rfl, rfl, -⟩ := hts
        exact .inr ⟨hcall, rfl⟩
      | cons t' rest =>
        simp only [List.cons_append, List.cons.injEq] at hts
        obtain ⟨rfl, rfl, rfl⟩ := hts
        have hmem := hlife.founded_since
        rw [untilFounded_cons (List.mem_cons_of_mem _ hmem), untilFounded_cons hmem]
        exact ih rfl

/-- Listeners are told of an end right after it. -/
theorem before_notice (h : Life there (after ++ .announced :: before)) :
    ∃ call, call.announcesEnd = true ∧ before.head? = some (.ended call) := by
  generalize hts : after ++ .announced :: before = ts at h
  induction h generalizing after with
  | unborn => simp at hts
  | founded _ ih =>
    cases after with
    | nil => simp at hts
    | cons t rest => exact ih (List.cons.inj hts).2
  | swept _ ih =>
    cases after with
    | nil => simp at hts
    | cons t rest => exact ih (List.cons.inj hts).2
  | @dissolved ts call hlife hcall ih =>
    cases after with
    | nil =>
      rw [List.nil_append, List.cons.injEq] at hts
      exact ⟨call, hcall, by rw [hts.2]; rfl⟩
    | cons t rest =>
      rw [List.cons_append, List.cons.injEq] at hts
      cases rest with
      | nil => simp at hts
      | cons t' rest => exact ih (List.cons.inj hts.2).2

end Life

/-! ## Surroundings whose listeners ask for nothing -/

/-- Listeners ask for nothing: when they are called they do something beside the registry. They may
still fail or panic. -/
def Surroundings.OnlyListens {Ω : Type} (env : Surroundings Ω) : Prop :=
  ∀ l group event r, ∃ clock wires lines outside,
    (env.listener l group event r).1 = Registry.beside r clock wires lines outside

namespace Registry

variable {Ω : Type} {env : Surroundings Ω} {r s t : Registry Ω}

/-- A registry before and after others dealt with it for a while, with listeners that ask for
nothing. Whenever the clock is read while it does what it is asked, others deal with it in turn. -/
inductive Raced : Registry Ω → Registry Ω → Prop where
  | nothing (r : Registry Ω) : Raced r r
  | beside {r s : Registry Ω} (clock : Clock) (wires : Table String Wire) (lines : List LogLine)
      (outside : Ω) (h : Raced r s) : Raced r (s.beside clock wires lines outside)
  | request {r s : Registry Ω} {env : Surroundings Ω} {request : Request} (h : Raced r s)
      (reading : ∀ t, Raced t (env.beforeReading t).1) (listener : env.OnlyListens) :
      Raced r (s.serve env request)

/-! ## Telling listeners that ask for nothing -/

/-- A relation that holds over a while in which a registry tells a listener something, or others do
what is none of its business, and over two whiles when it holds over each. -/
structure Tacit (R : Registry Ω → Registry Ω → Prop) : Prop where
  refl : ∀ r, R r r
  told : ∀ r l group event, R r (r.note (.told l group event))
  beside : ∀ r clock wires lines outside, R r (r.beside clock wires lines outside)
  trans : ∀ {r s t}, R r s → R s t → R r t

theorem Tacit.callAll {R : Registry Ω → Registry Ω → Prop} (hR : Tacit R)
    (henv : env.OnlyListens) (group : String) (event : Event) (ls : List Nat) (r : Registry Ω) :
    R r (r.callAll env group event ls).1 := by
  induction ls generalizing r with
  | nil => exact hR.refl r
  | cons l rest ih =>
    let told := r.note (.told l group event)
    let answered := (env.listener l group event told).1
    let lines := outcomeLines group event (env.listener l group event told).2
    have hanswered : R r answered := by
      obtain ⟨clock, wires, lines, outside, hheard⟩ := henv l group event told
      unfold answered
      rw [hheard]
      exact hR.trans (hR.told r l group event) (hR.beside told clock wires lines outside)
    -- the lines that tell how it went are none of the business of the registry either
    have hlogged : R answered (answered.logAll lines) :=
      hR.beside answered answered.clock answered.wires lines answered.outside
    exact hR.trans (hR.trans hanswered hlogged) (ih _)

/-! ## What is no turn in the life of a group -/

/-- Between two states no group was founded or ended, and nobody was told so. -/
structure Uneventful (r s : Registry Ω) : Prop where
  table : s.table = r.table
  journal : ∃ es, s.journal = es ++ r.journal ∧ ∀ e ∈ es, ∀ group, e.turn? group = none

namespace Uneventful

theorem refl (r : Registry Ω) : Uneventful r r := ⟨rfl, [], rfl, by simp⟩

theorem trans (h : Uneventful r s) (h' : Uneventful s t) : Uneventful r t := by
  obtain ⟨es, hes, hno⟩ := h.journal
  obtain ⟨fs, hfs, hno'⟩ := h'.journal
  refine ⟨h'.table.trans h.table, fs ++ es, by rw [hfs, hes, List.append_assoc], ?_⟩
  intro e he
  rcases List.mem_append.mp he with he | he
  · exact hno' e he
  · exact hno e he

theorem note (r : Registry Ω) {e : Entry} (he : ∀ group, e.turn? group = none) :
    Uneventful r (r.note e) :=
  ⟨rfl, [e], rfl, by simpa using he⟩

theorem logAll (r : Registry Ω) (lines : List LogLine) : Uneventful r (r.logAll lines) :=
  ⟨rfl, _, rfl, by simp [Entry.turn?]⟩

theorem takeFrom (r : Registry Ω) (i : Nat) (left : Group) (gone : List Client) :
    Uneventful r (r.takeFrom i left gone) :=
  ⟨rfl, _, rfl, by simp [Entry.turn?]⟩

theorem beside (r : Registry Ω) (clock : Clock) (wires : Table String Wire)
    (lines : List LogLine) (outside : Ω) :
    Uneventful r (r.beside clock wires lines outside) :=
  ⟨rfl, _, rfl, by simp [Entry.turn?]⟩

theorem closeQuietly (r : Registry Ω) (c : Channel) : Uneventful r (r.closeQuietly c).1 := by
  have hwire : ∀ w, Uneventful r (r.setWire c w) := fun w => ⟨rfl, [], rfl, by simp⟩
  unfold Registry.closeQuietly
  split
  · exact (hwire _).trans (logAll _ _)
  · exact hwire _

theorem update (q : Registration) (i : Nat) (now : UInt64) (r : Registry Ω) :
    Uneventful r (r.update q i now).1 := by
  unfold Registry.update
  split
  · exact refl r
  · exact ⟨rfl, _, rfl, by simp [Entry.turn?]⟩

theorem tacit : Tacit (Uneventful (Ω := Ω)) where
  refl := refl
  told := fun r _ _ _ => note r fun _ => rfl
  beside := beside
  trans := trans

theorem callAll (henv : env.OnlyListens) (group : String) (event : Event) (ls : List Nat)
    (r : Registry Ω) : Uneventful r (r.callAll env group event ls).1 :=
  tacit.callAll henv group event ls r

/-- When an event goes out that is no turn, nothing else is one. -/
theorem send (henv : env.OnlyListens) {group : String} {event : Event}
    (hevent : ∀ group' onTable, (Entry.sent group event onTable).turn? group' = none)
    (r : Registry Ω) : Uneventful r (r.send env group event).1 :=
  (note r fun group' => hevent group' _).trans (callAll henv group event r.listeners _)

theorem sendChanged (henv : env.OnlyListens) (group : String) (i : Nat) (r : Registry Ω) :
    Uneventful r (r.sendChanged env group i) := by
  unfold Registry.sendChanged
  split
  · exact send henv (fun _ _ => rfl) r
  · exact refl r

theorem sendLeft (henv : env.OnlyListens) (group : String) (i : Nat) (client : Client)
    (r : Registry Ω) : Uneventful r (r.sendLeft env group i client) := by
  unfold Registry.sendLeft
  split
  · exact send henv (fun _ _ => rfl) r
  · exact refl r

theorem discard (henv : env.OnlyListens) (now : UInt64) (g : Group) (i : Nat) (cs : List Client)
    (r : Registry Ω) : Uneventful r (r.discard env now g i cs).1 := by
  induction cs generalizing r with
  | nil => exact refl r
  | cons c rest ih =>
    refine andThen_induct ((logAll r _).trans (closeQuietly _ c.channel)) ?_
    intro s _ hs
    refine andThen_induct (hs.trans ((sendLeft henv g.name i c s).trans (ih _))) ?_
    exact fun t _ ht => ht

theorem takeOut (henv : env.OnlyListens) (group : String) (i : Nat) (client : Client)
    (r : Registry Ω) : Uneventful r (r.takeOut env group i client) := by
  unfold Registry.takeOut
  split
  · exact refl r
  · split
    · exact refl r
    · exact ((takeFrom r i _ _).trans (logAll _ _)).trans (sendLeft henv group i client _)

end Uneventful

/-! ## Groups live on -/

/-- The table and the journal tell the same life of every group, and no sweep ends a group that has
not begun. -/
structure Lived (r : Registry Ω) : Prop where
  life : ∀ group, Life (r.current? group).isSome (turns group r.journal)
  swept : ∀ group, .ended .sweep ∈ turns group r.journal → .began .sweep ∈ r.journal

/-- From one state to another nothing of the journal is lost, and the lives of groups go on. -/
structure LivesOn (r s : Registry Ω) : Prop where
  journal : r.journal <:+ s.journal
  lived : r.Lived → s.Lived

theorem turns_append {journal es before : List Entry} (hes : journal = es ++ before)
    (group : String) : turns group journal = turns group es ++ turns group before := by
  rw [hes, turns, List.filterMap_append]
  rfl

theorem Uneventful.turns (h : Uneventful r s) (group : String) :
    turns group s.journal = turns group r.journal := by
  obtain ⟨es, hes, hno⟩ := h.journal
  have hnone : ConsumerGroups.turns group es = [] :=
    List.filterMap_eq_nil_iff.mpr fun e he => hno e he group
  rw [turns_append hes, hnone, List.nil_append]

theorem Uneventful.livesOn (h : Uneventful r s) : LivesOn r s := by
  obtain ⟨es, hes, -⟩ := h.journal
  refine ⟨⟨es, hes.symm⟩, ?_⟩
  intro hr
  constructor
  · intro group
    rw [current?, h.table, h.turns]
    exact hr.life group
  · intro group hmem
    rw [h.turns] at hmem
    rw [hes]
    exact List.mem_append_right es (hr.swept group hmem)

namespace LivesOn

theorem refl (r : Registry Ω) : LivesOn r r := ⟨List.suffix_rfl, id⟩

theorem trans (h : LivesOn r s) (h' : LivesOn s t) : LivesOn r t :=
  ⟨h.journal.trans h'.journal, h'.lived ∘ h.lived⟩

theorem andThen {α β : Type} {done : Registry Ω × Returned α}
    {next : Registry Ω → α → Registry Ω × Returned β} (first : LivesOn r done.1)
    (second : ∀ s a, LivesOn r s → LivesOn s (next s a).1) :
    LivesOn r (ConsumerGroups.andThen done next).1 :=
  andThen_induct first fun s a h => h.trans (second s a h)

/-- What a reading of the clock comes to is what others do before it. -/
theorem readClock (reading : ∀ t, LivesOn t (env.beforeReading t).1) (r : Registry Ω) :
    LivesOn r (r.readClock env).1 :=
  andThen (reading r) fun s _ _ => refl s

end LivesOn

/-- The life of one group takes a turn, and those of the others go on. -/
theorem livesOn_of_turn (group : String) (hjournal : r.journal <:+ s.journal)
    (hothers : ∀ group', group' ≠ group → s.current? group' = r.current? group' ∧
      turns group' s.journal = turns group' r.journal)
    (hlife : Life (r.current? group).isSome (turns group r.journal) →
      Life (s.current? group).isSome (turns group s.journal))
    (hswept : .ended .sweep ∈ turns group s.journal →
      .ended .sweep ∈ turns group r.journal ∨ .began .sweep ∈ s.journal) : LivesOn r s := by
  refine ⟨hjournal, fun hr => ⟨?_, ?_⟩⟩
  · intro group'
    by_cases hn : group' = group
    · subst hn
      exact hlife (hr.life group')
    · rw [(hothers group' hn).1, (hothers group' hn).2]
      exact hr.life group'
  · intro group' hmem
    by_cases hn : group' = group
    · subst hn
      rcases hswept hmem with hmem | hbegan
      · exact hjournal.subset (hr.swept group' hmem)
      · exact hbegan
    · rw [(hothers group' hn).2] at hmem
      exact hjournal.subset (hr.swept group' hmem)

theorem turns_cons_self {group : String} {e : Entry} {t : Turn} (he : e.turn? group = some t)
    (journal : List Entry) : turns group (e :: journal) = t :: turns group journal := by
  rw [turns, List.filterMap_cons_some he]
  rfl

theorem turns_cons_none {group : String} {e : Entry} (he : e.turn? group = none)
    (journal : List Entry) : turns group (e :: journal) = turns group journal := by
  rw [turns, List.filterMap_cons_none he]
  rfl

/-! ## Groups are founded -/

/-- The listeners are told that a client is about to found the group, and then it is founded. -/
theorem livesOn_found {q : Registration} {told : Registry Ω} {topics : SortedSet String}
    {onTable : Option Group} (hnew : r.current? q.group = none)
    (htold : Uneventful (r.note (.sent q.group (.clientJoined q.client topics) onTable)) told) :
    LivesOn r (told.addRecord (Group.new q.group q.policy)) := by
  let sent : Entry := .sent q.group (.clientJoined q.client topics) onTable
  let found := told.addRecord (Group.new q.group q.policy)
  have hcurrent : ∀ group, told.current? group = r.current? group :=
    fun group => congrArg (Table.find? · group) htold.table
  have hturns : ∀ group, turns group found.journal = turns group (sent :: r.journal) :=
    fun group => (turns_cons_none rfl _).trans (htold.turns group)
  have hself : turns q.group found.journal = .founded :: turns q.group r.journal :=
    (hturns q.group).trans (turns_cons_self (by simp [sent, Entry.turn?]) _)
  refine livesOn_of_turn q.group ?_ ?_ ?_ ?_
  · obtain ⟨es, hes, -⟩ := htold.journal
    have hsuffix : r.journal <:+ told.journal := ⟨es ++ [sent], by rw [hes]; simp [sent, note]⟩
    exact hsuffix.trans (List.suffix_cons _ _)
  · intro group hn
    refine ⟨(current?_addRecord_of_ne _ hn).trans (hcurrent group), ?_⟩
    exact (hturns group).trans (turns_cons_none (by simp [sent, Entry.turn?, Ne.symm hn]) _)
  · have hi : found.current? q.group = some told.records.length :=
      current?_addRecord_self told (Group.new q.group q.policy)
    rw [hself, hnew, hi]
    exact .founded
  · rw [hself]
    intro h
    exact .inl (List.mem_of_ne_of_mem (by simp) h)

theorem livesOn_findOrFound (henv : env.OnlyListens) (q : Registration) (r : Registry Ω) :
    LivesOn r (r.findOrFound env q).1 := by
  unfold findOrFound
  split
  · exact .refl r
  · rename_i hnew
    have htold := Uneventful.callAll henv q.group (.clientJoined q.client q.topics) r.listeners
      (r.note (.sent q.group (.clientJoined q.client q.topics) (r.group? q.group)))
    dsimp only
    split
    · rename_i i hi
      -- while the listeners are told, nobody founds the group
      rw [current?, send, htold.table] at hi
      rw [current?] at hnew
      rw [note, hnew] at hi
      cases hi
    · exact livesOn_found hnew htold

theorem livesOn_attempt (henv : env.OnlyListens)
    (reading : ∀ t, LivesOn t (env.beforeReading t).1) (q : Registration) (r : Registry Ω) :
    LivesOn r (r.attempt env q).1 := by
  have hfound := livesOn_findOrFound henv q r
  refine LivesOn.andThen (hfound.trans (.readClock reading _)) ?_
  intro s now _
  exact (Uneventful.update q _ now s).livesOn

theorem livesOn_settle (henv : env.OnlyListens)
    (reading : ∀ t, LivesOn t (env.beforeReading t).1) (q : Registration) (spare : Nat)
    (r : Registry Ω) : LivesOn r (r.settle env q spare).1 := by
  induction spare generalizing r with
  | zero => exact livesOn_attempt henv reading q r
  | succ spare ih =>
    refine LivesOn.andThen (livesOn_attempt henv reading q r) ?_
    intro s result _
    dsimp only
    split
    · exact .refl s
    · exact (Uneventful.logAll s _).livesOn.trans (ih _)

theorem livesOn_proclaim (henv : env.OnlyListens)
    (reading : ∀ t, LivesOn t (env.beforeReading t).1) (q : Registration) (start : UInt64)
    (i : Nat) (changed : Bool) (r : Registry Ω) :
    LivesOn r (r.proclaim env q start i changed).1 := by
  have hsample : ∀ s : Registry Ω, LivesOn s (s.sample env start).1 := by
    intro s
    unfold sample
    split
    · exact .refl s
    · refine LivesOn.andThen (.readClock reading s) ?_
      intro t now _
      exact ⟨List.suffix_rfl, fun h => ⟨h.life, h.swept⟩⟩
  unfold proclaim
  refine LivesOn.andThen (LivesOn.trans ?_ (hsample _)) ?_
  · split
    · exact (Uneventful.sendChanged henv q.group i r).livesOn
    · exact .refl r
  · intro s _ _
    exact (Uneventful.send henv (fun _ _ => rfl) s).livesOn

theorem livesOn_tryRegister (henv : env.OnlyListens)
    (reading : ∀ t, LivesOn t (env.beforeReading t).1) (q : Registration) (r : Registry Ω) :
    LivesOn r (r.tryRegister env q).1 := by
  unfold tryRegister
  split
  · exact .refl r
  · have hbegan : LivesOn r (r.note (.began (.register q.group q.client.channel.id))) :=
      (Uneventful.note r fun _ => rfl).livesOn
    refine (hbegan.trans ?_).trans (Uneventful.note _ fun _ => rfl).livesOn
    refine LivesOn.andThen ?_ fun s result _ => livesOn_proclaim henv reading q _ _ _ s
    refine LivesOn.andThen (.readClock reading _) ?_
    intro s start _
    refine LivesOn.andThen (livesOn_settle henv reading q _ s) ?_
    exact fun t _ _ => .refl t

/-! ## Groups end -/

/-- A record is taken off the table, and then the listeners are told of the end of its group. -/
theorem livesOn_dissolved {group : String} {i : Nat} {g : Group} {call : Call} {line : LogLine}
    {onTable : Option Group} {told : Registry Ω} (hcall : call.announcesEnd = true)
    (hi : r.current? group = some i)
    (htold : Uneventful (((r.removeRecord group i g call).logAll [line]).note
      (.sent group .dissolved onTable)) told) : LivesOn r told := by
  let sent : Entry := .sent group .dissolved onTable
  let unmapped : Entry := .unmapped group i g call
  have hcurrent : ∀ group',
      told.current? group' = (r.removeRecord group i g call).current? group' :=
    fun group' => congrArg (Table.find? · group') htold.table
  have hturns : ∀ group', turns group' told.journal =
      turns group' (sent :: .logged line :: unmapped :: r.journal) := htold.turns
  have hself : turns group told.journal = .announced :: .ended call :: turns group r.journal := by
    rw [hturns, turns_cons_self (t := .announced) (by simp [sent, Entry.turn?]),
      turns_cons_none rfl, turns_cons_self (t := .ended call) (by simp [unmapped, Entry.turn?])]
  refine livesOn_of_turn group ?_ ?_ ?_ ?_
  · obtain ⟨es, hes, -⟩ := htold.journal
    exact ⟨es ++ [sent, .logged line, unmapped], by
      rw [hes]
      simp [sent, unmapped, note, logAll, removeRecord]⟩
  · intro group' hn
    refine ⟨(hcurrent group').trans (current?_removeRecord_of_ne r hn i g call), ?_⟩
    rw [hturns, turns_cons_none (by simp [sent, Entry.turn?, Ne.symm hn]), turns_cons_none rfl,
      turns_cons_none (by simp [unmapped, Entry.turn?, Ne.symm hn])]
  · rw [hself, hcurrent, current?_removeRecord, hi]
    exact fun h => .dissolved h hcall
  · rw [hself]
    intro h
    have hne : Turn.ended .sweep ≠ .ended call := by
      rintro ⟨⟩
      cases hcall
    exact .inl (List.mem_of_ne_of_mem hne (List.mem_of_ne_of_mem (by simp) h))

/-- When a group ends and its listeners are to be told, they are told at once. -/
theorem livesOn_settleDeparture (henv : env.OnlyListens) {call : Call}
    (hcall : call.announcesEnd = true) (group : String) (i : Nat) (announce : Bool)
    (r : Registry Ω) : LivesOn r (r.settleDeparture env group i announce call) := by
  have hstays : LivesOn r
      (if announce && r.isLive group i then r.sendChanged env group i else r) := by
    split
    · exact (Uneventful.sendChanged henv group i r).livesOn
    · exact .refl r
  rcases settleDeparture_cases env group i announce call r with ⟨g, hi, -, -, hdone⟩ | hdone
  · rw [hdone]
    exact livesOn_dissolved hcall hi (.callAll henv group .dissolved _ _)
  · rw [hdone]
    exact hstays

theorem livesOn_leave (henv : env.OnlyListens) (group : String) (client : Client)
    (announce : Bool) (r : Registry Ω) : LivesOn r (r.leave env group client announce) := by
  unfold leave
  split
  · exact .refl r
  · rename_i i _
    have hbegan : Uneventful r (r.note (.began (.leave group client.channel.id))) :=
      .note r fun _ => rfl
    exact ((hbegan.trans (.takeOut henv group i client _)).livesOn.trans
      (livesOn_settleDeparture henv rfl group i announce _)).trans
      (Uneventful.note _ fun _ => rfl).livesOn

theorem livesOn_closeIn (henv : env.OnlyListens) (address : String) (id : UInt64) (i : Nat)
    (r : Registry Ω) : LivesOn r (r.closeIn env address id i) := by
  unfold closeIn
  split
  · exact .refl r
  · rename_i g _
    split
    · exact .refl r
    · rename_i stored _
      have hleft := ((Uneventful.takeFrom r i (g.without id) [stored]).trans
        (.logAll _ [g.closedLine address stored])).trans (.sendLeft henv g.name i stored _)
      exact hleft.livesOn.trans (livesOn_settleDeparture henv rfl g.name i true _)

theorem livesOn_channelClosed (henv : env.OnlyListens) (address : String) (id : UInt64)
    (r : Registry Ω) : LivesOn r (r.channelClosed env address id).1 := by
  have hall : ∀ (is : List Nat) (s : Registry Ω),
      LivesOn s (is.foldl (fun r i => r.closeIn env address id i) s) := by
    intro is
    induction is with
    | nil => exact .refl
    | cons i rest ih => exact fun s => (livesOn_closeIn henv address id i s).trans (ih _)
  exact ((Uneventful.note r fun _ => rfl).livesOn.trans (hall _ _)).trans
    (Uneventful.note _ fun _ => rfl).livesOn

/-! ## Sweeps -/

/-- A sweep ends a group without a word. -/
theorem livesOn_removeIfVacant (group : String) (i : Nat) (r : Registry Ω)
    (hbegan : .began .sweep ∈ r.journal) : LivesOn r (r.removeIfVacant group i .sweep).1 := by
  cases hg : r.record? i with
  | none =>
    rw [removeIfVacant, hg]
    exact .refl r
  | some g =>
    rw [removeIfVacant_eq hg]
    split
    · rename_i h
      have hself : turns group (r.removeRecord group i g .sweep).journal =
          .ended .sweep :: turns group r.journal := turns_cons_self (by simp [Entry.turn?]) _
      refine livesOn_of_turn group (List.suffix_cons _ _) ?_ ?_ ?_
      · intro group' hn
        exact ⟨current?_removeRecord_of_ne r hn i g .sweep,
          turns_cons_none (by simp [Entry.turn?, Ne.symm hn]) _⟩
      · rw [hself, current?_removeRecord, h.1]
        exact .swept
      · exact fun _ => .inr (List.mem_cons_of_mem _ hbegan)
    · exact .refl r

theorem livesOn_sweepRecord (henv : env.OnlyListens) (now : UInt64) (i : Nat) (r : Registry Ω)
    (hbegan : .began .sweep ∈ r.journal) : LivesOn r (r.sweepRecord env now i).1 := by
  cases hg : r.record? i with
  | none =>
    rw [sweepRecord_of_missing hg]
    exact .refl r
  | some g =>
    rw [sweepRecord_of_some hg]
    refine LivesOn.andThen ((Uneventful.takeFrom r i _ _).trans
      (.discard henv now g i _ _)).livesOn ?_
    intro s n hs
    have hremoved := livesOn_removeIfVacant g.name i s (hs.journal.subset hbegan)
    exact hremoved.trans (Uneventful.logAll _ _).livesOn

theorem livesOn_sweepAll (henv : env.OnlyListens) (now : UInt64) (is : List Nat) (r : Registry Ω)
    (hbegan : .began .sweep ∈ r.journal) : LivesOn r (r.sweepAll env now is).1 := by
  induction is generalizing r with
  | nil => exact .refl r
  | cons i rest ih =>
    refine LivesOn.andThen (livesOn_sweepRecord henv now i r hbegan) ?_
    intro s n hs
    rw [fst_andThen_ok]
    exact ih s (hs.journal.subset hbegan)

theorem livesOn_sweep (henv : env.OnlyListens) (reading : ∀ t, LivesOn t (env.beforeReading t).1)
    (r : Registry Ω) : LivesOn r (r.sweep env).1 := by
  have hnote : LivesOn r (r.note (.began .sweep)) := (Uneventful.note r fun _ => rfl).livesOn
  have hread := LivesOn.readClock reading (r.note (.began .sweep))
  refine (hnote.trans (LivesOn.andThen hread ?_)).trans (Uneventful.note _ fun _ => rfl).livesOn
  intro s now hs
  exact livesOn_sweepAll henv now _ s (hs.journal.subset List.mem_cons_self)

/-! ## Whatever is asked -/

theorem livesOn_serve (henv : env.OnlyListens) (reading : ∀ t, LivesOn t (env.beforeReading t).1)
    (request : Request) (r : Registry Ω) : LivesOn r (r.serve env request) := by
  cases request with
  | register strict q =>
    obtain ⟨lines, hserve⟩ := serve_register env strict q r
    rw [hserve]
    exact (livesOn_tryRegister henv reading q r).trans (Uneventful.logAll _ lines).livesOn
  | leave group client announce => exact livesOn_leave henv group client announce r
  | channelClosed address id => exact livesOn_channelClosed henv address id r
  | sweep => exact livesOn_sweep henv reading r
  | addListener l => exact ⟨List.suffix_rfl, fun h => ⟨h.life, h.swept⟩⟩
  | setClock clock => exact ⟨List.suffix_rfl, fun h => ⟨h.life, h.swept⟩⟩

theorem Raced.livesOn (h : Raced r s) : LivesOn r s := by
  induction h with
  | nothing r => exact .refl r
  | beside clock wires lines outside _ ih =>
    exact ih.trans (Uneventful.beside _ clock wires lines outside).livesOn
  | request _ _ listener ih reading => exact ih.trans (livesOn_serve listener reading _ _)

theorem Raced.lived {settings : Settings} {listeners : List Nat} {clock : Clock} {measured : Bool}
    {outside : Ω} (h : Raced (Registry.new settings listeners clock measured outside) r) :
    r.Lived := by
  refine h.livesOn.lived ⟨?_, ?_⟩
  · exact fun _ => .unborn
  · intro group hmem
    cases hmem

/-- Groups are founded and end by turns, whatever others ask for whenever the clock is read, if the
listeners ask for nothing. After an end on request or with a channel, and only then, listeners are
told of it, once; after an end in a sweep they are not. So when nobody sweeps they hear of foundings
and ends by turns, and of a founding last exactly when the group is there. -/
theorem groups_are_founded_and_end_by_turns {settings : Settings} {listeners : List Nat}
    {clock : Clock} {measured : Bool} {outside : Ω}
    (h : Raced (Registry.new settings listeners clock measured outside) r) (group : String) :
    Alternates (r.current? group).isSome ((turns group r.journal).filterMap Turn.byEnd) ∧
    (∀ after i last call before, r.journal = after ++ .unmapped group i last call :: before →
      (call = .sweep ∧ untilFounded (turns group after) = []) ∨
        (call.announcesEnd = true ∧ untilFounded (turns group after) = [.announced])) ∧
    (∀ after onTable before, r.journal = after ++ .sent group .dissolved onTable :: before →
      ∃ call, call.announcesEnd = true ∧ (turns group before).head? = some (.ended call)) ∧
    (.began .sweep ∉ r.journal →
      Alternates (r.current? group).isSome ((turns group r.journal).filterMap Turn.byNotice)) := by
  have hlived := h.lived
  have hlife := hlived.life group
  refine ⟨hlife.alternates, ?_, ?_, ?_⟩
  · intro after i last call before hj
    rw [turns_append hj, turns_cons_self (t := .ended call) (by simp [Entry.turn?])] at hlife
    exact hlife.after_end
  · intro after onTable before hj
    rw [turns_append hj, turns_cons_self (t := .announced) (by simp [Entry.turn?])] at hlife
    exact hlife.before_notice
  · intro hnone
    exact hlife.alternates_of_unswept fun hmem => hnone (hlived.swept group hmem)

theorem onlyListens_still (Ω : Type) : (Surroundings.still Ω).OnlyListens :=
  (Surroundings.quiet_still Ω).listener

theorem raced_scripted (t : Registry (List Request)) : Raced t (scripted.beforeReading t).1 := by
  unfold scripted
  dsimp only
  split
  · exact .nothing t
  · rename_i request rest h
    have hserved : Raced t (t.serve (.still _) request) :=
      .request (.nothing t) (fun t => .nothing t) (onlyListens_still _)
    exact .beside _ _ [] rest hserved

/-- A client registers. Someone who is not in the group leaves it before the client is stored, so
the group is founded twice. Then the channel of the client closes. -/
def foundedTwice : Registry (List Request) :=
  (((Registry.new default [0] default false
    [.setClock ⟨1⟩, .leave "g" (Registration.sample "g" 8).client true]).serve
    scripted (.register true (.sample "g" 7))).serve scripted (.channelClosed "there" 7))

/-- The listeners of a group that is founded twice are told of both ends. -/
theorem both_ends_are_told :
    Raced (Registry.new default [0] default false
      [.setClock ⟨1⟩, .leave "g" (Registration.sample "g" 8).client true]) foundedTwice ∧
      .began .sweep ∉ foundedTwice.journal ∧
      turns "g" foundedTwice.journal = [.announced, .ended (.channelClosed 7), .founded,
      .announced, .ended (.leave "g" 8), .founded] ∧
      Alternates false ((turns "g" foundedTwice.journal).filterMap Turn.byEnd) ∧
      Alternates false ((turns "g" foundedTwice.journal).filterMap Turn.byNotice) := by
  have hlistens : scripted.OnlyListens := onlyListens_still (List Request)
  have h : Raced (Registry.new default [0] default false
      [.setClock ⟨1⟩, .leave "g" (Registration.sample "g" 8).client true]) foundedTwice :=
    .request (.request (.nothing _) raced_scripted hlistens) raced_scripted hlistens
  have hunswept : Entry.began .sweep ∉ foundedTwice.journal := by
    intro hmem
    have hbegan : foundedTwice.journal.filter (· = .began .sweep) = [] := by rfl
    exact List.filter_eq_nil_iff.mp hbegan _ hmem (by simp)
  obtain ⟨hends, -, -, hnotices⟩ := groups_are_founded_and_end_by_turns h "g"
  exact ⟨h, hunswept, by rfl, hends, hnotices hunswept⟩

end Registry

end ConsumerGroups
