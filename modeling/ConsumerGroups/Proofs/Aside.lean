-- What happens aside from the groups. Much of what a registry does is telling others: it reads the
-- clock, writes its log and calls its listeners, and leaves records and table alone. So a relation
-- between states that bears this, and that the surroundings keep to, holds over all of it.
import ConsumerGroups.Registry.Register
import ConsumerGroups.Registry.Sweep

set_option autoImplicit false

namespace ConsumerGroups

/-- Whether an entry of the journal tells nothing of the table and of the clients in records. -/
def Entry.isPlain : Entry → Bool
  | .mapped .. => false
  | .unmapped .. => false
  | .removed .. => false
  | _ => true

/-! ## The journal without the log -/

def Entry.isLogged : Entry → Bool
  | .logged _ => true
  | _ => false

def unlogged (journal : List Entry) : List Entry := journal.filter (fun e => !e.isLogged)

theorem unlogged_append (es before : List Entry) :
    unlogged (es ++ before) = unlogged es ++ unlogged before := List.filter_append _ _

theorem unlogged_lines (lines : List LogLine) (before : List Entry) :
    unlogged ((lines.map .logged).reverse ++ before) = unlogged before := by
  rw [unlogged_append, List.append_left_eq_self, unlogged, List.filter_eq_nil_iff]
  simp [Entry.isLogged]

theorem filterMap_unlogged {α : Type} {f : Entry → Option α} (hf : ∀ line, f (.logged line) = none)
    (journal : List Entry) : (unlogged journal).filterMap f = journal.filterMap f := by
  rw [unlogged, List.filterMap_filter]
  refine congrArg (List.filterMap · journal) (funext fun e => ?_)
  cases e with
  | logged line => exact (hf line).symm
  | _ => rfl

namespace Registry

variable {Ω : Type}

/-- Nothing happened to the groups between two states. -/
structure Aside (r r' : Registry Ω) : Prop where
  records : r'.records = r.records
  table : r'.table = r.table
  settings : r'.settings = r.settings
  listeners : r.listeners <+: r'.listeners
  journal : ∃ entries, r'.journal = entries ++ r.journal ∧ ∀ e ∈ entries, e.isPlain = true

namespace Aside

variable {r s t : Registry Ω}

theorem refl (r : Registry Ω) : Aside r r :=
  ⟨rfl, rfl, rfl, List.prefix_rfl, [], rfl, by simp⟩

theorem trans (h₁ : Aside r s) (h₂ : Aside s t) : Aside r t := by
  obtain ⟨es, hes, hp⟩ := h₁.journal
  obtain ⟨fs, hfs, hq⟩ := h₂.journal
  refine ⟨h₂.records.trans h₁.records, h₂.table.trans h₁.table, h₂.settings.trans h₁.settings,
    h₁.listeners.trans h₂.listeners, fs ++ es, ?_, ?_⟩
  · rw [hfs, hes, List.append_assoc]
  · intro e he
    rcases List.mem_append.mp he with he | he
    · exact hq e he
    · exact hp e he

theorem note (r : Registry Ω) {e : Entry} (he : e.isPlain = true) : Aside r (r.note e) :=
  ⟨rfl, rfl, rfl, List.prefix_rfl, [e], rfl, by simpa using he⟩

theorem logAll (r : Registry Ω) (lines : List LogLine) : Aside r (r.logAll lines) := by
  refine ⟨rfl, rfl, rfl, List.prefix_rfl, (lines.map Entry.logged).reverse, rfl, ?_⟩
  intro e he
  obtain ⟨line, -, rfl⟩ := List.mem_map.mp (List.mem_reverse.mp he)
  rfl

theorem addListener (r : Registry Ω) (l : Nat) : Aside r (r.addListener l) :=
  ⟨rfl, rfl, rfl, List.prefix_append _ _, [], rfl, by simp⟩

theorem setClock (r : Registry Ω) (clock : Clock) : Aside r { r with clock } :=
  ⟨rfl, rfl, rfl, List.prefix_rfl, [], rfl, by simp⟩

/-! ## What lookups see -/

theorem current? (h : Aside r s) (group : String) : s.current? group = r.current? group := by
  rw [Registry.current?, h.table, Registry.current?]

theorem record? (h : Aside r s) (i : Nat) : s.record? i = r.record? i := by
  rw [Registry.record?, h.records, Registry.record?]

theorem group? (h : Aside r s) (group : String) : s.group? group = r.group? group := by
  have hr : s.record? = r.record? := funext h.record?
  rw [Registry.group?, h.current?, hr, Registry.group?]

theorem clientOn? (h : Aside r s) (group : String) (id : UInt64) :
    s.clientOn? group id = r.clientOn? group id := by
  rw [Registry.clientOn?, h.group?, Registry.clientOn?]

end Aside

end Registry

/-! ## Surroundings that keep to a relation -/

/-- Whatever the surroundings do takes a registry from a state to one that is related to it. -/
structure Surroundings.ActBy {Ω : Type} (R : Registry Ω → Registry Ω → Prop)
    (env : Surroundings Ω) : Prop where
  reading : ∀ r, R r (env.beforeReading r).1
  listener : ∀ l group event r, R r (env.listener l group event r).1

theorem Surroundings.ActBy.mono {Ω : Type} {R S : Registry Ω → Registry Ω → Prop}
    {env : Surroundings Ω} (h : env.ActBy R) (hRS : ∀ r r', R r r' → S r r') : env.ActBy S :=
  ⟨fun r => hRS _ _ (h.reading r), fun l group event r => hRS _ _ (h.listener l group event r)⟩

/-- A relation that holds over a while in which the registry leaves its groups and the clock alone,
and over two whiles when it holds over each. -/
structure Tolerant {Ω : Type} (R : Registry Ω → Registry Ω → Prop) : Prop where
  aside : ∀ {r s : Registry Ω}, r.Aside s → s.outside = r.outside → s.clock = r.clock → R r s
  trans : ∀ {r s t : Registry Ω}, R r s → R s t → R r t

theorem Registry.Aside.tolerant {Ω : Type} : Tolerant (Registry.Aside (Ω := Ω)) :=
  ⟨fun h _ _ => h, Registry.Aside.trans⟩

namespace Tolerant

variable {Ω : Type} {R : Registry Ω → Registry Ω → Prop} {env : Surroundings Ω}

theorem refl (hR : Tolerant R) (r : Registry Ω) : R r r := hR.aside (.refl r) rfl rfl

theorem note (hR : Tolerant R) (r : Registry Ω) {e : Entry} (he : e.isPlain = true) :
    R r (r.note e) := hR.aside (.note r he) rfl rfl

theorem logAll (hR : Tolerant R) (r : Registry Ω) (lines : List LogLine) : R r (r.logAll lines) :=
  hR.aside (.logAll r lines) rfl rfl

/-- What comes second may build on what came first. -/
theorem andThen {α β : Type} (hR : Tolerant R) {r : Registry Ω} {done : Registry Ω × Returned α}
    {next : Registry Ω → α → Registry Ω × Returned β} (first : R r done.1)
    (second : ∀ s a, R r s → R s (next s a).1) : R r (ConsumerGroups.andThen done next).1 := by
  refine andThen_induct first ?_
  intro s a h
  exact hR.trans h (second s a h)

theorem readClock (hR : Tolerant R) (henv : env.ActBy R) (r : Registry Ω) :
    R r (r.readClock env).1 :=
  hR.andThen (henv.reading r) fun s _ _ => hR.refl s

theorem closeQuietly (hR : Tolerant R) (r : Registry Ω) (c : Channel) :
    R r (r.closeQuietly c).1 := by
  have hwire : ∀ w, R r (r.setWire c w) := fun w =>
    hR.aside ⟨rfl, rfl, rfl, List.prefix_rfl, [], rfl, by simp⟩ rfl rfl
  unfold Registry.closeQuietly
  split
  · exact hR.trans (hwire _) (hR.logAll _ _)
  · exact hwire _

theorem callAll (hR : Tolerant R) (henv : env.ActBy R) (group : String) (event : Event)
    (ls : List Nat) (r : Registry Ω) : R r (r.callAll env group event ls).1 := by
  induction ls generalizing r with
  | nil => exact hR.refl r
  | cons l rest ih =>
    have htold := hR.note r (e := .told l group event) rfl
    have hheard := henv.listener l group event (r.note (.told l group event))
    exact hR.trans (hR.trans htold hheard) (hR.trans (hR.logAll _ _) (ih _))

theorem send (hR : Tolerant R) (henv : env.ActBy R) (group : String) (event : Event)
    (r : Registry Ω) : R r (r.send env group event).1 :=
  hR.trans (hR.note r rfl) (hR.callAll henv group event r.listeners _)

theorem sendChanged (hR : Tolerant R) (henv : env.ActBy R) (group : String) (i : Nat)
    (r : Registry Ω) : R r (r.sendChanged env group i) := by
  unfold Registry.sendChanged
  split
  · exact hR.send henv group _ r
  · exact hR.refl r

theorem sendLeft (hR : Tolerant R) (henv : env.ActBy R) (group : String) (i : Nat)
    (client : Client) (r : Registry Ω) : R r (r.sendLeft env group i client) := by
  unfold Registry.sendLeft
  split
  · exact hR.send henv group _ r
  · exact hR.refl r

/-- What is done for a departure once the record was looked after. -/
theorem settleDeparture (hR : Tolerant R) (henv : env.ActBy R) (group : String) (i : Nat)
    (announce : Bool) (call : Call) (r : Registry Ω) :
    R (r.removeIfVacant group i call).1 (r.settleDeparture env group i announce call) := by
  unfold Registry.settleDeparture
  split
  · rename_i s h
    rw [h]
    exact hR.trans (hR.logAll s _) (hR.send henv group .dissolved _)
  · rename_i s h
    rw [h]
    split
    · exact hR.sendChanged henv group i s
    · exact hR.refl s

theorem sample (hR : Tolerant R) (henv : env.ActBy R) (start : UInt64) (r : Registry Ω) :
    R r (r.sample env start).1 := by
  unfold Registry.sample
  split
  · exact hR.refl r
  · refine hR.andThen (hR.readClock henv r) ?_
    intro s now _
    exact hR.aside ⟨rfl, rfl, rfl, List.prefix_rfl, [], rfl, by simp⟩ rfl rfl

theorem discard (hR : Tolerant R) (henv : env.ActBy R) (now : UInt64) (g : Group) (i : Nat)
    (cs : List Client) (r : Registry Ω) : R r (r.discard env now g i cs).1 := by
  induction cs generalizing r with
  | nil => exact hR.refl r
  | cons c rest ih =>
    refine hR.andThen (hR.trans (hR.logAll r _) (hR.closeQuietly _ c.channel)) ?_
    intro s _ _
    refine hR.andThen (hR.trans (hR.sendLeft henv g.name i c s) (ih _)) ?_
    exact fun t _ _ => hR.refl t

/-- What is done for a registration that is in its record. -/
theorem proclaim (hR : Tolerant R) (henv : env.ActBy R) (q : Registration) (start : UInt64)
    (i : Nat) (changed : Bool) (r : Registry Ω) : R r (r.proclaim env q start i changed).1 := by
  unfold Registry.proclaim
  refine hR.andThen (hR.trans ?_ (hR.sample henv start _)) ?_
  · split
    · exact hR.sendChanged henv q.group i r
    · exact hR.refl r
  · intro s _ _
    exact hR.send henv q.group _ s

end Tolerant

end ConsumerGroups
