-- What the listeners are told of a group: the events of it that were sent out. As long as nobody
-- interferes, an operation adds events of the group that it is about and of no other.
import ConsumerGroups.Proofs.Quiet

set_option autoImplicit false

namespace ConsumerGroups

/-! ## What is told of a group -/

/-- The event of an entry that tells of an event of the group being sent out. -/
def Entry.tiding? (group : String) : Entry → Option Event
  | .sent group' event _ => if group' = group then some event else none
  | _ => none

/-- The events of a group that were sent out, oldest first. -/
def tidings (group : String) (journal : List Entry) : List Event :=
  (journal.filterMap (Entry.tiding? group)).reverse

theorem tidings_append (group : String) (es before : List Entry) :
    tidings group (es ++ before) = tidings group before ++ tidings group es := by
  rw [tidings, List.filterMap_append, List.reverse_append, ← tidings, ← tidings]

/-- Entries that tell of no event of a group add nothing. -/
theorem tidings_of_none {group : String} {es : List Entry}
    (h : ∀ e ∈ es, e.tiding? group = none) (before : List Entry) :
    tidings group (es ++ before) = tidings group before := by
  rw [tidings, List.filterMap_append, List.filterMap_eq_nil_iff.mpr h, List.nil_append, ← tidings]

namespace Registry

variable {Ω : Type} {env : Surroundings Ω} {r s t : Registry Ω}

/-- Of one group these events are sent out, and of the others none. -/
def Tells (group : String) (events : List Event) (r s : Registry Ω) : Prop :=
  ∀ group', tidings group' s.journal =
    tidings group' r.journal ++ if group' = group then events else []

namespace Tells

variable {group : String} {es fs : List Event}

theorem trans (h : Tells group es r s) (h' : Tells group fs s t) : Tells group (es ++ fs) r t := by
  intro group'
  rw [h', h, List.append_assoc]
  split
  · rfl
  · rfl

theorem own (h : Tells group es r s) :
    tidings group s.journal = tidings group r.journal ++ es := by
  rw [h, if_pos rfl]

theorem others (h : Tells group es r s) {group' : String} (hn : group' ≠ group) :
    tidings group' s.journal = tidings group' r.journal := by
  rw [h, if_neg hn, List.append_nil]

/-- Entries that tell of no event. -/
theorem nothing (group : String) (entries : List Entry) (hj : s.journal = entries ++ r.journal)
    (hentries : ∀ e ∈ entries, ∀ group', e.tiding? group' = none) : Tells group [] r s := by
  intro group'
  rw [hj, tidings_of_none fun e he => hentries e he group']
  split <;> exact (List.append_nil _).symm

theorem logAll (group : String) (r : Registry Ω) (lines : List LogLine) :
    Tells group [] r (r.logAll lines) := by
  refine nothing group (lines.map .logged).reverse rfl ?_
  intro e he group'
  obtain ⟨line, -, rfl⟩ := List.mem_map.mp (List.mem_reverse.mp he)
  rfl

end Tells

/-- Nothing happens to the groups, but these events of one of them are sent out. -/
structure Sends (group : String) (events : List Event) (r s : Registry Ω) : Prop where
  aside : r.Aside s
  tells : Tells group events r s

namespace Sends

variable {group : String} {es fs : List Event}

/-- Nothing happens to the groups, and no event is sent out. -/
theorem nothing (group : String) (haside : r.Aside s) (entries : List Entry)
    (hj : s.journal = entries ++ r.journal)
    (hentries : ∀ e ∈ entries, ∀ group', e.tiding? group' = none) : Sends group [] r s :=
  ⟨haside, .nothing group entries hj hentries⟩

theorem refl (group : String) (r : Registry Ω) : Sends group [] r r :=
  nothing group (.refl r) [] rfl (by simp)

theorem trans (h : Sends group es r s) (h' : Sends group fs s t) : Sends group (es ++ fs) r t :=
  ⟨h.aside.trans h'.aside, h.tells.trans h'.tells⟩

/-- What comes before and sends nothing does not matter. -/
theorem after (h : Sends group es s t) (h' : Sends group [] r s) : Sends group es r t :=
  h'.trans h

theorem logAll (group : String) (r : Registry Ω) (lines : List LogLine) :
    Sends group [] r (r.logAll lines) :=
  ⟨.logAll r lines, .logAll group r lines⟩

theorem note (group : String) (r : Registry Ω) {e : Entry} (hplain : e.isPlain = true)
    (he : ∀ group', e.tiding? group' = none) : Sends group [] r (r.note e) :=
  nothing group (.note r hplain) [e] rfl (by simpa using he)

theorem beside (group : String) (r : Registry Ω) (clock : Clock) (wires : Table String Wire)
    (lines : List LogLine) (outside : Ω) :
    Sends group [] r (r.beside clock wires lines outside) :=
  ⟨aside_beside r clock wires lines outside, (logAll group r lines).tells⟩

theorem reading (henv : env.Quiet) (group : String) (r : Registry Ω) :
    Sends group [] r (env.beforeReading r).1 := by
  obtain ⟨clock, wires, lines, outside, h⟩ := henv.reading r
  rw [h]
  exact beside group r clock wires lines outside

theorem closeQuietly (group : String) (r : Registry Ω) (c : Channel) :
    Sends group [] r (r.closeQuietly c).1 := by
  have hwire : ∀ w, Sends group [] r (r.setWire c w) := fun w =>
    nothing group ⟨rfl, rfl, rfl, List.prefix_rfl, [], rfl, by simp⟩ [] rfl (by simp)
  unfold Registry.closeQuietly
  split
  · exact (hwire _).trans (logAll group _ _)
  · exact hwire _

theorem callAll (henv : env.Quiet) (group group' : String) (event : Event) (ls : List Nat)
    (r : Registry Ω) : Sends group [] r (r.callAll env group' event ls).1 := by
  induction ls generalizing r with
  | nil => exact refl group r
  | cons l rest ih =>
    have htold := note group r (e := .told l group' event) rfl fun _ => rfl
    obtain ⟨clock, wires, lines, outside, h⟩ :=
      henv.listener l group' event (r.note (.told l group' event))
    unfold Registry.callAll
    dsimp only
    rw [h]
    exact ((htold.trans (beside group _ clock wires lines outside)).trans
      (logAll group _ _)).trans (ih _)

theorem send (henv : env.Quiet) (group : String) (event : Event) (r : Registry Ω) :
    Sends group [event] r (r.send env group event).1 := by
  have hsent : Sends group [event] r (r.note (.sent group event (r.group? group))) := by
    refine ⟨.note r rfl, ?_⟩
    intro group'
    have hentry : ConsumerGroups.tidings group' [.sent group event (r.group? group)] =
        if group' = group then [event] else [] := by
      by_cases hn : group' = group
      · subst hn
        simp [ConsumerGroups.tidings, Entry.tiding?]
      · simp [ConsumerGroups.tidings, Entry.tiding?, hn, Ne.symm hn]
    rw [← hentry, ← tidings_append]
    rfl
  exact hsent.trans (callAll henv group group event r.listeners _)

theorem sendLeft (henv : env.Quiet) (group : String) {i : Nat} {g : Group}
    (hg : r.record? i = some g) (client : Client) :
    Sends group [.clientLeft client g.topics] r (r.sendLeft env group i client) := by
  rw [Registry.sendLeft, hg]
  exact send henv group _ r

theorem sendChanged (henv : env.Quiet) (group : String) {i : Nat} {g : Group}
    (hg : r.record? i = some g) :
    Sends group [.changed (clientsOf env g)] r (r.sendChanged env group i) := by
  rw [Registry.sendChanged, hg]
  exact send henv group _ r

/-- The listeners are told of every client that is discarded. -/
theorem discard (henv : env.Quiet) {now : UInt64} (g : Group) {i n : Nat} {left : Group}
    {cs : List Client} (hleft : r.record? i = some left)
    (hn : (r.discard env now g i cs).2 = .ok n) :
    Sends g.name (cs.map (.clientLeft · left.topics)) r (r.discard env now g i cs).1 := by
  induction cs generalizing r n with
  | nil => exact refl g.name r
  | cons c rest ih =>
    obtain ⟨closed, m, hclosed, hrest, -, hdone⟩ := discard_cons_of_ok hn
    have hbefore : Sends g.name [] r closed := by
      have hquietly := closeQuietly g.name (r.logAll [sweptLine g now c]) c.channel
      rw [hclosed] at hquietly
      exact (logAll g.name r _).trans hquietly
    have htold := (sendLeft henv g.name ((hbefore.aside.record? i).trans hleft) c).after hbefore
    rw [hdone]
    exact htold.trans (ih ((htold.aside.record? i).trans hleft) hrest)

end Sends

end Registry

end ConsumerGroups
