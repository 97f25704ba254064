-- What a call tells the listeners itself, of any group and in order, whatever whole calls of others
-- begin and end meanwhile. When listeners ask for nothing, sending an event out utters this event
-- and no other.
import ConsumerGroups.Proofs.Lives
import ConsumerGroups.Proofs.Own

set_option autoImplicit false

namespace ConsumerGroups

/-- The event of an entry that tells of one being sent out, and the group that it is of. -/
def Entry.sent? : Entry → Option (String × Event)
  | .sent group event _ => some (group, event)
  | _ => none

/-- The events that were sent out outside of the calls that begin among these entries, oldest
first. -/
def uttered (es : List Entry) : List (String × Event) := ((own es).filterMap Entry.sent?).reverse

theorem uttered_append {before : List Entry} (h : openCalls before = []) (es : List Entry) :
    uttered (es ++ before) = uttered before ++ uttered es := by
  rw [uttered, own_append h, List.filterMap_append, List.reverse_append, ← uttered, ← uttered]

namespace Registry

variable {Ω : Type} {steady : Prop} {env : Surroundings Ω} {r s t : Registry Ω}

/-- Between two states these events are uttered, and every call that began meanwhile has ended. -/
def Utters (events : List (String × Event)) (r s : Registry Ω) : Prop :=
  ∃ es, s.journal = es ++ r.journal ∧ Balanced es ∧ uttered es = events

namespace Utters

variable {events events' : List (String × Event)}

theorem trans (h : Utters events r s) (h' : Utters events' s t) :
    Utters (events ++ events') r t := by
  obtain ⟨es, hes, hb, hevents⟩ := h
  obtain ⟨fs, hfs, hb', hevents'⟩ := h'
  refine ⟨fs ++ es, by rw [hfs, hes, List.append_assoc], hb'.append hb, ?_⟩
  rw [uttered_append hb.closed, hevents, hevents']

/-- What comes afterwards and utters nothing does not matter. -/
theorem before (h : Utters events r s) (h' : Utters [] s t) : Utters events r t := by
  have hall := h.trans h'
  rwa [List.append_nil] at hall

/-- Entries that mark no call utter what they tell of. -/
theorem of_unmarked (es : List Entry) (hj : s.journal = es ++ r.journal)
    (hes : ∀ e ∈ es, e.isMark = false) : Utters (es.filterMap Entry.sent?).reverse r s :=
  ⟨es, hj, balanced_of_unmarked hes, by rw [uttered, own_of_unmarked hes]⟩

theorem of_journal (hj : s.journal = r.journal) : Utters [] r s :=
  of_unmarked [] hj (by simp)

theorem refl (r : Registry Ω) : Utters [] r r := of_journal rfl

theorem logAll (r : Registry Ω) (lines : List LogLine) : Utters [] r (r.logAll lines) := by
  have hnone : (lines.map Entry.logged).reverse.filterMap Entry.sent? = [] := by
    simp [List.filterMap_eq_nil_iff, Entry.sent?]
  have hlogged := of_unmarked (r := r) (s := r.logAll lines) (lines.map .logged).reverse rfl
    (by simp [Entry.isMark])
  rwa [hnone] at hlogged

theorem beside (r : Registry Ω) (clock : Clock) (wires : Table String Wire)
    (lines : List LogLine) (outside : Ω) : Utters [] r (r.beside clock wires lines outside) :=
  logAll r lines

/-- Whole calls of others utter nothing for the call that they come in between. -/
theorem of_course (h : Course steady none r s) : Utters [] r s := by
  obtain ⟨es, hes, hb, hown⟩ := h.own_entries
  refine ⟨es, hes, hb, ?_⟩
  rw [uttered, List.reverse_eq_nil_iff, List.filterMap_eq_nil_iff]
  intro e he
  rcases hown e he with ⟨line, rfl⟩ | ⟨l, group, event, rfl⟩ <;> rfl

theorem tacit : Tacit (Utters (Ω := Ω) []) where
  refl := refl
  told := fun _ l group event => of_unmarked [.told l group event] rfl (by simp [Entry.isMark])
  beside := beside
  trans := trans

/-- The event that is sent out is uttered, and no other. -/
theorem send (henv : env.OnlyListens) (group : String) (event : Event) (r : Registry Ω) :
    Utters [(group, event)] r (r.send env group event).1 := by
  have hsent : Utters [(group, event)] r (r.note (.sent group event (r.group? group))) :=
    of_unmarked [.sent group event (r.group? group)] rfl (by simp [Entry.isMark])
  exact hsent.before (tacit.callAll henv group event r.listeners _)

theorem sendChanged (henv : env.OnlyListens) (group : String) {i : Nat} {g : Group}
    (hg : r.record? i = some g) :
    Utters [(group, .changed (clientsOf env g))] r (r.sendChanged env group i) := by
  unfold Registry.sendChanged
  rw [hg]
  exact send henv group _ r

end Utters

end Registry

end ConsumerGroups
