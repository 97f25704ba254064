-- What a registry keeps to itself. When it tells its listeners of something and they ask for
-- nothing, it holds the same afterwards as before: only what it has noted is different, and what is
-- none of its business.
import ConsumerGroups.Proofs.Lives

set_option autoImplicit false

namespace ConsumerGroups.Registry

variable {Ω : Type} {env : Surroundings Ω} {r s t : Registry Ω}

/-- A registry holds the same as before. -/
structure HoldsSame (r s : Registry Ω) : Prop where
  settings : s.settings = r.settings
  records : s.records = r.records
  table : s.table = r.table
  listeners : s.listeners = r.listeners

/-- A registry holds the same as before, and has taken no sample. -/
structure Rests (r s : Registry Ω) : Prop extends HoldsSame r s where
  samples : s.samples = r.samples

theorem HoldsSame.trans (h : HoldsSame r s) (h' : HoldsSame s t) : HoldsSame r t :=
  ⟨h'.settings.trans h.settings, h'.records.trans h.records, h'.table.trans h.table,
    h'.listeners.trans h.listeners⟩

/-- It is all the same where a record is put. -/
theorem HoldsSame.setRecord (h : HoldsSame r s) (i : Nat) (g : Group) :
    HoldsSame (r.setRecord i g) (s.setRecord i g) := by
  refine ⟨h.settings, ?_, h.table, h.listeners⟩
  rw [Registry.setRecord, Registry.setRecord, h.records]

theorem HoldsSame.record? (h : HoldsSame r s) (i : Nat) : s.record? i = r.record? i := by
  rw [Registry.record?, h.records, Registry.record?]

theorem HoldsSame.current? (h : HoldsSame r s) (group : String) :
    s.current? group = r.current? group := by
  rw [Registry.current?, h.table, Registry.current?]

namespace Rests

theorem refl (r : Registry Ω) : Rests r r := ⟨⟨rfl, rfl, rfl, rfl⟩, rfl⟩

theorem trans (h : Rests r s) (h' : Rests s t) : Rests r t :=
  ⟨h.toHoldsSame.trans h'.toHoldsSame, h'.samples.trans h.samples⟩

theorem note (r : Registry Ω) (e : Entry) : Rests r (r.note e) := ⟨⟨rfl, rfl, rfl, rfl⟩, rfl⟩

theorem logAll (r : Registry Ω) (lines : List LogLine) : Rests r (r.logAll lines) :=
  ⟨⟨rfl, rfl, rfl, rfl⟩, rfl⟩

theorem beside (r : Registry Ω) (clock : Clock) (wires : Table String Wire)
    (lines : List LogLine) (outside : Ω) : Rests r (r.beside clock wires lines outside) :=
  ⟨⟨rfl, rfl, rfl, rfl⟩, rfl⟩

theorem tacit : Tacit (Rests (Ω := Ω)) where
  refl := refl
  told := fun r _ _ _ => note r _
  beside := beside
  trans := trans

theorem send (henv : env.OnlyListens) (group : String) (event : Event) (r : Registry Ω) :
    Rests r (r.send env group event).1 :=
  (note r _).trans (tacit.callAll henv group event r.listeners _)

theorem sendChanged (henv : env.OnlyListens) (group : String) (i : Nat) (r : Registry Ω) :
    Rests r (r.sendChanged env group i) := by
  unfold Registry.sendChanged
  split
  · exact send henv group _ r
  · exact refl r

/-- What quiet surroundings do before a reading of the clock is none of its business. -/
theorem reading (henv : env.Quiet) (r : Registry Ω) : Rests r (env.beforeReading r).1 := by
  obtain ⟨clock, wires, lines, outside, h⟩ := henv.reading r
  rw [h]
  exact beside r clock wires lines outside

end Rests

end ConsumerGroups.Registry
