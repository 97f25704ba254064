-- What others may do to a registry. They may do things beside it, and they may ask it for things,
-- one after the other. While it does what it is asked, its surroundings act again whenever it reads
-- the clock or calls a listener; so there are requests within requests, to any depth.
import ConsumerGroups.Proofs.WellFormed

set_option autoImplicit false

namespace ConsumerGroups

namespace Registry

variable {Ω : Type}

/-- A registry after others did things that are not its business: they moved the clock, dealt with
wires, wrote lines of the log, or changed what they keep for themselves. -/
def beside (r : Registry Ω) (clock : Clock) (wires : Table String Wire) (lines : List LogLine)
    (outside : Ω) : Registry Ω :=
  { r.logAll lines with clock, wires, outside }

theorem aside_beside (r : Registry Ω) (clock : Clock) (wires : Table String Wire)
    (lines : List LogLine) (outside : Ω) : r.Aside (r.beside clock wires lines outside) := by
  have h := Aside.logAll r lines
  exact ⟨h.records, h.table, h.settings, h.listeners, h.journal⟩

/-- A registry before and after others dealt with it for a while. `calm` says that no channel panics
when it is told to close, and that every reading of the clock returns. -/
inductive Served (calm : Prop) : Registry Ω → Registry Ω → Prop where
  | nothing (r : Registry Ω) : Served calm r r
  /-- they do something beside the registry -/
  | beside {r s : Registry Ω} (clock : Clock) (wires : Table String Wire) (lines : List LogLine)
      (outside : Ω) (h : Served calm r s) : Served calm r (s.beside clock wires lines outside)
  /-- they ask for something, in surroundings where others deal with the registry in turn -/
  | request {r s : Registry Ω} {env : Surroundings Ω} {request : Request} (h : Served calm r s)
      (reading : ∀ t, Served calm t (env.beforeReading t).1)
      (listener : ∀ l group event t, Served calm t (env.listener l group event t).1)
      (returns : calm → ∀ t, (env.beforeReading t).2 = .ok ())
      (hcalm : calm → request.IsCalm) : Served calm r (s.serve env request)

/-- A state that a registry comes into, also halfway through what it does. -/
def Reachable (r : Registry Ω) : Prop :=
  ∃ settings listeners clock measured outside,
    Steps False (Registry.new settings listeners clock measured outside) r

/-- Whatever others do is done in steps. -/
theorem Served.steps {calm : Prop} {r s : Registry Ω} (h : Served calm r s) : Steps calm r s := by
  induction h with
  | nothing r => exact .refl
  | beside clock wires lines outside _ ih => exact ih.tail (.aside (aside_beside ..))
  | request _ _ _ _ hcalm ih reading listener =>
    exact ih.trans (steps_serve ⟨reading, listener⟩ hcalm _)

theorem Reachable.wellFormed {r : Registry Ω} (h : r.Reachable) : r.WellFormed := by
  obtain ⟨settings, listeners, clock, measured, outside, h⟩ := h
  exact h.wellFormed (wellFormed_new settings listeners clock measured outside)

end Registry

/-! ## Surroundings that leave the registry alone -/

/-- The surroundings ask for nothing: whenever they act, they do something beside the registry. A
listener may still fail or panic. -/
structure Surroundings.Quiet {Ω : Type} (env : Surroundings Ω) : Prop where
  reading : ∀ r, ∃ clock wires lines outside,
    env.beforeReading r = (r.beside clock wires lines outside, .ok ())
  listener : ∀ l group event r, ∃ clock wires lines outside,
    (env.listener l group event r).1 = r.beside clock wires lines outside

namespace Surroundings.Quiet

variable {Ω : Type} {env : Surroundings Ω}

/-- Whatever is true of things done beside the registry is true of quiet surroundings. -/
theorem actBy (h : env.Quiet) {R : Registry Ω → Registry Ω → Prop}
    (hR : ∀ r clock wires lines outside, R r (r.beside clock wires lines outside)) :
    env.ActBy R := by
  constructor
  · intro r
    obtain ⟨clock, wires, lines, outside, h⟩ := h.reading r
    rw [h]
    exact hR r clock wires lines outside
  · intro l group event r
    obtain ⟨clock, wires, lines, outside, h⟩ := h.listener l group event r
    rw [h]
    exact hR r clock wires lines outside

theorem returns (h : env.Quiet) (r : Registry Ω) : (env.beforeReading r).2 = .ok () := by
  obtain ⟨clock, wires, lines, outside, h⟩ := h.reading r
  rw [h]

theorem aside (h : env.Quiet) : env.ActBy Registry.Aside := h.actBy Registry.aside_beside

theorem served (h : env.Quiet) {calm : Prop} : env.ActBy (Registry.Served calm) :=
  h.actBy fun r clock wires lines outside => .beside clock wires lines outside (.nothing r)

theorem steps (h : env.Quiet) {calm : Prop} : env.ActBy (Registry.Steps calm) :=
  h.served.mono fun _ _ h => h.steps

end Surroundings.Quiet

/-- Surroundings that do nothing at all. -/
def Surroundings.still (Ω : Type) : Surroundings Ω where
  beforeReading := fun r => (r, .ok ())
  listener := fun _ _ _ r => (r, .handled)
  interruptions := fun _ => 0
  walk := .ascending

theorem Surroundings.quiet_still (Ω : Type) : (Surroundings.still Ω).Quiet := by
  constructor
  · exact fun r => ⟨r.clock, r.wires, [], r.outside, rfl⟩
  · exact fun _ _ _ r => ⟨r.clock, r.wires, [], r.outside, rfl⟩

/-- A registration to try things on. -/
def Registration.sample (group : String) (id : UInt64) : Registration where
  group := group
  client := .new ⟨toString id, id, localAddress id, .succeeds⟩ "client" .java 1
  policy := ⟨.active, .shared, .lastOffset⟩
  subscriptions := [.ofTags "topic" "*" 1]
  announce := true
  declares := true

end ConsumerGroups
