-- The wires that are told to close. Only a sweep tells wires to close: those of the clients that it
-- takes out, once for each of them. So what becomes of the wires can be told from the records, as
-- long as nobody else deals with wires.
import ConsumerGroups.Proofs.Treatment

set_option autoImplicit false

namespace ConsumerGroups

namespace Registry

variable {Ω : Type} {env : Surroundings Ω} {r s t : Registry Ω}

/-- The wires after one of them was told to close. -/
def closeOn (wires : Table String Wire) (c : Channel) : Table String Wire :=
  wires.insert c.key (((wires.find? c.key).getD default).closeQuietly c).1

/-- The wires of these clients are told to close, one after the other, and no others. -/
structure Closes (cs : List Client) (r s : Registry Ω) : Prop where
  wires : s.wires = cs.foldl (fun wires c => closeOn wires c.channel) r.wires
  listeners : s.listeners = r.listeners
  samples : s.samples = r.samples

/-- The wires are left alone. -/
def LeavesWires (r s : Registry Ω) : Prop := s.wires = r.wires

/-- Quiet surroundings that leave the wires alone. -/
theorem closes_of_quiet (henv : env.Quiet) (hwires : env.ActBy LeavesWires) :
    env.ActBy (Closes []) := by
  constructor
  · intro r
    have hsame := hwires.reading r
    obtain ⟨clock, wires, lines, outside, h⟩ := henv.reading r
    rw [h] at hsame ⊢
    exact ⟨hsame, rfl, rfl⟩
  · intro l group event r
    have hsame := hwires.listener l group event r
    obtain ⟨clock, wires, lines, outside, h⟩ := henv.listener l group event r
    rw [h] at hsame ⊢
    exact ⟨hsame, rfl, rfl⟩

namespace Closes

variable {cs ds : List Client}

theorem refl (r : Registry Ω) : Closes [] r r := ⟨rfl, rfl, rfl⟩

theorem trans (h : Closes cs r s) (h' : Closes ds s t) : Closes (cs ++ ds) r t := by
  refine ⟨?_, h'.listeners.trans h.listeners, h'.samples.trans h.samples⟩
  rw [h'.wires, h.wires, List.foldl_append]

/-- What closes nothing may come after. -/
theorem andNone (h : Closes cs r s) (h' : Closes [] s t) : Closes cs r t := by
  have hall := h.trans h'
  rw [List.append_nil] at hall
  exact hall

theorem closeQuietly (r : Registry Ω) (c : Client) :
    Closes [c] r (r.closeQuietly c.channel).1 := by
  have hset : Closes [c] r (r.setWire c.channel ((r.wire c.channel).closeQuietly c.channel).1) :=
    ⟨rfl, rfl, rfl⟩
  unfold Registry.closeQuietly
  split
  · rename_i w line h
    rw [h] at hset
    exact ⟨hset.wires, hset.listeners, hset.samples⟩
  · rename_i w panic h
    rw [h] at hset
    exact hset

theorem callAll (henv : env.ActBy (Closes [])) (group : String) (event : Event) (ls : List Nat)
    (r : Registry Ω) : Closes [] r (r.callAll env group event ls).1 := by
  induction ls generalizing r with
  | nil => exact refl r
  | cons l rest ih =>
    have hheard := henv.listener l group event (r.note (.told l group event))
    have hlogged : Closes [] r ((env.listener l group event
        (r.note (.told l group event))).1.logAll (outcomeLines group event
          (env.listener l group event (r.note (.told l group event))).2)) :=
      ⟨hheard.wires, hheard.listeners, hheard.samples⟩
    exact hlogged.trans (ih _)

theorem send (henv : env.ActBy (Closes [])) (group : String) (event : Event) (r : Registry Ω) :
    Closes [] r (r.send env group event).1 := by
  have hcalled := callAll henv group event r.listeners (r.note (.sent group event (r.group? group)))
  exact ⟨hcalled.wires, hcalled.listeners, hcalled.samples⟩

theorem sendLeft (henv : env.ActBy (Closes [])) (group : String) (i : Nat) (client : Client)
    (r : Registry Ω) : Closes [] r (r.sendLeft env group i client) := by
  unfold Registry.sendLeft
  split
  · exact send henv group _ r
  · exact refl r

theorem sendChanged (henv : env.ActBy (Closes [])) (group : String) (i : Nat) (r : Registry Ω) :
    Closes [] r (r.sendChanged env group i) := by
  unfold Registry.sendChanged
  split
  · exact send henv group _ r
  · exact refl r

theorem removeIfVacant (group : String) (i : Nat) (call : Call) (r : Registry Ω) :
    Closes [] r (r.removeIfVacant group i call).1 := by
  unfold Registry.removeIfVacant
  split
  · exact refl r
  · split
    · exact ⟨rfl, rfl, rfl⟩
    · exact refl r

theorem settleDeparture (henv : env.ActBy (Closes [])) (group : String) (i : Nat) (announce : Bool)
    (call : Call) (r : Registry Ω) :
    Closes [] r (r.settleDeparture env group i announce call) := by
  have hremoved := removeIfVacant group i call r
  unfold Registry.settleDeparture
  split
  · rename_i s h
    rw [h] at hremoved
    have hsent := send henv group .dissolved (s.log .info (dissolvedText group))
    exact hremoved.trans ⟨hsent.wires, hsent.listeners, hsent.samples⟩
  · rename_i s h
    rw [h] at hremoved
    split
    · exact hremoved.trans (sendChanged henv group i s)
    · exact hremoved

/-- A closed channel has no other channel closed. -/
theorem closeIn (henv : env.ActBy (Closes [])) (address : String) (id : UInt64) (i : Nat)
    (r : Registry Ω) : Closes [] r (r.closeIn env address id i) := by
  unfold Registry.closeIn
  split
  · exact refl r
  · rename_i g _
    split
    · exact refl r
    · rename_i stored _
      have htaken : Closes [] r
          ((r.takeFrom i (g.without id) [stored]).logAll [g.closedLine address stored]) :=
        ⟨rfl, rfl, rfl⟩
      exact (htaken.trans (sendLeft henv g.name i stored _)).trans
        (settleDeparture henv g.name i true _ _)

theorem closeInAll (henv : env.ActBy (Closes [])) (address : String) (id : UInt64) (is : List Nat)
    (r : Registry Ω) : Closes [] r (is.foldl (fun r i => r.closeIn env address id i) r) := by
  induction is generalizing r with
  | nil => exact refl r
  | cons i rest ih => exact (closeIn henv address id i r).trans (ih _)

theorem channelClosed (henv : env.ActBy (Closes [])) (address : String) (id : UInt64)
    (r : Registry Ω) : Closes [] r (r.channelClosed env address id).1 := by
  have hclosed := closeInAll henv address id (env.walk.records r.table.values)
    (r.note (.began (.channelClosed id)))
  exact ⟨hclosed.wires, hclosed.listeners, hclosed.samples⟩

/-- Of every client that is discarded the wire is told to close. -/
theorem discard (henv : env.ActBy (Closes [])) {now : UInt64} {g : Group} {i n : Nat}
    (h : (r.discard env now g i cs).2 = .ok n) : Closes cs r (r.discard env now g i cs).1 := by
  induction cs generalizing r n with
  | nil => exact refl r
  | cons c rest ih =>
    obtain ⟨closed, m, hclosed, hrest, -, hdone⟩ := discard_cons_of_ok h
    have hone := closeQuietly (r.logAll [sweptLine g now c]) c
    rw [hclosed] at hone
    have htold : Closes [c] r (closed.sendLeft env g.name i c) :=
      Closes.andNone ⟨hone.wires, hone.listeners, hone.samples⟩ (sendLeft henv g.name i c closed)
    rw [hdone]
    exact htold.trans (ih hrest)

end Closes

/-! ## All that a sweep closes -/

/-- The clients that a sweep takes out of a record. -/
def goneFrom (env : Surroundings Ω) (now : UInt64) (r : Registry Ω) (i : Nat) : List Client :=
  match r.record? i with
  | some g => expiredOf env g now r.settings.expiry
  | none => []

/-- The sweep of a record counts the clients that it takes out. -/
theorem counts_sweepRecord (env : Surroundings Ω) (hgentle : r.Gentle) (now : UInt64) {i : Nat}
    {g : Group} (hg : r.record? i = some g) :
    (r.sweepRecord env now i).2 = .ok (r.goneFrom env now i).length := by
  obtain ⟨lines, hswept⟩ := hgentle.sweepRecord hg env now
  rw [hswept, goneFrom, hg]

/-- A sweep takes the same clients out of the other records when one of them was swept before. -/
theorem goneFrom_of_swept (henv : env.Quiet) (hgentle : r.Gentle) {now : UInt64} {i : Nat}
    {g : Group} {rest : List Nat} (hi : r.current? g.name = some i) (hg : r.record? i = some g)
    (hnot : i ∉ rest) :
    rest.flatMap ((r.sweepRecord env now i).1.goneFrom env now) =
      rest.flatMap (r.goneFrom env now) := by
  have hsteps : Steps True r (r.sweepRecord env now i).1 :=
    Steps.removing.sweepRecord henv.steps now i r
  have hrecords := (becomes_sweepRecord henv hgentle hi hg now).records
  refine List.flatMap_congr ?_
  intro j hj
  have hji : j ≠ i := by
    rintro rfl
    exact hnot hj
  rw [goneFrom, hrecords j hji, hsteps.settings, goneFrom]

/-- A sweep counts the clients that it takes out. -/
theorem counts_sweepAll (henv : env.Quiet) (hw : r.WellFormed) (hgentle : r.Gentle) (now : UInt64)
    {is : List Nat} (his : r.OnTable is) :
    (r.sweepAll env now is).2 = .ok (is.flatMap (r.goneFrom env now)).length := by
  induction is generalizing r with
  | nil => rfl
  | cons i rest ih =>
    obtain ⟨group, hi⟩ := his.2 i List.mem_cons_self
    obtain ⟨g, hg, rfl⟩ := hw.recorded group i hi
    have hsteps : Steps True r (r.sweepRecord env now i).1 :=
      Steps.removing.sweepRecord henv.steps now i r
    have hrest := ih (hsteps.wellFormed hw) (hsteps.gentle hgentle)
      (his.tail (thins_sweepRecord henv.aside hgentle now i))
    rw [goneFrom_of_swept henv hgentle hi hg (List.nodup_cons.mp his.1).1] at hrest
    rw [sweepAll, andThen_of_ok (counts_sweepRecord env hgentle now hg), andThen_of_ok hrest,
      List.flatMap_cons, List.length_append]

theorem closes_sweepRecord (henv : env.ActBy (Closes [])) (hgentle : r.Gentle) (now : UInt64)
    {i : Nat} {g : Group} (hg : r.record? i = some g) :
    Closes (r.goneFrom env now i) r (r.sweepRecord env now i).1 := by
  let gone := expiredOf env g now r.settings.expiry
  have hgone : r.goneFrom env now i = gone := by rw [goneFrom, hg]
  have hdiscarded := Closes.discard henv (hgentle.discard_returns hg env now r.settings.expiry
    (r.takeFrom i (g.withoutExpired now r.settings.expiry) gone))
  obtain ⟨lines, hswept⟩ := hgentle.sweepRecord hg env now
  rw [hswept, hgone]
  have hremoved := hdiscarded.andNone (Closes.removeIfVacant g.name i .sweep _)
  exact ⟨hremoved.wires, hremoved.listeners, hremoved.samples⟩

/-- A sweep tells the wire of every client that it takes out to close. -/
theorem closes_sweepAll (hquiet : env.Quiet) (henv : env.ActBy (Closes [])) (hw : r.WellFormed)
    (hgentle : r.Gentle) (now : UInt64) {is : List Nat} (his : r.OnTable is) :
    Closes (is.flatMap (r.goneFrom env now)) r (r.sweepAll env now is).1 := by
  induction is generalizing r with
  | nil => exact .refl r
  | cons i rest ih =>
    obtain ⟨group, hi⟩ := his.2 i List.mem_cons_self
    obtain ⟨g, hg, rfl⟩ := hw.recorded group i hi
    have hsteps : Steps True r (r.sweepRecord env now i).1 :=
      Steps.removing.sweepRecord hquiet.steps now i r
    have hrest := ih (hsteps.wellFormed hw) (hsteps.gentle hgentle)
      (his.tail (thins_sweepRecord hquiet.aside hgentle now i))
    have hn := counts_sweepRecord env hgentle now hg
    rw [goneFrom_of_swept hquiet hgentle hi hg (List.nodup_cons.mp his.1).1] at hrest
    rw [sweepAll, andThen_of_ok hn, fst_andThen_ok, List.flatMap_cons]
    exact (closes_sweepRecord henv hgentle now hg).trans hrest

end Registry

end ConsumerGroups
