-- How groups are treated when clients leave. What is left of a record, whether it goes off the
-- table and what is told of it follow from the record alone. And where records are treated one
-- after the other, each fares as if it was the only one.
import ConsumerGroups.Proofs.Tidings
import ConsumerGroups.Proofs.View

set_option autoImplicit false

namespace ConsumerGroups

/-! ## How a group is treated -/

/-- What is done with a group that is on the table. -/
structure Treatment where
  /-- what is left of its record -/
  left : Group → Group
  /-- whether its record is taken off the table -/
  ends : Group → Bool
  /-- what the listeners are told -/
  news : Group → List Event

/-- What a group comes to, and what the listeners are told of it. -/
structure Fate where
  group : Option Group
  events : List Event

namespace Treatment

variable {Ω : Type}

/-- What comes of a treatment for a group that has this record on the table, if any. -/
def fate (T : Treatment) : Option Group → Fate
  | none => ⟨none, []⟩
  | some g => ⟨if T.ends g then none else some (T.left g), T.news g⟩

/-- What the listeners are told when a departure is settled and this is left of the record. -/
def settledNews (env : Surroundings Ω) (left : Group) (announce : Bool) : List Event :=
  if left.isEmpty then [.dissolved]
  else if announce then [.changed (Registry.clientsOf env left)] else []

/-- A client leaves a group on request. -/
def leaving (env : Surroundings Ω) (client : Client) (announce : Bool) : Treatment where
  left := fun g => g.without client.channel.id
  ends := fun g => (g.without client.channel.id).isEmpty
  news := fun g =>
    (if (g.clients.find? client.channel.id).isSome then [.clientLeft client g.topics] else []) ++
      settledNews env (g.without client.channel.id) announce

/-- The channel of this number has closed. -/
def closing (env : Surroundings Ω) (id : UInt64) : Treatment where
  left := fun g => g.without id
  ends := fun g => (g.clients.find? id).isSome && (g.without id).isEmpty
  news := fun g =>
    match g.clients.find? id with
    | none => []
    | some stored => .clientLeft stored g.topics :: settledNews env (g.without id) true

/-- The clients of a group that have expired are swept out. -/
def sweeping (env : Surroundings Ω) (now limit : UInt64) : Treatment where
  left := fun g => g.withoutExpired now limit
  ends := fun g => (g.withoutExpired now limit).isEmpty
  news := fun g => (Registry.expiredOf env g now limit).map (.clientLeft · g.topics)

end Treatment

namespace Registry

variable {Ω : Type} {env : Surroundings Ω} {r s t : Registry Ω}

/-! ## One record is treated -/

/-- A record comes to this, perhaps its group is not on the table any more, and of this group these
events are sent out. Nothing happens to other groups. -/
structure Becomes (i : Nat) (name : String) (left : Group) (ends : Bool) (events : List Event)
    (r s : Registry Ω) : Prop where
  record : s.record? i = some left
  records : ∀ j, j ≠ i → s.record? j = r.record? j
  current : s.current? name = if ends then none else some i
  table : ∀ group, group ≠ name → s.current? group = r.current? group
  tells : Tells name events r s

namespace Becomes

variable {i : Nat} {name : String} {left : Group} {ends : Bool} {es fs : List Event}

theorem takeFrom {g : Group} (hi : r.current? name = some i) (hg : r.record? i = some g)
    (left : Group) (gone : List Client) :
    Becomes i name left false [] r (r.takeFrom i left gone) := by
  refine ⟨record?_setRecord_self r hg left, ?_, hi, fun _ _ => rfl, ?_⟩
  · exact fun j hj => record?_setRecord_of_ne r hj left
  · refine .nothing name (gone.map (.removed left.name i)).reverse rfl ?_
    intro e he group
    obtain ⟨c, -, rfl⟩ := List.mem_map.mp (List.mem_reverse.mp he)
    rfl

theorem sends (h : Becomes i name left ends es r s) (h' : Sends name fs s t) :
    Becomes i name left ends (es ++ fs) r t := by
  refine ⟨?_, ?_, ?_, ?_, h.tells.trans h'.tells⟩
  · rw [h'.aside.record?, h.record]
  · intro j hj
    rw [h'.aside.record?, h.records j hj]
  · rw [h'.aside.current?, h.current]
  · intro group hn
    rw [h'.aside.current?, h.table group hn]

/-- It does not matter what came before without anything happening. -/
theorem after (h : Becomes i name left ends es s t) (h' : Sends name [] r s) :
    Becomes i name left ends es r t := by
  refine ⟨h.record, ?_, h.current, ?_, h'.tells.trans h.tells⟩
  · intro j hj
    rw [h.records j hj, h'.aside.record?]
  · intro group hn
    rw [h.table group hn, h'.aside.current?]

/-- A record that is empty by now is taken off the table. -/
theorem removeIfVacant (h : Becomes i name left false es r s) (call : Call) :
    Becomes i name left left.isEmpty es r (s.removeIfVacant name i call).1 ∧
      (s.removeIfVacant name i call).2 = left.isEmpty := by
  have hi : s.current? name = some i := h.current
  rw [removeIfVacant_eq h.record]
  cases hempty : left.isEmpty with
  | true =>
    rw [if_pos ⟨hi, rfl⟩]
    have hgone : Tells name [] s (s.removeRecord name i left call) :=
      .nothing name [.unmapped name i left call] rfl (by simp [Entry.tiding?])
    have htells := h.tells.trans hgone
    rw [List.append_nil] at htells
    refine ⟨⟨h.record, h.records, current?_removeRecord s name i left call, ?_, htells⟩, rfl⟩
    intro group hn
    rw [current?_removeRecord_of_ne s hn, h.table group hn]
  | false =>
    rw [if_neg (by simp)]
    exact ⟨h, rfl⟩

theorem settleDeparture (henv : env.Quiet) (h : Becomes i name left false es r s)
    (announce : Bool) (call : Call) :
    Becomes i name left left.isEmpty (es ++ Treatment.settledNews env left announce) r
      (s.settleDeparture env name i announce call) := by
  obtain ⟨hremoved, hresult⟩ := h.removeIfVacant call
  unfold Registry.settleDeparture Treatment.settledNews
  rcases hdone : s.removeIfVacant name i call with ⟨u, removed⟩
  rw [hdone] at hremoved hresult
  cases hempty : left.isEmpty with
  | true =>
    rw [hempty] at hremoved hresult
    subst hresult
    exact hremoved.sends ((Sends.logAll name u _).trans (Sends.send henv name .dissolved _))
  | false =>
    rw [hempty] at hremoved hresult
    subst hresult
    dsimp only
    have hlive : u.isLive name i = true := by
      rw [isLive, isVacant, hremoved.record, Option.all_some, hempty, isCurrent, hremoved.current]
      simp
    rw [hlive, Bool.and_true]
    cases announce with
    | true => exact hremoved.sends (Sends.sendChanged henv name hremoved.record)
    | false => exact hremoved.sends (Sends.refl name u)

end Becomes

section

variable {group : String} {i : Nat} {g : Group}

/-- Nothing at all happens to a group. -/
theorem becomes_self (hi : r.current? group = some i) (hg : r.record? i = some g) :
    Becomes i group g false [] r r :=
  ⟨hg, fun _ _ => rfl, hi, fun _ _ => rfl, (Sends.refl group r).tells⟩

theorem becomes_leave (henv : env.Quiet) (hi : r.current? group = some i)
    (hg : r.record? i = some g) (client : Client) (announce : Bool) :
    let T := Treatment.leaving env client announce
    Becomes i group (T.left g) (T.ends g) (T.news g) r (r.leave env group client announce) := by
  intro T
  let begun := r.note (.began (.leave group client.channel.id))
  have hbegun : Sends group [] r begun := Sends.note group r rfl fun _ => rfl
  have htaken : Becomes i group (T.left g) false
      (if (g.clients.find? client.channel.id).isSome then [.clientLeft client g.topics] else [])
      begun (begun.takeOut env group i client) := by
    cases hs : g.clients.find? client.channel.id with
    | none =>
      rw [takeOut_of_absent env group (show begun.record? i = some g from hg) hs]
      have hleft : T.left g = g := without_of_absent hs
      rw [hleft]
      exact becomes_self hi hg
    | some stored =>
      rw [takeOut_of_some env group (show begun.record? i = some g from hg) hs]
      have hout := (Becomes.takeFrom (r := begun) hi hg (g.without client.channel.id)
        [stored]).sends (Sends.logAll group _ [g.leftLine stored])
      exact hout.sends (Sends.sendLeft henv group hout.record client)
  rw [leave_of_current env hi]
  have hsettled := ((htaken.settleDeparture henv announce (.leave group client.channel.id)).after
    hbegun).sends (Sends.note group _ (e := .ended) rfl fun _ => rfl)
  rw [List.append_nil] at hsettled
  exact hsettled

theorem becomes_closeIn (henv : env.Quiet) (hi : r.current? g.name = some i)
    (hg : r.record? i = some g) (address : String) (id : UInt64) :
    let T := Treatment.closing env id
    Becomes i g.name (T.left g) (T.ends g) (T.news g) r (r.closeIn env address id i) := by
  intro T
  cases hs : g.clients.find? id with
  | none =>
    have hleft : T.left g = g := without_of_absent hs
    have hends : T.ends g = false := by simp [T, Treatment.closing, hs]
    have hnews : T.news g = [] := by simp [T, Treatment.closing, hs]
    rw [closeIn_of_absent env address hg hs, hleft, hends, hnews]
    exact becomes_self hi hg
  | some stored =>
    have hends : T.ends g = (g.without id).isEmpty := by simp [T, Treatment.closing, hs]
    have hnews : T.news g = [.clientLeft stored g.topics] ++
        Treatment.settledNews env (g.without id) true := by simp [T, Treatment.closing, hs]
    rw [closeIn_of_some env address hg hs, hends, hnews]
    have hout := (Becomes.takeFrom hi hg (g.without id) [stored]).sends
      (Sends.logAll g.name _ [g.closedLine address stored])
    exact (hout.sends (Sends.sendLeft henv g.name hout.record stored)).settleDeparture henv true
      (.channelClosed id)

theorem becomes_sweepRecord (henv : env.Quiet) (hgentle : r.Gentle)
    (hi : r.current? g.name = some i) (hg : r.record? i = some g) (now : UInt64) :
    let T := Treatment.sweeping env now r.settings.expiry
    Becomes i g.name (T.left g) (T.ends g) (T.news g) r (r.sweepRecord env now i).1 := by
  intro T
  let gone := expiredOf env g now r.settings.expiry
  have htaken : Becomes i g.name (T.left g) false [] r (r.takeFrom i (T.left g) gone) :=
    Becomes.takeFrom hi hg (T.left g) gone
  have htold := htaken.sends (Sends.discard henv g htaken.record
    (hgentle.discard_returns hg env now r.settings.expiry (r.takeFrom i (T.left g) gone)))
  obtain ⟨lines, hswept⟩ := hgentle.sweepRecord hg env now
  rw [hswept]
  have hdone := (htold.removeIfVacant .sweep).1.sends (Sends.logAll g.name _ lines)
  rw [List.append_nil] at hdone
  exact hdone

end

/-! ## Records are treated one after the other -/

/-- Some of the records on the table are treated. -/
structure Treats (T : Treatment) (is : List Nat) (r s : Registry Ω) : Prop where
  records : ∀ j, s.record? j = if j ∈ is then (r.record? j).map T.left else r.record? j
  treated : ∀ group i g, i ∈ is → r.current? group = some i → r.record? i = some g →
    s.current? group = (if T.ends g then none else some i) ∧
      tidings group s.journal = tidings group r.journal ++ T.news g
  passed : ∀ group, (∀ i ∈ is, r.current? group ≠ some i) →
    s.current? group = r.current? group ∧ tidings group s.journal = tidings group r.journal

theorem treats_nil (T : Treatment) (r : Registry Ω) : Treats T [] r r := by
  refine ⟨?_, ?_, fun _ _ => ⟨rfl, rfl⟩⟩
  · intro j
    simp
  · intro group i g hi
    cases hi

theorem Becomes.cons {T : Treatment} {i : Nat} {g : Group} {rest : List Nat} (hw : r.WellFormed)
    (hi : r.current? g.name = some i) (hg : r.record? i = some g) (hnot : i ∉ rest)
    (h : Becomes i g.name (T.left g) (T.ends g) (T.news g) r s) (h' : Treats T rest s t) :
    Treats T (i :: rest) r t := by
  refine ⟨?_, ?_, ?_⟩
  · intro j
    rw [h'.records]
    by_cases hji : j = i
    · subst hji
      simp [hnot, h.record, hg]
    · simp [hji, h.records j hji]
  · intro group k g' hk hcurrent hg'
    by_cases hn : group = g.name
    · -- this is the record that came first; the others pass its group by
      subst hn
      rw [hi, Option.some.injEq] at hcurrent
      subst hcurrent
      rw [hg, Option.some.injEq] at hg'
      subst hg'
      obtain ⟨hstays, htidings⟩ := h'.passed g.name (by
        intro k hk
        rw [h.current]
        split
        · simp
        · rintro ⟨⟩
          exact hnot hk)
      exact ⟨hstays.trans h.current, htidings.trans h.tells.own⟩
    · have hki : k ≠ i := by
        rintro rfl
        exact hn (hw.current_unique hcurrent hi)
      have hrest := h'.treated group k g' ((List.mem_cons.mp hk).resolve_left hki)
        ((h.table group hn).trans hcurrent) ((h.records k hki).trans hg')
      rw [h.tells.others hn] at hrest
      exact hrest
  · intro group hpassed
    have hn : group ≠ g.name := by
      rintro rfl
      exact hpassed i List.mem_cons_self hi
    obtain ⟨hcurrent, htidings⟩ := h'.passed group (by
      intro k hk
      rw [h.table group hn]
      exact hpassed k (List.mem_cons_of_mem i hk))
    exact ⟨hcurrent.trans (h.table group hn), htidings.trans (h.tells.others hn)⟩

theorem treats_closeInAll (henv : env.Quiet) (hw : r.WellFormed) (address : String) (id : UInt64)
    {is : List Nat} (his : r.OnTable is) :
    Treats (Treatment.closing env id) is r
      (is.foldl (fun r i => r.closeIn env address id i) r) := by
  induction is generalizing r with
  | nil => exact treats_nil _ r
  | cons i rest ih =>
    obtain ⟨group, hi⟩ := his.2 i List.mem_cons_self
    obtain ⟨g, hg, rfl⟩ := hw.recorded group i hi
    have hsteps : Steps False r (r.closeIn env address id i) :=
      Steps.removing.closeIn henv.steps address id i r
    exact (becomes_closeIn henv hi hg address id).cons hw hi hg (List.nodup_cons.mp his.1).1
      (ih (hsteps.wellFormed hw) (his.tail (thins_closeIn henv.aside address id i r)))

theorem treats_sweepAll (henv : env.Quiet) (hw : r.WellFormed) (hgentle : r.Gentle) (now : UInt64)
    {is : List Nat} (his : r.OnTable is) :
    Treats (Treatment.sweeping env now r.settings.expiry) is r (r.sweepAll env now is).1 := by
  induction is generalizing r with
  | nil => exact treats_nil _ r
  | cons i rest ih =>
    obtain ⟨group, hi⟩ := his.2 i List.mem_cons_self
    obtain ⟨g, hg, rfl⟩ := hw.recorded group i hi
    obtain ⟨n, hn⟩ := sweepRecord_returns hgentle env now i
    have hsteps : Steps True r (r.sweepRecord env now i).1 :=
      Steps.removing.sweepRecord henv.steps now i r
    have hrest := ih (hsteps.wellFormed hw) (hsteps.gentle hgentle)
      (his.tail (thins_sweepRecord henv.aside hgentle now i))
    rw [hsteps.settings] at hrest
    rw [sweepAll, andThen_of_ok hn, fst_andThen_ok]
    exact (becomes_sweepRecord henv hgentle hi hg now).cons hw hi hg (List.nodup_cons.mp his.1).1
      hrest

end Registry

end ConsumerGroups
