-- A closed channel is no different from clients who leave. When a channel closes, the client on it
-- leaves every group that it is in, one after the other: the registry comes to the same state as if
-- that client had asked each of these groups to let it go, and of every group the same is told.
import ConsumerGroups.Proofs.Walks

set_option autoImplicit false

namespace ConsumerGroups

namespace Registry

variable {Ω : Type} {env : Surroundings Ω} {r s t : Registry Ω}

/-! ## Whoever is on a channel leaves -/

/-- The client that a record has on a channel, if any, asks to leave the group of the record. -/
def departure? (r : Registry Ω) (id : UInt64) (i : Nat) : Option Request :=
  (r.record? i).bind fun g =>
    (g.clients.find? id).map fun stored => .leave g.name stored true

/-- In every group on the table the client on a channel asks to leave, in the order of the walk. -/
def departures (env : Surroundings Ω) (r : Registry Ω) (id : UInt64) : List Request :=
  (env.walk.records r.table.values).filterMap (r.departure? id)

section

variable {id : UInt64} {i : Nat} {g : Group} {stored : Client}

theorem departure?_of_some (hg : r.record? i = some g) (hs : g.clients.find? id = some stored) :
    r.departure? id i = some (.leave g.name stored true) := by
  rw [departure?, hg, Option.bind_some, hs, Option.map_some]

theorem departure?_of_absent (hg : r.record? i = some g) (hs : g.clients.find? id = none) :
    r.departure? id i = none := by
  rw [departure?, hg, Option.bind_some, hs, Option.map_none]

/-- Who asks to leave a record depends on this record only. -/
theorem departures_congr {is : List Nat} (h : ∀ j ∈ is, s.record? j = r.record? j) :
    is.filterMap (s.departure? id) = is.filterMap (r.departure? id) := by
  refine List.filterMap_congr ?_
  intro j hj
  rw [departure?, h j hj, departure?]

/-- A client that leaves on request is treated like one whose channel has closed. -/
theorem becomes_departed (henv : env.Quiet) (hw : r.WellFormed) (hi : r.current? g.name = some i)
    (hg : r.record? i = some g) (hs : g.clients.find? id = some stored) :
    let T := Treatment.closing env id
    Becomes i g.name (T.left g) (T.ends g) (T.news g) r (r.leave env g.name stored true) := by
  intro T
  have hid : stored.channel.id = id := (hw.keyed i g hg).clients id stored hs
  have hleft := becomes_leave henv hi hg stored true
  have hends : T.ends g = (g.without id).isEmpty := by simp [T, Treatment.closing, hs]
  have hnews : T.news g = [.clientLeft stored g.topics] ++
      Treatment.settledNews env (g.without id) true := by simp [T, Treatment.closing, hs]
  simp only [Treatment.leaving, hid, hs, Option.isSome_some, if_true] at hleft
  rw [hends, hnews]
  exact hleft

end

/-- What is done with one record leaves the others on the table. -/
theorem Becomes.onTable {i : Nat} {name : String} {left : Group} {ends : Bool} {es : List Event}
    {rest : List Nat} (hi : r.current? name = some i) (h : Becomes i name left ends es r s)
    (his : r.OnTable (i :: rest)) : s.OnTable rest := by
  obtain ⟨hnodup, hcurrent⟩ := his
  rw [List.nodup_cons] at hnodup
  refine ⟨hnodup.2, ?_⟩
  intro j hj
  obtain ⟨group, hg⟩ := hcurrent j (List.mem_cons_of_mem i hj)
  have hn : group ≠ name := by
    rintro rfl
    rw [hi, Option.some.injEq] at hg
    exact hnodup.1 (hg ▸ hj)
  exact ⟨group, (h.table group hn).trans hg⟩

/-- When clients leave one after the other, every record is treated as if the channel had closed. -/
theorem treats_departures (henv : env.Quiet) (hw : r.WellFormed) (id : UInt64) {is : List Nat}
    (his : r.OnTable is) :
    Treats (Treatment.closing env id) is r (r.serveAll env (is.filterMap (r.departure? id))) := by
  induction is generalizing r with
  | nil => exact treats_nil _ r
  | cons i rest ih =>
    obtain ⟨group, hi⟩ := his.2 i List.mem_cons_self
    obtain ⟨g, hg, rfl⟩ := hw.recorded group i hi
    have hnot : i ∉ rest := (List.nodup_cons.mp his.1).1
    cases hs : g.clients.find? id with
    | none =>
      have hself : Becomes i g.name ((Treatment.closing env id).left g)
          ((Treatment.closing env id).ends g) ((Treatment.closing env id).news g) r r := by
        have hleft : g.without id = g := without_of_absent hs
        simp only [Treatment.closing, hs, hleft, Option.isSome_none, Bool.false_and]
        exact becomes_self hi hg
      rw [List.filterMap_cons_none (departure?_of_absent hg hs)]
      exact hself.cons hw hi hg hnot (ih hw (hself.onTable hi his))
    | some stored =>
      have hdeparted := becomes_departed henv hw hi hg hs
      have hsteps : Steps False r (r.leave env g.name stored true) :=
        Steps.removing.leave henv.steps g.name stored true r
      -- those who are still to leave ask for the same as before
      have hsame : rest.filterMap ((r.leave env g.name stored true).departure? id) =
          rest.filterMap (r.departure? id) := by
        refine departures_congr ?_
        intro j hj
        refine hdeparted.records j ?_
        rintro rfl
        exact hnot hj
      have hrest := ih (hsteps.wellFormed hw) (hdeparted.onTable hi his)
      rw [hsame] at hrest
      rw [List.filterMap_cons_some (departure?_of_some hg hs)]
      exact hdeparted.cons hw hi hg hnot hrest

/-- Where nothing happens before, it does not count. -/
theorem Treats.after {T : Treatment} {is : List Nat} {name : String} (h : Treats T is s t)
    (h' : Sends name [] r s) : Treats T is r t := by
  have htidings : ∀ group, tidings group s.journal = tidings group r.journal := by
    intro group
    rw [h'.tells, ite_self, List.append_nil]
  refine ⟨?_, ?_, ?_⟩
  · intro j
    rw [h.records, h'.aside.record?]
  · intro group i g hi hcurrent hg
    rw [← htidings]
    exact h.treated group i g hi ((h'.aside.current? group).trans hcurrent)
      ((h'.aside.record? i).trans hg)
  · intro group hpassed
    rw [← htidings, ← h'.aside.current?]
    refine h.passed group ?_
    intro i hi
    rw [h'.aside.current?]
    exact hpassed i hi

/-- Where nothing happens afterwards, it does not count. -/
theorem Treats.before {T : Treatment} {is : List Nat} {name : String} (h : Treats T is r s)
    (h' : Sends name [] s t) : Treats T is r t := by
  have htidings : ∀ group, tidings group t.journal = tidings group s.journal := by
    intro group
    rw [h'.tells, ite_self, List.append_nil]
  refine ⟨?_, ?_, ?_⟩
  · intro j
    rw [h'.aside.record?, h.records]
  · intro group i g hi hcurrent hg
    rw [htidings, h'.aside.current?]
    exact h.treated group i g hi hcurrent hg
  · intro group hpassed
    rw [htidings, h'.aside.current?]
    exact h.passed group hpassed

theorem treats_channelClosed (henv : env.Quiet) (hw : r.WellFormed) (address : String)
    (id : UInt64) :
    Treats (Treatment.closing env id) (env.walk.records r.table.values) r
      (r.channelClosed env address id).1 := by
  have hbegun : Sends "" [] r (r.note (.began (.channelClosed id))) :=
    Sends.note "" r rfl fun _ => rfl
  have hw := hbegun.aside.wellFormed hw
  have hclosed := treats_closeInAll henv hw address id (onTable_walk hw env)
  exact (hclosed.after hbegun).before (Sends.note "" _ (e := .ended) rfl fun _ => rfl)

/-- A group that has nobody on the channel is none of its business. -/
theorem fate_closing_of_absent (env : Surroundings Ω) {id : UInt64} {group : String}
    (h : r.clientOn? group id = none) :
    (Treatment.closing env id).fate (r.group? group) = ⟨r.group? group, []⟩ := by
  cases hg : r.group? group with
  | none => rfl
  | some g =>
    have hs : g.clients.find? id = none := by
      rw [clientOn?, hg, Option.bind_some] at h
      exact h
    have hleft : g.without id = g := without_of_absent hs
    simp [Treatment.fate, Treatment.closing, hs, hleft]

/-! ## What nobody touches -/

/-- Who leaves has no channel closed. -/
theorem Closes.leave (henv : env.ActBy (Closes [])) (group : String) (client : Client)
    (announce : Bool) (r : Registry Ω) : Closes [] r (r.leave env group client announce) := by
  cases hi : r.current? group with
  | none =>
    rw [Registry.leave, hi]
    exact refl r
  | some i =>
    let begun := r.note (.began (.leave group client.channel.id))
    have htaken : Closes [] begun (begun.takeOut env group i client) := by
      unfold takeOut
      split
      · exact refl begun
      · rename_i g _
        split
        · exact refl begun
        · rename_i stored _
          have hout : Closes [] begun ((begun.takeFrom i (g.without client.channel.id)
              [stored]).logAll [g.leftLine stored]) := ⟨rfl, rfl, rfl⟩
          exact hout.trans (sendLeft henv group i client _)
    have hsettled := htaken.trans (settleDeparture henv group i announce
      (.leave group client.channel.id) _)
    rw [leave_of_current env hi]
    exact ⟨hsettled.wires, hsettled.listeners, hsettled.samples⟩

theorem Closes.departures (henv : env.ActBy (Closes [])) (id : UInt64) (is : List Nat)
    (r t : Registry Ω) : Closes [] t (t.serveAll env (is.filterMap (r.departure? id))) := by
  induction is generalizing t with
  | nil => exact refl t
  | cons i rest ih =>
    cases hd : r.departure? id i with
    | none =>
      rw [List.filterMap_cons_none hd]
      exact ih t
    | some request =>
      rw [List.filterMap_cons_some hd]
      obtain ⟨group, client, announce, rfl⟩ : ∃ group client announce,
          request = .leave group client announce := by
        simp only [departure?, Option.bind_eq_some_iff, Option.map_eq_some_iff] at hd
        obtain ⟨g, -, stored, -, rfl⟩ := hd
        exact ⟨_, _, _, rfl⟩
      exact (leave henv group client announce t).trans (ih _)

/-! ## The two are one -/

/-- When a channel closes, the registry comes to the same records and the same table as if the
client on it had left one group after the other, each time with an announcement, and nothing comes
back but `false`. Of every group the same events are sent out in the same order. Groups without a
client on the channel stay as they are, and nothing is told of them. Wires, listeners and samples
are the same as well, as long as nobody else deals with wires. -/
theorem closing_a_channel_is_leaving_everywhere (hr : r.Reachable) (henv : env.Quiet)
    (address : String) (id : UInt64) :
    let closed := r.channelClosed env address id
    let left := r.serveAll env (r.departures env id)
    closed.2 = false ∧
    (closed.1.records = left.records ∧ closed.1.table = left.table ∧
      closed.1.settings = left.settings ∧ (env.ActBy LeavesWires → SameState left closed.1)) ∧
    (∀ group, ∃ events,
      tidings group closed.1.journal = tidings group r.journal ++ events ∧
      tidings group left.journal = tidings group r.journal ++ events) ∧
    ∀ group, r.clientOn? group id = none →
      closed.1.group? group = r.group? group ∧
      tidings group closed.1.journal = tidings group r.journal := by
  intro closed left
  have hw := hr.wellFormed
  have hclosed : Treats (Treatment.closing env id) (env.walk.records r.table.values) r closed.1 :=
    treats_channelClosed henv hw address id
  have hleft : Treats (Treatment.closing env id) (env.walk.records r.table.values) r left :=
    treats_departures henv hw id (onTable_walk hw env)
  obtain ⟨hrecords, htable⟩ := hleft.perm hw hclosed rfl rfl (.refl _)
  have hsettings : closed.1.settings = left.settings := by
    have hsteps : Steps False r closed.1 :=
      Steps.removing.channelClosed henv.steps address id r
    have hsteps' : Steps False r left := steps_serveAll henv.steps (fun h => h.elim) r
    exact hsteps.settings.trans hsteps'.settings.symm
  refine ⟨rfl, ⟨hrecords, htable, hsettings, ?_⟩, ?_, ?_⟩
  · intro hwires
    have hcloses := closes_of_quiet henv hwires
    have hdone : Closes [] r closed.1 := Closes.channelClosed hcloses address id r
    have hgone : Closes [] r left := Closes.departures hcloses id _ r r
    exact ⟨hrecords, htable, hsettings, hdone.listeners.trans hgone.listeners.symm,
      hdone.samples.trans hgone.samples.symm, hdone.wires.trans hgone.wires.symm⟩
  · intro group
    exact ⟨_, (hclosed.fares hw group).events, (hleft.fares hw group).events⟩
  · intro group habsent
    have hfares := hclosed.fares hw group
    rw [fate_closing_of_absent env habsent] at hfares
    exact ⟨hfares.comes, hfares.events.trans (List.append_nil _)⟩

/-- A channel is shared by a group that has another client and one that has not, and a third group
has nobody on it. -/
def onSharedChannel : Registry Unit :=
  (Registry.new default [0] default false ()).serveAll (.still Unit)
    [.register true (.sample "g" 7), .register true (.sample "h" 7), .register true (.sample "g" 8),
      .register true (.sample "i" 8)]

/-- The one group lives on without its client, the other one ends, and the third hears nothing. -/
theorem a_shared_channel_closes_as_if_its_clients_left :
    onSharedChannel.Reachable ∧ (Surroundings.still Unit).Quiet ∧
    let env := Surroundings.still Unit
    let closed := onSharedChannel.channelClosed env "127.0.0.1:10007" 7
    let left := onSharedChannel.serveAll env
      [.leave "g" (Registration.sample "g" 7).client true,
        .leave "h" (Registration.sample "h" 7).client true]
    closed.1.records = left.records ∧ closed.1.table = left.table ∧
      closed.1.groupNames = ["g", "i"] ∧
      tidings "i" closed.1.journal = tidings "i" onSharedChannel.journal ∧
      ∃ events, tidings "h" closed.1.journal = tidings "h" onSharedChannel.journal ++ events ∧
        tidings "h" left.journal = tidings "h" onSharedChannel.journal ++ events := by
  have hquiet := Surroundings.quiet_still Unit
  have hreachable : onSharedChannel.Reachable :=
    ⟨default, [0], default, false, (), steps_serveAll hquiet.steps (fun hc => hc.elim) _⟩
  have habsent : onSharedChannel.clientOn? "i" 7 = none := by rfl
  obtain ⟨-, ⟨hrecords, htable, -, -⟩, hevents, hothers⟩ :=
    closing_a_channel_is_leaving_everywhere hreachable hquiet "127.0.0.1:10007" 7
  exact ⟨hreachable, hquiet, hrecords, htable, by rfl, (hothers "i" habsent).2, hevents "h"⟩

end Registry

end ConsumerGroups
