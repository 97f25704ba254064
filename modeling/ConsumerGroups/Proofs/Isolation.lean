-- Listeners that fail do not interfere. Two registries are asked for the same things, and around
-- them the same happens, but what their listeners make of an event may differ at any time: one
-- handles it, the other fails or panics. All the same both give the same answers, come to the same
-- states, and tell every listener the same.
import ConsumerGroups.Proofs.Settling

set_option autoImplicit false

namespace ConsumerGroups

namespace Registry

variable {Ω : Type}

/-! ## The same registry twice -/

/-- Two registries are the same but for their logs. What the surroundings keep agrees. -/
structure Same (agree : Ω → Ω → Prop) (r r' : Registry Ω) : Prop where
  settings : r'.settings = r.settings
  records : r'.records = r.records
  table : r'.table = r.table
  listeners : r'.listeners = r.listeners
  clock : r'.clock = r.clock
  samples : r'.samples = r.samples
  wires : r'.wires = r.wires
  journal : unlogged r'.journal = unlogged r.journal
  outside : agree r.outside r'.outside

/-- Two registries are the same after something was done, and the same came back. -/
structure SameDone {α : Type} (agree : Ω → Ω → Prop) (done done' : Registry Ω × α) : Prop where
  state : Same agree done.1 done'.1
  result : done'.2 = done.2

end Registry

namespace Surroundings

variable {Ω : Type}

/-- The listeners ask for nothing, and what they do beside the same registry is the same. But an
event that is taken well in the one may be taken badly in the other. -/
structure ListenAlike (agree : Ω → Ω → Prop) (env env' : Surroundings Ω) : Prop where
  listener : ∀ l group event r r', Registry.Same agree r r' →
    ∃ clock wires lines lines' outside outside', agree outside outside' ∧
      (env.listener l group event r).1 = r.beside clock wires lines outside ∧
      (env'.listener l group event r').1 = r'.beside clock wires lines' outside'
  interruptions : ∀ o o', agree o o' → env'.interruptions o' = env.interruptions o
  walk : env'.walk = env.walk

/-- Surroundings that make the same of the same registry, whatever their listeners return. -/
structure Match (agree : Ω → Ω → Prop) (env env' : Surroundings Ω) : Prop where
  reading : ∀ r r', Registry.Same agree r r' →
    Registry.SameDone agree (env.beforeReading r) (env'.beforeReading r')
  listener : ∀ l group event r r', Registry.Same agree r r' →
    Registry.Same agree (env.listener l group event r).1 (env'.listener l group event r').1
  interruptions : ∀ o o', agree o o' → env'.interruptions o' = env.interruptions o
  walk : env'.walk = env.walk

end Surroundings

namespace Registry

variable {Ω : Type} {agree : Ω → Ω → Prop} {env env' : Surroundings Ω} {r r' s s' : Registry Ω}

namespace Same

theorem note (h : Same agree r r') (e : Entry) : Same agree (r.note e) (r'.note e) := by
  refine { h with journal := ?_ }
  change unlogged ([e] ++ r'.journal) = unlogged ([e] ++ r.journal)
  rw [unlogged_append, unlogged_append, h.journal]

theorem logAll (h : Same agree r r') (lines lines' : List LogLine) :
    Same agree (r.logAll lines) (r'.logAll lines') := by
  refine { h with journal := ?_ }
  rw [Registry.logAll, Registry.logAll, unlogged_lines, unlogged_lines, h.journal]

theorem beside (h : Same agree r r') (clock : Clock) (wires : Table String Wire)
    (lines lines' : List LogLine) {outside outside' : Ω} (houtside : agree outside outside') :
    Same agree (r.beside clock wires lines outside) (r'.beside clock wires lines' outside') := by
  have hlogged := h.logAll lines lines'
  exact { hlogged with clock := rfl, wires := rfl, outside := houtside }

theorem setRecord (h : Same agree r r') (i : Nat) (g : Group) :
    Same agree (r.setRecord i g) (r'.setRecord i g) :=
  { h with records := by rw [Registry.setRecord, Registry.setRecord, h.records] }

theorem addRecord (h : Same agree r r') (g : Group) :
    Same agree (r.addRecord g) (r'.addRecord g) := by
  have hnoted := h.note (.mapped g.name r.records.length)
  have hlength : r'.records.length = r.records.length := by rw [h.records]
  refine { hnoted with records := ?_, table := ?_, journal := ?_ }
  · simp only [Registry.addRecord, h.records]
  · simp only [Registry.addRecord, h.table, hlength]
  · simp only [Registry.addRecord, hlength]
    exact hnoted.journal

theorem removeRecord (h : Same agree r r') (group : String) (i : Nat) (last : Group)
    (call : Call) : Same agree (r.removeRecord group i last call)
      (r'.removeRecord group i last call) := by
  have hnoted := h.note (.unmapped group i last call)
  exact { hnoted with table := by simp only [Registry.removeRecord, h.table] }

theorem takeFrom (h : Same agree r r') (i : Nat) (left : Group) (gone : List Client) :
    Same agree (r.takeFrom i left gone) (r'.takeFrom i left gone) := by
  refine { h.setRecord i left with journal := ?_ }
  simp only [Registry.takeFrom, unlogged_append, h.journal]

theorem setWire (h : Same agree r r') (c : Channel) (w : Wire) :
    Same agree (r.setWire c w) (r'.setWire c w) :=
  { h with wires := by rw [Registry.setWire, Registry.setWire, h.wires] }

/-! ## Lookups -/

theorem record? (h : Same agree r r') (i : Nat) : r'.record? i = r.record? i := by
  rw [Registry.record?, h.records, Registry.record?]

theorem current? (h : Same agree r r') (group : String) : r'.current? group = r.current? group := by
  rw [Registry.current?, h.table, Registry.current?]

theorem group? (h : Same agree r r') (group : String) : r'.group? group = r.group? group := by
  have hrecords : r'.record? = r.record? := funext h.record?
  rw [Registry.group?, h.current?, hrecords, Registry.group?]

theorem isCurrent (h : Same agree r r') (group : String) (i : Nat) :
    r'.isCurrent group i = r.isCurrent group i := by
  rw [Registry.isCurrent, h.current?, Registry.isCurrent]

theorem isLive (h : Same agree r r') (group : String) (i : Nat) :
    r'.isLive group i = r.isLive group i := by
  rw [Registry.isLive, Registry.isVacant, h.record?, h.isCurrent, Registry.isLive,
    Registry.isVacant]

theorem wire (h : Same agree r r') (c : Channel) : r'.wire c = r.wire c := by
  rw [Registry.wire, h.wires, Registry.wire]

end Same

theorem SameDone.parts {α : Type} {done done' : Registry Ω × α} (h : SameDone agree done done') :
    ∃ s s' a, Same agree s s' ∧ done = (s, a) ∧ done' = (s', a) :=
  ⟨done.1, done'.1, done.2, h.state, rfl, Prod.ext rfl h.result⟩

theorem SameDone.andThen {α β : Type} {done done' : Registry Ω × Returned α}
    {next next' : Registry Ω → α → Registry Ω × Returned β} (first : SameDone agree done done')
    (second : ∀ s s' a, Same agree s s' → SameDone agree (next s a) (next' s' a)) :
    SameDone agree (ConsumerGroups.andThen done next) (ConsumerGroups.andThen done' next') := by
  obtain ⟨s, s', result, hs, rfl, rfl⟩ := first.parts
  cases result with
  | error panic => exact ⟨hs, rfl⟩
  | ok a => exact second s s' a hs

/-! ## Readings and events -/

section

variable (henv : Surroundings.Match agree env env') (h : Same agree r r')

include henv h

theorem same_readClock : SameDone agree (r.readClock env) (r'.readClock env') := by
  refine (henv.reading r r' h).andThen ?_
  exact fun s s' _ hs => ⟨hs, by rw [hs.clock]⟩

theorem same_callAll (group : String) (event : Event) (ls : List Nat) :
    Same agree (r.callAll env group event ls).1 (r'.callAll env' group event ls).1 := by
  induction ls generalizing r r' with
  | nil => exact h
  | cons l rest ih =>
    have htold := h.note (.told l group event)
    have hheard := henv.listener l group event _ _ htold
    exact ih (hheard.logAll
      (outcomeLines group event (env.listener l group event (r.note (.told l group event))).2)
      (outcomeLines group event (env'.listener l group event (r'.note (.told l group event))).2))

theorem same_send (group : String) (event : Event) :
    Same agree (r.send env group event).1 (r'.send env' group event).1 := by
  have hsent := h.note (.sent group event (r.group? group))
  rw [send, send, h.listeners, h.group?]
  exact same_callAll henv hsent group event r.listeners

omit h in
theorem same_clientsOf (g : Group) : clientsOf env' g = clientsOf env g := by
  rw [clientsOf, henv.walk, clientsOf]

theorem same_sendChanged (group : String) (i : Nat) :
    Same agree (r.sendChanged env group i) (r'.sendChanged env' group i) := by
  unfold sendChanged
  rw [h.record?]
  cases r.record? i with
  | none => exact h
  | some g =>
    dsimp only
    rw [same_clientsOf henv]
    exact same_send henv h group _

theorem same_sendLeft (group : String) (i : Nat) (client : Client) :
    Same agree (r.sendLeft env group i client) (r'.sendLeft env' group i client) := by
  unfold sendLeft
  rw [h.record?]
  cases r.record? i with
  | none => exact h
  | some g => exact same_send henv h group _

end

/-! ## Registrations -/

theorem same_update (h : Same agree r r') (q : Registration) (i : Nat) (now : UInt64) :
    SameDone agree (r.update q i now) (r'.update q i now) := by
  unfold update
  rw [h.record?]
  cases r.record? i with
  | none => exact ⟨h, rfl⟩
  | some g => exact ⟨(h.setRecord i _).logAll _ _, rfl⟩

section

variable (henv : Surroundings.Match agree env env') (q : Registration)

include henv

theorem same_findOrFound (h : Same agree r r') :
    SameDone agree (r.findOrFound env q) (r'.findOrFound env' q) := by
  unfold findOrFound
  rw [h.current?]
  cases r.current? q.group with
  | some i => exact ⟨h, rfl⟩
  | none =>
    have hsent := same_send henv h q.group (.clientJoined q.client q.topics)
    dsimp only
    -- a listener may have founded the group, then it has in both
    rw [hsent.current?]
    cases (r.send env q.group (.clientJoined q.client q.topics)).1.current? q.group with
    | some i => exact ⟨hsent, rfl⟩
    | none => exact ⟨hsent.addRecord _, congrArg List.length hsent.records⟩

theorem same_attempt (h : Same agree r r') :
    SameDone agree (r.attempt env q) (r'.attempt env' q) := by
  obtain ⟨hfound, htarget⟩ := same_findOrFound henv q h
  unfold attempt
  dsimp only
  rw [htarget]
  refine (same_readClock henv hfound).andThen ?_
  intro s s' now hs
  obtain ⟨hupdated, hchanged⟩ := same_update hs q (r.findOrFound env q).2 now
  exact ⟨hupdated, by rw [hchanged]⟩

theorem same_settle (spare : Nat) (h : Same agree r r') :
    SameDone agree (r.settle env q spare) (r'.settle env' q spare) := by
  induction spare generalizing r r' with
  | zero => exact same_attempt henv q h
  | succ spare ih =>
    refine (same_attempt henv q h).andThen ?_
    intro s s' result hs
    dsimp only
    -- the record is still on the table in both or in neither, so both try again or none does
    rw [hs.isCurrent]
    split
    · exact ⟨hs, rfl⟩
    · exact ih (hs.logAll _ _)

theorem same_place (h : Same agree r r') :
    SameDone agree (r.place env q) (r'.place env' q) := by
  refine (same_readClock henv h).andThen ?_
  intro s s' start hs
  rw [henv.interruptions _ _ hs.outside]
  refine (same_settle henv q _ hs).andThen ?_
  exact fun t t' _ ht => ⟨ht, rfl⟩

omit q in
theorem same_sample (start : UInt64) (h : Same agree r r') :
    SameDone agree (r.sample env start) (r'.sample env' start) := by
  unfold sample
  rw [h.samples]
  cases r.samples with
  | none => exact ⟨h, rfl⟩
  | some _ =>
    refine (same_readClock henv h).andThen ?_
    exact fun s s' now hs => ⟨{ hs with samples := by rw [hs.samples] }, rfl⟩

theorem same_proclaim (start : UInt64) (i : Nat) (changed : Bool) (h : Same agree r r') :
    SameDone agree (r.proclaim env q start i changed) (r'.proclaim env' q start i changed) := by
  have hchanged : Same agree
      (if changed && q.announce then r.sendChanged env q.group i else r)
      (if changed && q.announce then r'.sendChanged env' q.group i else r') := by
    split
    · exact same_sendChanged henv h q.group i
    · exact h
  refine (same_sample henv start hchanged).andThen ?_
  exact fun s s' _ hs => ⟨same_send henv hs q.group _, rfl⟩

theorem same_registerChecked (h : Same agree r r') :
    SameDone agree (r.registerChecked env q) (r'.registerChecked env' q) := by
  refine (same_place henv q h).andThen ?_
  exact fun s s' result hs => same_proclaim henv q _ _ _ hs

theorem same_tryRegister (h : Same agree r r') :
    SameDone agree (r.tryRegister env q) (r'.tryRegister env' q) := by
  unfold tryRegister
  split
  · exact ⟨h, rfl⟩
  · obtain ⟨hchecked, hresult⟩ := same_registerChecked henv q
      (h.note (.began (.register q.group q.client.channel.id)))
    exact ⟨hchecked.note .ended, congrArg (Except.map Except.ok) hresult⟩

theorem same_register (h : Same agree r r') :
    SameDone agree (r.register env q) (r'.register env' q) := by
  refine (same_tryRegister henv q h).andThen ?_
  intro s s' result hs
  cases result with
  | ok changed => exact ⟨hs, rfl⟩
  | error j => exact ⟨hs.logAll _ _, rfl⟩

end

/-! ## Departures -/

theorem same_removeIfVacant (h : Same agree r r') (group : String) (i : Nat) (call : Call) :
    SameDone agree (r.removeIfVacant group i call) (r'.removeIfVacant group i call) := by
  unfold removeIfVacant
  rw [h.record?, h.isCurrent]
  cases r.record? i with
  | none => exact ⟨h, rfl⟩
  | some g =>
    dsimp only
    split
    · exact ⟨h.removeRecord group i g call, rfl⟩
    · exact ⟨h, rfl⟩

section

variable (henv : Surroundings.Match agree env env')

include henv

theorem same_settleDeparture (group : String) (i : Nat) (announce : Bool) (call : Call)
    (h : Same agree r r') : Same agree (r.settleDeparture env group i announce call)
      (r'.settleDeparture env' group i announce call) := by
  obtain ⟨s, s', removed, hs, hdone, hdone'⟩ := (same_removeIfVacant h group i call).parts
  unfold settleDeparture
  rw [hdone, hdone']
  cases removed with
  | true => exact same_send henv (hs.logAll _ _) group .dissolved
  | false =>
    dsimp only
    rw [hs.isLive]
    split
    · exact same_sendChanged henv hs group i
    · exact hs

theorem same_takeOut (group : String) (i : Nat) (client : Client) (h : Same agree r r') :
    Same agree (r.takeOut env group i client) (r'.takeOut env' group i client) := by
  unfold takeOut
  rw [h.record?]
  cases r.record? i with
  | none => exact h
  | some g =>
    dsimp only
    split
    · exact h
    · exact same_sendLeft henv ((h.takeFrom i _ _).logAll _ _) group i client

theorem same_leave (group : String) (client : Client) (announce : Bool) (h : Same agree r r') :
    Same agree (r.leave env group client announce) (r'.leave env' group client announce) := by
  unfold leave
  rw [h.current?]
  cases r.current? group with
  | none => exact h
  | some i =>
    have htaken := same_takeOut henv group i client
      (h.note (.began (.leave group client.channel.id)))
    exact (same_settleDeparture henv group i announce _ htaken).note .ended

theorem same_closeIn (address : String) (id : UInt64) (i : Nat) (h : Same agree r r') :
    Same agree (r.closeIn env address id i) (r'.closeIn env' address id i) := by
  unfold closeIn
  rw [h.record?]
  cases r.record? i with
  | none => exact h
  | some g =>
    dsimp only
    split
    · exact h
    · rename_i stored _
      have htaken := (h.takeFrom i (g.without id) [stored]).logAll
        [g.closedLine address stored] [g.closedLine address stored]
      exact same_settleDeparture henv g.name i true _ (same_sendLeft henv htaken g.name i stored)

theorem same_closeInAll (address : String) (id : UInt64) (is : List Nat) (h : Same agree r r') :
    Same agree (is.foldl (fun r i => r.closeIn env address id i) r)
      (is.foldl (fun r i => r.closeIn env' address id i) r') := by
  induction is generalizing r r' with
  | nil => exact h
  | cons i rest ih => exact ih (same_closeIn henv address id i h)

theorem same_channelClosed (address : String) (id : UInt64) (h : Same agree r r') :
    SameDone agree (r.channelClosed env address id) (r'.channelClosed env' address id) := by
  have hclosed := same_closeInAll henv address id (env.walk.records r.table.values)
    (h.note (.began (.channelClosed id)))
  unfold channelClosed
  dsimp only
  rw [henv.walk, h.table]
  exact ⟨hclosed.note .ended, rfl⟩

/-! ## Sweeps -/

omit henv in
theorem same_closeQuietly (c : Channel) (h : Same agree r r') :
    SameDone agree (r.closeQuietly c) (r'.closeQuietly c) := by
  unfold closeQuietly
  rw [h.wire]
  split
  · exact ⟨(h.setWire c _).logAll _ _, rfl⟩
  · exact ⟨h.setWire c _, rfl⟩

theorem same_discard (now : UInt64) (g : Group) (i : Nat) (cs : List Client)
    (h : Same agree r r') :
    SameDone agree (r.discard env now g i cs) (r'.discard env' now g i cs) := by
  induction cs generalizing r r' with
  | nil => exact ⟨h, rfl⟩
  | cons c rest ih =>
    refine (same_closeQuietly c.channel (h.logAll _ _)).andThen ?_
    intro s s' _ hs
    refine (ih (same_sendLeft henv hs g.name i c)).andThen ?_
    exact fun t t' n ht => ⟨ht, rfl⟩

theorem same_sweepRecord (now : UInt64) (i : Nat) (h : Same agree r r') :
    SameDone agree (r.sweepRecord env now i) (r'.sweepRecord env' now i) := by
  have hrecord := h.record? i
  cases hg : r.record? i with
  | none =>
    rw [sweepRecord_of_missing hg, sweepRecord_of_missing (hrecord.trans hg)]
    exact ⟨h, rfl⟩
  | some g =>
    have hexpired : expiredOf env' g now r'.settings.expiry =
        expiredOf env g now r.settings.expiry := by
      rw [expiredOf, same_clientsOf henv, h.settings, expiredOf]
    rw [sweepRecord_of_some hg, sweepRecord_of_some (hrecord.trans hg), hexpired, h.settings]
    refine (same_discard henv now g i _ (h.takeFrom i _ _)).andThen ?_
    exact fun s s' n hs => ⟨(same_removeIfVacant hs g.name i .sweep).state.logAll _ _, rfl⟩

theorem same_sweepAll (now : UInt64) (is : List Nat) (h : Same agree r r') :
    SameDone agree (r.sweepAll env now is) (r'.sweepAll env' now is) := by
  induction is generalizing r r' with
  | nil => exact ⟨h, rfl⟩
  | cons i rest ih =>
    refine (same_sweepRecord henv now i h).andThen ?_
    intro s s' n hs
    refine (ih hs).andThen ?_
    exact fun t t' m ht => ⟨ht, rfl⟩

theorem same_sweep (h : Same agree r r') :
    SameDone agree (r.sweep env) (r'.sweep env') := by
  have hswept : SameDone agree
      (ConsumerGroups.andThen ((r.note (.began .sweep)).readClock env) fun r now =>
        r.sweepAll env now (env.walk.records r.table.values))
      (ConsumerGroups.andThen ((r'.note (.began .sweep)).readClock env') fun r now =>
        r.sweepAll env' now (env'.walk.records r.table.values)) := by
    refine (same_readClock henv (h.note (.began .sweep))).andThen ?_
    intro s s' now hs
    rw [henv.walk, hs.table]
    exact same_sweepAll henv now _ hs
  exact ⟨hswept.state.note .ended, hswept.result⟩

/-! ## Requests -/

theorem same_serve (request : Request) (h : Same agree r r') :
    SameDone agree (r.serve env request, r.reply env request)
      (r'.serve env' request, r'.reply env' request) := by
  cases request with
  | register strict q =>
    cases strict with
    | true =>
      obtain ⟨hs, hresult⟩ := same_tryRegister henv q h
      exact ⟨hs, congrArg Reply.tried hresult⟩
    | false =>
      obtain ⟨hs, hresult⟩ := same_register henv q h
      exact ⟨hs, congrArg Reply.registered hresult⟩
  | leave group client announce => exact ⟨same_leave henv group client announce h, rfl⟩
  | channelClosed address id =>
    obtain ⟨hs, hresult⟩ := same_channelClosed henv address id h
    exact ⟨hs, congrArg Reply.closed hresult⟩
  | sweep =>
    obtain ⟨hs, hresult⟩ := same_sweep henv h
    exact ⟨hs, congrArg Reply.swept hresult⟩
  | addListener l => exact ⟨{ h with listeners := congrArg (· ++ [l]) h.listeners }, rfl⟩
  | setClock clock => exact ⟨{ h with clock := rfl }, rfl⟩

end

/-! ## Whole runs -/

theorem match_of_listenAlike (h : env.ListenAlike agree env')
    (reading : ∀ t t', Same agree t t' →
      SameDone agree (env.beforeReading t) (env'.beforeReading t')) : env.Match agree env' := by
  refine ⟨reading, ?_, h.interruptions, h.walk⟩
  intro l group event r r' hr
  obtain ⟨clock, wires, lines, lines', outside, outside', houtside, hheard, hheard'⟩ :=
    h.listener l group event r r' hr
  rw [hheard, hheard']
  exact hr.beside clock wires lines lines' houtside

/-- Two registries, before and after others dealt with them for a while in the same way, and what
came back in the end. `agree` says what is the same in that which the others keep for themselves. -/
inductive Twins (agree : Ω → Ω → Prop) :
    Registry Ω → Registry Ω → Registry Ω × Returned Unit → Registry Ω × Returned Unit → Prop where
  | nothing (r r' : Registry Ω) : Twins agree r r' (r, .ok ()) (r', .ok ())
  /-- they do the same beside both, but for lines of the log -/
  | beside {r r' s s' : Registry Ω} {result result' : Returned Unit} {outside outside' : Ω}
      (clock : Clock) (wires : Table String Wire) (lines lines' : List LogLine)
      (houtside : agree outside outside') (h : Twins agree r r' (s, result) (s', result')) :
      Twins agree r r' (s.beside clock wires lines outside, result)
        (s'.beside clock wires lines' outside', result')
  /-- they ask both for the same, and make the same of the reply; whenever the clock is read
  meanwhile, others deal with both in the same way -/
  | request {r r' s s' : Registry Ω} {env env' : Surroundings Ω} {request : Request}
      (pass : Reply → Returned Unit) (h : Twins agree r r' (s, .ok ()) (s', .ok ()))
      (reading : ∀ t t', Same agree t t' →
        Twins agree t t' (env.beforeReading t) (env'.beforeReading t'))
      (hlisten : env.ListenAlike agree env') :
      Twins agree r r' (s.serve env request, pass (s.reply env request))
        (s'.serve env' request, pass (s'.reply env' request))

theorem Twins.same {done done' : Registry Ω × Returned Unit} (h : Twins agree r r' done done')
    (hsame : Same agree r r') : SameDone agree done done' := by
  -- on what was done; inside a request every reading of the clock is a run of its own
  induction h with
  | nothing r r' => exact ⟨hsame, rfl⟩
  | beside clock wires lines lines' houtside _ ih =>
    obtain ⟨hs, hresult⟩ := ih hsame
    exact ⟨hs.beside clock wires lines lines' houtside, hresult⟩
  | request pass _ _ hlisten ih reading =>
    have hmatch := match_of_listenAlike hlisten fun t t' ht => reading t t' ht ht
    obtain ⟨hs, hreply⟩ := same_serve hmatch _ (ih hsame).state
    exact ⟨hs, congrArg pass hreply⟩

/-- What a listener was told, newest first. -/
def toldTo (l : Nat) (journal : List Entry) : List (String × Event) :=
  journal.filterMap fun
    | .told l' group event => if l' = l then some (group, event) else none
    | _ => none

theorem Same.toldTo (h : Same agree r r') (l : Nat) :
    Registry.toldTo l r'.journal = Registry.toldTo l r.journal := by
  rw [Registry.toldTo, ← filterMap_unlogged fun _ => rfl, h.journal,
    filterMap_unlogged fun _ => rfl, Registry.toldTo]

/-- Listeners that fail or panic do not interfere. Two registries are asked for the same things,
others deal with both in the same way whenever the clock is read, and no listener asks for anything;
but what the listeners return may differ, at any event of any request. Then both are the same
afterwards, with the same groups, samples and wires; the same came back; every listener was told the
same; and whatever both are asked for next in such surroundings, they give the same reply. -/
theorem failing_listeners_do_not_interfere {result result' : Returned Unit}
    (hsame : Same agree r r') (h : Twins agree r r' (s, result) (s', result')) :
    Same agree s s' ∧ result' = result ∧ (∀ l, toldTo l s'.journal = toldTo l s.journal) ∧
    ∀ (env env' : Surroundings Ω) (request : Request), env.ListenAlike agree env' →
      (∀ t t', Same agree t t' → Twins agree t t' (env.beforeReading t) (env'.beforeReading t')) →
      s'.reply env' request = s.reply env request := by
  obtain ⟨hs, hresult⟩ := h.same hsame
  refine ⟨hs, hresult, hs.toldTo, ?_⟩
  intro env env' request hlisten reading
  have hmatch := match_of_listenAlike hlisten fun t t' ht => (reading t t' ht).same ht
  exact (same_serve hmatch request hs).result

theorem same_new (settings : Settings) (listeners : List Nat) (clock : Clock) (measured : Bool)
    {outside outside' : Ω} (h : agree outside outside') :
    Same agree (new settings listeners clock measured outside)
      (new settings listeners clock measured outside') :=
  ⟨rfl, rfl, rfl, rfl, rfl, rfl, rfl, rfl, h⟩

/-- Surroundings with listeners that return this whenever they are called. -/
def listening (outcome : Nat → Outcome) : Surroundings (List Request) :=
  { Surroundings.still (List Request) with listener := fun l _ _ r => (r, outcome l) }

/-- The same listeners, and a list of requests to go through, one at each reading of the clock. -/
def moody (outcome : Nat → Outcome) : Surroundings (List Request) :=
  { listening outcome with
    beforeReading := fun r =>
      match r.outside with
      | [] => (r, .ok ())
      | request :: rest => (serve (listening outcome) request { r with outside := rest }, .ok ())
    interruptions := List.length }

theorem listenAlike_listening (outcome outcome' : Nat → Outcome) :
    (listening outcome).ListenAlike Eq (listening outcome') := by
  refine ⟨?_, fun _ _ _ => rfl, rfl⟩
  intro l group event r r' h
  refine ⟨r.clock, r.wires, [], [], r.outside, r'.outside, h.outside, rfl, ?_⟩
  rw [← h.clock, ← h.wires]
  rfl

theorem listenAlike_moody (outcome outcome' : Nat → Outcome) :
    (moody outcome).ListenAlike Eq (moody outcome') := by
  refine ⟨(listenAlike_listening outcome outcome').listener, ?_, rfl⟩
  exact fun o o' h => congrArg List.length h.symm

theorem twins_moody (outcome outcome' : Nat → Outcome) (t t' : Registry (List Request))
    (h : Same Eq t t') :
    Twins Eq t t' ((moody outcome).beforeReading t) ((moody outcome').beforeReading t') := by
  unfold moody
  dsimp only
  rw [← h.outside]
  cases t.outside with
  | nil => exact .nothing t t'
  | cons request rest =>
    have hpopped : Twins Eq t t' ({ t with outside := rest }, .ok ())
        ({ t' with outside := rest }, .ok ()) := by
      have hbeside := Twins.beside t.clock t.wires [] [] (rfl : rest = rest) (.nothing t t')
      rw [show t'.beside t.clock t.wires [] rest = { t' with outside := rest } by
        rw [← h.clock, ← h.wires]; rfl] at hbeside
      exact hbeside
    exact .request (fun _ => .ok ()) hpopped (fun t t' _ => .nothing t t')
      (listenAlike_listening outcome outcome')

/-- A registry with two listeners. At the second reading from now somebody leaves a group. -/
def twoListen : Registry (List Request) :=
  new default [0, 1] default true
    [.setClock ⟨1⟩, .leave "g" (Registration.sample "g" 8).client true]

/-- Two listeners, who return this, hear of a client that registers while another one leaves, and
whose channel closes then. -/
def heardBy (outcome : Nat → Outcome) : Registry (List Request) :=
  (twoListen.serve (moody outcome) (.register true (.sample "g" 7))).serve (moody outcome)
    (.channelClosed "there" 7)

def handling : Nat → Outcome := fun _ => .handled

/-- The first listener panics, and any other fails. -/
def failing : Nat → Outcome := fun l => if l = 0 then .panicked none else .failed "no time"

/-- A listener that panics and one that fails are told the same as two that handle everything. Only
the log is longer. -/
theorem bad_listeners_are_told_the_same :
    Same Eq (heardBy handling) (heardBy failing) ∧
      toldTo 1 (heardBy failing).journal = toldTo 1 (heardBy handling).journal ∧
      (toldTo 1 (heardBy handling).journal).map (·.2.kind) =
        [.dissolved, .clientLeft, .declared, .changed, .clientJoined, .dissolved, .clientJoined] ∧
      (heardBy failing).reply (moody failing) .sweep =
        (heardBy handling).reply (moody handling) .sweep ∧
      (heardBy handling).journal.countP Entry.isLogged = 8 ∧
      (heardBy failing).journal.countP Entry.isLogged = 22 := by
  have hsame : Same Eq twoListen twoListen := same_new _ _ _ _ rfl
  have hreading := twins_moody handling failing
  have hlisten := listenAlike_moody handling failing
  obtain ⟨hboth, -, htold, hreply⟩ := failing_listeners_do_not_interfere hsame
    (.request (fun _ => .ok ()) (.request (fun _ => .ok ()) (.nothing _ _) hreading hlisten)
      hreading hlisten)
  exact ⟨hboth, htold 1, by rfl, hreply _ _ .sweep hlisten hreading, by decide +kernel,
    by decide +kernel⟩

end Registry

end ConsumerGroups
