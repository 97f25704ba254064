-- What a call does itself. While it is the innermost one, whole calls of others begin and end
-- between the things that it does. A sweep counts the clients that it takes out itself, and it
-- tells the listeners of each of them itself.
import ConsumerGroups.Proofs.Orderly

set_option autoImplicit false

namespace ConsumerGroups

/-- The entries that stand outside of the calls that begin among these. -/
def own : List Entry → List Entry
  | [] => []
  | e :: before =>
    if e.isMark = false ∧ openCalls before = [] then e :: own before else own before

def Entry.isRemoval : Entry → Bool
  | .removed .. => true
  | _ => false

/-- Whether the listeners are about to be told that a client left. -/
def Entry.isDeparture : Entry → Bool
  | .sent _ (.clientLeft ..) _ => true
  | _ => false

/-! ## Own entries of lists put together -/

theorem Balanced.closed {es : List Entry} (h : Balanced es) : openCalls es = [] := by
  have hclosed := h.openCalls_append []
  rwa [List.append_nil] at hclosed

theorem own_of_unmarked {es : List Entry} (h : ∀ e ∈ es, e.isMark = false) : own es = es := by
  induction es with
  | nil => rfl
  | cons e rest ih =>
    have hrest : ∀ e ∈ rest, e.isMark = false := fun e he => h e (List.mem_cons_of_mem _ he)
    rw [own, if_pos ⟨h e List.mem_cons_self, (balanced_of_unmarked hrest).closed⟩, ih hrest]

/-- Where no call is open, it is all the same for later calls what came before. -/
theorem openCalls_append_of_closed {before : List Entry} (h : openCalls before = [])
    (es : List Entry) : openCalls (es ++ before) = openCalls es := by
  induction es with
  | nil => exact h
  | cons e rest ih =>
    cases e with
    | began call => simp only [List.cons_append, openCalls, ih]
    | ended => simp only [List.cons_append, openCalls, ih]
    | _ => exact ih

theorem own_append {before : List Entry} (h : openCalls before = []) (es : List Entry) :
    own (es ++ before) = own es ++ own before := by
  induction es with
  | nil => rfl
  | cons e rest ih =>
    rw [List.cons_append, own, own, openCalls_append_of_closed h, ih]
    split <;> rfl

/-- What happens while a call is open is no one's own but of this call. -/
theorem Balanced.own_append_of_open {es : List Entry} (h : Balanced es) {before : List Entry}
    (hopen : openCalls before ≠ []) : own (es ++ before) = own before := by
  induction h generalizing before with
  | nil => rfl
  | entry _ hb ih =>
    rw [List.cons_append, own, hb.openCalls_append, if_neg fun h => hopen h.2, ih hopen]
  | @call call inner outer _ _ ihi iho =>
    have happend : .ended :: (inner ++ .began call :: outer) ++ before =
        .ended :: (inner ++ .began call :: (outer ++ before)) := by simp
    have hcall : openCalls (.began call :: (outer ++ before)) ≠ [] := List.cons_ne_nil _ _
    rw [happend, own, if_neg (by simp [Entry.isMark]), ihi hcall, own,
      if_neg (by simp [Entry.isMark]), iho hopen]

/-- A whole call leaves nothing that is one's own. -/
theorem own_call {call : Call} {inner : List Entry} (h : Balanced inner) (outer : List Entry) :
    own (.ended :: (inner ++ .began call :: outer)) = own outer := by
  have hcall : openCalls (.began call :: outer) ≠ [] := List.cons_ne_nil _ _
  rw [own, if_neg (by simp [Entry.isMark]), h.own_append_of_open hcall, own,
    if_neg (by simp [Entry.isMark])]

namespace Registry

variable {Ω : Type} {steady : Prop} {env : Surroundings Ω} {r s t : Registry Ω}

/-- Where no call is open, there is nothing besides whole calls but the log and what listeners are
told. -/
theorem Course.own_entries (h : Course steady none r s) :
    ∃ es, s.journal = es ++ r.journal ∧ Balanced es ∧ ∀ e ∈ own es,
      (∃ line, e = .logged line) ∨ ∃ l group event, e = .told l group event := by
  generalize htop : (none : Option Call) = top at h
  induction h with
  | refl => exact ⟨[], rfl, .nil, by simp [own]⟩
  | @move top r s t h hm ih =>
    subst htop
    obtain ⟨es, hes, hb, hown⟩ := ih rfl
    obtain ⟨fs, hfs, hunmarked, hplain⟩ : ∃ fs, t.journal = fs ++ s.journal ∧
        (∀ e ∈ fs, e.isMark = false) ∧
        ∀ e ∈ fs, (∃ line, e = .logged line) ∨ ∃ l group event, e = .told l group event := by
      cases hm with
      | silent h => exact ⟨[], h.journal, by simp, by simp⟩
      | logged lines =>
        refine ⟨_, rfl, by simp [Entry.isMark], ?_⟩
        intro e he
        obtain ⟨line, -, rfl⟩ := List.mem_map.mp (List.mem_reverse.mp he)
        exact .inl ⟨line, rfl⟩
      | @told l group event =>
        refine ⟨[.told l group event], rfl, by simp [Entry.isMark], ?_⟩
        intro e he
        exact .inr ⟨l, group, event, List.mem_singleton.mp he⟩
      | sent htop => cases htop
      | found policy hname htop => cases htop
      | revise now htop => cases htop
      | release htop => cases htop
      | unmap htop => cases htop
    refine ⟨fs ++ es, by rw [hfs, hes, List.append_assoc],
      (balanced_of_unmarked hunmarked).append hb, ?_⟩
    rw [own_append hb.closed, own_of_unmarked hunmarked]
    intro e he
    rcases List.mem_append.mp he with he | he
    · exact hplain e he
    · exact hown e he
  | @call top r s t call h hc ih _ =>
    subst htop
    obtain ⟨es, hes, hb, hown⟩ := ih rfl
    obtain ⟨fs, hfs, hcall⟩ := hc.entries
    refine ⟨.ended :: (fs ++ .began call :: es), by simp [note, hfs, hes], .call hcall hb, ?_⟩
    rw [own_call hcall]
    exact hown

/-! ## Counting -/

/-- What is one's own between two states: so many clients are taken out, and so many times the
listeners are told that one left. -/
structure Tallies (steady : Prop) (removals departures : Nat) (r s : Registry Ω) : Prop where
  kept : s.Kept steady
  entries : ∃ es, s.journal = es ++ r.journal ∧ Balanced es ∧
    (own es).countP Entry.isRemoval = removals ∧ (own es).countP Entry.isDeparture = departures

namespace Tallies

theorem refl (hr : r.Kept steady) : Tallies steady 0 0 r r := ⟨hr, [], rfl, .nil, rfl, rfl⟩

theorem trans {n m k l : Nat} (h : Tallies steady n m r s) (h' : Tallies steady k l s t) :
    Tallies steady (n + k) (m + l) r t := by
  obtain ⟨-, es, hes, hb, hn, hm⟩ := h
  obtain ⟨hkept, fs, hfs, hb', hk, hl⟩ := h'
  refine ⟨hkept, fs ++ es, by rw [hfs, hes, List.append_assoc], hb'.append hb, ?_, ?_⟩
  · rw [own_append hb.closed, List.countP_append, hk, hn, Nat.add_comm]
  · rw [own_append hb.closed, List.countP_append, hl, hm, Nat.add_comm]

/-- Entries that mark no call are one's own. -/
theorem of_unmarked (es : List Entry) (hs : s.Kept steady) (hj : s.journal = es ++ r.journal)
    (hes : ∀ e ∈ es, e.isMark = false) :
    Tallies steady (es.countP Entry.isRemoval) (es.countP Entry.isDeparture) r s := by
  refine ⟨hs, es, hj, balanced_of_unmarked hes, ?_, ?_⟩
  · rw [own_of_unmarked hes]
  · rw [own_of_unmarked hes]

theorem logAll (hr : r.Kept steady) (lines : List LogLine) :
    Tallies steady 0 0 r (r.logAll lines) := by
  have htally := of_unmarked (lines.map Entry.logged).reverse (hr.aside (.logAll r lines)) rfl
    (by simp [Entry.isMark])
  have hremovals : (lines.map Entry.logged).reverse.countP Entry.isRemoval = 0 := by
    simp [List.countP_eq_zero, Entry.isRemoval]
  have hdepartures : (lines.map Entry.logged).reverse.countP Entry.isDeparture = 0 := by
    simp [List.countP_eq_zero, Entry.isDeparture]
  rwa [hremovals, hdepartures] at htally

/-- Where no call is open, nobody is taken out and no departure is told of besides in whole
calls. -/
theorem of_course (h : Course steady none r s) (hr : r.Kept steady) : Tallies steady 0 0 r s := by
  obtain ⟨es, hes, hb, hown⟩ := h.own_entries
  refine ⟨h.kept hr, es, hes, hb, ?_, ?_⟩
  · rw [List.countP_eq_zero]
    intro e he
    rcases hown e he with ⟨line, rfl⟩ | ⟨l, group, event, rfl⟩ <;> simp [Entry.isRemoval]
  · rw [List.countP_eq_zero]
    intro e he
    rcases hown e he with ⟨line, rfl⟩ | ⟨l, group, event, rfl⟩ <;> simp [Entry.isDeparture]

end Tallies

/-! ## What a sweep counts -/

theorem tallies_callAll (henv : env.Orderly steady) (group : String) (event : Event)
    (ls : List Nat) (hr : r.Kept steady) :
    Tallies steady 0 0 r (r.callAll env group event ls).1 := by
  induction ls generalizing r with
  | nil => exact .refl hr
  | cons l rest ih =>
    have htold : Tallies steady 0 0 r (r.note (.told l group event)) :=
      .of_unmarked [.told l group event] (hr.aside (.note r rfl)) rfl (by simp [Entry.isMark])
    have hheard := Tallies.of_course
      (henv.course.listener l group event _ htold.kept none) htold.kept
    have hlogged := (htold.trans hheard).trans (.logAll hheard.kept
      (outcomeLines group event (env.listener l group event (r.note (.told l group event))).2))
    exact hlogged.trans (ih hlogged.kept)

/-- The listeners are told once that a client left, if its group was there once. -/
theorem tallies_sendLeft (henv : env.Orderly steady) (group : String) {i : Nat} {g : Group}
    (client : Client) (hg : r.record? i = some g) (hr : r.Kept steady) :
    Tallies steady 0 1 r (r.sendLeft env group i client) := by
  have hsent : Tallies steady 0 1 r
      (r.note (.sent group (.clientLeft client g.topics) (r.group? group))) :=
    .of_unmarked [.sent group (.clientLeft client g.topics) (r.group? group)]
      (hr.aside (.note r rfl)) rfl (by simp [Entry.isMark])
  unfold sendLeft
  simp only [hg]
  exact hsent.trans (tallies_callAll henv group _ r.listeners hsent.kept)

theorem tallies_closeQuietly (hr : r.Kept steady) (c : Channel) :
    Tallies steady 0 0 r (r.closeQuietly c).1 := by
  have hwire : ∀ w, Tallies steady 0 0 r (r.setWire c w) := fun w =>
    .of_unmarked [] (hr.aside ⟨rfl, rfl, rfl, List.prefix_rfl, [], rfl, by simp⟩) rfl (by simp)
  unfold closeQuietly
  split
  · exact (hwire _).trans (.logAll (hwire _).kept _)
  · exact hwire _

/-- Of everyone who is discarded the listeners are told once. -/
theorem tallies_discard (henv : env.Orderly steady) (now : UInt64) (g : Group) {i : Nat}
    {g' : Group} {cs : List Client} (hcs : ∀ c ∈ cs, c.channel.closing ≠ .panics)
    (hg : r.record? i = some g') (hr : r.Kept steady) :
    Tallies steady 0 cs.length r (r.discard env now g i cs).1 := by
  induction cs generalizing r g' with
  | nil => exact .refl hr
  | cons c rest ih =>
    let closed := (r.logAll [sweptLine g now c]).closeQuietly c.channel
    have hreturn : closed.2 = .ok () := closeQuietly_returns _ (hcs c List.mem_cons_self)
    have hlogged : Tallies steady 0 0 r (r.logAll [sweptLine g now c]) := .logAll hr _
    have hclosed : Tallies steady 0 0 r closed.1 :=
      hlogged.trans (tallies_closeQuietly hlogged.kept c.channel)
    have haside : r.Aside closed.1 :=
      (Aside.logAll r _).trans (Aside.tolerant.closeQuietly _ c.channel)
    have hgclosed : closed.1.record? i = some g' := (haside.record? i).trans hg
    have hsent := tallies_sendLeft henv g.name c hgclosed hclosed.kept
    obtain ⟨g'', hg'', -⟩ :=
      (Steps.tolerant.sendLeft henv.steps g.name i c closed.1).record_stays hgclosed
    have hrest := ih (fun d hd => hcs d (List.mem_cons_of_mem c hd)) hg'' hsent.kept
    rw [discard, andThen_of_ok hreturn, fst_andThen_ok, List.length_cons, Nat.add_comm,
      ← Nat.zero_add 1]
    exact (hclosed.trans hsent).trans hrest

theorem tallies_removeIfVacant (group : String) (i : Nat) (call : Call) (hr : r.Kept steady) :
    Tallies steady 0 0 r (r.removeIfVacant group i call).1 := by
  have hkept := (course_removeIfVacant group i call r).kept hr
  unfold removeIfVacant at hkept ⊢
  split
  · exact .refl hr
  · rename_i g hg
    split
    · rename_i h
      simp only [hg, h, if_true] at hkept
      exact .of_unmarked [.unmapped group i g call] hkept rfl (by simp [Entry.isMark])
    · exact .refl hr

/-- A sweep takes as many clients out of a record as it tells the listeners of, and as many as it
says. -/
theorem tallies_sweepRecord (henv : env.Orderly steady) (hgentle : r.Gentle) (now : UInt64)
    (i : Nat) (hr : r.Kept steady) :
    ∃ n, (r.sweepRecord env now i).2 = .ok n ∧
      Tallies steady n n r (r.sweepRecord env now i).1 := by
  cases hg : r.record? i with
  | none => exact ⟨0, sweepRecord_of_missing hg env now ▸ ⟨rfl, .refl hr⟩⟩
  | some g =>
    let gone := expiredOf env g now r.settings.expiry
    let left := g.withoutExpired now r.settings.expiry
    have hmove : Move steady (some .sweep) r (r.takeFrom i left gone) :=
      .withoutExpired env now r.settings.expiry hg
    have hkept := hmove.kept hr
    have htaken : Tallies steady gone.length 0 r (r.takeFrom i left gone) := by
      have htally := Tallies.of_unmarked (r := r) _ hkept rfl (by simp [Entry.isMark])
      have hremovals : (gone.map (Entry.removed left.name i)).reverse.countP Entry.isRemoval =
          gone.length := by
        rw [List.countP_eq_length.mpr (by simp [Entry.isRemoval]), List.length_reverse,
          List.length_map]
      have hdepartures :
          (gone.map (Entry.removed left.name i)).reverse.countP Entry.isDeparture = 0 := by
        simp [List.countP_eq_zero, Entry.isDeparture]
      rwa [hremovals, hdepartures] at htally
    have hleft : (r.takeFrom i left gone).record? i = some left := record?_setRecord_self r hg left
    have hquiet : ∀ c ∈ gone, c.channel.closing ≠ .panics := by
      intro c hc
      obtain ⟨⟨id, hid⟩, -⟩ := (mem_expiredOf env g now r.settings.expiry c).mp hc
      exact hgentle i g id c hg hid
    have hdiscarded := htaken.trans (tallies_discard henv now g hquiet hleft hkept)
    have hremoved := hdiscarded.trans
      (tallies_removeIfVacant g.name i .sweep hdiscarded.kept)
    rw [Nat.add_zero, Nat.zero_add] at hremoved
    obtain ⟨lines, hswept⟩ := hgentle.sweepRecord hg env now
    rw [hswept]
    exact ⟨gone.length, rfl, hremoved.trans (.logAll hremoved.kept lines)⟩

theorem tallies_sweepAll (henv : env.Orderly steady) (hsteps : env.ActBy (Steps True))
    (hgentle : r.Gentle) (now : UInt64) (is : List Nat) (hr : r.Kept steady) :
    ∃ n, (r.sweepAll env now is).2 = .ok n ∧ Tallies steady n n r (r.sweepAll env now is).1 := by
  induction is generalizing r with
  | nil => exact ⟨0, rfl, .refl hr⟩
  | cons i rest ih =>
    obtain ⟨n, hn, hfirst⟩ := tallies_sweepRecord henv hgentle now i hr
    have hgentle' := (Steps.removing.sweepRecord hsteps now i r).gentle hgentle
    obtain ⟨m, hm, hrest⟩ := ih hgentle' hfirst.kept
    refine ⟨n + m, ?_, ?_⟩
    · rw [sweepAll, andThen_of_ok hn, andThen_of_ok hm]
    · rw [sweepAll, andThen_of_ok hn, fst_andThen_ok]
      exact hfirst.trans hrest

/-- A sweep returns how many clients it has taken out itself, and has told the listeners itself that
as many left. -/
theorem tallies_sweep (henv : env.Orderly steady) (hsteps : env.ActBy (Steps True))
    (hreturns : (env.beforeReading (r.note (.began .sweep))).2 = .ok ()) (hgentle : r.Gentle)
    (hr : r.Kept steady) :
    ∃ n entries, (r.sweep env).2 = .ok n ∧
      (r.sweep env).1.journal = .ended :: (entries ++ .began .sweep :: r.journal) ∧
      Balanced entries ∧ (own entries).countP Entry.isRemoval = n ∧
      (own entries).countP Entry.isDeparture = n := by
  have hbegun : (r.note (.began .sweep)).Kept steady := hr.aside (.note r rfl)
  have hread := Tallies.of_course (henv.course.reading _ hbegun none) hbegun
  have hgentle' : (env.beforeReading (r.note (.began .sweep))).1.Gentle :=
    (hsteps.reading _).gentle ((Aside.note r rfl).gentle hgentle)
  obtain ⟨n, hn, hswept⟩ := tallies_sweepAll henv hsteps hgentle'
    (env.beforeReading (r.note (.began .sweep))).1.clock.now
    (env.walk.records (env.beforeReading (r.note (.began .sweep))).1.table.values) hread.kept
  obtain ⟨-, es, hes, hb, hremovals, hdepartures⟩ := hread.trans hswept
  rw [Nat.zero_add] at hremovals hdepartures
  refine ⟨n, es, ?_, ?_, hb, hremovals, hdepartures⟩
  · rw [sweep_of_returns hreturns]
    exact hn
  · rw [sweep_of_returns hreturns]
    exact congrArg (Entry.ended :: ·) hes

end Registry

end ConsumerGroups
