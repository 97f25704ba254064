-- Groups are dealt with one by one. As long as nobody interferes, what becomes of a group and what
-- the listeners are told of it follow from what is asked for, from the time, and from the record of
-- the group itself, whatever other groups there are.
import Mathlib.Data.List.Forall2
import ConsumerGroups.Proofs.Treatment

set_option autoImplicit false

namespace ConsumerGroups

namespace Registry

variable {Ω : Type} {env : Surroundings Ω} {r s t : Registry Ω}

/-! ## What comes of a group -/

/-- A group comes to this, and these events of it are sent out. -/
structure Fares (group : String) (fate : Fate) (r s : Registry Ω) : Prop where
  comes : s.group? group = fate.group
  events : tidings group s.journal = tidings group r.journal ++ fate.events

namespace Fares

variable {group : String} {fate : Fate}

/-- Nothing comes of it. -/
theorem unchanged (h : s.group? group = r.group? group)
    (htidings : tidings group s.journal = tidings group r.journal) :
    Fares group ⟨r.group? group, []⟩ r s :=
  ⟨h, htidings.trans (List.append_nil _).symm⟩

theorem after (h : Fares group fate s t) (h' : Sends group [] r s) : Fares group fate r t :=
  ⟨h.comes, by rw [h.events, h'.tells.own, List.append_nil]⟩

theorem before (h : Fares group fate r s) (h' : Sends group [] s t) : Fares group fate r t := by
  refine ⟨(h'.aside.group? group).trans h.comes, ?_⟩
  rw [h'.tells.own, List.append_nil, h.events]

end Fares

/-- What is done with one record does not touch the other groups. -/
theorem Becomes.passes {i : Nat} {g left : Group} {ends : Bool} {es : List Event}
    (hw : r.WellFormed) (hi : r.current? g.name = some i)
    (h : Becomes i g.name left ends es r s) {group : String} (hn : group ≠ g.name) :
    Fares group ⟨r.group? group, []⟩ r s := by
  refine .unchanged ?_ (h.tells.others hn)
  rw [group?, h.table group hn]
  cases hj : r.current? group with
  | none => simp [group?, hj]
  | some j =>
    have hji : j ≠ i := by
      rintro rfl
      exact hn (hw.current_unique hj hi)
    rw [group?_of_current hj, Option.bind_some, h.records j hji]

theorem Becomes.fares {T : Treatment} {group : String} {i : Nat} {g : Group}
    (hi : r.current? group = some i) (hg : r.record? i = some g)
    (h : Becomes i group (T.left g) (T.ends g) (T.news g) r s) :
    Fares group (T.fate (r.group? group)) r s := by
  rw [group?_of_current hi, hg]
  refine ⟨?_, h.tells.own⟩
  rw [group?, h.current, Treatment.fate]
  split
  · rfl
  · exact h.record

/-- After a walk over the table every group that is on it has been treated. -/
theorem Treats.fares {T : Treatment} (hw : r.WellFormed)
    (h : Treats T (env.walk.records r.table.values) r s) (group : String) :
    Fares group (T.fate (r.group? group)) r s := by
  cases hi : r.current? group with
  | none =>
    have hnone : r.group? group = none := by rw [group?, hi]; rfl
    obtain ⟨hcurrent, htidings⟩ := h.passed group (by simp [hi])
    rw [hnone]
    refine ⟨?_, htidings.trans (List.append_nil _).symm⟩
    rw [group?, hcurrent, hi]
    rfl
  | some i =>
    obtain ⟨g, hg, -⟩ := hw.recorded group i hi
    have hmem := mem_walk env hi
    obtain ⟨hcurrent, htidings⟩ := h.treated group i g hmem hi hg
    rw [group?_of_current hi, hg]
    refine ⟨?_, htidings⟩
    rw [group?, hcurrent, Treatment.fate]
    split
    · rfl
    · rw [Option.bind_some, h.records, if_pos hmem, hg]
      rfl

/-! ## Registrations -/

/-- What becomes of a group that a client registers in, and what the listeners are told. -/
def registering (env : Surroundings Ω) (q : Registration) (now : UInt64) (old : Option Group) :
    Fate :=
  let revision := revised q now (old.getD (Group.new q.group q.policy))
  ⟨some revision.group,
    (if old.isNone then [.clientJoined q.client q.topics] else []) ++
      ((if revision.changed && q.announce then [.changed (clientsOf env revision.group)] else []) ++
        [.declared q.subscriptions])⟩

theorem tells_findOrFound (henv : env.Quiet) (hw : r.WellFormed) (q : Registration) :
    Tells q.group (if (r.group? q.group).isNone then [.clientJoined q.client q.topics] else [])
      r (r.findOrFound env q).1 := by
  unfold findOrFound
  cases hi : r.current? q.group with
  | some i =>
    obtain ⟨g, hg, -⟩ := hw.recorded q.group i hi
    rw [group?_of_current hi, hg, if_neg (by simp)]
    exact (Sends.refl q.group r).tells
  | none =>
    have hsent := Sends.send henv q.group (.clientJoined q.client q.topics) r
    rw [(group?_eq_none_iff hw).mpr hi, if_pos Option.isNone_none]
    dsimp only
    split
    · exact hsent.tells
    · let joined := (r.send env q.group (.clientJoined q.client q.topics)).1
      have hfounded : Tells q.group [] joined (joined.addRecord (Group.new q.group q.policy)) :=
        .nothing q.group [.mapped q.group joined.records.length] rfl (by simp [Entry.tiding?])
      exact hsent.tells.trans hfounded

theorem tells_update (q : Registration) (i : Nat) (now : UInt64) (r : Registry Ω) :
    Tells q.group [] r (r.update q i now).1 := by
  unfold update
  split
  · exact (Sends.refl q.group r).tells
  · exact .logAll q.group (r.setRecord i _) _

theorem sends_sample (henv : env.Quiet) (group : String) (start : UInt64) (r : Registry Ω) :
    Sends group [] r (r.sample env start).1 := by
  unfold sample
  split
  · exact .refl group r
  · rw [readClock_of_returns (henv.returns r), andThen_ok]
    exact (Sends.reading henv group r).trans
      (.nothing group ⟨rfl, rfl, rfl, List.prefix_rfl, [], rfl, by simp⟩ [] rfl (by simp))

theorem sends_proclaim (henv : env.Quiet) {q : Registration} {i : Nat} {g : Group}
    (hg : r.record? i = some g) (start : UInt64) (changed : Bool) :
    Sends q.group ((if changed && q.announce then [.changed (clientsOf env g)] else []) ++
      [.declared q.subscriptions]) r (r.proclaim env q start i changed).1 := by
  unfold proclaim
  rw [andThen_of_ok (sample_returns henv start _)]
  have htold : Sends q.group (if changed && q.announce then [.changed (clientsOf env g)] else []) r
      (if changed && q.announce then r.sendChanged env q.group i else r) := by
    split
    · exact .sendChanged henv q.group hg
    · exact .refl q.group r
  exact htold.trans ((Sends.send henv q.group _ _).after (sends_sample henv q.group start _))

/-- A registration reaches the record of its group, or a new one. -/
theorem record?_read (henv : env.Quiet) (hw : r.WellFormed) (q : Registration) :
    ((r.started env q).read env q).record? ((r.started env q).target env q) =
      some ((r.group? q.group).getD (Group.new q.group q.policy)) := by
  rw [← group?_of_current (current?_read henv.aside q (r.started env q)), group?_read henv hw,
    if_pos rfl]

/-- What a registration makes of the record that it reaches, and whether anything changed. -/
theorem attempted_of_quiet (henv : env.Quiet) (hw : r.WellFormed) (q : Registration) :
    let revision := revised q (r.registerTime env q)
      ((r.group? q.group).getD (Group.new q.group q.policy))
    ((r.started env q).attempted env q).1.record? ((r.started env q).target env q) =
        some revision.group ∧
      ((r.started env q).attempted env q).2 = revision.changed := by
  intro revision
  have hg := record?_read henv hw q
  rw [attempted, update, hg]
  exact ⟨record?_setRecord_self _ hg revision.group, rfl⟩

/-- Until it is in its record, a registration tells the listeners at most that its client joins. -/
theorem tells_attempted (henv : env.Quiet) (hw : r.WellFormed) (q : Registration) :
    Tells q.group (if (r.group? q.group).isNone then [.clientJoined q.client q.topics] else []) r
      ((r.started env q).attempted env q).1 := by
  let begun := r.started env q
  have hbegun : Sends q.group [] r begun :=
    (Sends.note q.group r (e := .began _) rfl fun _ => rfl).trans (.reading henv q.group _)
  have hfound := tells_findOrFound henv (hbegun.aside.wellFormed hw) q
  have hread := Sends.reading henv q.group (begun.findOrFound env q).1
  have hupdated := tells_update q (begun.target env q) (begun.read env q).clock.now
    (begun.read env q)
  have hall := ((hbegun.tells.trans hfound).trans hread.tells).trans hupdated
  rw [List.nil_append, List.append_nil, List.append_nil, hbegun.aside.group?] at hall
  exact hall

theorem tells_register (henv : env.Quiet) (hw : r.WellFormed) {q : Registration}
    (hname : IsName q.group) (strict : Bool) :
    Tells q.group (registering env q (r.registerTime env q) (r.group? q.group)).events r
      (r.serve env (.register strict q)) := by
  obtain ⟨hrevised, hchanged⟩ := attempted_of_quiet henv hw q
  have hproclaimed := sends_proclaim (q := q) henv hrevised (r.started env q).clock.now
    ((r.started env q).attempted env q).2
  have hevents : (registering env q (r.registerTime env q) (r.group? q.group)).events =
      (if (r.group? q.group).isNone then [.clientJoined q.client q.topics] else []) ++
        ((if ((r.started env q).attempted env q).2 && q.announce then
          [.changed (clientsOf env (revised q (r.registerTime env q)
            ((r.group? q.group).getD (Group.new q.group q.policy))).group)]
          else []) ++ [.declared q.subscriptions]) := by
    rw [hchanged]
    rfl
  have htry : Tells q.group (registering env q (r.registerTime env q) (r.group? q.group)).events r
      (r.tryRegister env q).1 := by
    have hall := (tells_attempted henv hw q).trans
      (hproclaimed.trans (Sends.note q.group _ (e := .ended) rfl fun _ => rfl)).tells
    rw [List.append_nil, ← hevents] at hall
    rw [tryRegister_of_quiet henv hname]
    exact hall
  obtain ⟨lines, hserve⟩ := serve_register env strict q r
  rw [hserve]
  simpa using htry.trans (.logAll q.group _ lines)

end Registry

/-! ## Whatever is asked -/

/-- What becomes of a group, and what the listeners are told of it. The request updates or sweeps at
`now`, and clients may be silent for `limit` milliseconds. -/
def Request.fate {Ω : Type} (env : Surroundings Ω) (now limit : UInt64) (group : String)
    (old : Option Group) : Request → Fate
  | .register _ q =>
    if q.group = group ∧ IsName group then Registry.registering env q now old else ⟨old, []⟩
  | .leave group' client announce =>
    if group' = group then (Treatment.leaving env client announce).fate old else ⟨old, []⟩
  | .channelClosed _ id => (Treatment.closing env id).fate old
  | .sweep => (Treatment.sweeping env now limit).fate old
  | .addListener _ => ⟨old, []⟩
  | .setClock _ => ⟨old, []⟩

namespace Registry

variable {Ω : Type} {env : Surroundings Ω} {r : Registry Ω}

/-- What the clock shows when a request updates a record or sweeps. -/
def readFor (env : Surroundings Ω) (request : Request) (r : Registry Ω) : UInt64 :=
  match request with
  | .register _ q => r.registerTime env q
  | .sweep => r.sweepTime env
  | _ => r.clock.now

theorem fares_register (henv : env.Quiet) (hw : r.WellFormed) (strict : Bool) (q : Registration)
    (group : String) :
    Fares group (if q.group = group ∧ IsName group then
        registering env q (r.registerTime env q) (r.group? group)
      else ⟨r.group? group, []⟩) r (r.serve env (.register strict q)) := by
  by_cases hname : IsName q.group
  · have hgroup := group?_register henv hw hname strict group
    have htells := tells_register henv hw hname strict
    by_cases hn : q.group = group
    · subst hn
      rw [if_pos ⟨rfl, hname⟩]
      rw [if_pos rfl] at hgroup
      exact ⟨hgroup, htells.own⟩
    · rw [if_neg fun h => hn h.1]
      rw [if_neg (Ne.symm hn)] at hgroup
      exact .unchanged hgroup (htells.others (Ne.symm hn))
  · obtain ⟨lines, hserve⟩ := serve_of_flaw env hname strict r
    have hno : ¬ (q.group = group ∧ IsName group) := by
      rintro ⟨rfl, h⟩
      exact hname h
    rw [if_neg hno, hserve]
    exact (Fares.unchanged rfl rfl).before (.logAll group r lines)

theorem fares_leave (henv : env.Quiet) (hw : r.WellFormed) (group' : String) (client : Client)
    (announce : Bool) (group : String) :
    Fares group
      (if group' = group then (Treatment.leaving env client announce).fate (r.group? group)
        else ⟨r.group? group, []⟩) r (r.leave env group' client announce) := by
  cases hi : r.current? group' with
  | none =>
    have hleave : r.leave env group' client announce = r := by
      rw [leave, hi]
    have hfate :
        (if group' = group then (Treatment.leaving env client announce).fate (r.group? group)
          else ⟨r.group? group, []⟩) = ⟨r.group? group, []⟩ := by
      split
      · rename_i hn
        rw [← hn, (group?_eq_none_iff hw).mpr hi]
        rfl
      · rfl
    rw [hleave, hfate]
    exact .unchanged rfl rfl
  | some i =>
    obtain ⟨g, hg, rfl⟩ := hw.recorded group' i hi
    have hleft := becomes_leave henv hi hg client announce
    split
    · rename_i hn
      subst hn
      exact hleft.fares hi hg
    · rename_i hn
      exact hleft.passes hw hi (Ne.symm hn)

theorem fares_channelClosed (henv : env.Quiet) (hw : r.WellFormed) (address : String) (id : UInt64)
    (group : String) :
    Fares group ((Treatment.closing env id).fate (r.group? group)) r
      (r.channelClosed env address id).1 := by
  have hbegun : Sends group [] r (r.note (.began (.channelClosed id))) :=
    Sends.note group r rfl fun _ => rfl
  have hw := hbegun.aside.wellFormed hw
  have hclosed := (treats_closeInAll henv hw address id (onTable_walk hw env)).fares hw group
  exact (hclosed.after hbegun).before (Sends.note group _ (e := .ended) rfl fun _ => rfl)

theorem fares_sweep (henv : env.Quiet) (hw : r.WellFormed) (hgentle : r.Gentle) (group : String) :
    Fares group
      ((Treatment.sweeping env (r.sweepTime env) r.settings.expiry).fate (r.group? group)) r
      (r.sweep env).1 := by
  let begun := r.note (.began .sweep)
  have hread : Sends group [] r (env.beforeReading begun).1 :=
    (Sends.note group r (e := .began .sweep) rfl fun _ => rfl).trans (.reading henv group begun)
  have hw := hread.aside.wellFormed hw
  have hswept := (treats_sweepAll henv hw (hread.aside.gentle hgentle) (r.sweepTime env)
    (onTable_walk hw env)).fares hw group
  rw [hread.aside.settings, hread.aside.group?] at hswept
  rw [sweep_of_returns (henv.returns begun)]
  exact (hswept.after hread).before (Sends.note group _ (e := .ended) rfl fun _ => rfl)

/-- What becomes of a group and what is told of it is settled by the request, the time and the
record of the group. -/
theorem fares_serve (henv : env.Quiet) (hw : r.WellFormed) (hgentle : r.Gentle) (request : Request)
    (group : String) :
    Fares group (request.fate env (r.readFor env request) r.settings.expiry group (r.group? group))
      r (r.serve env request) := by
  cases request with
  | register strict q => exact fares_register henv hw strict q group
  | leave group' client announce => exact fares_leave henv hw group' client announce group
  | channelClosed address id => exact fares_channelClosed henv hw address id group
  | sweep => exact fares_sweep henv hw hgentle group
  | addListener l => exact .unchanged rfl rfl
  | setClock clock => exact .unchanged rfl rfl

end Registry

/-! ## The order of a walk -/

/-- All tables are walked from the last key to the first. -/
def Walk.descending : Walk where
  records := List.reverse
  channels := fun _ => List.reverse
  records_perm := List.reverse_perm
  channels_perm := fun _ => List.reverse_perm

/-- The surroundings with another order in which tables are walked. -/
def Surroundings.walking {Ω : Type} (env : Surroundings Ω) (walk : Walk) : Surroundings Ω :=
  { env with walk }

theorem Surroundings.Quiet.walking {Ω : Type} {env : Surroundings Ω} (h : env.Quiet)
    (walk : Walk) : (env.walking walk).Quiet :=
  ⟨h.reading, h.listener⟩

/-- Two events that say the same. The clients of a change may come in another order. -/
inductive Event.Matches : Event → Event → Prop where
  | same (event : Event) : Matches event event
  | changed {cs cs' : List Client} (h : cs.Perm cs') : Matches (.changed cs) (.changed cs')

/-- What a request led to is told in the same way, but those whom a sweep takes out of a group may
leave it in another order. -/
def Request.SameNews (es es' : List Event) : Request → Prop
  | .sweep => (∀ e ∈ es, ∃ client topics, e = .clientLeft client topics) ∧ es.Perm es'
  | _ => List.Forall₂ Event.Matches es es'

theorem matches_refl (es : List Event) : List.Forall₂ Event.Matches es es :=
  List.forall₂_same.mpr fun e _ => .same e

/-- To tell nothing is the same in every way. -/
theorem Request.sameNews_nil (request : Request) : request.SameNews [] [] := by
  cases request with
  | sweep => exact ⟨by simp, .refl []⟩
  | _ => exact .nil

section

variable {Ω : Type} (env env' : Surroundings Ω)

/-- A change is told with the same clients. -/
theorem matches_changed (g : Group) :
    Event.Matches (.changed (Registry.clientsOf env g)) (.changed (Registry.clientsOf env' g)) :=
  .changed ((Registry.clientsOf_perm env g).trans (Registry.clientsOf_perm env' g).symm)

theorem matches_settledNews (left : Group) (announce : Bool) :
    List.Forall₂ Event.Matches (Treatment.settledNews env left announce)
      (Treatment.settledNews env' left announce) := by
  unfold Treatment.settledNews
  split
  · exact matches_refl _
  · split
    · exact .cons (matches_changed env env' left) .nil
    · exact .nil

theorem matches_leaving (client : Client) (announce : Bool) (g : Group) :
    List.Forall₂ Event.Matches ((Treatment.leaving env client announce).news g)
      ((Treatment.leaving env' client announce).news g) :=
  List.rel_append (matches_refl _) (matches_settledNews env env' _ announce)

theorem matches_closing (id : UInt64) (g : Group) :
    List.Forall₂ Event.Matches ((Treatment.closing env id).news g)
      ((Treatment.closing env' id).news g) := by
  unfold Treatment.closing
  dsimp only
  split
  · exact .nil
  · exact .cons (.same _) (matches_settledNews env env' _ true)

theorem matches_registering (q : Registration) (now : UInt64) (old : Option Group) :
    List.Forall₂ Event.Matches (Registry.registering env q now old).events
      (Registry.registering env' q now old).events := by
  unfold Registry.registering
  refine List.rel_append (matches_refl _) (List.rel_append ?_ (matches_refl _))
  split
  · exact .cons (matches_changed env env' _) .nil
  · exact .nil

theorem perm_expiredOf (g : Group) (now limit : UInt64) :
    (Registry.expiredOf env g now limit).Perm (Registry.expiredOf env' g now limit) := by
  have hclients := (Registry.clientsOf_perm env g).trans (Registry.clientsOf_perm env' g).symm
  exact hclients.filter _

variable (now limit : UInt64) (group : String) (old : Option Group)

/-- What becomes of a group does not depend on the order of a walk. -/
theorem Request.fate_group (request : Request) :
    (request.fate env now limit group old).group =
      (request.fate env' now limit group old).group := by
  cases request with
  | register strict q =>
    simp only [fate]
    split <;> rfl
  | leave group' client announce =>
    simp only [fate]
    split
    · cases old <;> rfl
    · rfl
  | channelClosed address id => cases old <;> rfl
  | sweep => cases old <;> rfl
  | addListener l => rfl
  | setClock clock => rfl

/-- What is told of a group is the same in every walk, up to the order of those who are swept
out. -/
theorem Request.sameNews_fate (request : Request) :
    request.SameNews (request.fate env now limit group old).events
      (request.fate env' now limit group old).events := by
  cases request with
  | register strict q =>
    simp only [fate, SameNews]
    split
    · exact matches_registering env env' q now old
    · exact .nil
  | leave group' client announce =>
    simp only [fate, SameNews]
    split
    · cases old with
      | none => exact .nil
      | some g => exact matches_leaving env env' client announce g
    · exact .nil
  | channelClosed address id =>
    cases old with
    | none => exact .nil
    | some g => exact matches_closing env env' id g
  | sweep =>
    cases old with
    | none => exact sameNews_nil .sweep
    | some g =>
      refine ⟨?_, (perm_expiredOf env env' g now limit).map _⟩
      intro e he
      obtain ⟨client, -, rfl⟩ := List.mem_map.mp he
      exact ⟨client, g.topics, rfl⟩
  | addListener l => exact .nil
  | setClock clock => exact .nil

/-- Nothing but the order in which the channels of a record are walked matters to what is told. -/
theorem Request.fate_congr (h : env'.walk.channels = env.walk.channels) (request : Request) :
    request.fate env' now limit group old = request.fate env now limit group old := by
  have hclients : Registry.clientsOf env' = Registry.clientsOf env := by
    funext g
    rw [Registry.clientsOf, h, Registry.clientsOf]
  have hsettled : Treatment.settledNews env' = Treatment.settledNews env := by
    funext left announce
    rw [Treatment.settledNews, hclients, Treatment.settledNews]
  cases request with
  | register strict q => simp only [fate, Registry.registering, hclients]
  | leave group' client announce => simp only [fate, Treatment.leaving, hsettled]
  | channelClosed address id => simp only [fate, Treatment.closing, hsettled]
  | sweep =>
    have hexpired : Registry.expiredOf env' = Registry.expiredOf env := by
      funext g now limit
      rw [Registry.expiredOf, hclients, Registry.expiredOf]
    simp only [fate, Treatment.sweeping, hexpired]
  | addListener l => rfl
  | setClock clock => rfl

end

end ConsumerGroups
