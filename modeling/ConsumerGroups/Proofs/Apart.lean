-- Groups do not touch each other. Two registries are asked for the same things, but the second only
-- for what concerns one group: what is addressed to other groups is left out, and closed channels,
-- sweeps and the time concern every group. All the same this group has the same record in both
-- after every request, and the listeners are told the same of it.
import ConsumerGroups.Proofs.Fates

set_option autoImplicit false

namespace ConsumerGroups

/-- Whether a request has to do with a group. Only registrations, and clients who ask to leave, are
addressed to one group. -/
def Request.concerns (group : String) : Request → Bool
  | .register _ q => q.group == group
  | .leave group' _ _ => group' == group
  | _ => true

namespace Registry

variable {Ω : Type} {env env' : Surroundings Ω} {r s r' s' : Registry Ω}

/-! ## The time -/

/-- The clock was not moved. -/
def KeepsTime (r s : Registry Ω) : Prop := s.clock = r.clock

theorem KeepsTime.admitting : Admitting (fun _ => True) (KeepsTime (Ω := Ω)) where
  aside := fun _ _ h => h
  trans := fun h h' => h'.trans h
  release := fun _ _ => rfl
  unmap := fun _ _ _ _ => rfl
  found := fun _ _ _ => rfl
  revise := fun _ _ => rfl

/-- Only a request to set the clock moves it. -/
theorem clock_serve (htime : env.ActBy KeepsTime) (request : Request) :
    (r.serve env request).clock =
      match request with
      | .setClock clock => clock
      | _ => r.clock := by
  cases request with
  | setClock clock => rfl
  | _ => exact KeepsTime.admitting.serve htime (fun _ _ _ => trivial) (by simp)

theorem registerTime_of_keepsTime (htime : env.ActBy KeepsTime) {q : Registration}
    (hname : IsName q.group) : r.registerTime env q = r.clock.now := by
  let begun := r.note (.began (.register q.group q.client.channel.id))
  let started := r.started env q
  have hstarted : started.clock = begun.clock := htime.reading begun
  have hfound : (started.findOrFound env q).1.clock = started.clock :=
    KeepsTime.admitting.findOrFound htime hname started
  have hread : (started.read env q).clock = (started.findOrFound env q).1.clock :=
    htime.reading _
  rw [registerTime, hread, hfound, hstarted]
  rfl

theorem sweepTime_of_keepsTime (htime : env.ActBy KeepsTime) : r.sweepTime env = r.clock.now := by
  have hread : (env.beforeReading (r.note (.began .sweep))).1.clock = r.clock := htime.reading _
  rw [sweepTime, hread]

/-- Where nobody moves the clock, all happens at the time that it shows. -/
theorem fares_serve_now (henv : env.Quiet) (htime : env.ActBy KeepsTime) (hw : r.WellFormed)
    (hgentle : r.Gentle) (request : Request) (group : String) :
    Fares group (request.fate env r.clock.now r.settings.expiry group (r.group? group)) r
      (r.serve env request) := by
  have hfares := fares_serve henv hw hgentle request group
  have hfate : request.fate env (r.readFor env request) r.settings.expiry group (r.group? group) =
      request.fate env r.clock.now r.settings.expiry group (r.group? group) := by
    cases request with
    | register strict q =>
      simp only [Request.fate, readFor]
      split
      · rename_i h
        have hname : IsName q.group := by
          rw [h.1]
          exact h.2
        rw [registerTime_of_keepsTime htime hname]
      · rfl
    | sweep => rw [readFor, sweepTime_of_keepsTime htime]
    | _ => rfl
  rw [hfate] at hfares
  exact hfares

/-! ## Two registries next to each other -/

/-- Two registries are alike as far as one group is concerned. -/
structure Abreast (group : String) (r r' : Registry Ω) : Prop where
  wellFormed : r.WellFormed
  wellFormed' : r'.WellFormed
  gentle : r.Gentle
  gentle' : r'.Gentle
  settings : r'.settings = r.settings
  clock : r'.clock = r.clock
  group : r'.group? group = r.group? group

/-- The group fares alike, and its listeners are told the same. -/
structure FaresAlike (env env' : Surroundings Ω) (request : Request) (group : String)
    (r r' s s' : Registry Ω) : Prop where
  abreast : Abreast group s s'
  news : ∃ es es', tidings group s.journal = tidings group r.journal ++ es ∧
    tidings group s'.journal = tidings group r'.journal ++ es' ∧ request.SameNews es es' ∧
    (env'.walk.channels = env.walk.channels → es' = es)

/-- A request that is addressed to another group has nothing to do with this one. -/
theorem fate_of_unconcerned {group : String} {request : Request}
    (h : request.concerns group = false) (now limit : UInt64) (old : Option Group) :
    request.fate env now limit group old = ⟨old, []⟩ := by
  cases request with
  | register strict q =>
    have hn : q.group ≠ group := by simpa [Request.concerns] using h
    exact if_neg fun h => hn h.1
  | leave group' client announce =>
    have hn : group' ≠ group := by simpa [Request.concerns] using h
    exact if_neg hn
  | _ => cases h

section

variable (henv : env.Quiet) (henv' : env'.Quiet) (htime : env.ActBy KeepsTime)
  (htime' : env'.ActBy KeepsTime) {group : String} {request : Request} (hcalm : request.IsCalm)
include henv henv' htime htime' hcalm

/-- Both registries are asked for the same. -/
theorem Abreast.both (h : Abreast group r r') :
    FaresAlike env env' request group r r' (r.serve env request) (r'.serve env' request) := by
  have hsteps : Steps True r (r.serve env request) := steps_serve henv.steps (fun _ => hcalm) r
  have hsteps' : Steps True r' (r'.serve env' request) :=
    steps_serve henv'.steps (fun _ => hcalm) r'
  have hfares := fares_serve_now henv htime h.wellFormed h.gentle request group
  have hfares' := fares_serve_now henv' htime' h.wellFormed' h.gentle' request group
  rw [h.clock, h.settings, h.group] at hfares'
  refine ⟨⟨hsteps.wellFormed h.wellFormed, hsteps'.wellFormed h.wellFormed',
    hsteps.gentle h.gentle, hsteps'.gentle h.gentle', ?_, ?_, ?_⟩, ?_⟩
  · rw [hsteps'.settings, h.settings, hsteps.settings]
  · rw [clock_serve htime', clock_serve htime, h.clock]
  · rw [hfares'.comes, hfares.comes]
    exact Request.fate_group env' env _ _ group _ request
  · refine ⟨_, _, hfares.events, hfares'.events,
      Request.sameNews_fate env env' _ _ group _ request, ?_⟩
    intro hwalk
    rw [Request.fate_congr env env' _ _ group _ hwalk]

omit henv' htime' in
/-- Only the first registry is asked, and for something that is addressed to another group. -/
theorem Abreast.first (h : Abreast group r r') (hother : request.concerns group = false) :
    FaresAlike env env' request group r r' (r.serve env request) r' := by
  have hsteps : Steps True r (r.serve env request) := steps_serve henv.steps (fun _ => hcalm) r
  have hfares := fares_serve_now henv htime h.wellFormed h.gentle request group
  rw [fate_of_unconcerned hother] at hfares
  refine ⟨⟨hsteps.wellFormed h.wellFormed, h.wellFormed', hsteps.gentle h.gentle, h.gentle', ?_,
    ?_, ?_⟩, ?_⟩
  · rw [h.settings, hsteps.settings]
  · rw [h.clock, clock_serve htime]
    cases request with
    | setClock clock => cases hother
    | _ => rfl
  · rw [h.group, hfares.comes]
  · exact ⟨[], [], hfares.events, (List.append_nil _).symm, request.sameNews_nil, fun _ => rfl⟩

end

/-! ## Whole runs -/

theorem abreast_new (group : String) (settings : Settings) (listeners : List Nat) (clock : Clock)
    (measured : Bool) (outside : Ω) :
    Abreast group (Registry.new settings listeners clock measured outside)
      (Registry.new settings listeners clock measured outside) := by
  have hw := wellFormed_new settings listeners clock measured outside
  have hgentle := gentle_new settings listeners clock measured outside
  exact ⟨hw, hw, hgentle, hgentle, rfl, rfl, rfl⟩

/-- What the second registry comes to when the first is asked for something. -/
def serveConcerned (env : Surroundings Ω) (group : String) (request : Request) (r : Registry Ω) :
    Registry Ω :=
  if request.concerns group then r.serve env request else r

theorem serveAll_filter_cons (env : Surroundings Ω) (group : String) (request : Request)
    (rest : List Request) (r : Registry Ω) :
    r.serveAll env ((request :: rest).filter (Request.concerns group)) =
      (r.serveConcerned env group request).serveAll env (rest.filter (Request.concerns group)) := by
  unfold serveConcerned
  rw [List.filter_cons]
  split <;> rfl

section

variable (henv : env.Quiet) (henv' : env'.Quiet) (htime : env.ActBy KeepsTime)
  (htime' : env'.ActBy KeepsTime) {group : String}
include henv henv' htime htime'

theorem Abreast.serve {request : Request} (hcalm : request.IsCalm) (h : Abreast group r r') :
    FaresAlike env env' request group r r' (r.serve env request)
      (r'.serveConcerned env' group request) := by
  unfold serveConcerned
  split
  · exact h.both henv henv' htime htime' hcalm
  · rename_i hother
    exact h.first henv htime hcalm (Bool.eq_false_iff.mpr hother)

theorem Abreast.serveAll {requests : List Request} (hcalm : ∀ a ∈ requests, a.IsCalm)
    (h : Abreast group r r') :
    Abreast group (r.serveAll env requests)
      (r'.serveAll env' (requests.filter (Request.concerns group))) ∧
    (env'.walk.channels = env.walk.channels → tidings group r'.journal = tidings group r.journal →
      tidings group (r'.serveAll env' (requests.filter (Request.concerns group))).journal =
        tidings group (r.serveAll env requests).journal) := by
  induction requests generalizing r r' with
  | nil => exact ⟨h, fun _ hsame => hsame⟩
  | cons a rest ih =>
    obtain ⟨habreast, es, es', hes, hes', -, hwalk⟩ :=
      h.serve henv henv' htime htime' (hcalm a List.mem_cons_self)
    obtain ⟨hrest, htidings⟩ := ih (fun b hb => hcalm b (List.mem_cons_of_mem a hb)) habreast
    rw [serveAll_filter_cons]
    refine ⟨hrest, ?_⟩
    intro hchannels hsame
    refine htidings hchannels ?_
    rw [hes', hsame, hwalk hchannels, hes]

/-- Whatever a registry is asked for, one that is only asked for what concerns a group has the same
record of this group in the end, or none as well. The listeners are told the same of the group by
every request, and by those that do not concern it nothing: only the clients that one sweep takes
out may leave in another order, and a change may name its clients in another order. With the same
walk over channels there is no difference at all. -/
theorem groups_do_not_touch_each_other (settings : Settings) (listeners : List Nat) (clock : Clock)
    (measured : Bool) (outside : Ω) {requests : List Request} (hcalm : ∀ a ∈ requests, a.IsCalm)
    (n : Nat) :
    let new := Registry.new settings listeners clock measured outside
    let r := new.serveAll env (requests.take n)
    let r' := new.serveAll env' ((requests.take n).filter (Request.concerns group))
    r'.group? group = r.group? group ∧
    (∀ request, requests[n]? = some request →
      let s := r.serve env request
      let s' := if request.concerns group then r'.serve env' request else r'
      ∃ es es', tidings group s.journal = tidings group r.journal ++ es ∧
        tidings group s'.journal = tidings group r'.journal ++ es' ∧ request.SameNews es es') ∧
    (env'.walk.channels = env.walk.channels →
      tidings group r'.journal = tidings group r.journal) := by
  intro new r r'
  have hnew : Abreast group new new := abreast_new group settings listeners clock measured outside
  obtain ⟨habreast, htidings⟩ := hnew.serveAll henv henv' htime htime'
    fun a ha => hcalm a (List.mem_of_mem_take ha)
  refine ⟨habreast.group, ?_, fun hchannels => htidings hchannels rfl⟩
  intro request hrequest
  obtain ⟨-, es, es', hes, hes', hsame, -⟩ := habreast.serve henv henv' htime htime'
    (hcalm request (List.mem_of_getElem? hrequest))
  exact ⟨es, es', hes, hes', hsame⟩

end

/-- Two groups share a channel, the other group loses its clients, and all of the first expire. -/
def twoGroups : List Request :=
  [.register true (.sample "g" 7), .register true (.sample "h" 7), .register true (.sample "h" 8),
    .register true (.sample "g" 8), .leave "h" (Registration.sample "h" 7).client true,
    .setClock ⟨200000⟩, .sweep]

/-- The clients of the group are swept out in one order or the other, whatever the other group
did. -/
theorem a_group_is_swept_the_same_beside_another :
    (∀ a ∈ twoGroups, a.IsCalm) ∧ twoGroups[6]? = some .sweep ∧
      let env := Surroundings.still Unit
      let env' := env.walking .descending
      let new := Registry.new default [0] default false ()
      let r := new.serveAll env (twoGroups.take 6)
      let r' := new.serveAll env' ((twoGroups.take 6).filter (Request.concerns "g"))
      r'.group? "g" = r.group? "g" ∧
      ∃ es es', tidings "g" (r.serve env .sweep).journal = tidings "g" r.journal ++ es ∧
        tidings "g" (r'.serve env' .sweep).journal = tidings "g" r'.journal ++ es' ∧
        Request.sweep.SameNews es es' := by
  have hcalm : ∀ a ∈ twoGroups, a.IsCalm := by
    simp [twoGroups, Request.IsCalm, Registration.sample, Client.new]
  have htime : (Surroundings.still Unit).ActBy KeepsTime := ⟨fun _ => rfl, fun _ _ _ _ => rfl⟩
  have htime' : ((Surroundings.still Unit).walking .descending).ActBy KeepsTime :=
    ⟨fun _ => rfl, fun _ _ _ _ => rfl⟩
  obtain ⟨hgroup, hnews, -⟩ := groups_do_not_touch_each_other (Surroundings.quiet_still Unit)
    ((Surroundings.quiet_still Unit).walking .descending) htime htime' default [0] default false ()
    hcalm 6
  exact ⟨hcalm, rfl, hgroup, hnews .sweep rfl⟩

end Registry

end ConsumerGroups
