-- The steps of a registry. Whatever is asked of a registry, and whatever others do in between,
-- comes down to five kinds of steps. So what one step keeps is kept by every operation, however
-- deep operations are nested, and also halfway through them.
import Mathlib.Logic.Relation
import ConsumerGroups.Registry.Request
import ConsumerGroups.Proofs.Aside
import ConsumerGroups.Proofs.Records

set_option autoImplicit false

namespace ConsumerGroups

namespace Registry

variable {Ω : Type}

/-- One step of a registry. `calm` says that no client comes in on a channel that panics when it is
told to close. -/
inductive Step (calm : Prop) : Registry Ω → Registry Ω → Prop where
  /-- the groups are left alone -/
  | aside {r s : Registry Ω} (h : r.Aside s) : Step calm r s
  /-- a group that is not on the table is founded -/
  | found {r : Registry Ω} {name : String} (policy : Policy) (hname : IsName name)
      (hnew : r.current? name = none) : Step calm r (r.addRecord (Group.new name policy))
  /-- a registration goes into a record -/
  | revise {r : Registry Ω} {i : Nat} {g : Group} {q : Registration} (now : UInt64)
      (hg : r.record? i = some g) (hq : calm → q.client.channel.closing ≠ .panics) :
      Step calm r (r.setRecord i (revised q now g).group)
  /-- clients are taken out of a record -/
  | release {r : Registry Ω} {i : Nat} {g : Group} {stays : UInt64 → Client → Bool}
      {gone : List Client} (hg : r.record? i = some g)
      (hgone : ∀ c, c ∈ gone ↔ ∃ id, g.clients.find? id = some c ∧ stays id c = false) :
      Step calm r (r.takeFrom i { g with clients := g.clients.filter stays } gone)
  /-- a record without clients is taken off the table -/
  | unmap {r : Registry Ω} {group : String} {i : Nat} {g : Group} (call : Call)
      (hcurrent : r.current? group = some i) (hg : r.record? i = some g)
      (hempty : g.isEmpty = true) : Step calm r (r.removeRecord group i g call)

/-- Any number of steps. -/
abbrev Steps (calm : Prop) : Registry Ω → Registry Ω → Prop := Relation.ReflTransGen (Step calm)

theorem Steps.tolerant {calm : Prop} : Tolerant (Steps (Ω := Ω) calm) :=
  ⟨fun h _ _ => .single (.aside h), Relation.ReflTransGen.trans⟩

/-- One client is taken out of a record. -/
theorem Step.without {calm : Prop} {r : Registry Ω} {i : Nat} {g : Group} {id : UInt64}
    {stored : Client} (hg : r.record? i = some g) (hs : g.clients.find? id = some stored) :
    Step calm r (r.takeFrom i (g.without id) [stored]) :=
  .release hg (mem_gone_without hs)

/-- The clients that have expired are taken out of a record. -/
theorem Step.withoutExpired {calm : Prop} {r : Registry Ω} {i : Nat} {g : Group}
    (env : Surroundings Ω) (now limit : UInt64) (hg : r.record? i = some g) :
    Step calm r (r.takeFrom i (g.withoutExpired now limit) (expiredOf env g now limit)) :=
  .release hg (mem_gone_withoutExpired env g now limit)

end Registry

/-! ## Removals -/

/-- A relation that also holds when clients are taken out of a record, and when a record without
clients is taken off the table. -/
structure Removing {Ω : Type} (R : Registry Ω → Registry Ω → Prop) : Prop extends Tolerant R where
  release : ∀ {r : Registry Ω} {i : Nat} {g : Group} {stays : UInt64 → Client → Bool}
    {gone : List Client}, r.record? i = some g →
    (∀ c, c ∈ gone ↔ ∃ id, g.clients.find? id = some c ∧ stays id c = false) →
    R r (r.takeFrom i { g with clients := g.clients.filter stays } gone)
  unmap : ∀ {r : Registry Ω} {group : String} {i : Nat} {g : Group} (call : Call),
    r.current? group = some i → r.record? i = some g → g.isEmpty = true →
    R r (r.removeRecord group i g call)

namespace Removing

variable {Ω : Type} {R : Registry Ω → Registry Ω → Prop} {env : Surroundings Ω}

theorem removeIfVacant (hR : Removing R) (group : String) (i : Nat) (call : Call)
    (r : Registry Ω) : R r (r.removeIfVacant group i call).1 := by
  unfold Registry.removeIfVacant
  split
  · exact hR.refl r
  · rename_i g hg
    split
    · rename_i h
      rw [Bool.and_eq_true, Registry.isCurrent_iff] at h
      exact hR.unmap call h.1 hg h.2
    · exact hR.refl r

theorem settleDeparture (hR : Removing R) (henv : env.ActBy R) (group : String) (i : Nat)
    (announce : Bool) (call : Call) (r : Registry Ω) :
    R r (r.settleDeparture env group i announce call) :=
  hR.trans (hR.removeIfVacant group i call r)
    (hR.toTolerant.settleDeparture henv group i announce call r)

theorem takeOut (hR : Removing R) (henv : env.ActBy R) (group : String) (i : Nat)
    (client : Client) (r : Registry Ω) : R r (r.takeOut env group i client) := by
  unfold Registry.takeOut
  split
  · exact hR.refl r
  · rename_i g hg
    split
    · exact hR.refl r
    · rename_i stored hs
      have htaken : R r (r.takeFrom i (g.without client.channel.id) [stored]) :=
        hR.release hg (Registry.mem_gone_without hs)
      exact hR.trans (hR.trans htaken (hR.logAll _ _)) (hR.sendLeft henv group i client _)

theorem leave (hR : Removing R) (henv : env.ActBy R) (group : String) (client : Client)
    (announce : Bool) (r : Registry Ω) : R r (r.leave env group client announce) := by
  unfold Registry.leave
  split
  · exact hR.refl r
  · rename_i i _
    have hbegan : R r (r.note (.began (.leave group client.channel.id))) := hR.note r rfl
    exact hR.trans (hR.trans (hR.trans hbegan (hR.takeOut henv group i client _))
      (hR.settleDeparture henv group i announce _ _)) (hR.note _ rfl)

theorem closeIn (hR : Removing R) (henv : env.ActBy R) (address : String) (id : UInt64) (i : Nat)
    (r : Registry Ω) : R r (r.closeIn env address id i) := by
  unfold Registry.closeIn
  split
  · exact hR.refl r
  · rename_i g hg
    split
    · exact hR.refl r
    · rename_i stored hs
      have htaken : R r (r.takeFrom i (g.without id) [stored]) :=
        hR.release hg (Registry.mem_gone_without hs)
      exact hR.trans (hR.trans (hR.trans htaken (hR.logAll _ _))
        (hR.sendLeft henv g.name i stored _)) (hR.settleDeparture henv g.name i true _ _)

theorem closeInAll (hR : Removing R) (henv : env.ActBy R) (address : String) (id : UInt64)
    (is : List Nat) (r : Registry Ω) :
    R r (is.foldl (fun r i => r.closeIn env address id i) r) := by
  induction is generalizing r with
  | nil => exact hR.refl r
  | cons i rest ih => exact hR.trans (hR.closeIn henv address id i r) (ih _)

theorem channelClosed (hR : Removing R) (henv : env.ActBy R) (address : String) (id : UInt64)
    (r : Registry Ω) : R r (r.channelClosed env address id).1 :=
  hR.trans (hR.trans (hR.note r rfl) (hR.closeInAll henv address id _ _)) (hR.note _ rfl)

theorem sweepRecord (hR : Removing R) (henv : env.ActBy R) (now : UInt64) (i : Nat)
    (r : Registry Ω) : R r (r.sweepRecord env now i).1 := by
  cases hg : r.record? i with
  | none =>
    rw [Registry.sweepRecord_of_missing hg]
    exact hR.refl r
  | some g =>
    rw [Registry.sweepRecord_of_some hg]
    have htaken : R r (r.takeFrom i (g.withoutExpired now r.settings.expiry)
        (Registry.expiredOf env g now r.settings.expiry)) :=
      hR.release hg (Registry.mem_gone_withoutExpired env g now r.settings.expiry)
    refine hR.andThen (hR.trans htaken (hR.discard henv now g i _ _)) ?_
    intro s n _
    exact hR.trans (hR.removeIfVacant g.name i .sweep s) (hR.logAll _ _)

theorem sweepAll (hR : Removing R) (henv : env.ActBy R) (now : UInt64) (is : List Nat)
    (r : Registry Ω) : R r (r.sweepAll env now is).1 := by
  induction is generalizing r with
  | nil => exact hR.refl r
  | cons i rest ih =>
    refine hR.andThen (hR.sweepRecord henv now i r) ?_
    intro s n _
    refine hR.andThen (ih s) ?_
    exact fun t _ _ => hR.refl t

/-- What comes of a sweep that has begun. -/
theorem sweep_of_begun (hR : Removing R) (henv : env.ActBy R) (r : Registry Ω) :
    R (r.note (.began .sweep)) (r.sweep env).1 := by
  refine hR.trans (hR.andThen (hR.readClock henv (r.note (.began .sweep))) ?_) (hR.note _ rfl)
  intro s now _
  exact hR.sweepAll henv now _ s

theorem sweep (hR : Removing R) (henv : env.ActBy R) (r : Registry Ω) : R r (r.sweep env).1 :=
  hR.trans (hR.note r rfl) (hR.sweep_of_begun henv r)

end Removing

/-! ## Registrations -/

/-- A relation that also holds when a group is founded, and when an admitted registration goes into
a record at the time that the clock shows. -/
structure Admitting {Ω : Type} (admits : Registration → Prop)
    (R : Registry Ω → Registry Ω → Prop) : Prop extends Removing R where
  found : ∀ {r : Registry Ω} {name : String} (policy : Policy), IsName name →
    r.current? name = none → R r (r.addRecord (Group.new name policy))
  revise : ∀ {r : Registry Ω} {i : Nat} {g : Group} {q : Registration}, admits q →
    r.record? i = some g → R r (r.setRecord i (Registry.revised q r.clock.now g).group)

namespace Admitting

variable {Ω : Type} {admits : Registration → Prop} {R : Registry Ω → Registry Ω → Prop}
  {env : Surroundings Ω} {q : Registration}

theorem findOrFound (hR : Admitting admits R) (henv : env.ActBy R) (hname : IsName q.group)
    (r : Registry Ω) : R r (r.findOrFound env q).1 := by
  unfold Registry.findOrFound
  split
  · exact hR.refl r
  · have hsend := hR.send henv q.group (.clientJoined q.client q.topics) r
    dsimp only
    split
    · exact hsend
    · rename_i hnew
      exact hR.trans hsend (hR.found q.policy hname hnew)

theorem update (hR : Admitting admits R) (hq : admits q) (i : Nat) (r : Registry Ω) :
    R r (r.update q i r.clock.now).1 := by
  unfold Registry.update
  split
  · exact hR.refl r
  · rename_i g hg
    exact hR.trans (hR.revise hq hg) (hR.logAll _ _)

theorem attempt (hR : Admitting admits R) (henv : env.ActBy R) (hname : IsName q.group)
    (hq : admits q) (r : Registry Ω) : R r (r.attempt env q).1 := by
  have hfound := hR.findOrFound henv hname r
  have hread := hR.trans hfound (henv.reading (r.findOrFound env q).1)
  unfold Registry.attempt
  dsimp only
  cases hreturn : (env.beforeReading (r.findOrFound env q).1).2 with
  | error panic =>
    rw [Registry.readClock_of_panics hreturn]
    exact hread
  | ok =>
    rw [Registry.readClock_of_returns hreturn]
    exact hR.trans hread (hR.update hq _ _)

theorem settle (hR : Admitting admits R) (henv : env.ActBy R) (hname : IsName q.group)
    (hq : admits q) (spare : Nat) (r : Registry Ω) : R r (r.settle env q spare).1 := by
  induction spare generalizing r with
  | zero => exact hR.attempt henv hname hq r
  | succ spare ih =>
    refine hR.andThen (hR.attempt henv hname hq r) ?_
    intro s result _
    dsimp only
    split
    · exact hR.refl s
    · exact hR.trans (hR.logAll s _) (ih _)

theorem place (hR : Admitting admits R) (henv : env.ActBy R) (hname : IsName q.group)
    (hq : admits q) (r : Registry Ω) : R r (r.place env q).1 := by
  refine hR.andThen (hR.readClock henv r) ?_
  intro s start _
  refine hR.andThen (hR.settle henv hname hq _ s) ?_
  exact fun t _ _ => hR.refl t

theorem registerChecked (hR : Admitting admits R) (henv : env.ActBy R) (hname : IsName q.group)
    (hq : admits q) (r : Registry Ω) : R r (r.registerChecked env q).1 := by
  refine hR.andThen (hR.place henv hname hq r) ?_
  intro s result _
  exact hR.proclaim henv q _ _ _ s

theorem tryRegister (hR : Admitting admits R) (henv : env.ActBy R) (hq : admits q)
    (r : Registry Ω) : R r (r.tryRegister env q).1 := by
  unfold Registry.tryRegister
  split
  · exact hR.refl r
  · rename_i hname
    have hbegan : R r (r.note (.began (.register q.group q.client.channel.id))) := hR.note r rfl
    exact hR.trans (hR.trans hbegan
      (hR.registerChecked henv (checkName_eq_ok_iff.mp hname) hq _)) (hR.note _ rfl)

theorem register (hR : Admitting admits R) (henv : env.ActBy R) (hq : admits q)
    (r : Registry Ω) : R r (r.register env q).1 := by
  obtain ⟨lines, hregister⟩ := Registry.fst_register env q r
  rw [hregister]
  exact hR.trans (hR.tryRegister henv hq r) (hR.logAll _ lines)

/-- Whatever is asked, besides to set the clock. -/
theorem serve (hR : Admitting admits R) (henv : env.ActBy R) {request : Request}
    (hq : ∀ strict q, request = .register strict q → admits q) {r : Registry Ω}
    (hclock : ∀ clock, request = .setClock clock → R r { r with clock }) :
    R r (r.serve env request) := by
  cases request with
  | register strict q =>
    cases strict with
    | true => exact hR.tryRegister henv (hq true q rfl) r
    | false => exact hR.register henv (hq false q rfl) r
  | leave group client announce => exact hR.leave henv group client announce r
  | channelClosed address id => exact hR.channelClosed henv address id r
  | sweep => exact hR.sweep henv r
  | addListener l => exact hR.aside (.addListener r l) rfl rfl
  | setClock clock => exact hclock clock rfl

end Admitting

/-! ## Every operation is made of steps -/

/-- Whether a request brings in no channel that panics when it is told to close. -/
def Request.IsCalm : Request → Prop
  | .register _ q => q.client.channel.closing ≠ .panics
  | _ => True

namespace Registry

variable {Ω : Type} {calm : Prop} {env : Surroundings Ω}

theorem Steps.admitting :
    Admitting (fun q => calm → q.client.channel.closing ≠ .panics) (Steps (Ω := Ω) calm) where
  toTolerant := Steps.tolerant
  release := fun hg hgone => .single (.release hg hgone)
  unmap := fun call hcurrent hg hempty => .single (.unmap call hcurrent hg hempty)
  found := fun policy hname hnew => .single (.found policy hname hnew)
  revise := fun hq hg => .single (.revise _ hg hq)

theorem Steps.removing : Removing (Steps (Ω := Ω) calm) := Steps.admitting.toRemoving

/-- Whatever is asked, it is done in steps. -/
theorem steps_serve (henv : env.ActBy (Steps calm)) {request : Request}
    (hcalm : calm → request.IsCalm) (r : Registry Ω) : Steps calm r (r.serve env request) := by
  refine Steps.admitting.serve henv ?_ ?_
  · rintro strict q rfl
    exact hcalm
  · exact fun clock _ => .single (.aside (.setClock r clock))

theorem steps_serveAll (henv : env.ActBy (Steps calm)) {requests : List Request}
    (hcalm : calm → ∀ a ∈ requests, a.IsCalm) (r : Registry Ω) :
    Steps calm r (r.serveAll env requests) := by
  induction requests generalizing r with
  | nil => exact .refl
  | cons a rest ih =>
    have hfirst := steps_serve henv (fun hc => hcalm hc a List.mem_cons_self) r
    exact hfirst.trans (ih (fun hc b hb => hcalm hc b (List.mem_cons_of_mem a hb)) _)

end Registry

end ConsumerGroups
