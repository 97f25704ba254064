-- Who is in a group follows from what happened. A registration brings a client in; it goes when it
-- leaves, when its channel closes, or when a sweep finds that it was silent for too long since its
-- last registration. Histories are lists with the newest first, like the journal.
import ConsumerGroups.Proofs.Quiet

set_option autoImplicit false

namespace ConsumerGroups

/-- Something that happened to the clients of a registry. -/
inductive Happening where
  | registered (q : Registration) (time : UInt64)
  | left (group : String) (id : UInt64)
  | closed (id : UInt64)
  | swept (now : UInt64)
deriving DecidableEq

namespace Registry

variable {Ω : Type}

/-- What a request comes to, at the times at which the clock is read for it. -/
def happening? (env : Surroundings Ω) (request : Request) (r : Registry Ω) : Option Happening :=
  match request with
  | .register _ q =>
    match checkName q.group with
    | .ok () => some (.registered q (r.registerTime env q))
    | .error _ => none
  | .leave group client _ => some (.left group client.channel.id)
  | .channelClosed _ id => some (.closed id)
  | .sweep => some (.swept (r.sweepTime env))
  | .addListener _ => none
  | .setClock _ => none

/-- What a list of requests comes to, newest first. -/
def history (env : Surroundings Ω) : List Request → Registry Ω → List Happening
  | [], _ => []
  | request :: rest, r =>
    history env rest (r.serve env request) ++ (r.happening? env request).toList

end Registry

/-! ## What a history says of one client of one group -/

/-- Whether this is a registration of the client on a channel with a group. -/
def Registration.IsOf (q : Registration) (group : String) (id : UInt64) : Prop :=
  group = q.group ∧ id = q.client.channel.id

instance (q : Registration) (group : String) (id : UInt64) : Decidable (q.IsOf group id) :=
  inferInstanceAs (Decidable (_ ∧ _))

/-- The registrations of a client with a group and their times, newest first. -/
def registrations (group : String) (id : UInt64) (h : List Happening) :
    List (Registration × UInt64) :=
  h.filterMap fun
    | .registered q time => if q.IsOf group id then some (q, time) else none
    | _ => none

/-- Whether something takes a client out of a group, after what happened before. -/
def Happening.Removes (limit : UInt64) (group : String) (id : UInt64) (before : List Happening) :
    Happening → Prop
  | .registered .. => False
  | .left group' id' => group = group' ∧ id = id'
  | .closed id' => id = id'
  | .swept now => ∃ q time, (registrations group id before).head? = some (q, time) ∧
      limit.toNat < now.toNat - time.toNat

/-- A client belongs to a group when it registered and nothing that happened afterwards takes it
out. -/
def Belongs (limit : UInt64) (group : String) (id : UInt64) (h : List Happening) : Prop :=
  ∃ after q time before, h = after ++ .registered q time :: before ∧ q.IsOf group id ∧
    ∀ newer e older, after = newer ++ e :: older →
      ¬ e.Removes limit group id (older ++ .registered q time :: before)

/-- The latest registrations in a row that describe a client as it is described here. -/
def latestRow (c : Client) (rs : List (Registration × UInt64)) : List (Registration × UInt64) :=
  rs.takeWhile (fun p => p.1.client.sameClaims c)

/-- From the end of `before` on something holds after everything that happened. -/
def Throughout (P : List Happening → Prop) (since before : List Happening) : Prop :=
  ∀ newer older, since = newer ++ older → older ≠ [] → P (older ++ before)

/-- From the end of `before` on a client belongs to a group without a break. -/
def Unbroken (limit : UInt64) (group : String) (id : UInt64) (since before : List Happening) :
    Prop :=
  ∀ newer older, since = newer ++ older → older ≠ [] → Belongs limit group id (older ++ before)

/-- A history explains what is stored of a client: it belongs to its group, it is described as at
its last registration, and its channel is that of the first registration in the latest row of
registrations that describe it like this, as far back as it belongs to the group without a break. -/
structure Explains (limit : UInt64) (group : String) (id : UInt64) (h : List Happening)
    (c : Client) : Prop where
  belongs : Belongs limit group id h
  claims : ∃ q time, (registrations group id h).head? = some (q, time) ∧
    c.name = q.client.name ∧ c.language = q.client.language ∧ c.version = q.client.version ∧
    c.heardAt = time
  channel : ∃ since before q time, h = since ++ before ∧ ¬ Belongs limit group id before ∧
    Unbroken limit group id since before ∧
    (latestRow c (registrations group id since)).getLast? = some (q, time) ∧
    c.channel = q.client.channel

section

variable {limit : UInt64} {group : String} {id : UInt64} {h : List Happening} {e : Happening}

theorem throughout_nil (P : List Happening → Prop) (before : List Happening) :
    Throughout P [] before := by
  intro newer older heq holder
  exact absurd (List.append_eq_nil_iff.mp heq.symm).2 holder

theorem Throughout.cons {P : List Happening → Prop} {since before : List Happening}
    (h : Throughout P since before) (he : P (e :: (since ++ before))) :
    Throughout P (e :: since) before := by
  intro newer older heq holder
  cases newer with
  | nil =>
    rw [List.nil_append] at heq
    rw [← heq]
    exact he
  | cons _ newer =>
    simp only [List.cons_append, List.cons.injEq] at heq
    exact h newer older heq.2 holder

theorem not_belongs_nil : ¬ Belongs limit group id [] := by
  rintro ⟨after, q, time, before, heq, -⟩
  simp at heq

theorem belongs_of_registered {q : Registration} (hq : q.IsOf group id) (time : UInt64)
    (h : List Happening) : Belongs limit group id (.registered q time :: h) := by
  refine ⟨[], q, time, h, rfl, hq, ?_⟩
  intro newer e older heq
  simp at heq

/-- Who belonged to a group does so still, unless it was taken out. -/
theorem Belongs.stays (hb : Belongs limit group id h) (he : ¬ e.Removes limit group id h) :
    Belongs limit group id (e :: h) := by
  obtain ⟨after, q, time, before, rfl, hq, hkept⟩ := hb
  refine ⟨e :: after, q, time, before, rfl, hq, ?_⟩
  intro newer e' older heq
  cases newer with
  | nil =>
    simp only [List.nil_append, List.cons.injEq] at heq
    rw [← heq.1, ← heq.2]
    exact he
  | cons _ newer =>
    simp only [List.cons_append, List.cons.injEq] at heq
    exact hkept newer e' older heq.2

/-- Who belongs to a group has just registered, or did belong to it and was not taken out. -/
theorem Belongs.cases (hb : Belongs limit group id (e :: h)) :
    (∃ q time, e = .registered q time ∧ q.IsOf group id) ∨
      (Belongs limit group id h ∧ ¬ e.Removes limit group id h) := by
  obtain ⟨after, q, time, before, heq, hq, hkept⟩ := hb
  cases after with
  | nil =>
    simp only [List.nil_append, List.cons.injEq] at heq
    exact .inl ⟨q, time, heq.1, hq⟩
  | cons e' after =>
    simp only [List.cons_append, List.cons.injEq] at heq
    obtain ⟨rfl, rfl⟩ := heq
    right
    refine ⟨⟨after, q, time, before, rfl, hq, ?_⟩, hkept [] e after rfl⟩
    intro newer e' older heq
    exact hkept (e :: newer) e' older (by rw [heq, List.cons_append])

/-! ## What is stored after a history -/

/-- What is stored of a client after something happened, next to what was stored before. -/
def Happening.apply (limit : UInt64) (group : String) (id : UInt64) (e : Happening)
    (old : Option Client) : Option Client :=
  match e with
  | .registered q time =>
    if q.IsOf group id then some (Group.heardRecord old { q.client with heardAt := time }) else old
  | .left group' id' => if group = group' ∧ id = id' then none else old
  | .closed id' => if id = id' then none else old
  | .swept now => old.filter (Registry.lively now limit id)

theorem registrations_cons_other (he : ∀ q time, e = .registered q time → ¬ q.IsOf group id) :
    registrations group id (e :: h) = registrations group id h := by
  cases e with
  | registered q time =>
    have hq := he q time rfl
    simp [registrations, hq]
  | _ => rfl

theorem registrations_cons_self {q : Registration} (hq : q.IsOf group id) (time : UInt64)
    (h : List Happening) :
    registrations group id (.registered q time :: h) = (q, time) :: registrations group id h := by
  simp [registrations, hq]

theorem Unbroken.cons {since before : List Happening} (h : Unbroken limit group id since before)
    (hb : Belongs limit group id (e :: (since ++ before))) :
    Unbroken limit group id (e :: since) before :=
  Throughout.cons (P := Belongs limit group id) h hb

/-- What does not concern a client changes nothing of what explains it. -/
theorem Explains.cons_other {c : Client} (hx : Explains limit group id h c)
    (he : ∀ q time, e = .registered q time → ¬ q.IsOf group id)
    (hr : ¬ e.Removes limit group id h) : Explains limit group id (e :: h) c := by
  obtain ⟨since, before, q, time, rfl, hno, hall, hlast, hchannel⟩ := hx.channel
  have hb := hx.belongs.stays hr
  refine ⟨hb, ?_, e :: since, before, q, time, rfl, hno, hall.cons hb, ?_, hchannel⟩
  · rw [registrations_cons_other he]
    exact hx.claims
  · rw [registrations_cons_other he]
    exact hlast

/-- The first registration of a client explains it. -/
theorem explains_first {q : Registration} (hq : q.IsOf group id) (time : UInt64)
    (hno : ¬ Belongs limit group id h) :
    Explains limit group id (.registered q time :: h) { q.client with heardAt := time } := by
  have hb : Belongs limit group id (.registered q time :: h) := belongs_of_registered hq time h
  have hnil : Unbroken limit group id [] h := throughout_nil (Belongs limit group id) h
  refine ⟨hb, ⟨q, time, ?_, rfl, rfl, rfl, rfl⟩, [.registered q time], h, q, time, rfl, hno,
    hnil.cons hb, ?_, rfl⟩
  · rw [registrations_cons_self hq]
    rfl
  · rw [registrations_cons_self hq]
    simp [registrations, latestRow, Client.sameClaims]

/-- A further registration with the same claims explains what is stored: only the time is new. -/
theorem Explains.same {q : Registration} {c : Client} (hx : Explains limit group id h c)
    (hq : q.IsOf group id) (time : UInt64) (hsame : c.sameClaims q.client = true) :
    Explains limit group id (.registered q time :: h) { c with heardAt := time } := by
  obtain ⟨since, before, first, time₀, rfl, hno, hall, hlast, hchannel⟩ := hx.channel
  have hb : Belongs limit group id (.registered q time :: (since ++ before)) :=
    belongs_of_registered hq time _
  obtain ⟨hname, hlanguage, hversion⟩ := Client.sameClaims_iff.mp hsame
  have hhead : q.client.sameClaims { c with heardAt := time } = true :=
    Client.sameClaims_iff.mpr ⟨hname.symm, hlanguage.symm, hversion.symm⟩
  refine ⟨hb, ⟨q, time, ?_, hname, hlanguage, hversion, rfl⟩, .registered q time :: since, before,
    first, time₀, rfl, hno, hall.cons hb, ?_, hchannel⟩
  · rw [registrations_cons_self hq]
    rfl
  · rw [registrations_cons_self hq, latestRow, List.takeWhile_cons, if_pos hhead,
      List.getLast?_cons]
    have hlast : (List.takeWhile
        (fun p : Registration × UInt64 => p.1.client.sameClaims { c with heardAt := time })
        (registrations group id since)).getLast? = some (first, time₀) := hlast
    rw [hlast]
    rfl

/-- A row does not go on when the client describes itself otherwise. -/
theorem latestRow_of_other {c d : Client} {rs : List (Registration × UInt64)}
    (hc : latestRow c rs ≠ []) (hother : c.sameClaims d = false) : latestRow d rs = [] := by
  cases rs with
  | nil => rfl
  | cons p rest =>
    unfold latestRow at hc ⊢
    rw [List.takeWhile_cons] at hc ⊢
    by_cases hp : p.1.client.sameClaims c = true
    · rw [if_neg]
      intro hd
      rw [Client.sameClaims_iff] at hp hd
      rw [← Bool.not_eq_true, Client.sameClaims_iff, ← hp.1, ← hp.2.1, ← hp.2.2] at hother
      exact hother hd
    · rw [if_neg hp] at hc
      exact absurd rfl hc

/-- A further registration with other claims is explained by itself. -/
theorem Explains.other {q : Registration} {c : Client} (hx : Explains limit group id h c)
    (hq : q.IsOf group id) (time : UInt64) (hother : c.sameClaims q.client = false) :
    Explains limit group id (.registered q time :: h) { q.client with heardAt := time } := by
  obtain ⟨since, before, first, time₀, rfl, hno, hall, hlast, -⟩ := hx.channel
  have hb : Belongs limit group id (.registered q time :: (since ++ before)) :=
    belongs_of_registered hq time _
  refine ⟨hb, ⟨q, time, ?_, rfl, rfl, rfl, rfl⟩, .registered q time :: since, before,
    q, time, rfl, hno, hall.cons hb, ?_, rfl⟩
  · rw [registrations_cons_self hq]
    rfl
  · have hrow : latestRow c (registrations group id since) ≠ [] := by
      intro hnil
      rw [hnil] at hlast
      cases hlast
    have hhead : q.client.sameClaims { q.client with heardAt := time } = true :=
      Client.sameClaims_iff.mpr ⟨rfl, rfl, rfl⟩
    have hrest := latestRow_of_other (d := { q.client with heardAt := time }) hrow hother
    rw [registrations_cons_self hq, latestRow, List.takeWhile_cons, if_pos hhead, ← latestRow,
      hrest]
    rfl

theorem apply_registered {q : Registration} (hq : q.IsOf group id) (time : UInt64)
    (old : Option Client) : (Happening.registered q time).apply limit group id old =
      some (Group.heardRecord old { q.client with heardAt := time }) := by
  rw [Happening.apply, if_pos hq]

theorem apply_none (he : ∀ q time, e = .registered q time → ¬ q.IsOf group id) :
    e.apply limit group id none = none := by
  cases e with
  | registered q time => rw [Happening.apply, if_neg (he q time rfl)]
  | left group' id' => simp [Happening.apply]
  | closed id' => simp [Happening.apply]
  | swept now => rfl

/-- The sweep goes by the last registration, which is when the client was last heard of. -/
theorem Explains.expired_iff {c : Client} (hx : Explains limit group id h c) (now : UInt64) :
    c.expired now limit = true ↔ (Happening.swept now).Removes limit group id h := by
  obtain ⟨q, time, hhead, -, -, -, rfl⟩ := hx.claims
  rw [Client.expired_iff, Happening.Removes, hhead]
  constructor
  · exact fun hlate => ⟨q, _, rfl, hlate⟩
  · rintro ⟨q', time', heq, hlate⟩
    cases heq
    exact hlate

theorem apply_of_removes {c : Client} (hx : Explains limit group id h c)
    (hr : e.Removes limit group id h) : e.apply limit group id (some c) = none := by
  cases e with
  | registered q time => exact hr.elim
  | left group' id' => exact if_pos hr
  | closed id' => exact if_pos hr
  | swept now =>
    have hexpired := (hx.expired_iff now).mpr hr
    simp [Happening.apply, Option.filter_some, Registry.lively, hexpired]

theorem apply_of_stays {c : Client} (hx : Explains limit group id h c)
    (he : ∀ q time, e = .registered q time → ¬ q.IsOf group id)
    (hr : ¬ e.Removes limit group id h) : e.apply limit group id (some c) = some c := by
  cases e with
  | registered q time => exact if_neg (he q time rfl)
  | left group' id' => exact if_neg hr
  | closed id' => exact if_neg hr
  | swept now =>
    have hlively : ¬ c.expired now limit = true := fun hc => hr ((hx.expired_iff now).mp hc)
    simp [Happening.apply, Option.filter_some, Registry.lively, hlively]

/-- A history accounts for what is stored: it explains a client, and when none is stored, nobody
belongs to the group. -/
def AccountsFor (limit : UInt64) (group : String) (id : UInt64) (h : List Happening) :
    Option Client → Prop
  | none => ¬ Belongs limit group id h
  | some c => Explains limit group id h c

theorem AccountsFor.registered {q : Registration} (hq : q.IsOf group id) (time : UInt64)
    {old : Option Client} (ha : AccountsFor limit group id h old) :
    AccountsFor limit group id (.registered q time :: h)
      ((Happening.registered q time).apply limit group id old) := by
  rw [apply_registered hq]
  cases old with
  | none => exact explains_first hq time ha
  | some c =>
    unfold Group.heardRecord
    dsimp only
    split
    · rename_i hsame
      exact Explains.same ha hq time hsame
    · rename_i hother
      exact Explains.other ha hq time (Bool.eq_false_iff.mpr hother)

/-- What is not a registration of the client keeps it, or takes it out. -/
theorem AccountsFor.happened (he : ∀ q time, e = .registered q time → ¬ q.IsOf group id)
    {old : Option Client} (ha : AccountsFor limit group id h old) :
    AccountsFor limit group id (e :: h) (e.apply limit group id old) := by
  have hbefore : Belongs limit group id (e :: h) →
      Belongs limit group id h ∧ ¬ e.Removes limit group id h := by
    intro hb
    rcases hb.cases with ⟨q, time, heq, hq⟩ | hb
    · exact absurd hq (he q time heq)
    · exact hb
  cases old with
  | none =>
    rw [apply_none he]
    exact fun hb => ha (hbefore hb).1
  | some c =>
    by_cases hr : e.Removes limit group id h
    · rw [apply_of_removes ha hr]
      exact fun hb => (hbefore hb).2 hr
    · rw [apply_of_stays ha he hr]
      exact Explains.cons_other ha he hr

theorem AccountsFor.cons (e : Happening) {old : Option Client}
    (ha : AccountsFor limit group id h old) :
    AccountsFor limit group id (e :: h) (e.apply limit group id old) := by
  by_cases hreg : ∃ q time, e = .registered q time ∧ q.IsOf group id
  · obtain ⟨q, time, rfl, hq⟩ := hreg
    exact ha.registered hq time
  · exact ha.happened fun q time heq hq => hreg ⟨q, time, heq, hq⟩

theorem accountsFor_stored (limit : UInt64) (group : String) (id : UInt64) (h : List Happening) :
    AccountsFor limit group id h (h.foldr (Happening.apply limit group id) none) := by
  induction h with
  | nil => exact not_belongs_nil
  | cons e before ih => exact ih.cons e

end

/-! ## What a registry does to what is stored -/

namespace Registry

variable {Ω : Type} {env : Surroundings Ω} {r : Registry Ω}

theorem clientOn?_serve (henv : env.Quiet) (hw : r.WellFormed) (hgentle : r.Gentle)
    (request : Request) (group : String) (id : UInt64) :
    (r.serve env request).clientOn? group id = (r.happening? env request).toList.foldr
      (Happening.apply r.settings.expiry group id) (r.clientOn? group id) := by
  cases request with
  | register strict q =>
    unfold happening?
    dsimp only
    split
    · rename_i hcheck
      exact clientOn?_register henv hw (checkName_eq_ok_iff.mp hcheck) strict group id
    · rename_i flaw hcheck
      have hno : ¬ IsName q.group := by
        rw [← checkName_eq_ok_iff, hcheck]
        simp
      exact (aside_of_flaw hno strict).clientOn? group id
  | leave group' client announce =>
    exact clientOn?_leave henv.aside hw group' client announce group id
  | channelClosed address id' => exact clientOn?_channelClosed henv.aside address id' group id
  | sweep => exact clientOn?_sweep henv hgentle group id
  | addListener l => exact (Aside.addListener r l).clientOn? group id
  | setClock clock => exact (Aside.setClock r clock).clientOn? group id

theorem clientOn?_serveAll (henv : env.Quiet) (hw : r.WellFormed) (hgentle : r.Gentle)
    {requests : List Request} (hcalm : ∀ a ∈ requests, a.IsCalm) (group : String) (id : UInt64) :
    (r.serveAll env requests).clientOn? group id = (history env requests r).foldr
      (Happening.apply r.settings.expiry group id) (r.clientOn? group id) := by
  induction requests generalizing r with
  | nil => rfl
  | cons a rest ih =>
    have hsteps : Steps True r (r.serve env a) :=
      steps_serve henv.steps
        (fun _ => hcalm a List.mem_cons_self) r
    have hrest := ih (hsteps.wellFormed hw) (hsteps.gentle hgentle)
      fun b hb => hcalm b (List.mem_cons_of_mem a hb)
    rw [serveAll, hrest, hsteps.settings, clientOn?_serve henv hw hgentle, history,
      List.foldr_append]

/-- As long as nobody interferes, the history tells who is in a group and what is stored of it. -/
theorem membership_follows_from_history (henv : env.Quiet) (settings : Settings)
    (listeners : List Nat) (clock : Clock) (measured : Bool) (outside : Ω)
    {requests : List Request} (hcalm : ∀ a ∈ requests, a.IsCalm) (group : String) (id : UInt64) :
    let r₀ := Registry.new settings listeners clock measured outside
    let r := r₀.serveAll env requests
    let h := history env requests r₀
    ((∃ c, r.clientOn? group id = some c) ↔ Belongs settings.expiry group id h) ∧
      ∀ c, r.clientOn? group id = some c → Explains settings.expiry group id h c := by
  intro r₀ r h
  have hw : r₀.WellFormed := wellFormed_new settings listeners clock measured outside
  have hgentle : r₀.Gentle := gentle_new settings listeners clock measured outside
  have hstored : r.clientOn? group id =
      h.foldr (Happening.apply settings.expiry group id) none :=
    clientOn?_serveAll henv hw hgentle hcalm group id
  have haccount := accountsFor_stored settings.expiry group id h
  rw [← hstored] at haccount
  cases hc : r.clientOn? group id with
  | none =>
    rw [hc] at haccount
    refine ⟨⟨?_, fun hb => absurd hb haccount⟩, fun c hc => by cases hc⟩
    rintro ⟨c, hc⟩
    cases hc
  | some c =>
    rw [hc] at haccount
    refine ⟨⟨fun _ => Explains.belongs haccount, fun _ => ⟨c, rfl⟩⟩, ?_⟩
    intro c' hc'
    cases hc'
    exact haccount

/-- A client registers, and later it does so again on another wire that carries the same number. -/
def visits : List Request :=
  [.register true (.sample "g" 7), .setClock ⟨1000⟩,
    .register false { Registration.sample "g" 7 with
      client := .new ⟨"other wire", 7, localAddress 7, .refuses⟩ "client" .java 1 },
    .sweep]

/-- A client that registers again keeps its first channel, but is heard of anew. -/
theorem a_client_keeps_its_first_channel :
    (∀ a ∈ visits, a.IsCalm) ∧
      ∃ c, ((Registry.new default [] default false ()).serveAll (.still Unit) visits).clientOn?
          "g" 7 = some c ∧ c.channel.key = "7" ∧ c.heardAt = 1000 ∧
        Explains (Settings.expiry default) "g" 7
          (history (.still Unit) visits (Registry.new default [] default false ())) c := by
  have hcalm : ∀ a ∈ visits, a.IsCalm := by
    simp [visits, Request.IsCalm, Registration.sample, Client.new]
  have h := membership_follows_from_history (Surroundings.quiet_still Unit) default [] default false
    () hcalm "g" 7
  refine ⟨hcalm, _, rfl, rfl, rfl, h.2 _ rfl⟩

end Registry

end ConsumerGroups
