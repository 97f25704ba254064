-- What events say is true when they go out, whatever others do while listeners are called or the
-- clock is read. A group that is told to be founded or dissolved is not on the table, and a change
-- shows exactly the clients of the record that is. Only of a departure one can hear too late: a
-- sweep takes all its clients out of a record before it tells of them one by one, and by then a
-- client may have registered again.
import ConsumerGroups.Proofs.Orderly

set_option autoImplicit false

namespace ConsumerGroups

/-! ## Journals in which every entry is warranted by those before it -/

/-- A group was founded since it was last dissolved. -/
def FoundedSince (journal : List Entry) (group : String) : Prop :=
  ∀ newer onTable older, journal = newer ++ .sent group .dissolved onTable :: older →
    ∃ i, .mapped group i ∈ newer

/-- What warrants an entry of a journal: an event goes out on its grounds, and if its group is on
the table, this was founded since it was last dissolved; listeners are told of an event that is
being handed on; and groups are founded by their registrations. -/
def Warranted (steady : Prop) (before : List Entry) : Entry → Prop
  | .sent group event onTable =>
    Justified steady (openCalls before).head? before group onTable event ∧
      (onTable ≠ none → FoundedSince before group)
  | .told _ group event => Underway before group event
  | .mapped group _ => ∃ id, (openCalls before).head? = some (.register group id)
  | _ => True

/-- A journal in which every entry is warranted by those before it. -/
inductive Chronicle (steady : Prop) : List Entry → Prop where
  | nil : Chronicle steady []
  | cons {e : Entry} {before : List Entry} (he : Warranted steady before e)
      (h : Chronicle steady before) : Chronicle steady (e :: before)

theorem Chronicle.warranted {steady : Prop} {after before : List Entry} {e : Entry}
    (h : Chronicle steady (after ++ e :: before)) : Warranted steady before e := by
  induction after with
  | nil =>
    cases h with
    | cons he _ => exact he
  | cons e' rest ih =>
    cases h with
    | cons _ h => exact ih h

/-- Where something stands in a journal: among the entries that are new, or before them. -/
theorem split_append {es before newer older : List Entry} {e : Entry}
    (h : es ++ before = newer ++ e :: older) :
    (∃ rest, es = newer ++ e :: rest ∧ older = rest ++ before) ∨
      ∃ rest, newer = es ++ rest ∧ before = rest ++ e :: older := by
  rcases List.append_eq_append_iff.mp h with ⟨rest, hnewer, hbefore⟩ | ⟨rest, hes, hrest⟩
  · exact .inr ⟨rest, hnewer, hbefore⟩
  · cases rest with
    | nil =>
      rw [List.nil_append] at hrest
      rw [List.append_nil] at hes
      exact .inr ⟨[], by simp [hes], by simp [hrest]⟩
    | cons e' rest =>
      simp only [List.cons_append, List.cons.injEq] at hrest
      obtain ⟨rfl, rfl⟩ := hrest
      exact .inl ⟨rest, hes, rfl⟩

/-- What is new leaves a group founded since it was last dissolved, if it does not tell of its
end. -/
theorem FoundedSince.append {before : List Entry} {group : String} (h : FoundedSince before group)
    (es : List Entry) (hes : ∀ onTable, .sent group .dissolved onTable ∉ es) :
    FoundedSince (es ++ before) group := by
  intro newer onTable older hsplit
  rcases split_append hsplit with ⟨rest, rfl, -⟩ | ⟨rest, rfl, hbefore⟩
  · exact absurd (by simp) (hes onTable)
  · obtain ⟨i, hi⟩ := h rest onTable older hbefore
    exact ⟨i, List.mem_append_right es hi⟩

namespace Registry

variable {Ω : Type} {steady : Prop} {top : Option Call} {r s : Registry Ω}

/-- The journal of a registry is warranted, and the groups on its table were founded since they were
last dissolved. -/
structure Chronicled (steady : Prop) (r : Registry Ω) : Prop where
  chronicle : Chronicle steady r.journal
  founded : ∀ group, r.current? group ≠ none → FoundedSince r.journal group

/-- Entries are added of which none tells of an end or founds a group. -/
theorem Chronicled.append (hr : r.Chronicled steady) (es : List Entry)
    (hjournal : s.journal = es ++ r.journal)
    (hes : ∀ e ∈ es, (∀ before, Warranted steady before e) ∧
      ∀ group onTable, e ≠ .sent group .dissolved onTable)
    (hcurrent : ∀ group, s.current? group ≠ none → r.current? group ≠ none) :
    s.Chronicled steady := by
  refine ⟨?_, ?_⟩
  · rw [hjournal]
    clear hjournal
    induction es with
    | nil => exact hr.chronicle
    | cons e rest ih =>
      exact .cons ((hes e List.mem_cons_self).1 _)
        (ih fun e' he' => hes e' (List.mem_cons_of_mem e he'))
  · intro group hgroup
    rw [hjournal]
    refine (hr.founded group (hcurrent group hgroup)).append es ?_
    exact fun onTable hmem => (hes _ hmem).2 group onTable rfl

theorem chronicled_sent (hw : r.WellFormed) (htop : (openCalls r.journal).head? = top)
    (hr : r.Chronicled steady) {group : String} {event : Event}
    (h : Justified steady top r.journal group (r.group? group) event) :
    (r.note (.sent group event (r.group? group))).Chronicled steady := by
  have hcurrent : r.group? group ≠ none → r.current? group ≠ none :=
    mt (group?_eq_none_iff hw).mpr
  subst htop
  refine ⟨.cons ⟨h, fun hg => hr.founded group (hcurrent hg)⟩ hr.chronicle, ?_⟩
  intro group' hgroup'
  refine (hr.founded group' hgroup').append [_] ?_
  -- of the end of a group one hears when it is not on the table
  intro onTable hmem
  rw [List.mem_singleton] at hmem
  cases hmem
  exact hgroup' ((group?_eq_none_iff hw).mp h.1)

theorem chronicled_addRecord (hr : r.Chronicled steady) {name : String} {id : UInt64}
    (htop : (openCalls r.journal).head? = some (.register name id)) (policy : Policy) :
    (r.addRecord (Group.new name policy)).Chronicled steady := by
  refine ⟨.cons ⟨id, htop⟩ hr.chronicle, ?_⟩
  intro group hgroup
  by_cases hn : group = name
  · subst hn
    intro newer onTable older hsplit
    have hfirst : [.mapped group r.records.length] ++ r.journal =
        newer ++ .sent group .dissolved onTable :: older := hsplit
    rcases split_append hfirst with ⟨rest, hes, -⟩ | ⟨rest, rfl, -⟩
    · rw [List.singleton_eq_append_iff] at hes
      simp at hes
    · exact ⟨r.records.length, List.mem_cons_self⟩
  · rw [current?_addRecord_of_ne r hn] at hgroup
    refine (hr.founded group hgroup).append [_] ?_
    simp

theorem Move.chronicled (h : Move steady top r s) (hw : r.WellFormed)
    (htop : (openCalls r.journal).head? = top) (hr : r.Chronicled steady) :
    s.Chronicled steady := by
  cases h with
  | silent h =>
    refine hr.append [] h.journal (by simp) ?_
    intro group hgroup
    rwa [h.aside.current?] at hgroup
  | logged lines =>
    refine hr.append _ rfl ?_ (fun _ => id)
    simp [Warranted]
  | sent _ h => exact chronicled_sent hw htop hr h
  | told l h =>
    subst htop
    exact ⟨.cons h hr.chronicle, fun group hgroup =>
      (hr.founded group hgroup).append [_] (by simp)⟩
  | found policy _ hregister _ => exact chronicled_addRecord hr (htop.trans hregister) policy
  | revise => exact hr.append [] rfl (by simp) fun _ => id
  | release =>
    refine hr.append _ rfl ?_ (fun _ => id)
    simp [Warranted]
  | @unmap group i g call =>
    refine hr.append [_] rfl (by simp [Warranted]) ?_
    intro group' hgroup'
    by_cases hn : group' = group
    · subst hn
      rw [current?_removeRecord] at hgroup'
      exact absurd rfl hgroup'
    · rwa [current?_removeRecord_of_ne r hn] at hgroup'

theorem Course.chronicled (h : Course steady top r s) (hw : r.WellFormed)
    (htop : (openCalls r.journal).head? = top) (hr : r.Chronicled steady) :
    s.Chronicled steady := by
  induction h with
  | refl => exact hr
  | @move top r s t h hm ih =>
    refine hm.chronicled (h.steps.wellFormed hw) ?_ (ih hw htop hr)
    rw [h.keeps_open]
    exact htop
  | @call top r s t call h _ ih ihc =>
    have hbegun : (s.note (.began call)).Chronicled steady :=
      (ih hw htop hr).append [_] rfl (by simp [Warranted]) fun _ => id
    have hws := (Aside.note s (e := .began call) rfl).wellFormed (h.steps.wellFormed hw)
    exact (ihc hws rfl hbegun).append [_] rfl (by simp [Warranted]) fun _ => id

/-- In the journal of a registry everything is warranted. -/
theorem Attended.warranted {settings : Settings} {listeners : List Nat} {clock : Clock}
    {measured : Bool} {outside : Ω}
    (h : Attended steady (Registry.new settings listeners clock measured outside) r)
    {after before : List Entry} {e : Entry} (hj : r.journal = after ++ e :: before) :
    Warranted steady before e := by
  have hcourse := h.course (kept_new settings listeners clock measured outside) none
  have hnew : (Registry.new settings listeners clock measured outside).Chronicled steady :=
    ⟨.nil, fun group hgroup => absurd rfl hgroup⟩
  have hr := hcourse.chronicled (wellFormed_new settings listeners clock measured outside) rfl hnew
  have hchronicle := hr.chronicle
  rw [hj] at hchronicle
  exact hchronicle.warranted

/-! ## Events are true when they go out -/

/-- When listeners are told that a client joins, the group is not on the table; when they are told
of the end of a group, its empty record was just taken off; and news of a change shows the clients
of the record that is on the table then, of which there are some. -/
theorem events_are_true_when_sent {settings : Settings} {listeners : List Nat} {clock : Clock}
    {measured : Bool} {outside : Ω}
    (h : Attended steady (Registry.new settings listeners clock measured outside) r)
    {group : String} {event : Event} {onTable : Option Group} {after before : List Entry}
    (hj : r.journal = after ++ .sent group event onTable :: before) :
    (∀ client topics, event = .clientJoined client topics → onTable = none) ∧
      (event = .dissolved → onTable = none ∧ ∃ line i last call earlier,
        before = .logged line :: .unmapped group i last call :: earlier ∧ last.isEmpty = true) ∧
      ∀ clients, event = .changed clients → ∃ g, onTable = some g ∧ g.isEmpty = false ∧
        clients.Perm g.clients.values := by
  have hgrounds : Justified steady (openCalls before).head? before group onTable event :=
    (h.warranted hj).1
  refine ⟨?_, ?_, ?_⟩
  · rintro client topics rfl
    exact hgrounds
  · rintro rfl
    exact hgrounds
  · rintro clients rfl
    exact hgrounds

/-- Listeners register a client of a group when they hear of its end. -/
def refounding (_ : Nat) : Event → List Request
  | .dissolved => [.register true (.sample "g" 8)]
  | _ => []

/-- The only client of a group leaves, and while this is told of, another one registers. -/
def handedOver : Registry Unit :=
  (Registry.new default [0] default false ()).serveAll (.asking refounding)
    [.register true (.sample "g" 7), .leave "g" (Registration.sample "g" 7).client true]

/-- The news of the second client tells who is there, although those of the end of the first are
still being handed on. -/
theorem news_within_news_is_true :
    Attended False (Registry.new default [0] default false ()) handedOver ∧
      ∃ after before clients g,
        handedOver.journal = after ++ .sent "g" (.changed clients) (some g) :: before ∧
          openCalls before = [.register "g" 8, .leave "g" 7] ∧
          g.isEmpty = false ∧ clients.Perm g.clients.values := by
  have h : Attended False (Registry.new default [0] default false ()) handedOver :=
    attended_asking refounding _ (.nothing _)
  obtain ⟨clients, onTable, hj⟩ : ∃ clients onTable, handedOver.journal =
      handedOver.journal.take 5 ++ .sent "g" (.changed clients) onTable ::
        handedOver.journal.drop 6 := ⟨_, _, by rfl⟩
  obtain ⟨g, rfl, hempty, hperm⟩ := (events_are_true_when_sent h hj).2.2 clients rfl
  exact ⟨h, _, _, clients, g, hj, by rfl, hempty, hperm⟩

/-! ## Departures -/

/-- When listeners are told that a client left its group, it is not in it, unless it is there again
by then. -/
theorem departures_are_true_unless_the_client_rejoined {settings : Settings} {listeners : List Nat}
    {clock : Clock} {measured : Bool} {outside : Ω}
    (h : Attended steady (Registry.new settings listeners clock measured outside) r)
    {group : String} {client : Client} {topics : SortedSet String} {onTable : Option Group}
    {after before : List Entry}
    (hj : r.journal = after ++ .sent group (.clientLeft client topics) onTable :: before) :
    (∀ g, onTable = some g → g.clients.find? client.channel.id = none) ∨
      Rejoined steady (openCalls before).head? before group client.channel.id := by
  have hgrounds : Justified steady (openCalls before).head? before group onTable
      (.clientLeft client topics) := (h.warranted hj).1
  by_cases hin : ∃ g, onTable = some g ∧ (g.clients.find? client.channel.id).isSome = true
  · obtain ⟨g, hg, hin⟩ := hin
    exact .inr (hgrounds g hg hin)
  · left
    intro g hg
    rw [← Option.not_isSome_iff_eq_none]
    exact fun hsome => hin ⟨g, hg, hsome⟩

/-- Listeners register one client of a group when they hear that another one left. -/
def rejoining (_ : Nat) : Event → List Request
  | .clientLeft client _ =>
    if client.channel.id = 7 then [.register true (.sample "g" 8)] else []
  | _ => []

/-- Two clients expire, and while one hears of the first, the second registers again. -/
def sweptTooLate : Registry Unit :=
  (Registry.new default [0] default false ()).serveAll (.asking rejoining)
    [.register true (.sample "g" 7), .register true (.sample "g" 8), .setClock ⟨200000⟩, .sweep]

/-- Listeners are told that a client left although it has registered again. -/
theorem a_rejoined_client_is_told_to_have_left :
    Attended True (Registry.new default [0] default false ()) sweptTooLate ∧
      ∃ after before client topics g,
        sweptTooLate.journal = after ++ .sent "g" (.clientLeft client topics) (some g) :: before ∧
          client.channel.id = 8 ∧ (g.clients.find? 8).isSome = true ∧
          Rejoined True (some .sweep) before "g" 8 := by
  have h : Attended True (Registry.new default [0] default false ()) sweptTooLate :=
    attended_asking rejoining _ (.nothing _)
  obtain ⟨client, topics, g, hj, hid, hin⟩ : ∃ client topics g,
      sweptTooLate.journal = sweptTooLate.journal.take 2 ++
        .sent "g" (.clientLeft client topics) (some g) :: sweptTooLate.journal.drop 3 ∧
      client.channel.id = 8 ∧ (g.clients.find? 8).isSome = true :=
    ⟨_, _, _, by rfl, by rfl, by rfl⟩
  refine ⟨h, _, _, client, topics, g, hj, hid, hin, ?_⟩
  rcases departures_are_true_unless_the_client_rejoined h hj with hout | hrejoined
  · rw [hid] at hout
    rw [hout g rfl] at hin
    cases hin
  · rw [hid] at hrejoined
    exact hrejoined

end Registry

end ConsumerGroups
