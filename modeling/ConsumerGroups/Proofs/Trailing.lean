-- No change trails the end of a group. When a listener that was told of the end is told of a
-- change that was sent out later, a registration has founded the group again in between. It may
-- have begun long before: a registration that finds no group tells of its client first, and the
-- group may come and go while it does. Nothing is said here of a change that was sent out before
-- the end.
import ConsumerGroups.Proofs.Truthful

set_option autoImplicit false

namespace ConsumerGroups

/-- At `journal` listeners are told of an event that was sent out at `start`: its entry was the
newest one then, and since then all that began has ended. -/
def SentAt (start journal : List Entry) (group : String) (event : Event) : Prop :=
  ∃ since onTable older, start = .sent group event onTable :: older ∧ journal = since ++ start ∧
    Balanced since

/-- Between two journals a registration founds a group, while it is the innermost call. -/
def Refounded (group : String) (older newer : List Entry) : Prop :=
  ∃ later i earlier id, newer = later ++ .mapped group i :: (earlier ++ older) ∧
    (openCalls (earlier ++ older)).head? = some (.register group id)

/-- What listeners are told of is an event that is being handed on. -/
theorem Underway.sentAt {journal : List Entry} {group : String} {event : Event}
    (h : Underway journal group event) : ∃ start, SentAt start journal group event := by
  obtain ⟨since, onTable, older, hj, hb⟩ := h
  exact ⟨_, since, onTable, older, rfl, hj, hb⟩

namespace Registry

variable {Ω : Type} {steady : Prop} {r : Registry Ω} {settings : Settings} {listeners : List Nat}
  {clock : Clock} {measured : Bool} {outside : Ω} {group : String} {clients : List Client}
  {after newer older : List Entry} {onTable onTable' : Option Group}

/-- Whatever founds a group is its registration. -/
theorem refounded_of_mapped
    (h : Attended steady (Registry.new settings listeners clock measured outside) r) {i : Nat}
    (hj : r.journal = after ++ (newer ++ older)) (hi : .mapped group i ∈ newer) :
    Refounded group older (newer ++ older) := by
  obtain ⟨later, earlier, rfl⟩ := List.append_of_mem hi
  have hfounded : r.journal = (after ++ later) ++ .mapped group i :: (earlier ++ older) := by
    rw [hj]
    simp
  obtain ⟨id, htop⟩ := h.warranted hfounded
  exact ⟨later, i, earlier, id, by simp, htop⟩

/-- A change that is sent out after the end of its group is news of one that was founded again. -/
theorem founded_before_change
    (h : Attended steady (Registry.new settings listeners clock measured outside) r)
    (hj : r.journal = after ++ .sent group (.changed clients) onTable' ::
      (newer ++ .sent group .dissolved onTable :: older)) : ∃ i, .mapped group i ∈ newer := by
  obtain ⟨⟨g, hg, -, -⟩, hfounded⟩ := h.warranted hj
  exact hfounded (by simp [hg]) newer onTable older rfl

/-- Between the end of a group and a change that is sent out later it is founded again. -/
theorem refounded_of_sentAt
    (h : Attended steady (Registry.new settings listeners clock measured outside) r)
    {journal journal' ended changed : List Entry} (hj : r.journal = after ++ journal')
    (hended : SentAt ended journal group .dissolved)
    (hchanged : SentAt changed journal' group (.changed clients)) (hlater : ended <:+ changed) :
    Refounded group ended changed := by
  obtain ⟨-, onTable, older, rfl, -, -⟩ := hended
  obtain ⟨since, onTable', before, rfl, rfl, -⟩ := hchanged
  obtain ⟨newer, hnewer⟩ := hlater
  cases newer with
  | nil => simp at hnewer
  | cons e newer =>
    rw [List.cons_append, List.cons.injEq] at hnewer
    obtain ⟨rfl, rfl⟩ := hnewer
    have hsent : r.journal = (after ++ since) ++ .sent group (.changed clients) onTable' ::
        (newer ++ .sent group .dissolved onTable :: older) := by
      rw [hj, List.append_assoc]
    obtain ⟨i, hi⟩ := founded_before_change h hsent
    have hmem : .mapped group i ∈ .sent group (.changed clients) onTable' :: newer :=
      List.mem_cons_of_mem _ hi
    exact refounded_of_mapped h hsent hmem

/-- After a listener was told of the end of a group it is told of no change of this group that was
sent out later than the end, unless a registration has founded the group again in between. The end
and the change were sent out at `ended` and `changed`. -/
theorem no_change_trails_the_end
    (h : Attended steady (Registry.new settings listeners clock measured outside) r) {l : Nat}
    {between before : List Entry}
    (hj : r.journal = after ++ .told l group (.changed clients) ::
      (between ++ .told l group .dissolved :: before)) :
    (∃ ended, SentAt ended before group .dissolved) ∧
      (∃ changed, SentAt changed (between ++ .told l group .dissolved :: before) group
        (.changed clients)) ∧
      ∀ ended changed, SentAt ended before group .dissolved →
        SentAt changed (between ++ .told l group .dissolved :: before) group (.changed clients) →
        ended <:+ changed → Refounded group ended changed := by
  have hend : r.journal = (after ++ .told l group (.changed clients) :: between) ++
      .told l group .dissolved :: before := by
    rw [hj]
    simp
  have htold : r.journal = (after ++ [.told l group (.changed clients)]) ++
      (between ++ .told l group .dissolved :: before) := by
    rw [hj]
    simp
  refine ⟨(h.warranted hend).sentAt, (h.warranted hj).sentAt, ?_⟩
  intro ended changed hended hchanged hlater
  exact refounded_of_sentAt h htold hended hchanged hlater

/-- A listener that registered another client when it was told of the end of its group is told of
the change that this brings. -/
theorem a_change_follows_a_new_registration :
    Attended False (Registry.new default [0] default false ()) handedOver ∧
      ∃ after clients between before ended changed,
        handedOver.journal = after ++ .told 0 "g" (.changed clients) ::
          (between ++ .told 0 "g" .dissolved :: before) ∧
        SentAt ended before "g" .dissolved ∧
        SentAt changed (between ++ .told 0 "g" .dissolved :: before) "g" (.changed clients) ∧
        Refounded "g" ended changed := by
  have h : Attended False (Registry.new default [0] default false ()) handedOver :=
    attended_asking refounding _ (.nothing _)
  obtain ⟨clients, hj, hsent⟩ : ∃ clients, (handedOver.journal =
      handedOver.journal.take 4 ++ .told 0 "g" (.changed clients) ::
        ((handedOver.journal.drop 5).take 7 ++ .told 0 "g" .dissolved ::
          handedOver.journal.drop 13)) ∧
      ∃ onTable older, handedOver.journal.drop 5 = .sent "g" (.changed clients) onTable :: older :=
    ⟨_, by rfl, _, _, by rfl⟩
  have hended : SentAt (handedOver.journal.drop 13) (handedOver.journal.drop 13) "g" .dissolved :=
    ⟨[], none, _, by rfl, rfl, .nil⟩
  have hchanged : SentAt (handedOver.journal.drop 5) ((handedOver.journal.drop 5).take 7 ++
      .told 0 "g" .dissolved :: handedOver.journal.drop 13) "g" (.changed clients) := by
    obtain ⟨onTable, older, hstart⟩ := hsent
    exact ⟨[], onTable, older, hstart, by rfl, .nil⟩
  have hlater : handedOver.journal.drop 13 <:+ handedOver.journal.drop 5 :=
    List.drop_suffix_drop_left _ (by decide)
  exact ⟨h, _, clients, _, _, _, _, hj, hended, hchanged,
    (no_change_trails_the_end h hj).2.2 _ _ hended hchanged hlater⟩

/-! ## Changes that trail all the same -/

/-- The first of two listeners lets the client of a group leave as soon as it is told of a
change. -/
def leaving (l : Nat) : Event → List Request
  | .changed _ => if l = 0 then [.leave "g" (Registration.sample "g" 7).client true] else []
  | _ => []

/-- A client registers. While the listeners are being told of the change, it leaves. -/
def gone : Registry Unit :=
  (Registry.new default [0, 1] default false ()).serveAll (.asking leaving)
    [.register true (.sample "g" 7)]

/-- While it is told that a client is about to found a group, a listener registers another one and
lets it leave. -/
def visiting (_ : Nat) : Event → List Request
  | .clientJoined client _ =>
    if client.channel.id = 7 then
      [.register true (.sample "g" 8), .leave "g" (Registration.sample "g" 8).client true]
    else []
  | _ => []

/-- A client registers. Another one is in the group before it and leaves it. -/
def visited : Registry Unit :=
  (Registry.new default [0] default false ()).serveAll (.asking visiting)
    [.register true (.sample "g" 7)]

/-- Listeners are told of changes after the end of a group although no registration began since that
was sent out: the second of two, because the end came while they were being told of the change, and
one in whose group a registration was in progress. -/
theorem a_change_can_trail_the_end :
    (Attended True (Registry.new default [0, 1] default false ()) gone ∧
      ∃ after clients between since onTable older,
        gone.journal = after ++ .told 1 "g" (.changed clients) ::
          (between ++ .told 1 "g" .dissolved :: (since ++ .sent "g" .dissolved onTable :: older)) ∧
        Balanced since ∧
        ∀ id, .began (.register "g" id) ∉ between ++ .told 1 "g" .dissolved :: since) ∧
    Attended True (Registry.new default [0] default false ()) visited ∧
      ∃ after clients between since onTable older,
        visited.journal = after ++ .told 0 "g" (.changed clients) ::
          (between ++ .told 0 "g" .dissolved :: (since ++ .sent "g" .dissolved onTable :: older)) ∧
        Balanced since ∧
        ∀ id, .began (.register "g" id) ∉ between ++ .told 0 "g" .dissolved :: since := by
  refine ⟨⟨attended_asking leaving _ (.nothing _), ?_⟩, attended_asking visiting _ (.nothing _), ?_⟩
  · refine ⟨gone.journal.take 4, _, [.ended], [.told 0 "g" .dissolved], none, _, by rfl, ?_, ?_⟩
    · exact .entry rfl .nil
    · intro id
      simp
  · refine ⟨visited.journal.take 3, _, [.sent "g" (.changed _) _, .logged _, .logged _,
      .mapped "g" 1, .ended], [], none, _, by rfl, .nil, ?_⟩
    intro id
    simp

end Registry

end ConsumerGroups
