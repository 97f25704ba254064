-- Registrations that are turned down for the name of their group. This comes before anything else is
-- done, so nothing is different afterwards. And it is all that sets the ways of asking for a
-- registration apart.
import ConsumerGroups.Registry.Register

set_option autoImplicit false

namespace ConsumerGroups

/-! ## What is wrong with a name -/

/-- The complaint about the name of a group: of three flaws, the first that the name has. -/
inductive Complaint : String → String → Prop where
  | empty : Complaint "" "Condition failed: invalid string for 'group', was empty"
  | blank {name : String} (hsome : name ≠ "") (hblank : ∀ c ∈ name.toList, isBlank c = true) :
      Complaint name "Condition failed: invalid string for 'group', was all whitespace"
  | foreign {name : String} (hshown : ∃ c ∈ name.toList, isBlank c = false)
      (hforeign : ∃ c ∈ name.toList, 0x80 ≤ c.toNat) :
      Complaint name
        ("Condition failed: invalid string for 'group' contained a non-ASCII char, was '" ++ name ++
          "'")

theorem message_foreign (name : String) : (Flaw.foreign name).message "group" =
    "Condition failed: invalid string for 'group' contained a non-ASCII char, was '" ++ name ++
      "'" := by
  have hbefore : "Condition failed: invalid string for '" ++ "group" ++
      "' contained a non-ASCII char, was '" =
      "Condition failed: invalid string for 'group' contained a non-ASCII char, was '" := by decide
  rw [← hbefore]
  rfl

theorem checkName_of_blank {name : String} (hsome : name ≠ "")
    (hblank : ∀ c ∈ name.toList, isBlank c = true) : checkName name = .error .blank := by
  unfold checkName
  rw [if_neg (by simpa using hsome), if_pos (List.all_eq_true.mpr hblank)]

theorem checkName_of_foreign {name : String} (hshown : ∃ c ∈ name.toList, isBlank c = false)
    (hforeign : ∃ c ∈ name.toList, 0x80 ≤ c.toNat) : checkName name = .error (.foreign name) := by
  have hsome : name.toList ≠ [] := by
    obtain ⟨c, hc, -⟩ := hshown
    exact List.ne_nil_of_mem hc
  unfold checkName
  rw [if_neg (by simpa using hsome), if_neg (by simpa using hshown),
    if_neg (by simpa [isAscii] using hforeign)]

/-- A check fails for a reason, and it is the first that there is. -/
theorem complaint_of_error {name : String} {flaw : Flaw} (h : checkName name = .error flaw) :
    Complaint name (flaw.message "group") := by
  unfold checkName at h
  split at h
  · rename_i hempty
    have hname : name = "" := by simpa using hempty
    cases h
    rw [hname]
    exact .empty
  · rename_i hsome
    split at h
    · rename_i hblank
      cases h
      exact .blank (by simpa using hsome) (List.all_eq_true.mp hblank)
    · rename_i hshown
      split at h
      · cases h
      · rename_i hforeign
        cases h
        rw [message_foreign]
        exact .foreign (by simpa using hshown) (by simpa [isAscii] using hforeign)

theorem complaint_iff {name message : String} : Complaint name message ↔
    ∃ flaw, checkName name = .error flaw ∧ flaw.message "group" = message := by
  constructor
  · intro h
    cases h with
    | empty => exact ⟨.empty, rfl, by decide⟩
    | blank hsome hblank => exact ⟨.blank, checkName_of_blank hsome hblank, by decide⟩
    | foreign hshown hforeign =>
      exact ⟨.foreign name, checkName_of_foreign hshown hforeign, message_foreign name⟩
  · rintro ⟨flaw, hflaw, rfl⟩
    exact complaint_of_error hflaw

/-- A wide blank is outside ASCII, but that it is blank comes first. -/
example : Complaint "\u3000" "Condition failed: invalid string for 'group', was all whitespace" :=
  .blank (by decide) (List.all_eq_true.mp (by decide))

/-- Something is wrong with a name that is empty, blank or not all ASCII, and with no other. -/
theorem exists_complaint_iff {name : String} : (∃ message, Complaint name message) ↔
    name = "" ∨ (∀ c ∈ name.toList, isBlank c = true) ∨ ∃ c ∈ name.toList, 0x80 ≤ c.toNat := by
  constructor
  · rintro ⟨message, h⟩
    cases h with
    | empty => exact .inl rfl
    | blank _ hblank => exact .inr (.inl hblank)
    | foreign _ hforeign => exact .inr (.inr hforeign)
  · intro h
    by_cases hempty : name = ""
    · rw [hempty]
      exact ⟨_, .empty⟩
    by_cases hblank : ∀ c ∈ name.toList, isBlank c = true
    · exact ⟨_, .blank hempty hblank⟩
    have hforeign := (h.resolve_left hempty).resolve_left hblank
    exact ⟨_, .foreign (by simpa using hblank) hforeign⟩

namespace Registry

variable {Ω : Type}

/-! ## What comes of it -/

/-- What is said to callers who do not want to know of rejections. -/
def leniently : Except Rejection Bool → Bool
  | .ok changed => changed
  | .error _ => false

/-- What the log says instead. -/
def ignoredLines : Returned (Except Rejection Bool) → List LogLine
  | .ok (.error j) => [⟨.warn, "Ignoring consumer registration: " ++ j.message⟩]
  | _ => []

/-- Registrations are turned down for their names and for nothing else. -/
theorem rejected_iff (env : Surroundings Ω) (q : Registration) (r : Registry Ω) (j : Rejection) :
    (r.tryRegister env q).2 = .ok (.error j) ↔ checkName q.group = .error j.flaw := by
  cases hname : checkName q.group with
  | error flaw =>
    rw [tryRegister_of_flaw env q r hname]
    cases j
    simp
  | ok =>
    rw [tryRegister_of_name env (checkName_eq_ok_iff.mp hname) r]
    constructor
    · intro h
      dsimp only at h
      rcases hdone : (registerChecked env q
        (r.note (.began (.register q.group q.client.channel.id)))).2 with panic | changed
      · rw [hdone] at h
        cases h
      · rw [hdone] at h
        cases h
    · intro h
      cases h

theorem register_eq (env : Surroundings Ω) (q : Registration) (r : Registry Ω) :
    r.register env q = ((r.tryRegister env q).1.logAll (ignoredLines (r.tryRegister env q).2),
      (r.tryRegister env q).2.map leniently) := by
  unfold register
  rcases r.tryRegister env q with ⟨s, (panic | (j | changed))⟩
  · rfl
  · rfl
  · rfl

/-- A registration is turned down if its group has no name, only blanks for a name, or a name with a
character outside ASCII, and then the complaint is about the first of these. Nothing is different
afterwards, and nothing of the surroundings matters to it: neither what would happen before a reading
of the clock, nor the listeners. A caller who does not want to know of this hears that nothing
changed; anything else comes out the same for him, but for a line of the log. And to register with
all subscriptions is to register with subscriptions that are declared. -/
theorem bad_names_are_turned_down (env : Surroundings Ω) (q : Registration) (r : Registry Ω) :
    (∀ message, (∃ j, (r.tryRegister env q).2 = .ok (.error j) ∧ j.flaw.message "group" = message) ↔
      Complaint q.group message) ∧
    ((∃ j, (r.tryRegister env q).2 = .ok (.error j)) ↔ q.group = "" ∨
      (∀ c ∈ q.group.toList, isBlank c = true) ∨ ∃ c ∈ q.group.toList, 0x80 ≤ c.toNat) ∧
    (∀ j, (r.tryRegister env q).2 = .ok (.error j) ↔
      ∀ env' : Surroundings Ω, r.tryRegister env' q = (r, .ok (.error j))) ∧
    r.register env q = ((r.tryRegister env q).1.logAll (ignoredLines (r.tryRegister env q).2),
      (r.tryRegister env q).2.map leniently) ∧
    r.registerAll env q = r.register env { q with declares := true } := by
  have hcomplaint : ∀ message, (∃ j, (r.tryRegister env q).2 = .ok (.error j) ∧
      j.flaw.message "group" = message) ↔ Complaint q.group message := by
    intro message
    rw [complaint_iff]
    constructor
    · rintro ⟨j, hj, hmessage⟩
      exact ⟨j.flaw, (rejected_iff env q r j).mp hj, hmessage⟩
    · rintro ⟨flaw, hflaw, hmessage⟩
      exact ⟨⟨flaw⟩, (rejected_iff env q r ⟨flaw⟩).mpr hflaw, hmessage⟩
  refine ⟨hcomplaint, ?_, ?_, register_eq env q r, rfl⟩
  · rw [← exists_complaint_iff]
    constructor
    · rintro ⟨j, hj⟩
      exact ⟨_, (hcomplaint _).mp ⟨j, hj, rfl⟩⟩
    · rintro ⟨message, hmessage⟩
      obtain ⟨j, hj, -⟩ := (hcomplaint message).mpr hmessage
      exact ⟨j, hj⟩
  · intro j
    constructor
    · intro hj env'
      exact tryRegister_of_flaw env' q r ((rejected_iff env q r j).mp hj)
    · intro h
      rw [h env]

end Registry

end ConsumerGroups
