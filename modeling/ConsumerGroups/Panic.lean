-- Panics. A panic cuts short what is being done and everything that this was done for, up to
-- whoever can bear it: the one who calls listeners, and the task of a timer.

set_option autoImplicit false

namespace ConsumerGroups

inductive Panic where
  /-- the channel of this number panicked when it was told to close -/
  | onClose (channel : UInt64)
  /-- a timer was started where nothing runs tasks -/
  | noRuntime
deriving DecidableEq, Repr

def Panic.text : Panic → String
  | .onClose id => s!"channel {id} panicked on close"
  | .noRuntime =>
    "there is no reactor running, must be called from the context of a Tokio 1.x runtime"

/-- What comes back from something that is done: a value, unless it panics. -/
abbrev Returned (α : Type) := Except Panic α

/-- Something that was done without a panic. -/
def returned {σ α : Type} (done : σ × α) : σ × Returned α := (done.1, .ok done.2)

/-- Goes on with the value that came back. A panic passes through. -/
def andThen {σ α β : Type} (done : σ × Returned α) (next : σ → α → σ × Returned β) :
    σ × Returned β :=
  match done with
  | (s, .ok a) => next s a
  | (s, .error p) => (s, .error p)

section

variable {σ α β : Type}

theorem andThen_ok (s : σ) (a : α) (next : σ → α → σ × Returned β) :
    andThen (s, .ok a) next = next s a := rfl

theorem andThen_error (s : σ) (p : Panic) (next : σ → α → σ × Returned β) :
    andThen (s, .error p) next = (s, .error p) := rfl

theorem andThen_of_ok {done : σ × Returned α} {a : α} (h : done.2 = .ok a)
    (next : σ → α → σ × Returned β) : andThen done next = next done.1 a := by
  obtain ⟨s, result⟩ := done
  simp only at h
  rw [h, andThen_ok]

theorem andThen_of_error {done : σ × Returned α} {p : Panic} (h : done.2 = .error p)
    (next : σ → α → σ × Returned β) : andThen done next = (done.1, .error p) := by
  obtain ⟨s, result⟩ := done
  simp only at h
  rw [h, andThen_error]

/-- When all of it has returned, the first part has, and the second went on from there. -/
theorem andThen_returns {done : σ × Returned α} {next : σ → α → σ × Returned β} {b : β}
    (h : (andThen done next).2 = .ok b) :
    ∃ a, done.2 = .ok a ∧ andThen done next = next done.1 a := by
  cases hdone : done.2 with
  | ok a => exact ⟨a, rfl, andThen_of_ok hdone next⟩
  | error p =>
    rw [andThen_of_error hdone] at h
    cases h

/-- A panic comes out of the first part, or out of the second after the first has returned. -/
theorem andThen_panics {done : σ × Returned α} {next : σ → α → σ × Returned β} {p : Panic}
    (h : (andThen done next).2 = .error p) :
    (done.2 = .error p ∧ andThen done next = (done.1, .error p)) ∨
      ∃ a, done.2 = .ok a ∧ andThen done next = next done.1 a := by
  cases hdone : done.2 with
  | ok a => exact .inr ⟨a, rfl, andThen_of_ok hdone next⟩
  | error p' =>
    rw [andThen_of_error hdone] at h
    rw [andThen_of_error hdone, Except.error.inj h]
    exact .inl ⟨rfl, rfl⟩

/-- What is made of the value does not change the state. -/
theorem fst_andThen_ok (done : σ × Returned α) (f : α → β) :
    (andThen done fun s a => (s, .ok (f a))).1 = done.1 := by
  obtain ⟨s, a | p⟩ := done <;> rfl

/-- Whatever holds of the state when the first part is done, and is kept by the second, holds in the
end. -/
theorem andThen_induct {P : σ → Prop} {done : σ × Returned α} {next : σ → α → σ × Returned β}
    (first : P done.1) (second : ∀ s a, P s → P (next s a).1) : P (andThen done next).1 := by
  obtain ⟨s, a | p⟩ := done
  · exact first
  · exact second s p first

end

end ConsumerGroups
