/-!
# One step after the other

Readers and builders are steps that carry a state along and may fail.  A
sequence of two steps does what the first one does, and goes on with the second
one where the first one ended.
-/

namespace ClassDelta.Stateful

variable {ε σ α β : Type} {step : EStateM ε σ α} {before between after : σ}

/-- The state that a step ends in, whether it succeeds or fails. -/
def endState (step : EStateM ε σ α) (before : σ) : σ :=
  match step before with
  | .ok _ after => after
  | .error _ after => after

theorem endState_of_ok {value : α} (h : step before = .ok value after) :
    endState step before = after := by
  rw [endState, h]

theorem endState_of_error {error : ε} (h : step before = .error error after) :
    endState step before = after := by
  rw [endState, h]

theorem bind_of_ok {value : α} (h : step before = .ok value between) (next : α → EStateM ε σ β) :
    (step >>= next) before = next value between := by
  simp only [Bind.bind, EStateM.bind, h]

theorem bind_of_error {error : ε} (h : step before = .error error after)
    (next : α → EStateM ε σ β) : (step >>= next) before = .error error after := by
  simp only [Bind.bind, EStateM.bind, h]

/-- To look at the state is a step that changes nothing. -/
theorem get_bind (state : σ) (next : σ → EStateM ε σ β) : (get >>= next) state = next state state :=
  rfl

/-- A sequence that succeeds is two steps that succeed. -/
theorem bind_eq_ok {next : α → EStateM ε σ β} {result : β}
    (h : (step >>= next) before = .ok result after) :
    ∃ value between, step before = .ok value between ∧ next value between = .ok result after := by
  cases hstep : step before with
  | ok value between =>
    rw [bind_of_ok hstep] at h
    exact ⟨value, between, rfl, h⟩
  | error error between =>
    rw [bind_of_error hstep] at h
    cases h

/-- A sequence fails where one of its two steps does. -/
theorem bind_eq_error {next : α → EStateM ε σ β} {error : ε}
    (h : (step >>= next) before = .error error after) :
    step before = .error error after ∨
      ∃ value between, step before = .ok value between ∧
        next value between = .error error after := by
  cases hstep : step before with
  | ok value between =>
    rw [bind_of_ok hstep] at h
    exact .inr ⟨value, between, rfl, h⟩
  | error found later =>
    rw [bind_of_error hstep] at h
    cases h
    exact .inl rfl

end ClassDelta.Stateful
