import Mathlib.Control.Lawful

/-!
# Computations that can fail

A computation of several steps succeeds when each of its steps does, one after the other,
with or without a state that the steps change.  It leaves the state alone when each of its
steps does (`Reading.bind`).
-/

namespace Montage

/-- A computation that succeeds does so step by step. -/
theorem exists_of_bind_eq_ok {ε β γ : Type} {action : Except ε β} {next : β → Except ε γ} {c : γ}
    (h : (action >>= next) = .ok c) : ∃ b, action = .ok b ∧ next b = .ok c := by
  cases action with
  | error fault => cases h
  | ok b => exact ⟨b, rfl, h⟩

/-- A result that is there is the result of a success. -/
theorem eq_ok_of_toOption {ε β : Type} {result : Except ε β} {b : β}
    (h : result.toOption = some b) : result = .ok b := by
  cases result with
  | error fault => cases h
  | ok value =>
      cases h
      rfl

section

variable {σ ε ε' β γ : Type}

/-- What a computation gives in a state, and the state after it. -/
def outcome (action : ExceptT ε (StateM σ) β) (state : σ) : Except ε β × σ := action.run.run state

/-- A second step is taken where the first succeeds, in the state behind it. -/
theorem outcome_bind (action : ExceptT ε (StateM σ) β) (next : β → ExceptT ε (StateM σ) γ)
    (state : σ) : outcome (action >>= next) state = match outcome action state with
      | (.ok b, between) => outcome (next b) between
      | (.error fault, between) => (.error fault, between) := by
  simp only [outcome, ExceptT.run_bind, StateT.run_bind]
  rcases action.run.run state with ⟨fault | b, between⟩ <;> rfl

/-- What follows a computation is told what it gives, and goes on in the state after it. -/
theorem run_bind (action : StateM σ β) (next : β → StateM σ γ) (state : σ) :
    (action >>= next).run state = (next (action.run state).1).run (action.run state).2 := rfl

/-- What follows a computation that can fail is told what it gives, or why it fails. -/
theorem run_bind_run (action : ExceptT ε (StateM σ) β) (next : Except ε β → StateM σ γ)
    (state : σ) :
    (action.run >>= next).run state
      = (next (outcome action state).1).run (outcome action state).2 := rfl

/-- Two steps that succeed in a row succeed one by one. -/
theorem exists_of_outcome_bind {action : ExceptT ε (StateM σ) β}
    {next : β → ExceptT ε (StateM σ) γ} {state after : σ} {c : γ}
    (h : outcome (action >>= next) state = (.ok c, after)) :
    ∃ b between, outcome action state = (.ok b, between) ∧
      outcome (next b) between = (.ok c, after) := by
  rw [outcome_bind] at h
  split at h
  · rename_i b between hstep
    exact ⟨b, between, hstep, h⟩
  · cases h

/-! ## Computations that only look -/

/-- A computation that leaves every state as it is. -/
def Reading (action : ExceptT ε (StateM σ) β) : Prop :=
  ∀ state, (outcome action state).2 = state

namespace Reading

/-- A computation that only looks ends in the state it began in. -/
theorem outcome_eq {action : ExceptT ε (StateM σ) β} (h : Reading action) (state : σ) :
    outcome action state = ((outcome action state).1, state) :=
  Prod.ext rfl (h state)

theorem pure (b : β) : Reading (pure b : ExceptT ε (StateM σ) β) := fun _ => rfl

theorem throw (fault : ε) : Reading (throw fault : ExceptT ε (StateM σ) β) := fun _ => rfl

/-- Two steps that only look are a computation that only looks. -/
theorem bind {action : ExceptT ε (StateM σ) β} {next : β → ExceptT ε (StateM σ) γ}
    (h : Reading action) (hnext : ∀ b, Reading (next b)) : Reading (action >>= next) := by
  intro state
  rw [outcome_bind, h.outcome_eq]
  cases (outcome action state).1 with
  | ok b => exact hnext b state
  | error fault => rfl

end Reading

/-! ## Computations within others -/

/-- A computation as a part of one that can fail for other causes: it still does what it
does by itself. -/
def Embeds (inner : ExceptT ε (ExceptT ε' (StateM σ)) β) (action : ExceptT ε (StateM σ) β) :
    Prop :=
  ∀ state, outcome inner.run state = (.ok (outcome action state).1, (outcome action state).2)

/-- A computation of two steps does what it does by itself when both steps do. -/
theorem Embeds.bind {inner : ExceptT ε (ExceptT ε' (StateM σ)) β}
    {action : ExceptT ε (StateM σ) β} {inside : β → ExceptT ε (ExceptT ε' (StateM σ)) γ}
    {next : β → ExceptT ε (StateM σ) γ} (h : Embeds inner action)
    (hnext : ∀ b, Embeds (inside b) (next b)) : Embeds (inner >>= inside) (action >>= next) := by
  intro state
  rw [ExceptT.run_bind, outcome_bind, outcome_bind, h]
  rcases outcome action state with ⟨fault | b, between⟩
  · rfl
  · exact hnext b between

end

end Montage
