import Mathlib.Data.Option.Basic

/-!
# What a program comes to

A step takes an input from outside and gives the next state, or none where it fails. A goal
is inevitable from a state when no step fails, whatever inputs of a kind come, and the goal is
met after finitely many of them.
-/

namespace Defender.Library

variable {State Input : Type*} {step : Input → State → Option State} {allowed : Input → Prop}
  {goal middle : State → Prop} {state : State}

inductive Inevitable (step : Input → State → Option State) (allowed : Input → Prop)
    (goal : State → Prop) : State → Prop where
  | met {state : State} (now : goal state) : Inevitable step allowed goal state
  | later {state : State} (goes : ∀ input, allowed input → step input state ≠ none)
      (next : ∀ input after, allowed input → step input state = some after →
        Inevitable step allowed goal after) : Inevitable step allowed goal state

namespace Inevitable

theorem of_step (forward : ∀ input, allowed input →
    ∃ after, step input state = some after ∧ Inevitable step allowed goal after) :
    Inevitable step allowed goal state := by
  apply later
  · intro input allow
    obtain ⟨after, ok, -⟩ := forward input allow
    rw [ok]
    exact Option.some_ne_none after
  · intro input after allow ok
    obtain ⟨same, again, rest⟩ := forward input allow
    rw [ok] at again
    cases again
    exact rest

theorem onward (first : Inevitable step allowed middle state)
    (rest : ∀ state, middle state → Inevitable step allowed goal state) :
    Inevitable step allowed goal state := by
  induction first with
  | met now => exact rest _ now
  | later goes _ ih => exact later goes ih

theorem weaken (first : Inevitable step allowed middle state)
    (enough : ∀ state, middle state → goal state) : Inevitable step allowed goal state :=
  first.onward fun state now => met (enough state now)

def runOn (step : Input → State → Option State) : (Nat → Input) → Nat → State → Option State
  | _, 0, state => some state
  | inputs, count + 1, state =>
    (step (inputs 0) state).bind (runOn step (fun index => inputs (index + 1)) count)

theorem reached (coming : Inevitable step allowed goal state) (inputs : Nat → Input)
    (allow : ∀ index, allowed (inputs index)) :
    ∃ count after, runOn step inputs count state = some after ∧ goal after := by
  induction coming generalizing inputs with
  | met now => exact ⟨0, _, rfl, now⟩
  | @later state goes _ ih =>
    cases ok : step (inputs 0) state with
    | none => exact absurd ok (goes (inputs 0) (allow 0))
    | some next =>
      obtain ⟨count, after, run, now⟩ :=
        ih (inputs 0) next (allow 0) ok (fun index => inputs (index + 1)) fun index =>
          allow (index + 1)
      refine ⟨count + 1, after, ?_, now⟩
      rw [runOn, ok]
      exact run

end Inevitable

end Defender.Library
