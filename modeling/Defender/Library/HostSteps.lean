import Mathlib.Data.List.Basic

/-!
# Steps that may break off

A step takes a state to the state it leaves and the fault it raised, if any. A
sequence stops at its first fault with what was done before it kept. An invariant
that every step keeps is kept by the sequence, wherever it breaks off.
-/

namespace Defender.Library.HostSteps

variable {State Fault : Type*}

def HostStep (State Fault : Type*) := State → State × Option Fault

namespace HostStep

def skip : HostStep State Fault := fun state => (state, none)

def raise (fault : Fault) : HostStep State Fault := fun state => (state, some fault)

def write (fault : Option Fault) (change : State → State) : HostStep State Fault := fun state =>
  match fault with
  | some fault => (state, some fault)
  | none => (change state, none)

def andThen (first next : HostStep State Fault) : HostStep State Fault := fun state =>
  match first state with
  | (reached, some fault) => (reached, some fault)
  | (reached, none) => next reached

def inTurn : List (HostStep State Fault) → HostStep State Fault
  | [] => skip
  | step :: rest => step.andThen (inTurn rest)

def finallyRun (step cleanup : HostStep State Fault) : HostStep State Fault := fun state =>
  let ended := step state
  let cleaned := cleanup ended.1
  (cleaned.1, cleaned.2.or ended.2)

section Rules

variable {first next step : HostStep State Fault}

theorem and_then_done {state : State} (done : (first state).2 = none) :
    first.andThen next state = next (first state).1 := by
  unfold andThen
  split
  · simp_all
  · simp_all

theorem and_then_broken {state : State} {fault : Fault} (broken : (first state).2 = some fault) :
    first.andThen next state = (first state) := by
  unfold andThen
  split
  · simp_all
  · simp_all

theorem and_then_assoc (first next last : HostStep State Fault) :
    (first.andThen next).andThen last = first.andThen (next.andThen last) := by
  funext state
  cases ended : (first state).2 with
  | some fault =>
    have broken : (first.andThen next state).2 = some fault := by
      rw [and_then_broken ended, ended]
    rw [and_then_broken broken, and_then_broken ended, and_then_broken ended]
  | none =>
    have same : first.andThen next state = next (first state).1 := and_then_done ended
    rw [and_then_done ended]
    unfold andThen at same ⊢
    rw [same]

theorem and_then_leads {middle after : State → Prop} {state : State}
    (reached : middle (first state).1) (stop : ∀ state, middle state → after state)
    (leads : ∀ state, middle state → after (next state).1) :
    after (first.andThen next state).1 := by
  cases ended : (first state).2 with
  | some fault =>
    rw [and_then_broken ended]
    exact stop _ reached
  | none =>
    rw [and_then_done ended]
    exact leads _ reached

def Keeps (invariant : State → Prop) (step : HostStep State Fault) : Prop :=
  ∀ state, invariant state → invariant (step state).1

variable {invariant : State → Prop}

theorem keeps_skip : Keeps invariant (skip : HostStep State Fault) :=
  fun _ holds => holds

theorem keeps_raise (fault : Fault) : Keeps invariant (raise fault : HostStep State Fault) :=
  fun _ holds => holds

theorem keeps_write {fault : Option Fault} {change : State → State}
    (kept : ∀ state, invariant state → invariant (change state)) :
    Keeps invariant (write fault change) := by
  intro state holds
  cases fault with
  | some fault => exact holds
  | none => exact kept state holds

theorem keeps_and_then (keepsFirst : Keeps invariant first) (keepsNext : Keeps invariant next) :
    Keeps invariant (first.andThen next) :=
  fun state holds => and_then_leads (keepsFirst state holds) (fun _ holds => holds) keepsNext

theorem write_fault (fault : Option Fault) (change : State → State) (state : State) :
    (write fault change state).2 = fault := by
  cases fault <;> rfl

theorem in_turn_raises {Item : Type*} (steps : Item → HostStep State Fault)
    (raises : Item → Bool) (decided : ∀ item state, (steps item state).2.isSome = raises item)
    (items : List Item) (state : State) :
    (inTurn (items.map steps) state).2.isSome = items.any raises := by
  induction items generalizing state with
  | nil => rfl
  | cons item rest ih =>
    rw [List.map_cons, inTurn, List.any_cons, ← decided item state]
    cases ended : (steps item state).2 with
    | some fault => simp [and_then_broken ended, ended]
    | none => simp [and_then_done ended, ih]

theorem keeps_in_turn {steps : List (HostStep State Fault)}
    (keeps : ∀ step ∈ steps, Keeps invariant step) : Keeps invariant (inTurn steps) := by
  induction steps with
  | nil => exact keeps_skip
  | cons step rest ih =>
    exact keeps_and_then (keeps step List.mem_cons_self)
      (ih fun other member => keeps other (List.mem_cons_of_mem _ member))

end Rules

end HostStep

end Defender.Library.HostSteps
