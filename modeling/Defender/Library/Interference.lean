import Defender.Library.Programs
import Mathlib.Data.List.GetD

/-!
# Programs on a shared state

Several programs work on one state, an operation at a time. What one of them knows has to
stay true however the others move it; `later` is what every move is sure to leave, and
`sane` what holds between any two operations. A program is assured when, from any sane
later state, each of its operations keeps both and it goes on assured. A pool of assured
programs stays one, whichever of them moves.
-/

namespace Defender.Library.Interference

open Defender.Library.Programs Program

variable {Operation : Type} {Answer : Operation → Type} {Failure State Reaction Result : Type}

structure Medium (Operation : Type) (Answer : Operation → Type) (State Reaction : Type) where
  perform : (operation : Operation) → Reaction → State → Answer operation × State
  allowed : Reaction → State → Prop
  sane : State → Prop
  later : State → State → Prop
  refl : ∀ state, later state state
  trans : ∀ {first second third}, later first second → later second third → later first third

namespace Medium

variable (medium : Medium Operation Answer State Reaction)

def spec : Spec Operation Answer State where
  before operation post state :=
    ∀ current, medium.later state current → medium.sane current →
      ∀ reaction, medium.allowed reaction current →
        let reached := medium.perform operation reaction current
        medium.later current reached.2 ∧ medium.sane reached.2 ∧ post reached.1 reached.2
  mono := by
    intro operation weaker stronger state implied known current since sane reaction allowed
    obtain ⟨grown, kept, held⟩ := known current since sane reaction allowed
    exact ⟨grown, kept, implied _ _ held⟩

def Assured (post : Result → State → Prop) (program : Program Operation Answer Failure Result)
    (state : State) : Prop :=
  holds medium.spec post (fun _ _ => True) program state

def Lasting (known : State → Prop) : Prop :=
  ∀ state after, medium.later state after → known state → known after

variable {medium} {post : Result → State → Prop}
  {program : Program Operation Answer Failure Result} {state after : State}

theorem lasting_and {left right : State → Prop} (first : medium.Lasting left)
    (second : medium.Lasting right) : medium.Lasting fun state => left state ∧ right state :=
  fun state after grown both =>
    ⟨first state after grown both.1, second state after grown both.2⟩

theorem Assured.later (running : ∀ result, program ≠ .done result)
    (assured : medium.Assured post program state) (grown : medium.later state after) :
    medium.Assured post program after := by
  cases program with
  | done result => exact absurd rfl (running result)
  | failed why => trivial
  | perform operation next =>
    exact fun current since sane => assured current (medium.trans grown since) sane

theorem triple_ask {operation : Operation} {next : Answer operation →
      Program Operation Answer Failure Result} {known : State → Prop}
    (lasting : medium.Lasting known)
    (onward : ∀ current, known current → medium.sane current → ∀ reaction,
      medium.allowed reaction current →
        let reached := medium.perform operation reaction current
        medium.later current reached.2 ∧ medium.sane reached.2 ∧
          medium.Assured post (next reached.1) reached.2) :
    Triple medium.spec known (.perform operation next) post fun _ _ => True :=
  fun state held current since sane reaction allowed =>
    onward current (lasting state current since held) sane reaction allowed

end Medium

/-- The state and the programs on it, each by its place. -/
structure Pool (Operation : Type) (Answer : Operation → Type) (Failure State Result : Type) where
  state : State
  programs : List (Program Operation Answer Failure Result)

namespace Pool

variable (medium : Medium Operation Answer State Reaction)
  (post : Result → State → Prop)

/-- A program that is done is assured of nothing any more. -/
structure Sure (pool : Pool Operation Answer Failure State Result) : Prop where
  sane : medium.sane pool.state
  assured : ∀ program ∈ pool.programs, (∀ result, program ≠ .done result) →
    medium.Assured post program pool.state

variable {medium post} {pool : Pool Operation Answer Failure State Result}

theorem Sure.moved (sure : pool.Sure medium post) {after : State}
    (grown : medium.later pool.state after) (sane : medium.sane after) :
    ({ pool with state := after } : Pool Operation Answer Failure State Result).Sure
      medium post where
  sane := sane
  assured program member running := (sure.assured program member running).later running grown

theorem Sure.joined (sure : pool.Sure medium post)
    {program : Program Operation Answer Failure Result}
    (assured : medium.Assured post program pool.state) :
    ({ pool with programs := pool.programs ++ [program] } :
      Pool Operation Answer Failure State Result).Sure medium post where
  sane := sure.sane
  assured other member running := by
    rcases List.mem_append.mp member with before | new
    · exact sure.assured other before running
    · obtain rfl := List.mem_singleton.mp new
      exact assured

theorem Sure.gone (sure : pool.Sure medium post) {index : Nat} {operation : Operation}
    {next : Answer operation → Program Operation Answer Failure Result}
    (here : pool.programs[index]? = some (.perform operation next)) {reaction : Reaction}
    (allowed : medium.allowed reaction pool.state) :
    let reached := medium.perform operation reaction pool.state
    medium.later pool.state reached.2 ∧ medium.Assured post (next reached.1) reached.2 ∧
      ({ state := reached.2, programs := pool.programs.set index (next reached.1) } :
        Pool Operation Answer Failure State Result).Sure medium post := by
  intro reached
  have assured := sure.assured _ (List.mem_of_getElem? here) nofun
  obtain ⟨grown, sane, onward⟩ :=
    assured pool.state (medium.refl _) sure.sane reaction allowed
  refine ⟨grown, onward, sane, ?_⟩
  intro program member running
  rcases List.mem_or_eq_of_mem_set member with other | rfl
  · exact (sure.assured program other running).later running grown
  · exact onward

end Pool

end Defender.Library.Interference
