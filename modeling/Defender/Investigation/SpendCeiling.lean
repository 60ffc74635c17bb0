import Defender.Investigation.Budget

/-!
# Calls in flight under the ceiling

Enforced calls of one run side by side. A call is in flight from the check that lets it
through until it is counted; between the two it runs and ends, and the others move. While
the counter is below its cap it counts the finished calls, so what has run is bounded by the
cap and by what is in flight.
-/

namespace Defender.Investigation

open Defender.Python Defender.Library.OrderedDict
open Defender.Library.Binary64 (nearest nearest_mono nearest_idempotent nearest_zero
  nearest_ge_zero)

inductive CallPhase where
  | executing | ended | finished
  deriving DecidableEq, Repr

/-- A call that its check let through. -/
structure ExecutedCall where
  toolName : Str
  role : AgentRole
  phase : CallPhase := .executing
  deriving DecidableEq, Repr

/-- How the tool's handler ends: a call whose world gave up under it counts as well. -/
inductive Outcome where
  | returned | servingAbort
  deriving DecidableEq, Repr

namespace ExecutedCall

def metered (call : ExecutedCall) : Bool := decide (call.toolName ∉ budgetExemptTools)

def core (call : ExecutedCall) : Bool :=
  call.metered && tier call.toolName call.role == .core

def gathers (call : ExecutedCall) : Bool := call.toolName == gatherTool

def done (call : ExecutedCall) : Bool := call.phase == .finished

end ExecutedCall

structure Spending where
  state : RunState
  tick : Ticks
  calls : List ExecutedCall := []

inductive SpendEvent where
  | check (toolName : Str) (role : AgentRole)
  | ends (index : Nat) (outcome : Outcome)
  | account (index : Nat)
  | clock (reading : Ticks)
  | oracleOpens
  | oracleCloses

namespace Spending

def inFlight (spending : Spending) : Nat := spending.calls.countP fun call => !call.done

def executedCore (spending : Spending) : Nat := spending.calls.countP ExecutedCall.core

def executedGathers (spending : Spending) : Nat := spending.calls.countP ExecutedCall.gathers

def finished (spending : Spending) : Nat := spending.calls.countP ExecutedCall.done

/-- The calls that count against a limb, in the order of their checks. -/
def meteredCalls (spending : Spending) : List (Str × AgentRole) :=
  (spending.calls.filter ExecutedCall.metered).map fun call => (call.toolName, call.role)

def endCall (spending : Spending) (index : Nat) : Spending :=
  match spending.calls[index]? with
  | some call =>
    if call.phase = .executing then
      { spending with calls := spending.calls.set index { call with phase := .ended } }
    else spending
  | none => spending

/-- `_account_executed_call` in the enforced posture. -/
def accountExecuted (limits : Limits) (spending : Spending) (index : Nat) : Spending :=
  match spending.calls[index]? with
  | some call =>
    if call.phase = .ended then
      { spending with
        state := accountCall spending.state call.toolName limits (tier call.toolName call.role)
        calls := spending.calls.set index { call with phase := .finished } }
    else spending
  | none => spending

def checked (spending : Spending) (toolName : Str) (role : AgentRole) : Verdict → Spending
  | .goesOn =>
    { spending with calls := spending.calls ++ [{ toolName := toolName, role := role }] }
  | .refused _ | .budgetKill _ => spending

def step (limits : Limits) (spending : Spending) : SpendEvent → Spending
  | .check toolName role =>
    spending.checked toolName role
      (budgetShortCircuit spending.state spending.tick toolName role limits)
  | .ends index _ => spending.endCall index
  | .account index => accountExecuted limits spending index
  | .clock reading => { spending with tick := max spending.tick (nearest reading) }
  | .oracleOpens => { spending with state := spending.state.oracleTurnOpened spending.tick }
  | .oracleCloses => { spending with state := spending.state.floatTurnClosed spending.tick }

def run (limits : Limits) (spending : Spending) (events : List SpendEvent) : Spending :=
  events.foldl (step limits) spending

/-- Never more than `bound` calls in flight. -/
def Within (limits : Limits) (bound : Nat) : Spending → List SpendEvent → Prop
  | spending, [] => spending.inFlight ≤ bound
  | spending, event :: rest =>
    spending.inFlight ≤ bound ∧ Within limits bound (step limits spending event) rest

instance decidableWithin (limits : Limits) (bound : Nat) :
    (spending : Spending) → (events : List SpendEvent) →
      Decidable (Within limits bound spending events)
  | spending, [] => inferInstanceAs (Decidable (spending.inFlight ≤ bound))
  | spending, event :: rest =>
    have := decidableWithin limits bound (step limits spending event) rest
    inferInstanceAs (Decidable (spending.inFlight ≤ bound ∧
      Within limits bound (step limits spending event) rest))

/-- What a step needs for the clock not to fall behind the tail: when the oracle holds the
world past it, the rounded seconds held grow by no more than those since the start. -/
def Steady (limits : Limits) (spending : Spending) : SpendEvent → Prop
  | .clock reading =>
    let next := max spending.tick (nearest reading)
    spending.state.oracleOpened.isSome = true →
      clockTail spending.state spending.tick limits = true →
      spending.state.floatHeldAt next - spending.state.floatHeldAt spending.tick ≤
        spending.state.floatSince next - spending.state.floatSince spending.tick
  | _ => True

def SteadyAlong (limits : Limits) : Spending → List SpendEvent → Prop
  | _, [] => True
  | spending, event :: rest =>
    Steady limits spending event ∧ SteadyAlong limits (step limits spending event) rest

/-- A run before its first call, started at what the clock read. -/
def opened (runId : Str) (reading : Ticks) (moment : Moment) : Spending where
  state := .start runId (nearest reading) moment
  tick := nearest reading

end Spending

theorem count_set {Item : Type} (holds : Item → Bool) {items : List Item} {index : Nat}
    {old new : Item} (here : items[index]? = some old) :
    (items.set index new).countP holds + (if holds old then 1 else 0) =
      items.countP holds + (if holds new then 1 else 0) := by
  induction items generalizing index with
  | nil => contradiction
  | cons item rest ih =>
      cases index with
      | zero =>
          obtain rfl := Option.some.inj here
          simp only [List.set_cons_zero, List.countP_cons]
          omega
      | succ index =>
          have kept := ih here
          simp only [List.set_cons_succ, List.countP_cons]
          omega

theorem count_both {Item : Type} (first second : Item → Bool) (items : List Item) :
    items.countP first ≤ items.countP (fun item => first item && second item) +
      items.countP fun item => !second item := by
  induction items with
  | nil => rfl
  | cons item rest ih =>
      simp only [List.countP_cons]
      cases first item <;> cases second item <;> simp <;> omega

namespace Spending

variable {limits : Limits} {bound : Nat} {spending : Spending}

/-- While the counter is below its cap it counts what has finished; what was let through is
then bounded by it and by what is in flight. -/
structure Tallied (limits : Limits) (bound : Nat) (spending : Spending) : Prop where
  counted : spending.state.toolCalls < limits.maxToolCalls →
    spending.state.toolCalls = spending.finished
  spawned : spending.state.toolCalls < limits.maxToolCalls →
    spending.state.subagentSpawns = spending.calls.countP fun call => call.gathers && call.done
  within : spending.state.toolCalls ≤ limits.maxToolCalls + tailAllowance
  core : spending.executedCore ≤ limits.maxToolCalls + (bound - 1)
  gathers : spending.executedGathers ≤ limits.maxSubagentSpawns + (bound - 1)

theorem Tallied.unchanged (tallied : Tallied limits bound spending) {next : Spending}
    (calls : next.calls = spending.calls)
    (toolCalls : next.state.toolCalls = spending.state.toolCalls)
    (spawns : next.state.subagentSpawns = spending.state.subagentSpawns) :
    Tallied limits bound next where
  counted below := by
    rw [toolCalls] at below ⊢
    rw [tallied.counted below, finished, finished, calls]
  spawned below := by
    rw [toolCalls] at below
    rw [spawns, calls]
    exact tallied.spawned below
  within := by
    rw [toolCalls]
    exact tallied.within
  core := by
    rw [executedCore, calls]
    exact tallied.core
  gathers := by
    rw [executedGathers, calls]
    exact tallied.gathers

theorem check_tallied (tallied : Tallied limits bound spending) (toolName : Str)
    (role : AgentRole)
    (bounded : (spending.checked toolName role
      (budgetShortCircuit spending.state spending.tick toolName role limits)).inFlight ≤ bound) :
    Tallied limits bound (spending.checked toolName role
      (budgetShortCircuit spending.state spending.tick toolName role limits)) := by
  cases goes : budgetShortCircuit spending.state spending.tick toolName role limits with
  | refused message => exact tallied
  | budgetKill message => exact tallied
  | goesOn =>
      simp only [goes, checked] at bounded ⊢
      have flying : spending.inFlight + 1 ≤ bound := by
        simpa [inFlight, ExecutedCall.done] using bounded
      constructor
      · intro below
        rw [tallied.counted below]
        simp [finished, ExecutedCall.done]
      · intro below
        rw [tallied.spawned below]
        simp [ExecutedCall.done]
      · exact tallied.within
      · have most := tallied.core
        simp only [executedCore, List.countP_append, List.countP_singleton] at most ⊢
        split_ifs with isCore
        · simp only [ExecutedCall.core, ExecutedCall.metered, Bool.and_eq_true,
            decide_eq_true_eq, beq_iff_eq] at isCore
          have below := (goes_on_core goes isCore.1 isCore.2).1
          have counted := tallied.counted below
          have split := count_both ExecutedCall.core ExecutedCall.done spending.calls
          have ended : (spending.calls.countP fun call => call.core && call.done) ≤
              spending.finished :=
            List.countP_mono_left fun call _ both => (Bool.and_eq_true _ _ ▸ both).2
          unfold inFlight at flying
          omega
        · exact most
      · have most := tallied.gathers
        simp only [executedGathers, List.countP_append, List.countP_singleton] at most ⊢
        split_ifs with gathers
        · have named : toolName = gatherTool := by simpa [ExecutedCall.gathers] using gathers
          have fits := goes_on_core goes (named ▸ gather_metered) (named ▸ gather_core role)
          have spawned := tallied.spawned fits.1
          have below := fits.2 named
          have split := count_both ExecutedCall.gathers ExecutedCall.done spending.calls
          unfold inFlight at flying
          omega
        · exact most

theorem end_tallied (tallied : Tallied limits bound spending) (index : Nat) :
    Tallied limits bound (spending.endCall index) := by
  unfold endCall
  split
  · rename_i call here
    split
    · rename_i executing
      have same : ∀ holds : ExecutedCall → Bool,
          holds { call with phase := .ended } = holds call →
          (spending.calls.set index { call with phase := .ended }).countP holds =
            spending.calls.countP holds := by
        intro holds alike
        have kept : (spending.calls.set index { call with phase := .ended }).countP holds +
            (if holds call then 1 else 0) = spending.calls.countP holds +
              (if holds { call with phase := .ended } then 1 else 0) := count_set holds here
        rw [alike] at kept
        omega
      have notDone : call.done = false := by simp [ExecutedCall.done, executing]
      constructor
      · intro below
        rw [tallied.counted below]
        exact (same ExecutedCall.done (by rw [notDone]; rfl)).symm
      · intro below
        rw [tallied.spawned below]
        refine (same (fun call => call.gathers && call.done) ?_).symm
        simp only [ExecutedCall.gathers, ExecutedCall.done, executing]
        rfl
      · exact tallied.within
      · exact (same ExecutedCall.core rfl).trans_le tallied.core
      · exact (same ExecutedCall.gathers rfl).trans_le tallied.gathers
    · exact tallied
  · exact tallied

theorem account_tallied (tallied : Tallied limits bound spending) (index : Nat) :
    Tallied limits bound (accountExecuted limits spending index) := by
  unfold accountExecuted
  split
  · rename_i call here
    split
    · rename_i ended
      have counts : ∀ holds : ExecutedCall → Bool,
          (spending.calls.set index { call with phase := .finished }).countP holds +
              (if holds call then 1 else 0) =
            spending.calls.countP holds +
              (if holds { call with phase := .finished } then 1 else 0) :=
        fun holds => count_set holds here
      have notDone : call.done = false := by simp [ExecutedCall.done, ended]
      have wasBelow : (accountCall spending.state call.toolName limits
          (tier call.toolName call.role)).toolCalls < limits.maxToolCalls →
          spending.state.toolCalls < limits.maxToolCalls :=
        fun below => (account_call_grows call.toolName _).trans_lt below
      constructor
      · intro below
        have was := wasBelow below
        have count := counts ExecutedCall.done
        rw [notDone] at count
        have counted := tallied.counted was
        change (accountCall spending.state call.toolName limits _).toolCalls = List.countP _ _
        rw [account_call_counts _ _ was]
        simp only [tally, ExecutedCall.done, finished] at count counted ⊢
        simpa [counted] using count.symm
      · intro below
        have was := wasBelow below
        have count := counts fun call => call.gathers && call.done
        have spawned := tallied.spawned was
        change (accountCall spending.state call.toolName limits _).subagentSpawns =
          List.countP _ _
        rw [account_call_counts _ _ was]
        rw [notDone, Bool.and_false] at count
        by_cases gathers : call.toolName = gatherTool
        · simp [tally, gathers, ExecutedCall.gathers, ExecutedCall.done] at count spawned ⊢
          omega
        · simp [tally, gathers, ExecutedCall.gathers, ExecutedCall.done] at count spawned ⊢
          omega
      · exact account_call_within call.toolName _ tallied.within
      · have count := counts ExecutedCall.core
        have alike : ExecutedCall.core { call with phase := .finished } = call.core := rfl
        rw [alike] at count
        have most := tallied.core
        simp only [executedCore] at most ⊢
        omega
      · have count := counts ExecutedCall.gathers
        have alike : ExecutedCall.gathers { call with phase := .finished } = call.gathers := rfl
        rw [alike] at count
        have most := tallied.gathers
        simp only [executedGathers] at most ⊢
        omega
    · exact tallied
  · exact tallied

theorem step_tallied (tallied : Tallied limits bound spending) (event : SpendEvent)
    (bounded : (step limits spending event).inFlight ≤ bound) :
    Tallied limits bound (step limits spending event) := by
  cases event with
  | check toolName role => exact check_tallied tallied toolName role bounded
  | ends index outcome => exact end_tallied tallied index
  | account index => exact account_tallied tallied index
  | clock step => exact tallied.unchanged rfl rfl rfl
  | oracleOpens => exact tallied.unchanged rfl rfl rfl
  | oracleCloses => exact tallied.unchanged rfl rfl rfl

theorem Within.now {events : List SpendEvent} (within : Within limits bound spending events) :
    spending.inFlight ≤ bound := by
  cases events with
  | nil => exact within
  | cons event rest => exact within.1

theorem run_tallied (tallied : Tallied limits bound spending) (events : List SpendEvent)
    (within : Within limits bound spending events) :
    Tallied limits bound (run limits spending events) := by
  induction events generalizing spending with
  | nil => exact tallied
  | cons event rest ih => exact ih (step_tallied tallied event within.2.now) within.2

theorem step_counts (limits : Limits) (spending : Spending) (event : SpendEvent) :
    spending.state.toolCalls ≤ (step limits spending event).state.toolCalls := by
  cases event with
  | check toolName role =>
      change spending.state.toolCalls ≤ (spending.checked toolName role
        (budgetShortCircuit spending.state spending.tick toolName role limits)).state.toolCalls
      cases budgetShortCircuit spending.state spending.tick toolName role limits <;> exact le_rfl
  | ends index outcome =>
      change spending.state.toolCalls ≤ (spending.endCall index).state.toolCalls
      unfold endCall
      split
      · split <;> exact le_rfl
      · exact le_rfl
  | account index =>
      change spending.state.toolCalls ≤ (accountExecuted limits spending index).state.toolCalls
      unfold accountExecuted
      split
      · split
        · exact account_call_grows _ _
        · exact le_rfl
      · exact le_rfl
  | clock reading | oracleOpens | oracleCloses => exact le_rfl

theorem run_counts (limits : Limits) (spending : Spending) (events : List SpendEvent) :
    spending.state.toolCalls ≤ (run limits spending events).state.toolCalls := by
  induction events generalizing spending with
  | nil => exact le_rfl
  | cons event rest ih => exact (step_counts limits spending event).trans (ih _)

section Clock

variable {state : RunState} {tick next : Ticks}

theorem since_mono (onward : tick ≤ next) : state.floatSince tick ≤ state.floatSince next :=
  nearest_mono (sub_le_sub_right onward _)

theorem elapsed_closed_mono (closed : state.oracleOpened = none) (onward : tick ≤ next) :
    state.floatElapsed tick ≤ state.floatElapsed next := by
  have same : ∀ tick, state.floatHeldAt tick = state.oracleCredited := by
    intro tick
    unfold RunState.floatHeldAt
    rw [closed]
  unfold RunState.floatElapsed
  rw [same, same]
  exact nearest_mono (sub_le_sub_right (since_mono onward) _)

theorem elapsed_steady
    (steady : state.floatHeldAt next - state.floatHeldAt tick ≤
      state.floatSince next - state.floatSince tick) :
    state.floatElapsed tick ≤ state.floatElapsed next :=
  nearest_mono (by linarith)

theorem credited_held (credited : nearest state.oracleCredited = state.oracleCredited)
    (tick : Ticks) : state.oracleCredited ≤ state.floatHeldAt tick := by
  unfold RunState.floatHeldAt
  cases state.oracleOpened with
  | none => exact le_rfl
  | some opened =>
      have most := nearest_mono (le_add_of_nonneg_right
        (le_max_left 0 (nearest (tick - opened))) : state.oracleCredited ≤ _)
      rw [credited] at most
      exact most

theorem elapsed_opened (credited : nearest state.oracleCredited = state.oracleCredited)
    (tick : Ticks) :
    state.floatElapsed tick ≤ (state.oracleTurnOpened tick).floatElapsed tick := by
  have held : (state.oracleTurnOpened tick).floatHeldAt tick = state.oracleCredited := by
    unfold RunState.floatHeldAt RunState.oracleTurnOpened
    dsimp only
    rw [sub_self, nearest_zero, max_self, add_zero, credited]
  unfold RunState.floatElapsed
  rw [held]
  exact nearest_mono (sub_le_sub_left (credited_held credited tick) _)

theorem held_rounded (credited : nearest state.oracleCredited = state.oracleCredited)
    (tick : Ticks) : nearest (state.floatHeldAt tick) = state.floatHeldAt tick := by
  unfold RunState.floatHeldAt
  cases state.oracleOpened with
  | none => exact credited
  | some opened => exact nearest_idempotent _

end Clock

/-- The credited seconds are a double. -/
def Credited (spending : Spending) : Prop :=
  nearest spending.state.oracleCredited = spending.state.oracleCredited

theorem step_credited (credited : spending.Credited) (event : SpendEvent) :
    (step limits spending event).Credited := by
  cases event with
  | check toolName role =>
      change (spending.checked toolName role
        (budgetShortCircuit spending.state spending.tick toolName role limits)).Credited
      cases budgetShortCircuit spending.state spending.tick toolName role limits <;> exact credited
  | ends index outcome =>
      change (spending.endCall index).Credited
      unfold endCall
      split
      · split <;> exact credited
      · exact credited
  | account index =>
      change (accountExecuted limits spending index).Credited
      unfold accountExecuted
      split
      · split
        · unfold Credited
          dsimp only
          rw [account_call_credited]
          exact credited
        · exact credited
      · exact credited
  | clock reading | oracleOpens => exact credited
  | oracleCloses => exact held_rounded credited spending.tick

theorem run_credited (credited : spending.Credited) (events : List SpendEvent) :
    (run limits spending events).Credited := by
  induction events generalizing spending with
  | nil => exact credited
  | cons event rest ih => exact ih (step_credited credited event)

/-- Past the tail the elapsed time only grows, step by steady step. -/
theorem step_elapsed (credited : spending.Credited) (event : SpendEvent)
    (spent : clockTail spending.state spending.tick limits = true)
    (steady : Steady limits spending event) :
    spending.state.floatElapsed spending.tick ≤
      (step limits spending event).state.floatElapsed (step limits spending event).tick := by
  cases event with
  | check toolName role =>
      change _ ≤ (spending.checked toolName role
        (budgetShortCircuit spending.state spending.tick toolName role limits)).state.floatElapsed
          (spending.checked toolName role
            (budgetShortCircuit spending.state spending.tick toolName role limits)).tick
      cases budgetShortCircuit spending.state spending.tick toolName role limits <;> exact le_rfl
  | ends index outcome =>
      change _ ≤ (spending.endCall index).state.floatElapsed (spending.endCall index).tick
      unfold endCall
      split
      · split <;> exact le_rfl
      · exact le_rfl
  | account index =>
      change _ ≤ (accountExecuted limits spending index).state.floatElapsed
        (accountExecuted limits spending index).tick
      unfold accountExecuted
      split
      · split
        · exact (account_call_elapsed _ _ _).ge
        · exact le_rfl
      · exact le_rfl
  | clock reading =>
      change _ ≤ spending.state.floatElapsed (max spending.tick (nearest reading))
      cases held : spending.state.oracleOpened with
      | none => exact elapsed_closed_mono held (le_max_left _ _)
      | some opened =>
          exact elapsed_steady (steady (Option.isSome_of_eq_some held) spent)
  | oracleOpens => exact elapsed_opened credited spending.tick
  | oracleCloses => exact le_rfl

theorem metered_calls_set {calls : List ExecutedCall} {index : Nat} {call : ExecutedCall}
    (here : calls[index]? = some call) (phase : CallPhase) :
    (((calls.set index { call with phase := phase }).filter ExecutedCall.metered).map
        fun call => (call.toolName, call.role)) =
      (calls.filter ExecutedCall.metered).map fun call => (call.toolName, call.role) := by
  induction calls generalizing index with
  | nil => contradiction
  | cons first rest ih =>
      cases index with
      | zero =>
          obtain rfl := Option.some.inj here
          have alike : ExecutedCall.metered { first with phase := phase } = first.metered := rfl
          rw [List.set_cons_zero, List.filter_cons, List.filter_cons, alike]
          split <;> rfl
      | succ index =>
          have kept := ih here
          rw [List.set_cons_succ, List.filter_cons, List.filter_cons]
          split
          · rw [List.map_cons, List.map_cons, kept]
          · exact kept

/-- Past the tail no call that is not exempt is let through. -/
theorem step_spent (spent : tailExhausted spending.state spending.tick limits = true)
    (event : SpendEvent) :
    (step limits spending event).meteredCalls = spending.meteredCalls := by
  cases event with
  | check toolName role =>
      change (spending.checked toolName role
        (budgetShortCircuit spending.state spending.tick toolName role limits)).meteredCalls = _
      cases goes : budgetShortCircuit spending.state spending.tick toolName role limits with
      | refused message => rfl
      | budgetKill message => rfl
      | goesOn =>
          have exempt : ¬ toolName ∉ budgetExemptTools := by
            intro metered
            rw [goes_on_tail goes metered] at spent
            contradiction
          simp [checked, meteredCalls, ExecutedCall.metered, not_not.mp exempt]
  | ends index outcome =>
      change (spending.endCall index).meteredCalls = _
      unfold endCall
      split
      · rename_i call here
        split
        · exact metered_calls_set here .ended
        · rfl
      · rfl
  | account index =>
      change (accountExecuted limits spending index).meteredCalls = _
      unfold accountExecuted
      split
      · rename_i call here
        split
        · exact metered_calls_set here .finished
        · rfl
      · rfl
  | clock step => rfl
  | oracleOpens => rfl
  | oracleCloses => rfl

theorem run_count_spent (spent : countTail spending.state limits = true)
    (events : List SpendEvent) :
    (run limits spending events).meteredCalls = spending.meteredCalls := by
  induction events generalizing spending with
  | nil => rfl
  | cons event rest ih =>
      have exhausted : tailExhausted spending.state spending.tick limits = true := by
        rw [tailExhausted, spent, Bool.true_or]
      have still := count_tail_stays spent (step_counts limits spending event)
      exact (ih still).trans (step_spent exhausted event)

theorem run_clock_spent (credited : spending.Credited)
    (spent : clockTail spending.state spending.tick limits = true) (events : List SpendEvent)
    (steady : SteadyAlong limits spending events) :
    (run limits spending events).meteredCalls = spending.meteredCalls := by
  induction events generalizing spending with
  | nil => rfl
  | cons event rest ih =>
      have exhausted : tailExhausted spending.state spending.tick limits = true := by
        rw [tailExhausted, spent, Bool.or_true]
      have still := clock_tail_stays spent (step_elapsed credited event spent steady.1)
      exact (ih (step_credited credited event) still steady.2).trans (step_spent exhausted event)

end Spending

section Ceiling

variable (limits : Limits) (bound : Nat) (runId : Str) (reading : Ticks) (moment : Moment)

theorem opened_tallied : Spending.Tallied limits bound (.opened runId reading moment) where
  counted _ := rfl
  spawned _ := rfl
  within := Nat.zero_le _
  core := Nat.zero_le _
  gathers := Nat.zero_le _

theorem opened_credited : Spending.Credited (.opened runId reading moment) := nearest_zero

/-- What runs past a cap was in flight when the cap was reached, and nothing runs past the
tail: never past its count, and past its clock as long as the clock's steps are steady. -/
theorem spend_ceiling_overrun (events : List SpendEvent)
    (within : Spending.Within limits bound (.opened runId reading moment) events) :
    let reached := Spending.run limits (.opened runId reading moment) events
    reached.executedCore ≤ limits.maxToolCalls + (bound - 1) ∧
      reached.executedGathers ≤ limits.maxSubagentSpawns + (bound - 1) ∧
      reached.state.toolCalls ≤ limits.maxToolCalls + tailAllowance ∧
      (reached.state.toolCalls < limits.maxToolCalls →
        reached.state.toolCalls = reached.finished) ∧
      ∀ more,
        let later := Spending.run limits reached more
        reached.state.toolCalls ≤ later.state.toolCalls ∧
          (countTail reached.state limits = true → later.meteredCalls = reached.meteredCalls) ∧
          (clockTail reached.state reached.tick limits = true →
            Spending.SteadyAlong limits reached more →
            later.meteredCalls = reached.meteredCalls) := by
  intro reached
  have tallied := Spending.run_tallied (opened_tallied limits bound runId reading moment) events
    within
  have credited : reached.Credited :=
    Spending.run_credited (opened_credited runId reading moment) events
  refine ⟨tallied.core, tallied.gathers, tallied.within, tallied.counted, ?_⟩
  intro more later
  exact ⟨Spending.run_counts limits reached more,
    fun spent => Spending.run_count_spent spent more,
    fun spent steady => Spending.run_clock_spent credited spent more steady⟩

/-- Two calls checked before either is counted, under a cap of one, and a third past the
wall clock's tail. -/
def pairedCalls : List SpendEvent :=
  [.check ("bash" : Str) .gather, .check ("bash" : Str) .gather, .ends 0 .returned, .account 0,
    .ends 1 .servingAbort, .account 1, .clock 1321]

def oneCall : Limits := { maxToolCalls := 1 }

def beforePaired : Spending := .opened ("r" : Str) 0 0

def afterPaired : List SpendEvent :=
  [.oracleOpens, .clock 1400, .oracleCloses, .check ("read_file" : Str) .main]

theorem paired_calls_overrun :
    (Spending.run oneCall beforePaired pairedCalls).executedCore = 2 ∧
      (Spending.run oneCall beforePaired pairedCalls).executedCore ≤
        oneCall.maxToolCalls + (2 - 1) ∧
      (Spending.run oneCall (Spending.run oneCall beforePaired pairedCalls)
        afterPaired).meteredCalls =
          (Spending.run oneCall beforePaired pairedCalls).meteredCalls := by
  have ceiling := spend_ceiling_overrun oneCall 2 ("r" : Str) 0 0 pairedCalls (by decide +kernel)
  refine ⟨by decide +kernel, ceiling.1, ?_⟩
  refine (ceiling.2.2.2.2 afterPaired).2.2 (by decide +kernel) ⟨trivial, ?_, trivial, trivial, trivial⟩
  intro _ _
  decide +kernel

/-- The clock past its tail while the oracle holds the world, then back at it. -/
def towardsTail : List SpendEvent :=
  [.clock (2128706331785 / 1000000000), .oracleOpens, .clock (2267427788063 / 1000000000)]

def backFromTail : List SpendEvent :=
  [.clock (2859750970361 / 1000000000), .check ("read_file" : Str) .main]

theorem wall_limb_lapses :
    ∃ limits runId reading moment, ∃ towards back : List SpendEvent,
      let reached := Spending.run limits (.opened runId reading moment) towards
      Spending.Within limits 1 (.opened runId reading moment) (towards ++ back) ∧
        tailExhausted reached.state reached.tick limits = true ∧
        (Spending.run limits reached back).meteredCalls ≠ reached.meteredCalls := by
  refine ⟨{}, ("r" : Str), 808706331785 / 1000000000, 0, towardsTail, backFromTail, ?_⟩
  exact ⟨by decide +kernel, by decide +kernel, by decide +kernel⟩

end Ceiling

end Defender.Investigation
