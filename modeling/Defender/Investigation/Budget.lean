import Defender.Investigation.RunState

/-!
# The spend ceiling

What a tool call may spend, as the enforcing hooks decide it before the call and count it
after. The checks read the counters and the clock of the run's state at one moment. Ticks are
doubles here, and each sum and difference of the clock is rounded as the code's floats are.
-/

namespace Defender.Investigation

open Defender.Python Defender.Library.OrderedDict
open Defender.Library.Binary64 (nearest)

namespace RunState

variable (state : RunState)

def floatHeldAt (tick : Ticks) : Ticks :=
  match state.oracleOpened with
  | some opened => nearest (state.oracleCredited + max 0 (nearest (tick - opened)))
  | none => state.oracleCredited

def floatSince (tick : Ticks) : Ticks := nearest (tick - state.startedMonotonic)

def floatElapsed (tick : Ticks) : Ticks :=
  nearest (state.floatSince tick - state.floatHeldAt tick)

def floatTurnClosed (tick : Ticks) : RunState :=
  { state with oracleOpened := none, oracleCredited := state.floatHeldAt tick }

end RunState

inductive AgentRole where
  | main | gather | leadAuthor | corpusAuthor | support | composer | questioner | judge
  | oracle | oracleCheck
  deriving DecidableEq, Repr

/-- The part of `limits` the enforcing checks read. -/
structure Limits where
  maxToolCalls : Nat := 200
  wallClockTimeout : Nat := 1200
  maxSubagentSpawns : Nat := 40
  graceSeconds : Nat := 120
  deriving DecidableEq, Repr

def tailAllowance : Nat := 10

def budgetExemptTools : List Str := [("close_investigation" : Str)]

/-- `_MAIN_TAIL_TOOLS`. -/
def mainTailTools : List Str :=
  [("read_file" : Str), ("append_block" : Str), ("fix_row" : Str), ("write_file" : Str),
    ("edit_file" : Str)]

def gatherTool : Str := ("gather" : Str)

inductive Tier where
  | tail | core
  deriving DecidableEq, Repr

def tier (toolName : Str) (role : AgentRole) : Tier :=
  if role = .main ∧ toolName ∈ mainTailTools then .tail else .core

def tally (state : RunState) (toolName : Str) : RunState :=
  { state with
    toolCalls := state.toolCalls + 1
    subagentSpawns :=
      if toolName = gatherTool then state.subagentSpawns + 1 else state.subagentSpawns }

def callLimit (limits : Limits) : Tier → Nat
  | .tail => limits.maxToolCalls + tailAllowance
  | .core => limits.maxToolCalls

def accountCall (state : RunState) (toolName : Str) (limits : Limits) (callTier : Tier) :
    RunState :=
  if state.toolCalls < callLimit limits callTier then tally state toolName else state

/-- The count limb of `tail_exhausted`. -/
def countTail (state : RunState) (limits : Limits) : Bool :=
  decide (limits.maxToolCalls + tailAllowance ≤ state.toolCalls)

/-- Its wall-clock limb. -/
def clockTail (state : RunState) (tick : Ticks) (limits : Limits) : Bool :=
  decide (((limits.wallClockTimeout + limits.graceSeconds : Nat) : ℚ) < state.floatElapsed tick)

def tailExhausted (state : RunState) (tick : Ticks) (limits : Limits) : Bool :=
  countTail state limits || clockTail state tick limits

def spawnsSpent (state : RunState) (toolName : Str) (limits : Limits) : Bool :=
  toolName == gatherTool && decide (limits.maxSubagentSpawns ≤ state.subagentSpawns)

def clockSpent (state : RunState) (tick : Ticks) (limits : Limits) : Bool :=
  decide ((limits.wallClockTimeout : ℚ) ≤ state.floatElapsed tick)

def shouldRefuse (state : RunState) (tick : Ticks) (toolName : Str) (callTier : Tier)
    (limits : Limits) : Bool :=
  if toolName ∈ budgetExemptTools then false
  else if callTier = .tail then false
  else
    decide (limits.maxToolCalls ≤ state.toolCalls) || spawnsSpent state toolName limits ||
      clockSpent state tick limits

/-- `_tripped_limb`. -/
def trippedLimb (state : RunState) (tick : Ticks) (toolName : Str) (limits : Limits) : Str :=
  if clockSpent state tick limits then ("wall-clock" : Str)
  else if spawnsSpent state toolName limits then ("subagent-spawn" : Str)
  else if limits.maxToolCalls ≤ state.toolCalls then ("tool-call" : Str)
  else ("budget" : Str)

def refusalMessage (state : RunState) (tick : Ticks) (toolName : Str) (limits : Limits) : Str :=
  ("Budget stop: the " : Str) ++ toolName ++
    (" tool is now PERMANENTLY withdrawn for the rest of this run (the " : Str) ++
    trippedLimb state tick toolName limits ++
    (" cap is reached and will not reset). Appending to investigation.md — append_block — " : Str) ++
    ("repairing a flagged row — fix_row — and closing the investigation are still available. " :
      Str) ++
    ("Do not retry this tool; close the investigation now and record your report from " : Str) ++
    ("the evidence you already have." : Str)

/-- What the check ahead of a call answers. -/
inductive Verdict where
  | goesOn
  | refused (message : Str)
  | budgetKill (message : Str)
  deriving DecidableEq, Repr

/-- `_budget_short_circuit`. -/
def budgetShortCircuit (state : RunState) (tick : Ticks) (toolName : Str) (role : AgentRole)
    (limits : Limits) : Verdict :=
  if toolName ∈ budgetExemptTools then .goesOn
  else if tailExhausted state tick limits then
    .budgetKill (("budget tail exhausted at " : Str) ++ toolName)
  else if shouldRefuse state tick toolName (tier toolName role) limits then
    .refused (refusalMessage state tick toolName limits)
  else .goesOn

section Checks

variable {state : RunState} {tick : Ticks} {toolName : Str} {role : AgentRole} {limits : Limits}

theorem goes_on_tail (goes : budgetShortCircuit state tick toolName role limits = .goesOn)
    (metered : toolName ∉ budgetExemptTools) : tailExhausted state tick limits = false := by
  unfold budgetShortCircuit at goes
  rw [if_neg metered] at goes
  split at goes
  · cases goes
  · rename_i unspent
    exact Bool.eq_false_iff.mpr unspent

theorem goes_on_core (goes : budgetShortCircuit state tick toolName role limits = .goesOn)
    (metered : toolName ∉ budgetExemptTools) (core : tier toolName role = .core) :
    state.toolCalls < limits.maxToolCalls ∧
      (toolName = gatherTool → state.subagentSpawns < limits.maxSubagentSpawns) := by
  unfold budgetShortCircuit shouldRefuse at goes
  rw [if_neg metered] at goes
  split at goes
  · cases goes
  · rw [core, if_neg (show Tier.core ≠ Tier.tail by decide)] at goes
    split at goes
    · cases goes
    · rename_i allowed
      simp only [Bool.or_eq_true, decide_eq_true_eq, not_or, not_le] at allowed
      refine ⟨allowed.1.1, ?_⟩
      intro gathers
      have unspent := allowed.1.2
      simp only [spawnsSpent, gathers, beq_self_eq_true, Bool.true_and, decide_eq_true_eq, not_le]
        at unspent
      exact unspent

theorem gather_core (role : AgentRole) : tier gatherTool role = .core := by
  unfold tier
  rw [if_neg]
  rintro ⟨_, member⟩
  exact absurd member (by decide)

theorem gather_metered : gatherTool ∉ budgetExemptTools := by decide

theorem account_call_counts (toolName : Str) (callTier : Tier)
    (below : state.toolCalls < limits.maxToolCalls) :
    accountCall state toolName limits callTier = tally state toolName := by
  unfold accountCall
  refine if_pos (below.trans_le ?_)
  cases callTier with
  | tail => exact Nat.le_add_right _ _
  | core => exact le_rfl

theorem account_call_grows (toolName : Str) (callTier : Tier) :
    state.toolCalls ≤ (accountCall state toolName limits callTier).toolCalls := by
  unfold accountCall
  split
  · exact Nat.le_succ _
  · exact le_rfl

theorem account_call_within (toolName : Str) (callTier : Tier)
    (within : state.toolCalls ≤ limits.maxToolCalls + tailAllowance) :
    (accountCall state toolName limits callTier).toolCalls ≤
      limits.maxToolCalls + tailAllowance := by
  unfold accountCall
  split
  · rename_i below
    have most : callLimit limits callTier ≤ limits.maxToolCalls + tailAllowance := by
      cases callTier with
      | tail => exact le_rfl
      | core => exact Nat.le_add_right _ _
    exact below.trans_le most
  · exact within

theorem account_call_elapsed (toolName : Str) (callTier : Tier) (tick : Ticks) :
    (accountCall state toolName limits callTier).floatElapsed tick = state.floatElapsed tick := by
  unfold accountCall
  split <;> rfl

theorem account_call_credited (toolName : Str) (callTier : Tier) :
    (accountCall state toolName limits callTier).oracleCredited = state.oracleCredited := by
  unfold accountCall
  split <;> rfl

theorem count_tail_stays {next : RunState} (spent : countTail state limits = true)
    (counted : state.toolCalls ≤ next.toolCalls) : countTail next limits = true :=
  decide_eq_true ((of_decide_eq_true spent).trans counted)

theorem clock_tail_stays {next : RunState} {later : Ticks}
    (spent : clockTail state tick limits = true)
    (onward : state.floatElapsed tick ≤ next.floatElapsed later) :
    clockTail next later limits = true :=
  decide_eq_true ((of_decide_eq_true spent).trans_le onward)

end Checks

end Defender.Investigation
