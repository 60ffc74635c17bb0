import Defender.Filesystem.JsonLines
import Defender.Library.Binary64
import Defender.Library.OrderedDict

/-!
# A run's live state

The counters, the run clock, the breaker, the systems that are down and each lead's rows,
as the run's own process holds them. Ticks and elapsed times are seconds, exact; a moment is
a number of microseconds. The clock's tick is given wherever the code reads it.
-/

namespace Defender.Investigation

open Defender.Python Defender.Library.OrderedDict
open Defender.Library.Binary64 (roundHalfEven)

abbrev Ticks := ℚ

abbrev Moment := Int

structure SystemFailures where
  failures : Nat
  trippedAt : Option Str := none
  deriving DecidableEq, Repr

structure Breaker where
  systems : Dict Str SystemFailures := Dict.empty
  totalFailures : Nat := 0

/-- `StartCause`: why a system is down for the run, other than a trip. -/
inductive StartCause where
  | notConfigured (reason : Str)
  | adapterBroken (reason : Str)
  deriving DecidableEq, Repr

structure RunState where
  runId : Str
  toolCalls : Nat := 0
  subagentSpawns : Nat := 0
  startedMonotonic : Ticks
  origin : Moment
  oracleCredited : Ticks := 0
  oracleOpened : Option Ticks := none
  breaker : Breaker := {}
  systemDown : Dict Str StartCause := Dict.empty
  rows : Dict Str (List Json) := Dict.empty
  callRun : Str
  callNumber : Nat := 0

/-- A duration in seconds as the interpreter keeps it. -/
def microseconds (seconds : Ticks) : Int := roundHalfEven (seconds * 1000000)

namespace RunState

variable (state : RunState)

def startAt (tick elapsed : Ticks) (reading : Moment) : RunState :=
  { state with
    startedMonotonic := tick - elapsed, oracleCredited := 0, oracleOpened := none,
    origin := reading - microseconds elapsed }

def start (runId : Str) (tick : Ticks) (reading : Moment) : RunState :=
  ({ runId := runId, startedMonotonic := 0, origin := 0, callRun := runId } : RunState).startAt tick 0
    reading

def oracleHeldAt (tick : Ticks) : Ticks :=
  match state.oracleOpened with
  | some opened => state.oracleCredited + max 0 (tick - opened)
  | none => state.oracleCredited

def elapsed (tick : Ticks) : Ticks := tick - state.startedMonotonic - state.oracleHeldAt tick

def now (tick : Ticks) : Moment := state.origin + microseconds (state.elapsed tick)

def oracleTurnOpened (tick : Ticks) : RunState := { state with oracleOpened := some tick }

def oracleTurnClosed (tick : Ticks) : RunState :=
  match state.oracleOpened with
  | some opened => { state with
      oracleOpened := none, oracleCredited := state.oracleCredited + max 0 (tick - opened) }
  | none => state

def leadRows (lead : Str) : List Json := (state.rows.get? lead).getD []

def rowCount (lead : Str) : Nat := (state.leadRows lead).length

end RunState

section Clock

variable (state : RunState)

theorem elapsed_mono {tick next : Ticks} (onward : tick ≤ next) :
    state.elapsed tick ≤ state.elapsed next := by
  unfold RunState.elapsed RunState.oracleHeldAt
  cases state.oracleOpened with
  | none =>
      dsimp only
      linarith
  | some opened =>
      dsimp only
      rcases le_total (tick - opened) 0 with before | during
      · rw [max_eq_left before]
        rcases le_total (next - opened) 0 with still | later
        · rw [max_eq_left still]
          linarith
        · rw [max_eq_right later]
          linarith
      · have later : 0 ≤ next - opened := by linarith
        rw [max_eq_right during, max_eq_right later]
        linarith

theorem elapsed_oracle_opened (tick : Ticks) :
    state.elapsed tick ≤ (state.oracleTurnOpened tick).elapsed tick := by
  unfold RunState.elapsed RunState.oracleHeldAt RunState.oracleTurnOpened
  dsimp only
  rw [sub_self, max_self]
  cases state.oracleOpened with
  | none =>
      dsimp only
      linarith
  | some opened =>
      have held : (0 : ℚ) ≤ max 0 (tick - opened) := le_max_left _ _
      dsimp only
      linarith

theorem elapsed_oracle_closed (tick : Ticks) :
    (state.oracleTurnClosed tick).elapsed tick = state.elapsed tick := by
  unfold RunState.elapsed RunState.oracleHeldAt RunState.oracleTurnClosed
  cases opened : state.oracleOpened with
  | none => simp only [opened]
  | some tick => simp only

end Clock

end Defender.Investigation
