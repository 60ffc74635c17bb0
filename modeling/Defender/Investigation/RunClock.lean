import Defender.Investigation.ForkCounters

/-!
# The run clock over a whole run

Ticks pass, oracle turns are opened and closed, and the clock is read. A fork reads the clock
twice for its counters, and the run goes on in the arm they are restored into, on the arm's own
ticks.
-/

namespace Defender.Investigation

open Defender.Python

inductive ClockAct where
  | advance (seconds : Ticks)
  | oracleTurnOpened
  | oracleTurnClosed
  | read
  /-- The counters are recorded, the ticks passing between the two readings, and restored. -/
  | fork (between : Ticks) (arm : RunState) (armTick : Ticks)

/-- A run's state at a tick of its clock, with what has been read off it. -/
structure RunClock where
  state : RunState
  tick : Ticks
  elapsedRead : List Ticks := []
  nowRead : List Moment := []

/-- The ticks of the oracle's turns, kept apart from the state that credits them. A turn opened
again counts from there. -/
structure TurnLedger where
  ticks : Ticks := 0
  closed : List Ticks := []
  opened : Option Ticks := none

namespace RunClock

def start (runId : Str) (tick : Ticks) (reading : Moment) : RunClock :=
  { state := .start runId tick reading, tick := tick }

def elapsed (clock : RunClock) : Ticks := clock.state.elapsed clock.tick

def now (clock : RunClock) : Moment := clock.state.now clock.tick

def step (clock : RunClock) : ClockAct → Option RunClock
  | .advance seconds =>
      if 0 ≤ seconds then some { clock with tick := clock.tick + seconds } else none
  | .oracleTurnOpened =>
      some { clock with state := clock.state.oracleTurnOpened clock.tick }
  | .oracleTurnClosed =>
      some { clock with state := clock.state.oracleTurnClosed clock.tick }
  | .read =>
      some { clock with
        elapsedRead := clock.elapsedRead ++ [clock.elapsed]
        nowRead := clock.nowRead ++ [clock.now] }
  | .fork between arm armTick =>
      if 0 ≤ between then
        match forkCounters clock.state clock.tick (clock.tick + between) with
        | .ok counters =>
            match restoreForkCounters counters armTick arm with
            | .ok restored => some {
                state := restored
                tick := armTick
                elapsedRead := clock.elapsedRead ++ [clock.state.elapsed (clock.tick + between)]
                nowRead := clock.nowRead ++ [clock.now] }
            | .error _ => none
        | .error _ => none
      else none

def run : List ClockAct → RunClock → Option RunClock
  | [], clock => some clock
  | act :: rest, clock => (clock.step act).bind (run rest)

end RunClock

namespace TurnLedger

def openTurn (ledger : TurnLedger) : Ticks :=
  match ledger.opened with
  | some opened => ledger.ticks - opened
  | none => 0

def held (ledger : TurnLedger) : Ticks := ledger.closed.sum + ledger.openTurn

def close (ledger : TurnLedger) : TurnLedger :=
  { ledger with closed := ledger.closed ++ [ledger.openTurn], opened := none }

def step (ledger : TurnLedger) : ClockAct → TurnLedger
  | .advance seconds => { ledger with ticks := ledger.ticks + seconds }
  | .oracleTurnOpened => { ledger with opened := some ledger.ticks }
  | .oracleTurnClosed => ledger.close
  | .read => ledger
  | .fork between _ _ => close { ledger with ticks := ledger.ticks + between }

def run (acts : List ClockAct) : TurnLedger := acts.foldl step {}

end TurnLedger

theorem microseconds_mono {low high : Ticks} (less : low ≤ high) :
    microseconds low ≤ microseconds high :=
  Library.Binary64.round_half_even_mono (by linarith)

/-- Nothing read so far is past what the clock shows, in the order it was read. -/
structure Forward (clock : RunClock) : Prop where
  begun : 0 ≤ clock.elapsed
  elapsed_ordered : clock.elapsedRead.Pairwise (· ≤ ·)
  now_ordered : clock.nowRead.Pairwise (· ≤ ·)
  elapsed_past : ∀ reading ∈ clock.elapsedRead, reading ≤ clock.elapsed
  now_past : ∀ reading ∈ clock.nowRead, reading ≤ clock.now

/-- The state's credit is the ledger's: the ticks it has credited, and the turn it has open. -/
structure Credited (clock : RunClock) (ledger : TurnLedger) : Prop where
  credit : clock.tick - clock.state.startedMonotonic - clock.state.oracleCredited =
    ledger.ticks - ledger.closed.sum
  opened : clock.state.oracleOpened.map (clock.tick - ·) = ledger.opened.map (ledger.ticks - ·)
  forward : ∀ opened, clock.state.oracleOpened = some opened → opened ≤ clock.tick

variable {clock after : RunClock} {ledger : TurnLedger}

theorem credited_held (known : Credited clock ledger) :
    clock.state.oracleHeldAt clock.tick = clock.state.oracleCredited + ledger.openTurn := by
  have opened := known.opened
  unfold RunState.oracleHeldAt TurnLedger.openTurn
  cases state : clock.state.oracleOpened with
  | none =>
      rw [state] at opened
      cases ledger_opened : ledger.opened with
      | none => simp
      | some at_ledger => simp [ledger_opened] at opened
  | some at_state =>
      rw [state] at opened
      cases ledger_opened : ledger.opened with
      | none => simp [ledger_opened] at opened
      | some at_ledger =>
          have same : clock.tick - at_state = ledger.ticks - at_ledger := by
            simpa [ledger_opened] using opened
          have length : 0 ≤ clock.tick - at_state := sub_nonneg.mpr (known.forward _ state)
          dsimp only
          rw [max_eq_right length, same]

theorem credited_elapsed (known : Credited clock ledger) :
    clock.elapsed = ledger.ticks - ledger.held := by
  have credit := known.credit
  unfold RunClock.elapsed RunState.elapsed TurnLedger.held
  rw [credited_held known]
  linarith

theorem forward_later (known : Forward clock) {state : RunState} {tick : Ticks}
    (origin : state.origin = clock.state.origin)
    (onward : clock.elapsed ≤ state.elapsed tick) :
    Forward { clock with state := state, tick := tick } where
  begun := known.begun.trans onward
  elapsed_ordered := known.elapsed_ordered
  now_ordered := known.now_ordered
  elapsed_past := fun reading read => (known.elapsed_past reading read).trans onward
  now_past := by
    intro reading read
    apply (known.now_past reading read).trans
    unfold RunClock.now RunState.now
    rw [origin]
    have later := microseconds_mono onward
    exact Int.add_le_add_left later _

theorem closed_origin (state : RunState) (tick : Ticks) :
    (state.oracleTurnClosed tick).origin = state.origin := by
  unfold RunState.oracleTurnClosed
  split <;> rfl

theorem ordered_append {Reading : Type} [Preorder Reading] {readings : List Reading}
    {last : Reading} (ordered : readings.Pairwise (· ≤ ·))
    (past : ∀ reading ∈ readings, reading ≤ last) :
    (readings ++ [last]).Pairwise (· ≤ ·) := by
  rw [List.pairwise_append]
  refine ⟨ordered, List.pairwise_singleton _ _, ?_⟩
  intro reading read other added
  rw [List.mem_singleton.mp added]
  exact past reading read

theorem past_append {Reading : Type} [Preorder Reading] {readings : List Reading}
    {last : Reading} (past : ∀ reading ∈ readings, reading ≤ last) :
    ∀ reading ∈ readings ++ [last], reading ≤ last := by
  intro reading read
  rcases List.mem_append.mp read with old | new
  · exact past reading old
  · exact (List.mem_singleton.mp new).le

theorem fork_step {between armTick : Ticks} {arm : RunState}
    (taken : clock.step (.fork between arm armTick) = some after) :
    0 ≤ between ∧ ∃ counters, forkCounters clock.state clock.tick (clock.tick + between) =
        .ok counters ∧ restoreForkCounters counters armTick arm = .ok after.state ∧
      after = ⟨after.state, armTick,
        clock.elapsedRead ++ [clock.state.elapsed (clock.tick + between)],
        clock.nowRead ++ [clock.now]⟩ := by
  simp only [RunClock.step] at taken
  split at taken
  · rename_i onward
    split at taken
    · rename_i counters recorded
      split at taken
      · rename_i restored done
        cases taken
        exact ⟨onward, counters, recorded, done, rfl⟩
      · cases taken
    · cases taken
  · cases taken

theorem fork_resumed (known : Forward clock) {between armTick : Ticks} {arm : RunState}
    (taken : clock.step (.fork between arm armTick) = some after) :
    after.elapsed = clock.state.elapsed (clock.tick + between) ∧ after.now = clock.now := by
  obtain ⟨onward, counters, recorded, done, same⟩ := fork_step taken
  have later : clock.elapsed ≤ clock.state.elapsed (clock.tick + between) :=
    elapsed_mono clock.state (by linarith)
  obtain ⟨restored, again, resumed⟩ :=
    counters_resumed recorded (known.begun.trans later) arm armTick
  rw [done, Except.ok.injEq] at again
  have tick : after.tick = armTick := by rw [same]
  unfold RunClock.elapsed RunClock.now
  rw [tick, again]
  exact ⟨resumed.elapsed, resumed.reading⟩

theorem forward_step (known : Forward clock) {act : ClockAct}
    (taken : clock.step act = some after) : Forward after := by
  cases act with
  | advance seconds =>
      simp only [RunClock.step, Option.ite_none_right_eq_some] at taken
      obtain ⟨onward, taken⟩ := taken
      cases taken
      exact forward_later known rfl (elapsed_mono clock.state (by linarith))
  | oracleTurnOpened =>
      cases taken
      exact forward_later known rfl (elapsed_oracle_opened clock.state clock.tick)
  | oracleTurnClosed =>
      cases taken
      exact forward_later known (closed_origin clock.state clock.tick)
        (elapsed_oracle_closed clock.state clock.tick).ge
  | read =>
      cases taken
      exact {
        begun := known.begun
        elapsed_ordered := ordered_append known.elapsed_ordered known.elapsed_past
        now_ordered := ordered_append known.now_ordered known.now_past
        elapsed_past := past_append known.elapsed_past
        now_past := past_append known.now_past }
  | fork between arm armTick =>
      obtain ⟨elapsed_same, now_same⟩ := fork_resumed known taken
      obtain ⟨onward, counters, recorded, done, same⟩ := fork_step taken
      have later : clock.elapsed ≤ clock.state.elapsed (clock.tick + between) :=
        elapsed_mono clock.state (by linarith)
      have elapsed_read : after.elapsedRead =
          clock.elapsedRead ++ [clock.state.elapsed (clock.tick + between)] := by rw [same]
      have now_read : after.nowRead = clock.nowRead ++ [clock.now] := by rw [same]
      have elapsed_known : ∀ reading ∈ clock.elapsedRead,
          reading ≤ clock.state.elapsed (clock.tick + between) :=
        fun reading read => (known.elapsed_past reading read).trans later
      exact {
        begun := by
          rw [elapsed_same]
          exact known.begun.trans later
        elapsed_ordered := by
          rw [elapsed_read]
          exact ordered_append known.elapsed_ordered elapsed_known
        now_ordered := by
          rw [now_read]
          exact ordered_append known.now_ordered known.now_past
        elapsed_past := by
          rw [elapsed_read, elapsed_same]
          exact past_append elapsed_known
        now_past := by
          rw [now_read, now_same]
          exact past_append known.now_past }

theorem credited_advance (known : Credited clock ledger) {seconds : Ticks} (onward : 0 ≤ seconds) :
    Credited { clock with tick := clock.tick + seconds }
      { ledger with ticks := ledger.ticks + seconds } where
  credit := by
    have credit := known.credit
    dsimp only
    linarith
  opened := by
    have opened := known.opened
    cases state : clock.state.oracleOpened with
    | none =>
        rw [state] at opened
        cases ledger_opened : ledger.opened with
        | none => rfl
        | some at_ledger => simp [ledger_opened] at opened
    | some at_state =>
        rw [state] at opened
        cases ledger_opened : ledger.opened with
        | none => simp [ledger_opened] at opened
        | some at_ledger =>
            have same : clock.tick - at_state = ledger.ticks - at_ledger := by
              simpa [ledger_opened] using opened
            simp only [Option.map_some, Option.some.injEq]
            linarith
  forward := fun opened state => (known.forward opened state).trans (by linarith)

theorem restored_turns {counters : ForkCounters} {tick : Ticks} {arm restored : RunState}
    (done : restoreForkCounters counters tick arm = .ok restored) :
    restored.oracleCredited = 0 ∧ restored.oracleOpened = none := by
  unfold restoreForkCounters at done
  split at done
  · split at done
    · cases done
    · cases done
      exact ⟨rfl, rfl⟩
  · cases done

theorem credited_step (known : Credited clock ledger) (forward : Forward clock) {act : ClockAct}
    (taken : clock.step act = some after) : Credited after (ledger.step act) := by
  cases act with
  | advance seconds =>
      simp only [RunClock.step, Option.ite_none_right_eq_some] at taken
      obtain ⟨onward, taken⟩ := taken
      cases taken
      exact credited_advance known onward
  | oracleTurnOpened =>
      cases taken
      exact {
        credit := known.credit
        opened := by simp [RunState.oracleTurnOpened, TurnLedger.step]
        forward := fun opened state => (Option.some.inj state).ge }
  | oracleTurnClosed =>
      cases taken
      have held := credited_held known
      have credit := known.credit
      have credited : (clock.state.oracleTurnClosed clock.tick).oracleCredited =
          clock.state.oracleHeldAt clock.tick := by
        unfold RunState.oracleTurnClosed RunState.oracleHeldAt
        cases clock.state.oracleOpened <;> rfl
      have closed : (clock.state.oracleTurnClosed clock.tick).oracleOpened = none := by
        unfold RunState.oracleTurnClosed
        cases opened : clock.state.oracleOpened with
        | none => exact opened
        | some opened => rfl
      have started : (clock.state.oracleTurnClosed clock.tick).startedMonotonic =
          clock.state.startedMonotonic := by
        unfold RunState.oracleTurnClosed
        cases clock.state.oracleOpened <;> rfl
      exact {
        credit := by
          simp only [TurnLedger.step, TurnLedger.close, List.sum_append, List.sum_singleton]
          rw [credited, started, held]
          linarith
        opened := by
          dsimp only
          rw [closed]
          rfl
        forward := by
          intro opened state
          dsimp only at state
          rw [closed] at state
          cases state }
  | read =>
      cases taken
      exact ⟨known.credit, known.opened, known.forward⟩
  | fork between arm armTick =>
      obtain ⟨onward, counters, recorded, done, same⟩ := fork_step taken
      obtain ⟨credited, closed⟩ := restored_turns done
      have seam : after.elapsed = clock.state.elapsed (clock.tick + between) :=
        (fork_resumed forward taken).1
      have later : clock.state.elapsed (clock.tick + between) = _ :=
        credited_elapsed (credited_advance known onward)
      exact {
        credit := by
          have alone : after.elapsed = after.tick - after.state.startedMonotonic - 0 := by
            unfold RunClock.elapsed RunState.elapsed RunState.oracleHeldAt
            rw [closed, credited]
          rw [credited, ← alone, seam, later]
          simp only [TurnLedger.held, TurnLedger.step, TurnLedger.close, List.sum_append,
            List.sum_singleton]
        opened := by
          rw [closed]
          rfl
        forward := by
          intro opened state
          rw [closed] at state
          cases state }

theorem run_clock_kept {acts : List ClockAct} (forward : Forward clock)
    (known : Credited clock ledger) (ran : clock.run acts = some after) :
    Forward after ∧ Credited after (acts.foldl TurnLedger.step ledger) := by
  induction acts generalizing clock ledger with
  | nil =>
      cases ran
      exact ⟨forward, known⟩
  | cons act rest ih =>
      obtain ⟨next, taken, ran⟩ := Option.bind_eq_some_iff.mp ran
      exact ih (forward_step forward taken) (credited_step known forward taken) ran

theorem start_forward (runId : Str) (tick : Ticks) (reading : Moment) :
    Forward (.start runId tick reading) where
  begun := (start_at_elapsed _ tick 0 reading).ge
  elapsed_ordered := .nil
  now_ordered := .nil
  elapsed_past := nofun
  now_past := nofun

theorem start_credited (runId : Str) (tick : Ticks) (reading : Moment) :
    Credited (.start runId tick reading) {} where
  credit := by simp [RunClock.start, RunState.start, RunState.startAt]
  opened := rfl
  forward := nofun

/-- The readings of a run never fall, the clock's reading is its origin and the elapsed time, and
the elapsed time is the ticks outside the oracle's turns, through every fork on the way; a fork's
arm begins at what the fork read. -/
theorem run_clock_excludes_turns (runId : Str) (tick : Ticks) (reading : Moment)
    (acts : List ClockAct) (clock : RunClock)
    (ran : (RunClock.start runId tick reading).run acts = some clock) :
    clock.elapsedRead.Pairwise (· ≤ ·) ∧ clock.nowRead.Pairwise (· ≤ ·) ∧
      clock.now = clock.state.origin + microseconds clock.elapsed ∧
      clock.elapsed = (TurnLedger.run acts).ticks - (TurnLedger.run acts).held ∧
      ∀ between arm armTick counters, 0 ≤ between →
        forkCounters clock.state clock.tick (clock.tick + between) = .ok counters →
        ∃ next, clock.step (.fork between arm armTick) = some next ∧
          next.elapsed = clock.state.elapsed (clock.tick + between) ∧ next.now = clock.now := by
  obtain ⟨forward, credited⟩ := run_clock_kept (start_forward runId tick reading)
    (start_credited runId tick reading) ran
  refine ⟨forward.elapsed_ordered, forward.now_ordered, rfl, credited_elapsed credited, ?_⟩
  intro between arm armTick counters onward recorded
  have later : clock.elapsed ≤ clock.state.elapsed (clock.tick + between) :=
    elapsed_mono clock.state (by linarith)
  obtain ⟨restored, done, -⟩ := counters_resumed recorded (forward.begun.trans later) arm armTick
  have taken : clock.step (.fork between arm armTick) = some ⟨restored, armTick,
      clock.elapsedRead ++ [clock.state.elapsed (clock.tick + between)],
      clock.nowRead ++ [clock.now]⟩ := by
    simp only [RunClock.step, if_pos onward, recorded, done]
  exact ⟨_, taken, fork_resumed forward taken⟩

def turnTaken : List ClockAct :=
  [.advance 2, .oracleTurnOpened, .advance 3, .oracleTurnClosed, .read, .oracleTurnOpened,
    .advance 1, .read]

theorem turn_excluded : ∃ clock, (RunClock.start "run".toList 5 0).run turnTaken = some clock ∧
    clock.elapsed = 2 ∧ clock.now = clock.state.origin + microseconds clock.elapsed ∧
    clock.elapsedRead.Pairwise (· ≤ ·) := by
  obtain ⟨clock, ran⟩ := Option.isSome_iff_exists.mp
    (show ((RunClock.start "run".toList 5 0).run turnTaken).isSome = true by decide +kernel)
  obtain ⟨ordered, -, origin, elapsed, -⟩ :=
    run_clock_excludes_turns "run".toList 5 0 turnTaken clock ran
  refine ⟨clock, ran, ?_, origin, ordered⟩
  have excluded : (TurnLedger.run turnTaken).ticks - (TurnLedger.run turnTaken).held = 2 := by
    decide +kernel
  exact elapsed.trans excluded

end Defender.Investigation
