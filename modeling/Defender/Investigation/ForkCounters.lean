import Defender.Investigation.ForkSnapshot

/-!
# Counters across a fork

The breaker and the causes systems are down for cross the store as JSON objects with sorted
keys, so what comes back holds the same under every key, in another order perhaps. The clock
is set to the reading and the elapsed time recorded.
-/

namespace Defender.Investigation

open Defender.Python Defender.Library.OrderedDict

section Entries

variable {Value : Type} {encode : Value → Json} {read : Json → Option Value}

theorem map_read {Item Entry : Type} {write : Item → Entry} {parse : Entry → Option Item}
    {items : List Item} (reads : ∀ item ∈ items, parse (write item) = some item) :
    (items.map write).mapM parse = some items := by
  induction items with
  | nil => rfl
  | cons item items ih =>
      rw [List.map_cons, List.mapM_cons, reads item List.mem_cons_self,
        ih fun other member => reads other (List.mem_cons_of_mem _ member)]
      rfl

theorem get_of_perm {dict : Dict Str Value} {entries : List (Str × Value)}
    (same : entries.Perm dict.entries) (key : Str) :
    (Dict.ofList entries).get? key = dict.get? key := by
  have distinct : (entries.map Prod.fst).Nodup := (same.map Prod.fst).nodup_iff.mpr dict.nodup
  have held : (Dict.ofList entries).entries = entries := Dict.of_list_entries distinct
  ext value
  rw [← Dict.mem_entries_iff, ← Dict.mem_entries_iff, held]
  exact same.mem_iff

theorem read_sorted_entries {dict : Dict Str Value}
    (reads : ∀ entry ∈ dict.entries, read (sortKeys (encode entry.2)) = some entry.2) :
    ∃ restored, readEntries read
        (sortKeys (.object (dict.entries.map fun entry => (entry.1, encode entry.2)))) =
          some restored ∧
      ∀ key, restored.get? key = dict.get? key := by
  let keyLe := fun left right : Str × Value => textLe left.1 right.1 = true
  let sortedEntries := dict.entries.insertionSort keyLe
  have perm : sortedEntries.Perm dict.entries := List.perm_insertionSort keyLe dict.entries
  have moved : sortKeys (.object (dict.entries.map fun entry => (entry.1, encode entry.2))) =
      .object (sortedEntries.map fun entry => (entry.1, sortKeys (encode entry.2))) := by
    rw [sortKeys, sort_entries_map, List.map_map]
    congr 1
    exact (List.map_insertionSort keyLe (fun left right : Str × Json => textLe left.1 right.1 = true)
      _ dict.entries fun _ _ _ _ => Iff.rfl).symm
  have each : ∀ entry ∈ sortedEntries,
      ((read (sortKeys (encode entry.2))).map fun held => (entry.1, held)) = some entry := by
    intro entry member
    rw [reads entry (perm.mem_iff.mp member)]
    rfl
  refine ⟨Dict.ofList sortedEntries, ?_, get_of_perm perm⟩
  rw [moved, readEntries, map_read each]
  rfl

end Entries

theorem check_index_of_nat {number : Nat} (short : (decimalText number).length ≤ Json.digitsLimit) :
    checkIndex (Json.ofNat number) = some number := by
  unfold checkIndex
  rw [Json.as_int_of_nat short]

theorem failures_read {record : SystemFailures}
    (short : (decimalText record.failures).length ≤ Json.digitsLimit) :
    readFailures (sortKeys (failuresJson record)) = some record := by
  obtain ⟨failures, trippedAt⟩ := record
  have index : ∀ rest, rest = [] ∨ (∃ stamp, rest = [(("tripped_at".toList : Str), stamp)]) →
      naturalUnder "failures" (.object (("failures", Json.ofNat failures) :: rest)) =
        some failures := by
    rintro rest (rfl | ⟨stamp, rfl⟩)
    · exact check_index_of_nat short
    · exact check_index_of_nat short
  cases trippedAt with
  | none =>
      have sorted : sortKeys (failuresJson { failures := failures }) =
          .object [("failures", Json.ofNat failures)] := rfl
      rw [sorted]
      simp only [readFailures, index _ (.inl rfl), Option.bind_eq_bind, Option.bind_some]
      rfl
  | some stamp =>
      have sorted : sortKeys (failuresJson { failures := failures, trippedAt := some stamp }) =
          .object [("failures", Json.ofNat failures), ("tripped_at", .string stamp)] := rfl
      rw [sorted]
      simp only [readFailures, index _ (.inr ⟨_, rfl⟩), Option.bind_eq_bind, Option.bind_some]
      rfl

theorem cause_read (cause : StartCause) : readCause (sortKeys (causeJson cause)) = some cause := by
  cases cause with
  | notConfigured reason => rfl
  | adapterBroken reason => rfl

theorem breaker_spelled_counts {breaker : Breaker}
    (spelled : (breakerJson breaker).spelled = true) :
    (∀ entry ∈ breaker.systems.entries,
        (decimalText entry.2.failures).length ≤ Json.digitsLimit) ∧
      (decimalText breaker.totalFailures).length ≤ Json.digitsLimit := by
  rw [breakerJson, Json.spelled, spelled_entries_iff, List.forall_mem_cons,
    List.forall_mem_singleton] at spelled
  obtain ⟨systems, total⟩ := spelled
  refine ⟨fun entry member => ?_, Json.spelled_decimal_short total⟩
  rw [Json.spelled, spelled_entries_iff] at systems
  have record := systems _ (List.mem_map.mpr ⟨entry, member, rfl⟩)
  dsimp only at record
  rw [failuresJson, Json.spelled, spelled_entries_iff] at record
  exact Json.spelled_decimal_short (record _ List.mem_cons_self)

theorem through_store {value : Json} (spelled : value.spelled = true) :
    throughStore value = some (sortKeys value) :=
  Json.loads_dumps _ (sort_keys_spelled value spelled)

theorem breaker_through {breaker : Breaker} (spelled : (breakerJson breaker).spelled = true) :
    ∃ restored, (throughStore (breakerJson breaker)).bind readBreaker = some restored ∧
      restored.totalFailures = breaker.totalFailures ∧
      ∀ system, restored.systems.get? system = breaker.systems.get? system := by
  obtain ⟨failures, total⟩ := breaker_spelled_counts spelled
  have reads : ∀ entry ∈ breaker.systems.entries,
      readFailures (sortKeys (failuresJson entry.2)) = some entry.2 := fun entry member =>
    failures_read (failures entry member)
  obtain ⟨systems, read, same⟩ := read_sorted_entries reads
  have sorted : sortKeys (breakerJson breaker) =
      .object [("systems", sortKeys (.object (breaker.systems.entries.map fun entry =>
          (entry.1, failuresJson entry.2)))),
        ("total_failures", Json.ofNat breaker.totalFailures)] := rfl
  refine ⟨{ systems := systems, totalFailures := breaker.totalFailures }, ?_, rfl, same⟩
  rw [through_store spelled, Option.bind_some, sorted]
  generalize sortKeys (.object (breaker.systems.entries.map fun entry =>
    (entry.1, failuresJson entry.2))) = recorded at read
  have under : Json.get? "systems" (.object [("systems", recorded),
      ("total_failures", Json.ofNat breaker.totalFailures)]) = some recorded := rfl
  have count : naturalUnder "total_failures" (.object [("systems", recorded),
      ("total_failures", Json.ofNat breaker.totalFailures)]) = some breaker.totalFailures :=
    check_index_of_nat total
  simp only [readBreaker, under, count, read, Option.bind_some, Option.bind_eq_bind]
  rfl

theorem down_spelled (down : Dict Str StartCause) : (snapshotDown down).spelled = true := by
  rw [snapshotDown, Json.spelled, spelled_entries_iff]
  intro entry member
  obtain ⟨held, _, rfl⟩ := List.mem_map.mp member
  cases held.2 with
  | notConfigured reason => rfl
  | adapterBroken reason => rfl

theorem down_through (down : Dict Str StartCause) :
    ∃ restored, (throughStore (snapshotDown down)).bind downFromSnapshot = some restored ∧
      ∀ system, restored.get? system = down.get? system := by
  rw [through_store (down_spelled down), Option.bind_some]
  exact read_sorted_entries fun entry _ => cause_read entry.2

/-- An arm's counters as its source's stood; what the arm found down itself stays down. -/
structure Resumed (state : RunState) (reading elapsed : Ticks) (arm : RunState) (tick : Ticks)
    (restored : RunState) : Prop where
  toolCalls : restored.toolCalls = state.toolCalls
  subagentSpawns : restored.subagentSpawns = state.subagentSpawns
  totalFailures : restored.breaker.totalFailures = state.breaker.totalFailures
  systems : ∀ system, restored.breaker.systems.get? system = state.breaker.systems.get? system
  systemDown : ∀ system, restored.systemDown.get? system =
    (state.systemDown.get? system).or (arm.systemDown.get? system)
  elapsed : restored.elapsed tick = state.elapsed elapsed
  reading : restored.now tick = state.now reading
  rows : ∀ lead, restored.leadRows lead = arm.leadRows lead

theorem fork_counters_ok {state : RunState} {reading elapsed : Ticks} {counters : ForkCounters}
    (recorded : forkCounters state reading elapsed = .ok counters) :
    isoformat false (state.now reading) = some counters.reading ∧
      (breakerJson state.breaker).spelled = true ∧ counters.toolCalls = state.toolCalls ∧
      counters.subagentSpawns = state.subagentSpawns ∧
      counters.breaker = breakerJson state.breaker ∧
      counters.systemDown = snapshotDown state.systemDown ∧
      counters.elapsed = state.elapsed elapsed := by
  unfold forkCounters at recorded
  split at recorded
  · cases recorded
  · rename_i text written
    split at recorded
    · cases recorded
    · rename_i spelled
      rw [not_or, Bool.not_eq_false] at spelled
      cases recorded
      exact ⟨written, spelled.1, rfl, rfl, rfl, rfl, rfl⟩

section Clock

variable (state : RunState) (tick elapsed : Ticks) (reading : Moment)

theorem start_at_elapsed : (state.startAt tick elapsed reading).elapsed tick = elapsed := by
  simp [RunState.startAt, RunState.elapsed, RunState.oracleHeldAt]

theorem start_at_now : (state.startAt tick elapsed reading).now tick = reading := by
  rw [RunState.now, start_at_elapsed]
  simp [RunState.startAt]

end Clock

/-- The counters a snapshot recorded, restored into any arm at any tick of its clock. -/
theorem counters_resumed {state : RunState} {reading elapsed : Ticks} {counters : ForkCounters}
    (recorded : forkCounters state reading elapsed = .ok counters)
    (forward : 0 ≤ state.elapsed elapsed) (arm : RunState) (tick : Ticks) :
    ∃ restored, restoreForkCounters counters tick arm = .ok restored ∧
      Resumed state reading elapsed arm tick restored := by
  obtain ⟨written, spelled, calls, spawns, breaker, down, measured⟩ := fork_counters_ok recorded
  obtain ⟨failures, readBreaker, total, systems⟩ := breaker_through spelled
  obtain ⟨causes, readDown, same⟩ := down_through state.systemDown
  have read := parse_isoformat written
  have notBefore : ¬ counters.elapsed < 0 := by
    rw [measured]
    exact not_lt.mpr forward
  have done : restoreForkCounters counters tick arm =
      .ok ({ arm with
        systemDown := arm.systemDown.update causes, toolCalls := counters.toolCalls,
        subagentSpawns := counters.subagentSpawns, breaker := failures }.startAt tick
          counters.elapsed (state.now reading)) := by
    unfold restoreForkCounters
    rw [down, breaker, readDown, readBreaker, read]
    exact if_neg notBefore
  refine ⟨_, done, ?_⟩
  exact {
    toolCalls := calls
    subagentSpawns := spawns
    totalFailures := total
    systems := systems
    systemDown := fun system => by
      change (arm.systemDown.update causes).get? system = _
      rw [Dict.get_update, same]
    elapsed := by rw [start_at_elapsed, measured]
    reading := start_at_now _ _ _ _
    rows := fun _ => rfl }

end Defender.Investigation
