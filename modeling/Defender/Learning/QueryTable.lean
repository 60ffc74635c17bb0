import Defender.Investigation.InheritedSeqs
import Defender.Learning.LeadJoin

/-!
# What is read of a run's queries

A run appends the rows of its queries one by one, and the table is read as a whole when the run is
learned from. Each line is read on its own: one that is no object, or whose lead is none, is
counted and left out.
-/

namespace Defender.Learning.LeadJoin

open Defender.Python Defender.Library.OrderedDict Defender.Filesystem Defender.Investigation
open Defender.Execution (encodeUtf8)

def asRecord : Json → Option (Dict Str Json)
  | .object entries => some (Dict.ofList entries)
  | _ => none

/-- `load_queries_report` of what stands at the table's name. -/
def readQueries (coerce : Coercions) : Option Held → List QueryRow × Nat
  | none => ([], 0)
  | some .refused => ([], 1)
  | some (.bytes data) =>
      if Investigation.readLimit < data.length then ([], 1)
      else
        let lines := jsonlRowsOf (decodeReplace data)
        loadQueriesReport coerce (lines.1.filterMap asRecord) lines.2

/-- Appends one after another. -/
def appendAll : LiveRun → List (AppendHost × QueryCall) → LiveRun
  | run, [] => run
  | run, (host, call) :: rest => appendAll (appendQueryRow host call run).2 rest

def recordedAll : LiveRun → List (AppendHost × QueryCall) → List Json
  | _, [] => []
  | run, (host, call) :: rest =>
      recordedBy host call run ++ recordedAll (appendQueryRow host call run).2 rest

/-- A row as an append under a lead's id writes it. -/
structure Written (row : Json) : Prop where
  table : isTableRow row = true
  columns : ∃ call seq stored path digest receivedAt,
    row = .object (queryRow call seq stored path digest receivedAt) ∧ isLeadId call.leadId = true

/-- The table holds the rows, and each is one an append wrote. -/
structure Tabled (run : LiveRun) (rows : List Json) : Prop where
  lines : run.folder.queries = none ∧ rows = [] ∨
    run.folder.queries = some (.bytes (encodeUtf8 (jsonlText rows)))
  written : ∀ row ∈ rows, Written row

section Appends

variable {host : AppendHost} {call : QueryCall} {run : LiveRun} {rows : List Json}

theorem append_tabled (tabled : Tabled run rows) (joined : host.joinLands = none)
    (landed : host.rowLands = none) (named : isLeadId call.leadId = true) :
    Tabled (appendQueryRow host call run).2 (rows ++ recordedBy host call run) := by
  refine ⟨?_, fun row member => ?_⟩
  · have lines := tabled.lines
    cases taken : prepareRow host call run with
    | none => simpa [appendQueryRow, recordedBy, taken] using lines
    | some prepared =>
        have same : prepared.run.folder.queries = run.folder.queries := by
          obtain ⟨stored, _, rfl⟩ := Option.map_eq_some_iff.mp taken
          dsimp only
          unfold persistPayload
          dsimp only
          split_ifs <;> rfl
        cases outcome : prepared.row with
        | error error => simpa [appendQueryRow, recordedBy, taken, outcome, same] using lines
        | ok row =>
            right
            have text : encodeUtf8 (jsonlText (rows ++ [row])) =
                encodeUtf8 (jsonlText rows) ++ encodeUtf8 (jsonlText [row]) := by
              simp [jsonlText, encodeUtf8]
            simp only [appendQueryRow, recordedBy, taken, outcome, writeLines, joined, landed, same,
              text]
            rcases lines with ⟨none_, rfl⟩ | held
            · rw [none_]
              rfl
            · rw [held]
              rfl
  · rcases List.mem_append.mp member with before | made
    · exact tabled.written row before
    · obtain ⟨prepared, taken, made⟩ := recorded_by_prepared made
      obtain ⟨stored, digest, receivedAt, -, -, same⟩ := prepared_stored taken made
      exact ⟨(prepared_table_row taken made).1, call, prepared.seq, stored, _, digest, receivedAt,
        same, named⟩

theorem appends_tabled (tabled : Tabled run rows) (acts : List (AppendHost × QueryCall))
    (landed : ∀ act ∈ acts, act.1.joinLands = none ∧ act.1.rowLands = none)
    (named : ∀ act ∈ acts, isLeadId act.2.leadId = true) :
    Tabled (appendAll run acts) (rows ++ recordedAll run acts) := by
  induction acts generalizing run rows with
  | nil => simpa [appendAll, recordedAll] using tabled
  | cons act rest ih =>
      obtain ⟨host, call⟩ := act
      obtain ⟨⟨joined, lands⟩, landed⟩ := List.forall_mem_cons.mp landed
      obtain ⟨id, named⟩ := List.forall_mem_cons.mp named
      have further := ih (append_tabled tabled joined lands id) landed named
      rwa [List.append_assoc] at further

end Appends

section Reads

variable (coerce : Coercions)

theorem written_read {row : Json} (written : Written row) :
    ∃ read, asRecord row = some read.record ∧ readRow coerce read.record = some read ∧
      leadOf row = some read.leadId := by
  obtain ⟨call, seq, stored, path, digest, receivedAt, rfl, named⟩ := written.columns
  have distinct : ((queryRow call seq stored path digest receivedAt).map Prod.fst).Nodup := by
    simp only [queryRow, List.map_cons, List.map_nil]
    decide
  have lead : (Dict.ofList (queryRow call seq stored path digest receivedAt)).get? "lead_id" =
      some (.string call.leadId) := by
    rw [Dict.get?, Dict.of_list_entries distinct]
    rfl
  have recorded : asRecord (.object (queryRow call seq stored path digest receivedAt)) =
      some (Dict.ofList (queryRow call seq stored path digest receivedAt)) := rfl
  generalize Dict.ofList (queryRow call seq stored path digest receivedAt) = record at *
  have readable := readRow.eq_def coerce record
  rw [lead] at readable
  obtain ⟨read, taken, same, leads⟩ : ∃ read, readRow coerce record = some read ∧
      read.record = record ∧ read.leadId = call.leadId :=
    ⟨_, readable.trans (if_pos named), rfl, rfl⟩
  exact ⟨read, same ▸ recorded, same ▸ taken, congrArg some leads.symm⟩

theorem rows_read {rows : List Json} (written : ∀ row ∈ rows, Written row) :
    ∃ reads, loadQueriesReport coerce (rows.filterMap asRecord) 0 = (reads, 0) ∧
      rows.map asRecord = reads.map (some ·.record) ∧
      rows.map leadOf = reads.map (some ·.leadId) := by
  induction rows with
  | nil => exact ⟨[], rfl, rfl, rfl⟩
  | cons row rest ih =>
      obtain ⟨here, written⟩ := List.forall_mem_cons.mp written
      obtain ⟨read, recorded, readable, lead⟩ := written_read coerce here
      obtain ⟨reads, loaded, records, leads⟩ := ih written
      refine ⟨read :: reads, ?_, by simp [recorded, records], by simp [lead, leads]⟩
      rw [load_report_rows, Prod.mk.injEq] at loaded ⊢
      rw [List.filterMap_cons_some recorded]
      simpa [readable] using loaded

/-- A table whose appends all landed reads back as the rows recorded, in their order and none
lost, and whatever the leads claim, the join holds each of them once. -/
theorem table_read_back (run : LiveRun) (untouched : run.folder.queries = none)
    (acts : List (AppendHost × QueryCall))
    (landed : ∀ act ∈ acts, act.1.joinLands = none ∧ act.1.rowLands = none)
    (named : ∀ act ∈ acts, isLeadId act.2.leadId = true)
    (short : (encodeUtf8 (jsonlText (recordedAll run acts))).length ≤ Investigation.readLimit) :
    ∃ reads, readQueries coerce (appendAll run acts).folder.queries = (reads, 0) ∧
      (recordedAll run acts).map asRecord = reads.map (some ·.record) ∧
      (recordedAll run acts).map leadOf = reads.map (some ·.leadId) ∧
      ∀ claims, (((joined claims reads).flatMap fun lead => lead.queries ++ lead.sentinels).map
        (some ·.record)).Perm ((recordedAll run acts).map asRecord) := by
  have begun : Tabled run [] := ⟨Or.inl ⟨untouched, rfl⟩, List.forall_mem_nil _⟩
  obtain ⟨lines, written⟩ := appends_tabled begun acts landed named
  rw [List.nil_append] at lines written
  generalize recordedAll run acts = rows at *
  have table : ∀ row ∈ rows, isTableRow row = true := fun row listed => (written row listed).table
  have ascii : ∀ char ∈ jsonlText rows, char.toNat < 0x80 := by
    intro char member
    simp only [jsonlText, List.mem_flatMap, List.mem_append, List.mem_singleton] at member
    obtain ⟨row, listed, inside | feed⟩ := member
    · exact (table_row_plain (table row listed) char inside).1
    · rw [feed]
      decide
  obtain ⟨reads, loaded, records, leads⟩ := rows_read coerce written
  refine ⟨reads, ?_, records, leads, fun claims => ?_⟩
  · rcases lines with ⟨nothing, rfl⟩ | held
    · rw [nothing, readQueries, ← loaded]
      rfl
    · rw [held, readQueries, if_neg (not_lt.mpr short), decode_replace_ascii _ ascii,
        jsonl_rows_of_lines table]
      exact loaded
  · rw [records]
    exact (joined_rows_perm claims reads).map _

end Reads

/-- A payload path stands for itself, and every stored number is whole. -/
def plainCoercions : Coercions where
  render := Json.dumps
  whole value := Json.asInt value
  payload path := path.map Json.asStr

def bareAppends : List (AppendHost × QueryCall) :=
  [(landingHost 0, bareCall "l-001"), (landingHost 1, bareCall "l-001")]

theorem bare_table_read_back :
    ∃ reads, readQueries plainCoercions
        (appendAll ⟨.start "r" 0 0, {}⟩ bareAppends).folder.queries = (reads, 0) ∧
      (recordedAll ⟨.start "r" 0 0, {}⟩ bareAppends).map leadOf = reads.map (some ·.leadId) := by
  obtain ⟨reads, loaded, -, leads, -⟩ := table_read_back plainCoercions ⟨.start "r" 0 0, {}⟩ rfl
    bareAppends (by decide) (by decide) (by decide +kernel)
  exact ⟨reads, loaded, leads⟩

end Defender.Learning.LeadJoin
