import Defender.Investigation.QueryRules
import Defender.Investigation.RunState
import Defender.Python.Datetime
import Defender.Python.JsonInteger
import Defender.Python.Sha256
import Defender.Filesystem.TableFile

/-!
# Appending a query row

The one append to a run's queries table. It takes the lead's next number, which is how many
rows the run holds for the lead, writes the payload beside it, records the row in the run's
state and only then writes its lines. Each write may fail, and a failed append may leave part
of its line.

What of a run's folder a fork restores: the files a run appends to, the records it writes
once, and its document. A name may hold what no reader takes, a link or a folder. The join
of rows and call ids lies beside the folder.
-/

namespace Defender.Investigation

open Defender.Python Defender.Filesystem Defender.Library.OrderedDict Defender.Library.Wire
open Defender.Execution (encodeUtf8 decodeUtf8)

/-- The records written once, by what their names are made of. -/
inductive RecordName where
  | leadClaim (lead : Str)
  | payload (lead : Str) (seq : Nat)
  | gatherSummary (lead : Str)
  | reviewRecord (turn : Nat)
  deriving DecidableEq, Repr

/-- What stands at a name: a plain file, or what a reader refuses. -/
inductive Held where
  | bytes (data : Bytes)
  | refused
  deriving DecidableEq, Repr

structure RunFolder where
  queries : Option Held := none
  lessonsLoaded : Option Held := none
  policyDenials : Option Held := none
  records : Dict RecordName Held := Dict.empty
  document : Option Str := none
  callJoin : Bytes := []

def readLimit : Nat := 64 * 1024 * 1024

inductive OsError where
  | refused
  | tooLarge
  | fault
  deriving DecidableEq, Repr

/-- `_bytes_of`: nothing where nothing stands. -/
def bytesOf : Option Held → Except OsError (Option Bytes)
  | none => .ok none
  | some .refused => .error .refused
  | some (.bytes data) => if readLimit < data.length then .error .tooLarge else .ok (some data)

def componentMaxLen : Nat := 255

/-- `_check_component`: one plain name in a path. -/
def checkComponent (value : Str) : Bool :=
  value ≠ [] && decide (value.length ≤ componentMaxLen) && value ≠ ".".toList &&
    value ≠ "..".toList && value.all fun char => char ≠ '/' && char ≠ '\x00' && char ≠ '\n'

def RecordName.named : RecordName → Bool
  | .leadClaim lead | .payload lead _ | .gatherSummary lead => checkComponent lead
  | .reviewRecord _ => true

/-- How much of an append lands before the write fails; all of it where it does not. -/
abbrev Landing := Option Nat

def Landing.of (landing : Landing) (data : Bytes) : Bytes :=
  match landing with
  | none => data
  | some size => data.take size

/-- A write that does not land whole raises. -/
def Landing.outcome : Landing → Except OsError Unit
  | none => .ok ()
  | some _ => .error .fault

/-- An append, and what it leaves at the name. -/
def appendBytes (landing : Landing) (data : Bytes) (held : Option Held) :
    Except OsError Unit × Option Held :=
  match held with
  | some .refused => (.error .refused, held)
  | some (.bytes before) => (landing.outcome, some (.bytes (before ++ landing.of data)))
  | none => (landing.outcome, some (.bytes (landing.of data)))

def usageExitCode : Nat := 64

def deniedExitCode : Nat := 77

def defaultFaultExit : Nat := 2

def infraExitCodes : List Nat := [2, 124]

def agentFixableErrorClass : Str := "agent-fixable"

def errorClassForExit (exitCode : Nat) : Json :=
  if exitCode = 0 then .null
  else if exitCode = deniedExitCode then .string "denied"
  else if exitCode ∈ infraExitCodes then .string "infra"
  else .string agentFixableErrorClass

/-- What the caller of an append decides. -/
structure QueryCall where
  leadId : Str
  system : Str
  verb : Str
  queryId : Str
  params : Params
  rawCommand : Str
  payloadText : Str
  exitCode : Nat
  payloadStatus : Str
  payloadDigest : Str
  systemKey : Str
  callId : Option Str := none

/-- What an append meets: the clock's tick, and how its three writes fare. -/
structure AppendHost where
  tick : Ticks
  payloadLands : Bool := true
  joinLands : Landing := none
  rowLands : Landing := none

inductive AppendError where
  | paramsTooDeep
  | overflow
  | valueError
  | osError (error : OsError)
  deriving DecidableEq, Repr

/-- The run's state and its folder. -/
structure LiveRun where
  state : RunState
  folder : RunFolder

/-- `next_call_id`: the id, and the state with its counter one further. -/
def nextCallId (state : RunState) : Str × RunState :=
  (message [state.callRun, ['/'], decimalText state.callNumber],
    { state with callNumber := state.callNumber + 1 })

def nextSeq (state : RunState) (lead : Str) : Nat := state.rowCount lead

def payloadRelpath (lead : Str) (seq : Nat) : Str :=
  message ["gather_raw/", lead, ['/'], decimalText seq, ".json"]

/-- The row's `payload_path`: null where the payload was not persisted. -/
def payloadPath (persisted : Bool) (lead : Str) (seq : Nat) : Json :=
  if persisted then .string (payloadRelpath lead seq) else .null

/-- `persist_payload`: whether the payload lies under its name now. -/
def persistPayload (lands : Bool) (lead : Str) (seq : Nat) (text : Str) (folder : RunFolder) :
    Bool × RunFolder :=
  let data := encodeUtf8 text
  if readLimit < data.length ∨ checkComponent lead = false ∨ lands = false then (false, folder)
  else if folder.records.get? (.payload lead seq) = some .refused then (false, folder)
  else
    (true, { folder with records := folder.records.set (.payload lead seq) (.bytes data) })

def queryRow (call : QueryCall) (seq : Nat) (stored : List (Str × Json)) (path : Json)
    (digest receivedAt : Str) : List (Str × Json) :=
  [("lead_id", .string call.leadId), ("seq", Json.ofNat seq), ("system", .string call.system),
    ("verb", .string call.verb), ("query_id", .string call.queryId), ("params", .object stored),
    ("raw_command", .string call.rawCommand), ("payload_path", path),
    ("exit_code", Json.ofNat call.exitCode), ("error_class", errorClassForExit call.exitCode),
    ("payload_status", .string call.payloadStatus),
    ("payload_digest", .string call.payloadDigest), ("payload_sha256", .string digest),
    ("system_key", .string call.systemKey), ("received_at", .string receivedAt)]

def leadOf (row : Json) : Option Str :=
  match row.get? "lead_id" with
  | some (.string lead) => some lead
  | _ => none

theorem query_row_lead (call : QueryCall) (seq : Nat) (stored : List (Str × Json)) (path : Json)
    (digest receivedAt : Str) :
    leadOf (.object (queryRow call seq stored path digest receivedAt)) = some call.leadId := rfl

def RunState.recordRow (state : RunState) (lead : Str) (row : Json) : RunState :=
  { state with rows := state.rows.set lead (state.leadRows lead ++ [row]) }

def callJoinRow (call : QueryCall) (seq : Nat) (callId : Str) : Json :=
  .object [("lead_id", .string call.leadId), ("seq", Json.ofNat seq), ("call_id", .string callId)]

def writeLines (host : AppendHost) (join row : Json) (run : LiveRun) :
    Except AppendError Unit × LiveRun :=
  let joinText := encodeUtf8 (jsonlText [join])
  let joined := { run.folder with
    callJoin := run.folder.callJoin ++ Landing.of host.joinLands joinText }
  match host.joinLands with
  | some _ => (.error (.osError .fault), { run with folder := joined })
  | none =>
      let (outcome, queries) :=
        appendBytes host.rowLands (encodeUtf8 (jsonlText [row])) joined.queries
      (outcome.mapError .osError, { run with folder := { joined with queries := queries } })

/-- A row as its line parses. The interpreter writes no integer of more digits than it reads. -/
def throughLine (row : Json) : Except AppendError Json :=
  if row.spelled = false then .error .valueError
  else
    match Json.loads (Json.dumps row) with
    | none => .error .valueError
    | some read => .ok read

def recordedRow (host : AppendHost) (call : QueryCall) (stored : List (Str × Json)) (seq : Nat)
    (persisted : Bool) (state : RunState) : Except AppendError Json :=
  let path := payloadPath persisted call.leadId seq
  let digest := sha256Hex (encodeUtf8 call.payloadText)
  match isoformat true (state.now host.tick) with
  | none => .error .overflow
  | some receivedAt => throughLine (.object (queryRow call seq stored path digest receivedAt))

/-- An append up to where it records: the number it took, whether its payload was persisted,
and the row or why there is none. -/
structure Prepared where
  run : LiveRun
  callId : Str
  seq : Nat
  persisted : Bool
  row : Except AppendError Json

def callIdOf (call : QueryCall) (state : RunState) : Str × RunState :=
  match call.callId with
  | some given => (given, state)
  | none => nextCallId state

/-- Nothing where the parameters nest too deep to store. -/
def prepareRow (host : AppendHost) (call : QueryCall) (run : LiveRun) : Option Prepared :=
  (jsonSafeParams call.params).map fun stored =>
    let (callId, state) := callIdOf call run.state
    let seq := nextSeq state call.leadId
    let (persisted, folder) :=
      persistPayload host.payloadLands call.leadId seq call.payloadText run.folder
    { run := { state := state, folder := folder }, callId := callId, seq := seq,
      persisted := persisted, row := recordedRow host call stored seq persisted state }

/-- `append_query_row`: the row appended, and the run after it. -/
def appendQueryRow (host : AppendHost) (call : QueryCall) (run : LiveRun) :
    Except AppendError Json × LiveRun :=
  match prepareRow host call run with
  | none => (.error .paramsTooDeep, run)
  | some prepared =>
      match prepared.row with
      | .error error => (.error error, prepared.run)
      | .ok row =>
          let recorded := { prepared.run with
            state := prepared.run.state.recordRow call.leadId row }
          let join := callJoinRow call prepared.seq prepared.callId
          let written := writeLines host join row recorded
          (written.1.map fun _ => row, written.2)

def recordedBy (host : AppendHost) (call : QueryCall) (run : LiveRun) : List Json :=
  match prepareRow host call run with
  | none => []
  | some prepared =>
      match prepared.row with
      | .error _ => []
      | .ok row => [row]

def AllReadable (folder : RunFolder) : Prop := ∀ name, folder.records.get? name ≠ some .refused

theorem all_readable_set {folder : RunFolder} (readable : AllReadable folder) (name : RecordName)
    (data : Bytes) :
    AllReadable { folder with records := folder.records.set name (.bytes data) } := by
  intro other
  dsimp only
  rw [Dict.get_set]
  split
  · simp
  · exact readable other

section Persisted

variable {folder : RunFolder}

theorem persist_readable (readable : AllReadable folder) (lands : Bool) (lead : Str) (seq : Nat)
    (text : Str) : AllReadable (persistPayload lands lead seq text folder).2 := by
  unfold persistPayload
  dsimp only
  split
  · exact readable
  split
  · exact readable
  · exact all_readable_set readable _ _

theorem persist_empty (readable : AllReadable folder) {lead : Str}
    (named : checkComponent lead = true) (seq : Nat) :
    (persistPayload true lead seq [] folder).1 = true := by
  have short : ¬ (readLimit < (encodeUtf8 []).length ∨ checkComponent lead = false ∨
      true = false) := by
    rw [named]
    decide
  simp only [persistPayload, if_neg short, if_neg (readable (.payload lead seq))]

end Persisted

section Appended

@[simp] theorem record_row_rows (state : RunState) (lead other : Str) (row : Json) :
    (state.recordRow lead row).leadRows other =
      if lead = other then state.leadRows lead ++ [row] else state.leadRows other := by
  unfold RunState.recordRow RunState.leadRows
  rw [Dict.get_set]
  split <;> rfl

@[simp] theorem call_id_rows (call : QueryCall) (state : RunState) :
    (callIdOf call state).2.rows = state.rows := by
  unfold callIdOf nextCallId
  split <;> rfl

theorem call_id_lead_rows (call : QueryCall) (state : RunState) (lead : Str) :
    (callIdOf call state).2.leadRows lead = state.leadRows lead := by
  unfold RunState.leadRows
  rw [call_id_rows]

theorem write_lines_state (host : AppendHost) (join row : Json) (run : LiveRun) :
    (writeLines host join row run).2.state = run.state := by
  unfold writeLines
  split <;> rfl

theorem write_lines_records (host : AppendHost) (join row : Json) (run : LiveRun) :
    (writeLines host join row run).2.folder.records = run.folder.records := by
  unfold writeLines
  split <;> rfl

theorem error_class_spelled (exitCode : Nat) : (errorClassForExit exitCode).spelled = true := by
  unfold errorClassForExit
  split
  · rfl
  split
  · rfl
  split <;> rfl

theorem payload_path_spelled (persisted : Bool) (lead : Str) (seq : Nat) :
    (payloadPath persisted lead seq).spelled = true := by
  unfold payloadPath
  split <;> rfl

theorem query_row_spelled {call : QueryCall} {seq : Nat} {stored : List (Str × Json)} {path : Json}
    (digest receivedAt : Str) (seqShort : (decimalText seq).length ≤ Json.digitsLimit)
    (exitShort : (decimalText call.exitCode).length ≤ Json.digitsLimit)
    (storedSpelled : Json.spelledEntries stored = true) (pathSpelled : path.spelled = true) :
    (Json.object (queryRow call seq stored path digest receivedAt)).spelled = true := by
  simp only [queryRow, Json.spelled, Json.spelledEntries, Json.ofNat, storedSpelled, pathSpelled,
    Json.decimal_spelled seqShort, Json.decimal_spelled exitShort, error_class_spelled, Bool.and_self]

theorem through_line_spelled {row : Json} (spelled : row.spelled = true) :
    throughLine row = .ok row := by
  rw [throughLine, if_neg (by simp [spelled]), Json.loads_dumps row spelled]

theorem through_line_ok {row read : Json} (kept : throughLine row = .ok read) :
    row.spelled = true ∧ read = row := by
  cases spelled : row.spelled with
  | false =>
      rw [throughLine, if_pos spelled] at kept
      contradiction
  | true =>
      rw [through_line_spelled spelled] at kept
      exact ⟨rfl, (Except.ok.inj kept).symm⟩

theorem recorded_row_dated {host : AppendHost} {state : RunState} {receivedAt : Str}
    (dated : isoformat true (state.now host.tick) = some receivedAt) (call : QueryCall)
    (stored : List (Str × Json)) (seq : Nat) (persisted : Bool) :
    recordedRow host call stored seq persisted state =
      throughLine (.object (queryRow call seq stored (payloadPath persisted call.leadId seq)
        (sha256Hex (encodeUtf8 call.payloadText)) receivedAt)) := by
  unfold recordedRow
  rw [dated]

theorem recorded_row {host : AppendHost} {call : QueryCall} {stored : List (Str × Json)} {seq : Nat}
    {persisted : Bool} {state : RunState} {row : Json}
    (recorded : recordedRow host call stored seq persisted state = .ok row) :
    ∃ digest receivedAt, row = .object (queryRow call seq stored
        (payloadPath persisted call.leadId seq) digest receivedAt) ∧ row.spelled = true := by
  cases dated : isoformat true (state.now host.tick) with
  | none =>
      unfold recordedRow at recorded
      rw [dated] at recorded
      cases recorded
  | some receivedAt =>
      rw [recorded_row_dated dated] at recorded
      obtain ⟨spelled, same⟩ := through_line_ok recorded
      exact ⟨_, receivedAt, same, same ▸ spelled⟩

theorem recorded_row_ok {host : AppendHost} {call : QueryCall} {stored : List (Str × Json)}
    {seq : Nat} (persisted : Bool) {state : RunState}
    (seqShort : (decimalText seq).length ≤ Json.digitsLimit)
    (exitShort : (decimalText call.exitCode).length ≤ Json.digitsLimit)
    (storedSpelled : Json.spelledEntries stored = true)
    (dated : (isoformat true (state.now host.tick)).isSome) :
    ∃ row, recordedRow host call stored seq persisted state = .ok row := by
  obtain ⟨receivedAt, written⟩ := Option.isSome_iff_exists.mp dated
  have spelled := query_row_spelled (sha256Hex (encodeUtf8 call.payloadText)) receivedAt
    seqShort exitShort storedSpelled (payload_path_spelled persisted call.leadId seq)
  rw [recorded_row_dated written]
  exact ⟨_, through_line_spelled spelled⟩

theorem prepared_seq {host : AppendHost} {call : QueryCall} {run : LiveRun} {prepared : Prepared}
    (taken : prepareRow host call run = some prepared) :
    prepared.seq = (run.state.leadRows call.leadId).length := by
  obtain ⟨stored, _, rfl⟩ := Option.map_eq_some_iff.mp taken
  simp only [nextSeq, RunState.rowCount, call_id_lead_rows]

theorem call_id_state (call : QueryCall) (state : RunState) :
    ∃ number, (callIdOf call state).2 = { state with callNumber := number } := by
  unfold callIdOf nextCallId
  split
  · exact ⟨state.callNumber, rfl⟩
  · exact ⟨state.callNumber + 1, rfl⟩

theorem prepared_state {host : AppendHost} {call : QueryCall} {run : LiveRun} {prepared : Prepared}
    (taken : prepareRow host call run = some prepared) :
    ∃ number, prepared.run.state = { run.state with callNumber := number } := by
  obtain ⟨stored, _, rfl⟩ := Option.map_eq_some_iff.mp taken
  exact call_id_state call run.state

theorem prepared_recorded {host : AppendHost} {call : QueryCall} {run : LiveRun}
    (shallow : (jsonSafeParams call.params).isSome)
    (seqShort : (decimalText (run.state.leadRows call.leadId).length).length ≤ Json.digitsLimit)
    (exitShort : (decimalText call.exitCode).length ≤ Json.digitsLimit)
    (dated : (isoformat true (run.state.now host.tick)).isSome) :
    ∃ prepared row, prepareRow host call run = some prepared ∧ prepared.row = .ok row := by
  obtain ⟨stored, kept⟩ := Option.isSome_iff_exists.mp shallow
  obtain ⟨prepared, taken⟩ : ∃ prepared, prepareRow host call run = some prepared := by
    rw [prepareRow, kept]
    exact ⟨_, rfl⟩
  have seq := prepared_seq taken
  obtain ⟨others, same, rfl⟩ := Option.map_eq_some_iff.mp taken
  have storedSpelled := safe_params_spelled same
  rw [← seq] at seqShort
  obtain ⟨number, state⟩ := call_id_state call run.state
  have dated : (isoformat true ((callIdOf call run.state).2.now host.tick)).isSome := by
    rw [state]
    exact dated
  obtain ⟨row, made⟩ := recorded_row_ok _ seqShort exitShort storedSpelled dated
  exact ⟨_, row, taken, made⟩

theorem prepared_rows {host : AppendHost} {call : QueryCall} {run : LiveRun} {prepared : Prepared}
    (taken : prepareRow host call run = some prepared) :
    prepared.run.state.rows = run.state.rows := by
  obtain ⟨stored, _, rfl⟩ := Option.map_eq_some_iff.mp taken
  exact call_id_rows call run.state

theorem append_unrecorded {host : AppendHost} {call : QueryCall} {run : LiveRun}
    (nothing : ∀ prepared row, prepareRow host call run = some prepared → prepared.row ≠ .ok row)
    (lead : Str) :
    (appendQueryRow host call run).2.state.leadRows lead = run.state.leadRows lead := by
  cases taken : prepareRow host call run with
  | none => simp only [appendQueryRow, taken]
  | some prepared =>
      cases outcome : prepared.row with
      | error error =>
          simp only [appendQueryRow, taken, outcome, RunState.leadRows, prepared_rows taken]
      | ok row => exact absurd outcome (nothing prepared row taken)

theorem append_recorded {host : AppendHost} {call : QueryCall} {run : LiveRun} {prepared : Prepared}
    {row : Json} (taken : prepareRow host call run = some prepared) (made : prepared.row = .ok row)
    (lead : Str) :
    (appendQueryRow host call run).2.state.leadRows lead =
      if call.leadId = lead then run.state.leadRows lead ++ [row]
      else run.state.leadRows lead := by
  have held : ∀ other, prepared.run.state.leadRows other = run.state.leadRows other := by
    intro other
    unfold RunState.leadRows
    rw [prepared_rows taken]
  simp only [appendQueryRow, taken, made, write_lines_state, record_row_rows, held]
  split
  · rename_i same
    rw [same]
  · rfl

theorem append_state (host : AppendHost) (call : QueryCall) (run : LiveRun) :
    ∃ rows number, (appendQueryRow host call run).2.state =
      { run.state with rows := rows, callNumber := number } := by
  cases taken : prepareRow host call run with
  | none => exact ⟨run.state.rows, run.state.callNumber, by simp only [appendQueryRow, taken]⟩
  | some prepared =>
      obtain ⟨number, state⟩ := prepared_state taken
      cases outcome : prepared.row with
      | error error =>
          refine ⟨run.state.rows, number, ?_⟩
          simp only [appendQueryRow, taken, outcome]
          exact state
      | ok row =>
          refine ⟨(prepared.run.state.recordRow call.leadId row).rows, number, ?_⟩
          simp only [appendQueryRow, taken, outcome, write_lines_state, RunState.recordRow]
          rw [state]

theorem append_now (host : AppendHost) (call : QueryCall) (run : LiveRun) (tick : Ticks) :
    (appendQueryRow host call run).2.state.now tick = run.state.now tick := by
  obtain ⟨rows, number, state⟩ := append_state host call run
  rw [state]
  rfl

theorem append_readable {run : LiveRun} (readable : AllReadable run.folder) (host : AppendHost)
    (call : QueryCall) : AllReadable (appendQueryRow host call run).2.folder := by
  cases taken : prepareRow host call run with
  | none =>
      simp only [appendQueryRow, taken]
      exact readable
  | some prepared =>
      have kept : AllReadable prepared.run.folder := by
        obtain ⟨stored, _, rfl⟩ := Option.map_eq_some_iff.mp taken
        exact persist_readable readable _ _ _ _
      cases outcome : prepared.row with
      | error error =>
          simp only [appendQueryRow, taken, outcome]
          exact kept
      | ok row =>
          unfold AllReadable at kept ⊢
          simp only [appendQueryRow, taken, outcome, write_lines_records]
          exact kept

theorem append_grows (host : AppendHost) (call : QueryCall) (run : LiveRun) (lead : Str) :
    (run.state.leadRows lead).length ≤
      ((appendQueryRow host call run).2.state.leadRows lead).length := by
  by_cases recorded : ∃ prepared row, prepareRow host call run = some prepared ∧
      prepared.row = .ok row
  · obtain ⟨prepared, row, taken, made⟩ := recorded
    rw [append_recorded taken made]
    split
    · rw [List.length_append]
      omega
    · exact le_rfl
  · have nothing : ∀ prepared row, prepareRow host call run = some prepared →
        prepared.row ≠ .ok row := fun prepared row taken made =>
      recorded ⟨prepared, row, taken, made⟩
    rw [append_unrecorded nothing]

end Appended

section Rows

theorem error_class_height (exitCode : Nat) : height (errorClassForExit exitCode) = 0 := by
  unfold errorClassForExit
  split
  · rfl
  split
  · rfl
  split <;> rfl

theorem payload_path_height (persisted : Bool) (lead : Str) (seq : Nat) :
    height (payloadPath persisted lead seq) = 0 := by
  unfold payloadPath
  split <;> rfl

theorem query_row_height (call : QueryCall) (seq : Nat) (stored : List (Str × Json))
    (persisted : Bool) (digest receivedAt : Str) :
    height (.object (queryRow call seq stored (payloadPath persisted call.leadId seq) digest
      receivedAt)) = heightEntries stored + 2 := by
  simp [queryRow, height, heightEntries, Json.ofNat, error_class_height, payload_path_height]

variable {host : AppendHost} {call : QueryCall} {run : LiveRun}

theorem prepared_stored {prepared : Prepared} {row : Json}
    (taken : prepareRow host call run = some prepared) (made : prepared.row = .ok row) :
    ∃ stored digest receivedAt, jsonSafeParams call.params = some stored ∧ row.spelled = true ∧
      row = .object (queryRow call prepared.seq stored
        (payloadPath prepared.persisted call.leadId prepared.seq) digest receivedAt) := by
  obtain ⟨stored, kept, rfl⟩ := Option.map_eq_some_iff.mp taken
  obtain ⟨digest, receivedAt, same, spelled⟩ := recorded_row made
  exact ⟨stored, digest, receivedAt, kept, spelled, same⟩

theorem prepared_table_row {prepared : Prepared} {row : Json}
    (taken : prepareRow host call run = some prepared) (made : prepared.row = .ok row) :
    isTableRow row = true ∧ leadOf row = some call.leadId := by
  obtain ⟨stored, digest, receivedAt, kept, spelled, rfl⟩ := prepared_stored taken made
  have shallow := safe_params_height kept
  unfold paramsNestingLimit at shallow
  refine ⟨?_, query_row_lead _ _ _ _ _ _⟩
  rw [isTableRow, spelled, Bool.true_and, decide_eq_true_eq, query_row_height]
  unfold jsonNestingLimit
  omega

theorem recorded_by_prepared {row : Json} (member : row ∈ recordedBy host call run) :
    ∃ prepared, prepareRow host call run = some prepared ∧ prepared.row = .ok row := by
  unfold recordedBy at member
  split at member
  · exact absurd member List.not_mem_nil
  · rename_i prepared taken
    split at member
    · exact absurd member List.not_mem_nil
    · rename_i made outcome
      rw [List.mem_singleton.mp member]
      exact ⟨prepared, taken, outcome⟩

theorem append_lead_rows (lead : Str) :
    (appendQueryRow host call run).2.state.leadRows lead =
      run.state.leadRows lead ++
        (recordedBy host call run).filter fun row => leadOf row = some lead := by
  cases taken : prepareRow host call run with
  | none =>
      rw [append_unrecorded (by simp [taken])]
      simp [recordedBy, taken]
  | some prepared =>
      cases outcome : prepared.row with
      | error error =>
          have nothing : ∀ other row, prepareRow host call run = some other →
              other.row ≠ .ok row := by
            intro other row same
            rw [taken] at same
            rw [← Option.some.inj same, outcome]
            nofun
          rw [append_unrecorded nothing]
          simp [recordedBy, taken, outcome]
      | ok row =>
          have named := (prepared_table_row taken outcome).2
          rw [append_recorded taken outcome]
          by_cases same : call.leadId = lead
          · simp [recordedBy, taken, outcome, named, same]
          · simp [recordedBy, taken, outcome, named, same]

end Rows

end Defender.Investigation
