import Defender.Investigation.RecordQuery

/-!
# Fork snapshots

What a run held when a response arrived: lengths and digests of the files it appends to,
digests of the records it writes once, its document and its counters. An arm is restored by
reading the source again, each file judged against what was recorded, and the arm's folder is
read back. The counters cross the store as JSON with sorted keys; the elapsed time is exact
here, and so crosses as it is.
-/

namespace Defender.Investigation

open Defender.Python Defender.Filesystem Defender.Library.OrderedDict Defender.Library.Wire
open Defender.Execution (encodeUtf8 decodeUtf8)

inductive WriteOnceKind where
  | leadClaim
  | payload
  | gatherSummary
  | reviewRecord
  deriving DecidableEq, Repr

/-- `_check_index`: a number that is not negative. -/
def checkIndex (value : Json) : Option Nat :=
  match Json.asInt value with
  | some (.ofNat index) => some index
  | _ => none

/-- `_WRITE_ONCE`: the record of a kind from its arguments. -/
def WriteOnceKind.record : WriteOnceKind → List Json → Option RecordName
  | .leadClaim, [.string lead] => some (.leadClaim lead)
  | .payload, [.string lead, seq] => (checkIndex seq).map (.payload lead)
  | .gatherSummary, [.string lead] => some (.gatherSummary lead)
  | .reviewRecord, [turn] => (checkIndex turn).map .reviewRecord
  | _, _ => none

def RecordName.kind : RecordName → WriteOnceKind
  | .leadClaim _ => .leadClaim
  | .payload _ _ => .payload
  | .gatherSummary _ => .gatherSummary
  | .reviewRecord _ => .reviewRecord

structure WriteOnceEntry where
  kind : WriteOnceKind
  args : List Json
  sha256 : Option Str

structure AppendOnlyMark where
  length : Nat
  sha256 : Str

structure ForkCounters where
  toolCalls : Nat
  subagentSpawns : Nat
  breaker : Json
  systemDown : Json
  reading : Str
  elapsed : Ticks

structure ForkSnapshot where
  request : Nat
  counters : ForkCounters
  executedQueries : AppendOnlyMark
  lessonsLoaded : AppendOnlyMark
  policyDenials : AppendOnlyMark
  writeOnce : List WriteOnceEntry
  document : Option Str

/-! Recording. -/

def failuresJson (record : SystemFailures) : Json :=
  .object (("failures", Json.ofNat record.failures) ::
    match record.trippedAt with
    | some stamp => [("tripped_at", .string stamp)]
    | none => [])

def breakerJson (breaker : Breaker) : Json :=
  .object [("systems", .object (breaker.systems.entries.map fun entry =>
      (entry.1, failuresJson entry.2))),
    ("total_failures", Json.ofNat breaker.totalFailures)]

def causeJson : StartCause → Json
  | .notConfigured reason =>
      .object [("kind", .string "not_configured"), ("reason", .string reason)]
  | .adapterBroken reason =>
      .object [("kind", .string "adapter_broken"), ("reason", .string reason)]

/-- `snapshot_down`. -/
def snapshotDown (down : Dict Str StartCause) : Json :=
  .object (down.entries.map fun entry => (entry.1, causeJson entry.2))

inductive CaptureError where
  | osError (error : OsError)
  | overflow
  | valueError
  deriving DecidableEq, Repr

/-- `fork_counters`; the clock is read twice. A counter of more digits than the interpreter
writes makes no text of the body. -/
def forkCounters (state : RunState) (reading elapsed : Ticks) :
    Except CaptureError ForkCounters :=
  match isoformat false (state.now reading) with
  | none => .error .overflow
  | some text =>
      if (breakerJson state.breaker).spelled = false ∨ (Json.ofNat state.toolCalls).spelled = false ∨
          (Json.ofNat state.subagentSpawns).spelled = false then .error .valueError
      else
        .ok { toolCalls := state.toolCalls, subagentSpawns := state.subagentSpawns,
              breaker := breakerJson state.breaker, systemDown := snapshotDown state.systemDown,
              reading := text, elapsed := state.elapsed elapsed }

inductive ForkError where
  | moved (file : Str) (recorded held : Nat)
  | unreadable (error : OsError)
  | notTheOneHeld (gone : Bool)
  | badArguments
  | seeded
  | documentRefused (reason : Str)
  | undecodable
  | notRerecorded (file : Str)
  | notWritten
  | badCounters
  deriving DecidableEq, Repr

/-- A record's bytes, or none at all where it is absent. -/
def heldBytes (held : Option Held) : Except OsError Bytes :=
  (bytesOf held).map fun found => found.getD []

def markOf (data : Bytes) : AppendOnlyMark :=
  { length := data.length, sha256 := sha256Hex data }

/-! Reading and restoring. -/

def ledRow (row : Json) : Option (Str × Json) := (leadOf row).map fun lead => (lead, row)

def inheritInto (rows : List Json) (held : Dict Str (List Json)) : Dict Str (List Json) :=
  (rows.filterMap ledRow).foldl (fun held led => held.modify led.1 [] (· ++ [led.2])) held

def RunState.inheritRows (rows : List Json) (state : RunState) : RunState :=
  { state with rows := inheritInto rows state.rows }

/-- `refuse_seeded_run_dir`: whether a run wrote any of what an arm inherits. -/
def holdsInherited (folder : RunFolder) : Bool :=
  folder.document.any (· ≠ []) ||
    (match folder.queries with
    | some (.bytes data) => data ≠ []
    | some .refused => true
    | none => false) ||
    folder.records.keys.any fun name => name.kind ≠ .reviewRecord

def writeRecord (name : RecordName) (data : Bytes) (folder : RunFolder) :
    Except OsError RunFolder :=
  match name, folder.records.get? name with
  | _, some .refused => .error .refused
  | .leadClaim _, some _ => .error .fault
  | _, _ => .ok { folder with records := folder.records.set name (.bytes data) }

structure Prefixes where
  executedQueries : Bytes
  lessonsLoaded : Bytes
  policyDenials : Bytes

section Restoring

variable (snapshot : ForkSnapshot)

def prefixOf (file : Str) (mark : AppendOnlyMark) (held : Option Held) : Except ForkError Bytes :=
  match heldBytes held with
  | .error error => .error (.unreadable error)
  | .ok data =>
      let start := data.take mark.length
      if data.length < mark.length ∨ sha256Hex start ≠ mark.sha256 then
        .error (.moved file mark.length data.length)
      else .ok start

/-- `_append_only_prefixes`. -/
def appendOnlyPrefixes (source : RunFolder) : Except ForkError Prefixes := do
  let queries ← prefixOf "executed_queries" snapshot.executedQueries source.queries
  let lessons ← prefixOf "lessons_loaded" snapshot.lessonsLoaded source.lessonsLoaded
  let denials ← prefixOf "policy_denials" snapshot.policyDenials source.policyDenials
  pure { executedQueries := queries, lessonsLoaded := lessons, policyDenials := denials }

/-- `_write_once_bytes`, with the record the entry names. -/
def writeOnceBytes (source : RunFolder) (entry : WriteOnceEntry) :
    Except ForkError (RecordName × Bytes) :=
  match entry.kind.record entry.args with
  | none => .error .badArguments
  | some name =>
      if name.named = false then .error .badArguments
      else
        match bytesOf (source.records.get? name) with
        | .error error => .error (.unreadable error)
        | .ok none => .error (.notTheOneHeld true)
        | .ok (some data) =>
            if some (sha256Hex data) ≠ entry.sha256 then .error (.notTheOneHeld false)
            else .ok (name, data)

/-- `ForkSnapshot.verify`. -/
def verify (source : RunFolder) : Except ForkError Unit := do
  let _ ← appendOnlyPrefixes snapshot source
  snapshot.writeOnce.forM fun entry => do
    let _ ← writeOnceBytes source entry
    pure ()

def seedDocument (documentRefusal : Str → Option Str) (arm : RunFolder) :
    Except ForkError RunFolder :=
  match snapshot.document with
  | none => .ok arm
  | some document =>
      if holdsInherited arm then .error .seeded
      else
        match documentRefusal document with
        | some reason => .error (.documentRefused reason)
        | none => .ok { arm with document := some document }

def restoreAppended (prefixes : Prefixes) (arm : RunFolder) : Except ForkError RunFolder :=
  let seeded := if prefixes.executedQueries = [] then arm
    else { arm with queries := some (.bytes prefixes.executedQueries) }
  let rows := rowsOf prefixes.lessonsLoaded
  let lessons := (appendBytes none (encodeUtf8 (jsonlText rows)) seeded.lessonsLoaded).2
  let taught := if rows.isEmpty then seeded else { seeded with lessonsLoaded := lessons }
  if prefixes.policyDenials = [] then .ok taught
  else
    match decodeUtf8 prefixes.policyDenials with
    | none => .error .undecodable
    | some text => .ok { taught with policyDenials := some (.bytes (encodeUtf8 text)) }

def readBack (file : Str) (restored : Bytes) (held : Option Held) : Except ForkError Unit :=
  match heldBytes held with
  | .error error => .error (.unreadable error)
  | .ok data => if data ≠ restored then .error (.notRerecorded file) else .ok ()

def restoreRecords (source : RunFolder) :
    List WriteOnceEntry → RunFolder → Except ForkError RunFolder
  | [], arm => .ok arm
  | entry :: entries, arm => do
      let (name, data) ← writeOnceBytes source entry
      let written ← (writeRecord name data arm).mapError fun _ => .notWritten
      restoreRecords source entries written

/-- `restore_files`. -/
def restoreFiles (documentRefusal : Str → Option Str) (source : RunFolder) (arm : LiveRun) :
    Except ForkError LiveRun := do
  let prefixes ← appendOnlyPrefixes snapshot source
  let seeded ← seedDocument snapshot documentRefusal arm.folder
  let appended ← restoreAppended prefixes seeded
  readBack "executed_queries" prefixes.executedQueries appended.queries
  readBack "lessons_loaded" prefixes.lessonsLoaded appended.lessonsLoaded
  readBack "policy_denials" prefixes.policyDenials appended.policyDenials
  let folder ← restoreRecords source snapshot.writeOnce appended
  pure { state := arm.state.inheritRows (rowsOf prefixes.executedQueries), folder := folder }

end Restoring

/-! The counters. -/

/-- What the store gives back of a value put into a snapshot's body. -/
def throughStore (value : Json) : Option Json := Json.loads (Json.dumps (sortKeys value))

def naturalUnder (key : Str) (value : Json) : Option Nat := (value.get? key).bind checkIndex

def readFailures (value : Json) : Option SystemFailures := do
  let failures ← naturalUnder "failures" value
  match value.get? "tripped_at" with
  | none => pure { failures := failures }
  | some (.string stamp) => pure { failures := failures, trippedAt := some stamp }
  | some _ => none

def readEntries {Value : Type} (read : Json → Option Value) (value : Json) :
    Option (Dict Str Value) :=
  match value with
  | .object entries =>
      (entries.mapM fun entry => (read entry.2).map fun held => (entry.1, held)).map Dict.ofList
  | _ => none

def readBreaker (value : Json) : Option Breaker := do
  let systems ← (value.get? "systems").bind (readEntries readFailures)
  let total ← naturalUnder "total_failures" value
  pure { systems := systems, totalFailures := total }

def readCause : Json → Option StartCause
  | .object entries =>
      if entries.all fun entry => ["kind".toList, "reason".toList].contains entry.1 then
        match Json.get? "kind" (.object entries), Json.get? "reason" (.object entries) with
        | some (.string kind), some (.string reason) =>
            if kind = "not_configured".toList then some (.notConfigured reason)
            else if kind = "adapter_broken".toList then some (.adapterBroken reason)
            else none
        | _, _ => none
      else none
  | _ => none

/-- `down_from_snapshot`. -/
def downFromSnapshot (recorded : Json) : Option (Dict Str StartCause) :=
  readEntries readCause recorded

/-- `restore_fork_counters`, at a tick of the arm's clock. -/
def restoreForkCounters (counters : ForkCounters) (tick : Ticks) (state : RunState) :
    Except ForkError RunState :=
  match (throughStore counters.systemDown).bind downFromSnapshot,
      (throughStore counters.breaker).bind readBreaker, parseIsoUtc counters.reading with
  | some inherited, some breaker, some reading =>
      if counters.elapsed < 0 then .error .badCounters
      else
        .ok ({ state with
          systemDown := state.systemDown.update inherited, toolCalls := counters.toolCalls,
          subagentSpawns := counters.subagentSpawns, breaker := breaker }.startAt tick
            counters.elapsed reading)
  | _, _, _ => .error .badCounters

section Laws

theorem check_index_some {value : Json} {index : Nat} (checked : checkIndex value = some index) :
    Json.asInt value = some (index : Int) := by
  unfold checkIndex at checked
  split at checked
  · rename_i read
    rw [read, Option.some.inj checked]
    rfl
  · contradiction

theorem payload_seq_short {kind : WriteOnceKind} {args : List Json} {lead : Str} {seq : Nat}
    (named : kind.record args = some (.payload lead seq)) :
    (decimalText seq).length ≤ Json.digitsLimit := by
  unfold WriteOnceKind.record at named
  split at named
  · cases named
  · obtain ⟨index, checked, same⟩ := Option.map_eq_some_iff.mp named
    cases same
    exact Json.as_int_short (check_index_some checked)
  · cases named
  · obtain ⟨index, _, same⟩ := Option.map_eq_some_iff.mp named
    cases same
  · cases named

variable {snapshot : ForkSnapshot} {documentRefusal : Str → Option Str} {source : RunFolder}

theorem prefix_of_ok {file : Str} {mark : AppendOnlyMark} {held : Option Held} {start : Bytes}
    (read : prefixOf file mark held = .ok start) :
    ∃ data, heldBytes held = .ok data ∧ start = data.take mark.length ∧
      mark.length ≤ data.length ∧ sha256Hex start = mark.sha256 := by
  unfold prefixOf at read
  split at read
  · contradiction
  · rename_i data bytes
    dsimp only at read
    split at read
    · contradiction
    · rename_i opens
      rw [not_or, not_lt, not_not] at opens
      cases read
      exact ⟨data, bytes, rfl, opens⟩

theorem prefix_of_mark {held : Option Held} {data later : Bytes} (file : Str)
    (read : heldBytes held = .ok (data ++ later)) : prefixOf file (markOf data) held = .ok data := by
  have start : (data ++ later).take data.length = data := List.take_left
  simp [prefixOf, read, markOf, start]

theorem append_only_prefixes_ok {prefixes : Prefixes}
    (read : appendOnlyPrefixes snapshot source = .ok prefixes) :
    prefixOf "executed_queries" snapshot.executedQueries source.queries =
        .ok prefixes.executedQueries ∧
      prefixOf "lessons_loaded" snapshot.lessonsLoaded source.lessonsLoaded =
        .ok prefixes.lessonsLoaded ∧
      prefixOf "policy_denials" snapshot.policyDenials source.policyDenials =
        .ok prefixes.policyDenials := by
  unfold appendOnlyPrefixes at read
  obtain ⟨queries, readQueries, read⟩ := except_bind_ok.mp read
  obtain ⟨lessons, readLessons, read⟩ := except_bind_ok.mp read
  obtain ⟨denials, readDenials, read⟩ := except_bind_ok.mp read
  cases read
  exact ⟨readQueries, readLessons, readDenials⟩

theorem write_once_bytes_ok {entry : WriteOnceEntry} {name : RecordName} {data : Bytes}
    (read : writeOnceBytes source entry = .ok (name, data)) :
    entry.kind.record entry.args = some name ∧ name.named = true ∧
      bytesOf (source.records.get? name) = .ok (some data) ∧
      entry.sha256 = some (sha256Hex data) := by
  unfold writeOnceBytes at read
  split at read
  · contradiction
  · rename_i found record
    split at read
    · contradiction
    · rename_i named
      split at read
      · contradiction
      · contradiction
      · rename_i held bytes
        split at read
        · contradiction
        · rename_i same
          rw [not_not] at same
          cases read
          exact ⟨record, by simpa using named, bytes, same.symm⟩

theorem write_once_bytes_of {entry : WriteOnceEntry} {name : RecordName} {data : Bytes}
    (record : entry.kind.record entry.args = some name) (named : name.named = true)
    (held : bytesOf (source.records.get? name) = .ok (some data))
    (digest : entry.sha256 = some (sha256Hex data)) :
    writeOnceBytes source entry = .ok (name, data) := by
  simp only [writeOnceBytes, record, named, held, digest, ne_eq, not_true_eq_false, if_false,
    Bool.true_eq_false]

theorem write_record_ok {name : RecordName} {data : Bytes} {folder written : RunFolder}
    (done : writeRecord name data folder = .ok written) :
    written = { folder with records := folder.records.set name (.bytes data) } := by
  unfold writeRecord at done
  split at done
  · contradiction
  · contradiction
  · exact (Except.ok.inj done).symm

theorem restore_records_ok {entries : List WriteOnceEntry} {arm restored : RunFolder}
    (done : restoreRecords source entries arm = .ok restored) :
    (∀ entry ∈ entries, ∃ name data, writeOnceBytes source entry = .ok (name, data)) ∧
      restored.document = arm.document ∧ restored.queries = arm.queries ∧
      restored.lessonsLoaded = arm.lessonsLoaded ∧ restored.policyDenials = arm.policyDenials ∧
      (AllReadable arm → AllReadable restored) := by
  induction entries generalizing arm with
  | nil =>
      cases done
      exact ⟨by simp, rfl, rfl, rfl, rfl, id⟩
  | cons entry entries ih =>
      rw [restoreRecords] at done
      obtain ⟨⟨name, data⟩, read, done⟩ := except_bind_ok.mp done
      obtain ⟨written, wrote, done⟩ := except_bind_ok.mp done
      have same := write_record_ok (map_error_ok wrote)
      obtain ⟨later, document, queries, lessons, denials, readable⟩ := ih done
      rw [same] at document queries lessons denials readable
      refine ⟨?_, document, queries, lessons, denials, fun plain =>
        readable (all_readable_set plain name data)⟩
      intro other member
      rcases List.mem_cons.mp member with rfl | further
      · exact ⟨name, data, read⟩
      · exact later other further

theorem restore_files_of {arm : LiveRun} {prefixes : Prefixes}
    {seeded appended folder : RunFolder} (read : appendOnlyPrefixes snapshot source = .ok prefixes)
    (seed : seedDocument snapshot documentRefusal arm.folder = .ok seeded)
    (append : restoreAppended prefixes seeded = .ok appended)
    (queries : heldBytes appended.queries = .ok prefixes.executedQueries)
    (lessons : heldBytes appended.lessonsLoaded = .ok prefixes.lessonsLoaded)
    (denials : heldBytes appended.policyDenials = .ok prefixes.policyDenials)
    (records : restoreRecords source snapshot.writeOnce appended = .ok folder) :
    restoreFiles snapshot documentRefusal source arm =
      .ok { state := arm.state.inheritRows (rowsOf prefixes.executedQueries), folder := folder } := by
  have back : ∀ {file : Str} {restored : Bytes} {held : Option Held},
      heldBytes held = .ok restored → readBack file restored held = .ok () := by
    intro file restored held same
    simp [readBack, same]
  unfold restoreFiles
  rw [read, except_ok_bind, seed, except_ok_bind, append, except_ok_bind, back queries,
    except_ok_bind, back lessons, except_ok_bind, back denials, except_ok_bind, records]
  rfl

theorem restore_files_ok {arm restored : LiveRun}
    (done : restoreFiles snapshot documentRefusal source arm = .ok restored) :
    ∃ prefixes seeded appended, appendOnlyPrefixes snapshot source = .ok prefixes ∧
      seedDocument snapshot documentRefusal arm.folder = .ok seeded ∧
      restoreAppended prefixes seeded = .ok appended ∧
      restoreRecords source snapshot.writeOnce appended = .ok restored.folder ∧
      restored.state = arm.state.inheritRows (rowsOf prefixes.executedQueries) := by
  unfold restoreFiles at done
  obtain ⟨prefixes, read, done⟩ := except_bind_ok.mp done
  obtain ⟨seeded, seed, done⟩ := except_bind_ok.mp done
  obtain ⟨appended, append, done⟩ := except_bind_ok.mp done
  obtain ⟨_, _, done⟩ := except_bind_ok.mp done
  obtain ⟨_, _, done⟩ := except_bind_ok.mp done
  obtain ⟨_, _, done⟩ := except_bind_ok.mp done
  obtain ⟨folder, records, done⟩ := except_bind_ok.mp done
  cases done
  exact ⟨prefixes, seeded, appended, read, seed, append, records, rfl⟩

theorem restored_verified {arm restored : LiveRun}
    (done : restoreFiles snapshot documentRefusal source arm = .ok restored) :
    verify snapshot source = .ok () := by
  obtain ⟨prefixes, _, _, read, _, _, records, _⟩ := restore_files_ok done
  unfold verify
  rw [read, except_ok_bind]
  have each := (restore_records_ok records).1
  clear records
  generalize snapshot.writeOnce = entries at each ⊢
  induction entries with
  | nil => rfl
  | cons entry entries ih =>
      obtain ⟨name, data, bytes⟩ := each entry List.mem_cons_self
      rw [List.forM, bytes]
      exact ih fun other member => each other (List.mem_cons_of_mem _ member)

theorem seed_document_records {arm seeded : RunFolder}
    (seed : seedDocument snapshot documentRefusal arm = .ok seeded) :
    seeded.records = arm.records := by
  unfold seedDocument at seed
  split at seed
  · cases seed
    rfl
  · split at seed
    · contradiction
    · split at seed
      · contradiction
      · cases seed
        rfl

theorem restore_appended_records {prefixes : Prefixes} {arm appended : RunFolder}
    (append : restoreAppended prefixes arm = .ok appended) : appended.records = arm.records := by
  unfold restoreAppended at append
  dsimp only at append
  split at append
  · cases append
    split <;> split <;> rfl
  · split at append
    · contradiction
    · cases append
      split <;> split <;> rfl

theorem led_rows (rows : List Json) (lead : Str) :
    ((rows.filterMap ledRow).filter fun led => led.1 = lead).map Prod.snd =
      rows.filter fun row => leadOf row = some lead := by
  induction rows with
  | nil => rfl
  | cons row rows ih =>
      cases led : leadOf row with
      | none => simp [ledRow, led, ih]
      | some other =>
          by_cases same : other = lead
          · simp [ledRow, led, same, ih]
          · simp [ledRow, led, same, ih]

theorem inherit_rows_lead (rows : List Json) (state : RunState) (lead : Str) :
    (state.inheritRows rows).leadRows lead =
      state.leadRows lead ++ rows.filter fun row => leadOf row = some lead := by
  have collected := Dict.get_foldl_collect Prod.fst Prod.snd (rows.filterMap ledRow) state.rows lead
  unfold RunState.leadRows RunState.inheritRows inheritInto
  rw [collected, led_rows]

end Laws

end Defender.Investigation
