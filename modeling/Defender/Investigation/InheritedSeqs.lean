import Defender.Investigation.ForkSnapshot
import Defender.Python.JsonFloat

/-!
# Numbers across a fork

A row's number is how many rows its lead holds when it is appended. An arm holds the rows its
inherited table parses as, and the payloads of its snapshot whatever the table says of them.
So the numbers it gives out are new exactly when every number a row or a payload was inherited
under is below the count of its lead's inherited rows: a line left out of the middle, which the
count does not see, is enough to give a later number twice.
-/

namespace Defender.Investigation

open Defender.Python Defender.Python.Json Defender.Filesystem Defender.Library.OrderedDict
open Defender.Library.Wire
open Defender.Execution (encodeUtf8)

/-- The pair a row carries, its number by the integer it equals. -/
def pairOf (row : Json) : Option (Str × Int) :=
  match leadOf row, (row.get? "seq").bind Json.equalInteger with
  | some lead, some seq => some (lead, seq)
  | _, _ => none

def payloadOf (entry : WriteOnceEntry) : Option (Str × Nat) :=
  match entry.kind.record entry.args with
  | some (.payload lead seq) => some (lead, seq)
  | _ => none

/-- What an arm has of its source's rows and payloads. -/
structure Inherited where
  rows : List Json
  payloads : List (Str × Nat)

def tableOf (snapshot : ForkSnapshot) (source : RunFolder) : Bytes :=
  match heldBytes source.queries with
  | .ok data => data.take snapshot.executedQueries.length
  | .error _ => []

def inheritedOf (snapshot : ForkSnapshot) (source : RunFolder) : Inherited :=
  { rows := rowsOf (tableOf snapshot source), payloads := snapshot.writeOnce.filterMap payloadOf }

namespace Inherited

variable (inherited : Inherited)

def count (lead : Str) : Nat := (inherited.rows.filter fun row => leadOf row = some lead).length

def Unused (call : QueryCall) (prepared : Prepared) (row : Json) : Prop :=
  (∀ held ∈ inherited.rows, ∀ pair, pairOf held = some pair → pairOf row ≠ some pair) ∧
    (prepared.persisted = true → (call.leadId, prepared.seq) ∉ inherited.payloads)

def StaysUnique : List (AppendHost × QueryCall) → LiveRun → Prop
  | [], _ => True
  | append :: appends, run =>
      (∀ prepared row, prepareRow append.1 append.2 run = some prepared → prepared.row = .ok row →
        inherited.Unused append.2 prepared row) ∧
      StaysUnique appends (appendQueryRow append.1 append.2 run).2

/-- Every inherited number is below the count of its lead's inherited rows. -/
structure SeqsBelowCount : Prop where
  rows : ∀ row ∈ inherited.rows, ∀ lead seq, pairOf row = some (lead, seq) →
    seq < inherited.count lead
  payloads : ∀ lead seq, (lead, seq) ∈ inherited.payloads → seq < inherited.count lead

end Inherited

section Pairs

variable {call : QueryCall} {seq : Nat} {stored : List (Str × Json)} {path : Json}
  {digest receivedAt : Str}

theorem query_row_seq :
    Json.get? "seq" (.object (queryRow call seq stored path digest receivedAt)) =
      some (Json.ofNat seq) := rfl

theorem query_row_pair (short : (decimalText seq).length ≤ Json.digitsLimit) :
    pairOf (.object (queryRow call seq stored path digest receivedAt)) =
      some (call.leadId, (seq : Int)) := by
  unfold pairOf
  rw [query_row_lead, query_row_seq, Option.bind_some, Json.equal_of_nat short]

theorem query_row_pair_eq {pair : Str × Int}
    (carried : pairOf (.object (queryRow call seq stored path digest receivedAt)) = some pair) :
    pair = (call.leadId, (seq : Int)) := by
  unfold pairOf at carried
  rw [query_row_lead, query_row_seq, Option.bind_some] at carried
  split at carried
  · rename_i lead number named read
    rw [← Option.some.inj carried, ← Option.some.inj named, Json.equal_of_nat_eq read]
  · contradiction

theorem pair_seq_short {row : Json} {lead : Str} {number : Nat}
    (carried : pairOf row = some (lead, (number : Int))) :
    (decimalText number).length ≤ Json.digitsLimit := by
  unfold pairOf at carried
  split at carried
  · rename_i named read
    cases carried
    obtain ⟨value, _, parsed⟩ := Option.bind_eq_some_iff.mp read
    exact Json.equal_short parsed
  · cases carried

end Pairs

section Kept

variable {inherited : Inherited}

theorem unused_above {call : QueryCall} {host : AppendHost} {run : LiveRun} {prepared : Prepared}
    {row : Json} (below : inherited.SeqsBelowCount)
    (held : inherited.count call.leadId ≤ (run.state.leadRows call.leadId).length)
    (taken : prepareRow host call run = some prepared) (made : prepared.row = .ok row) :
    inherited.Unused call prepared row := by
  have seq := prepared_seq taken
  constructor
  · intro earlier member pair carried again
    obtain ⟨stored, digest, receivedAt, _, _, rfl⟩ := prepared_stored taken made
    have same := query_row_pair_eq again
    rw [same] at carried
    have less := below.rows earlier member _ _ carried
    omega
  · intro _ member
    have less := below.payloads _ _ member
    omega

theorem stays_unique_of_below (below : inherited.SeqsBelowCount)
    (appends : List (AppendHost × QueryCall)) (run : LiveRun)
    (held : ∀ lead, inherited.count lead ≤ (run.state.leadRows lead).length) :
    inherited.StaysUnique appends run := by
  induction appends generalizing run with
  | nil => trivial
  | cons append appends ih =>
      refine ⟨fun prepared row taken made =>
        unused_above below (held append.2.leadId) taken made, ih _ fun lead => ?_⟩
      exact le_trans (held lead) (append_grows append.1 append.2 run lead)

end Kept

section Reached

/-- A call that reaches a lead's numbers, with nothing in it. -/
def bareCall (lead : Str) : QueryCall :=
  { leadId := lead, system := [], verb := [], queryId := [], params := Params.empty,
    rawCommand := [], payloadText := [], exitCode := 0, payloadStatus := [], payloadDigest := [],
    systemKey := [] }

variable {run : LiveRun} {lead : Str} {host : AppendHost}

theorem bare_call_recorded (dated : (isoformat true (run.state.now host.tick)).isSome)
    (short : (decimalText (run.state.leadRows lead).length).length ≤ Json.digitsLimit) :
    ∃ prepared row, prepareRow host (bareCall lead) run = some prepared ∧
      prepared.row = .ok row ∧
      pairOf row = some (lead, ((run.state.leadRows lead).length : Int)) ∧
      (appendQueryRow host (bareCall lead) run).2.state.leadRows lead =
        run.state.leadRows lead ++ [row] := by
  have exitShort : (decimalText 0).length ≤ Json.digitsLimit := by decide
  have shallow : (jsonSafeParams (bareCall lead).params).isSome := rfl
  obtain ⟨prepared, row, taken, made⟩ := prepared_recorded shallow short exitShort dated
  refine ⟨prepared, row, taken, made, ?_, ?_⟩
  · have seq := prepared_seq taken
    obtain ⟨stored, digest, receivedAt, _, _, rfl⟩ := prepared_stored taken made
    rw [seq]
    exact query_row_pair short
  · rw [append_recorded taken made]
    exact if_pos rfl

variable {inherited : Inherited}

theorem unique_further {target : Nat} (short : (decimalText target).length ≤ Json.digitsLimit)
    (steps : Nat) (distance : (run.state.leadRows lead).length + steps = target)
    (dated : (isoformat true (run.state.now host.tick)).isSome)
    (readable : AllReadable run.folder)
    (unique : ∀ appends, inherited.StaysUnique appends run) :
    ∃ later : LiveRun, (later.state.leadRows lead).length = target ∧
      (isoformat true (later.state.now host.tick)).isSome ∧ AllReadable later.folder ∧
      ∀ appends, inherited.StaysUnique appends later := by
  induction steps generalizing run with
  | zero => exact ⟨run, distance, dated, readable, unique⟩
  | succ steps ih =>
      have within := decimal_length_mono (by omega : (run.state.leadRows lead).length ≤ target)
      obtain ⟨prepared, row, taken, made, pair, longer⟩ :=
        bare_call_recorded dated (le_trans within short)
      have next : (((appendQueryRow host (bareCall lead) run).2.state.leadRows lead).length) +
          steps = target := by
        rw [longer, List.length_append, List.length_singleton]
        omega
      refine ih next ?_ (append_readable readable host (bareCall lead)) fun appends =>
        (unique ((host, bareCall lead) :: appends)).2
      rw [append_now]
      exact dated

theorem unique_next (dated : (isoformat true (run.state.now host.tick)).isSome)
    (lands : host.payloadLands = true) (readable : AllReadable run.folder)
    (short : (decimalText (run.state.leadRows lead).length).length ≤ Json.digitsLimit)
    (unique : inherited.StaysUnique [(host, bareCall lead)] run) :
    (∀ row ∈ inherited.rows, pairOf row ≠ some (lead, ((run.state.leadRows lead).length : Int))) ∧
      (checkComponent lead = true →
        (lead, (run.state.leadRows lead).length) ∉ inherited.payloads) := by
  obtain ⟨prepared, row, taken, made, pair, _⟩ := bare_call_recorded dated short
  have unused := unique.1 prepared row taken made
  constructor
  · intro held member carried
    exact unused.1 held member _ carried pair
  · intro named member
    have persisted : prepared.persisted = true := by
      obtain ⟨stored, _, rfl⟩ := Option.map_eq_some_iff.mp taken
      dsimp only
      rw [lands]
      exact persist_empty readable named _
    have seq := prepared_seq taken
    refine unused.2 persisted ?_
    rw [seq]
    exact member

end Reached

section Arm

def freshArm (runId : Str) (tick : Ticks) (reading : Moment) : LiveRun :=
  { state := .start runId tick reading, folder := {} }

theorem start_now (runId : Str) (tick : Ticks) (reading : Moment) :
    (RunState.start runId tick reading).now tick = reading := by
  have none : (RunState.start runId tick reading).elapsed tick = 0 := by
    simp [RunState.start, RunState.startAt, RunState.elapsed, RunState.oracleHeldAt]
  rw [RunState.now, none]
  simp [RunState.start, RunState.startAt]

variable {snapshot : ForkSnapshot} {documentRefusal : Str → Option Str} {source : RunFolder}
  {runId : Str} {tick : Ticks} {reading : Moment} {arm : LiveRun}

theorem table_of_prefix {prefixes : Prefixes}
    (read : appendOnlyPrefixes snapshot source = .ok prefixes) :
    tableOf snapshot source = prefixes.executedQueries := by
  obtain ⟨data, held, start, _⟩ := prefix_of_ok (append_only_prefixes_ok read).1
  simp only [tableOf, held, start]

theorem restored_lead_rows
    (restored : restoreFiles snapshot documentRefusal source (freshArm runId tick reading) =
      .ok arm) (lead : Str) :
    arm.state.leadRows lead =
      (inheritedOf snapshot source).rows.filter fun row => leadOf row = some lead := by
  obtain ⟨prefixes, _, _, read, _, _, _, state⟩ := restore_files_ok restored
  rw [state, inherit_rows_lead, inheritedOf, table_of_prefix read]
  rfl

theorem restored_readable
    (restored : restoreFiles snapshot documentRefusal source (freshArm runId tick reading) =
      .ok arm) : AllReadable arm.folder := by
  obtain ⟨prefixes, seeded, appended, _, seed, append, records, _⟩ := restore_files_ok restored
  refine (restore_records_ok records).2.2.2.2.2 fun name => ?_
  rw [restore_appended_records append, seed_document_records seed]
  exact nofun

theorem restored_now
    (restored : restoreFiles snapshot documentRefusal source (freshArm runId tick reading) =
      .ok arm) : arm.state.now tick = reading := by
  obtain ⟨_, _, _, _, _, _, _, state⟩ := restore_files_ok restored
  rw [state]
  exact start_now runId tick reading

theorem restored_payload
    (restored : restoreFiles snapshot documentRefusal source (freshArm runId tick reading) =
      .ok arm) {lead : Str} {seq : Nat} (held : (lead, seq) ∈ (inheritedOf snapshot source).payloads) :
    checkComponent lead = true ∧ (decimalText seq).length ≤ Json.digitsLimit := by
  obtain ⟨_, _, _, _, _, _, records, _⟩ := restore_files_ok restored
  obtain ⟨entry, member, named⟩ := List.mem_filterMap.mp held
  obtain ⟨name, data, read⟩ := (restore_records_ok records).1 entry member
  obtain ⟨record, component, _, _⟩ := write_once_bytes_ok read
  unfold payloadOf at named
  rw [record] at named
  cases name with
  | payload leadId number =>
      cases named
      exact ⟨component, payload_seq_short record⟩
  | _ => cases named

def landingHost (tick : Ticks) : AppendHost := { tick := tick }

theorem restored_count
    (restored : restoreFiles snapshot documentRefusal source (freshArm runId tick reading) =
      .ok arm) (lead : Str) :
    (arm.state.leadRows lead).length = (inheritedOf snapshot source).count lead := by
  rw [restored_lead_rows restored lead]
  rfl

theorem unique_at
    (dated : (isoformat true reading).isSome)
    (restored : restoreFiles snapshot documentRefusal source (freshArm runId tick reading) =
      .ok arm)
    (unique : ∀ appends, (inheritedOf snapshot source).StaysUnique appends arm) {lead : Str}
    {seq : Nat} (short : (decimalText seq).length ≤ Json.digitsLimit)
    (above : (inheritedOf snapshot source).count lead ≤ seq) :
    (∀ row ∈ (inheritedOf snapshot source).rows, pairOf row ≠ some (lead, (seq : Int))) ∧
      (checkComponent lead = true → (lead, seq) ∉ (inheritedOf snapshot source).payloads) := by
  have stamped : (isoformat true (arm.state.now (landingHost tick).tick)).isSome := by
    rw [landingHost, restored_now restored]
    exact dated
  rw [← restored_count restored lead] at above
  have distance : (arm.state.leadRows lead).length +
      (seq - (arm.state.leadRows lead).length) = seq := by omega
  obtain ⟨later, length, laterStamped, readable, further⟩ :=
    unique_further short _ distance stamped (restored_readable restored) unique
  subst length
  exact unique_next laterStamped rfl readable short (further _)

end Arm

section Torn

/-- A source whose table lost the middle one of a lead's three rows. -/
def numberedRow (seq : Nat) : Json :=
  .object [("lead_id", .string "l-001"), ("seq", Json.ofNat seq)]

def tornLine : Str := "\x7b\"lead_id\": \"l-0"

def tableWith (middle : Str) : Bytes :=
  encodeUtf8 ([Json.dumps (numberedRow 0), middle, Json.dumps (numberedRow 2)].flatMap
    (· ++ ['\n']))

def sourceWith (middle : Str) : RunFolder :=
  { queries := some (.bytes (tableWith middle)),
    records := Dict.empty.set (.payload "l-001" 2) (.bytes []) }

def snapshotWith (middle : Str) : ForkSnapshot :=
  { request := 1
    counters := { toolCalls := 3, subagentSpawns := 0, breaker := breakerJson {},
                  systemDown := snapshotDown Dict.empty, reading := "2026-01-01T00:00:00+00:00",
                  elapsed := 0 }
    executedQueries := markOf (tableWith middle), lessonsLoaded := markOf [],
    policyDenials := markOf []
    writeOnce := [{ kind := .payload, args := [.string "l-001", Json.ofNat 2],
                    sha256 := some (sha256Hex []) }]
    document := none }

def armWith (middle : Str) : LiveRun :=
  { state := (freshArm "arm" 0 0).state.inheritRows (rowsOf (tableWith middle))
    folder :=
      { queries := some (.bytes (tableWith middle)),
        records := Dict.empty.set (.payload "l-001" 2) (.bytes []) } }

theorem numbered_row_held (seq : Nat) (small : seq < 10) : isTableRow (numberedRow seq) = true := by
  have all : ∀ seq < 10, isTableRow (numberedRow seq) = true := by decide +kernel
  exact all seq small

theorem table_with_rows {middle : Str} (plain : PlainLine middle) :
    rowsOf (tableWith middle) =
      numberedRow 0 :: ((parseJsonlRow middle).toList ++ [numberedRow 2]) := by
  have first := numbered_row_held 0 (by decide)
  have last := numbered_row_held 2 (by decide)
  have all : ∀ line ∈ [Json.dumps (numberedRow 0), middle, Json.dumps (numberedRow 2)],
      PlainLine line := by
    intro line member
    simp only [List.mem_cons, List.not_mem_nil, or_false] at member
    rcases member with rfl | rfl | rfl
    · exact table_row_plain first
    · exact plain
    · exact table_row_plain last
  rw [tableWith, rows_of_plain_lines all, List.filterMap_cons, table_row_parsed first]
  cases parsed : parseJsonlRow middle with
  | none => simp [parsed, table_row_parsed last]
  | some row => simp [parsed, table_row_parsed last]

theorem prefixes_with {middle : Str} (short : (tableWith middle).length ≤ readLimit) :
    appendOnlyPrefixes (snapshotWith middle) (sourceWith middle) =
      .ok { executedQueries := tableWith middle, lessonsLoaded := [], policyDenials := [] } := by
  have queries : heldBytes (some (.bytes (tableWith middle))) = .ok (tableWith middle ++ []) := by
    rw [heldBytes, bytesOf, if_neg (Nat.not_lt.mpr short), List.append_nil]
    rfl
  have none : heldBytes none = .ok ([] ++ []) := rfl
  unfold appendOnlyPrefixes
  rw [snapshotWith, sourceWith, prefix_of_mark _ queries, except_ok_bind, prefix_of_mark _ none,
    except_ok_bind, prefix_of_mark _ none, except_ok_bind]
  rfl

theorem arm_restored {middle : Str} (short : (tableWith middle).length ≤ readLimit)
    (filled : tableWith middle ≠ []) :
    restoreFiles (snapshotWith middle) (fun _ => none) (sourceWith middle) (freshArm "arm" 0 0) =
      .ok (armWith middle) := by
  have record : WriteOnceKind.payload.record [.string "l-001", Json.ofNat 2] =
      some (.payload "l-001" 2) := by decide
  have held : bytesOf ((sourceWith middle).records.get? (.payload "l-001" 2)) = .ok (some []) := by
    rw [sourceWith]
    dsimp only
    rw [Dict.get_set, if_pos rfl]
    rfl
  have payload : writeOnceBytes (sourceWith middle) { kind := .payload, args := _, sha256 := _ } =
      .ok (.payload "l-001" 2, []) := write_once_bytes_of record (by decide) held rfl
  have table : heldBytes (some (.bytes (tableWith middle))) = .ok (tableWith middle) := by
    rw [heldBytes, bytesOf, if_neg (Nat.not_lt.mpr short)]
    rfl
  have append : restoreAppended
      { executedQueries := tableWith middle, lessonsLoaded := [], policyDenials := [] } {} =
        .ok { queries := some (.bytes (tableWith middle)) } := by
    simp only [restoreAppended, if_neg filled]
    rfl
  refine restore_files_of (prefixes_with short) rfl append table rfl rfl ?_
  rw [snapshotWith, restoreRecords, payload]
  rfl

theorem torn_line_plain : PlainLine tornLine := by
  have all : ∀ char ∈ tornLine, char.toNat < 0x80 ∧ isLineBreak char = false := by decide
  exact all

/-- The middle row kept, its number spelled as a float. -/
def floatRow : Json := .object [("lead_id", .string "l-001"), ("seq", .number "1.0")]

end Torn

end Defender.Investigation
