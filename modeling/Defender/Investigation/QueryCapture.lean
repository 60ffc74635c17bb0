import Defender.Investigation.QueryGuards
import Defender.Learning.CuratorTick
import Mathlib.Data.List.Perm.Basic

/-!
# A lead's query calls

A call is decided, guarded and screened in one go, then waits for its backend, and leaves its row
when it is answered. Between the two any other call may be decided or answered. A row is written
for each ending but the control flow that ends a turn; a guard's stop closes the lead's door.
-/

namespace Defender.Investigation

open Defender.Python Defender.Filesystem
open Defender.Execution (encodeUtf8)
open Defender.Invlang (isSystemName)
open Defender.Learning.Curator (isContentLess)

/-- A `query` call as its arguments read. -/
structure Asked where
  lead : Str
  system : Str
  verb : Str
  params : Params
  queryId : Option Str

/-- A decision of the registry; each refusal has its text. -/
inductive Decision where
  | granted
  | denied (refusal : Str)
  | unresolvable (refusal : Str)
  deriving DecidableEq

/-- What a run's calls share: the systems its registry declares, the leads with a stop record,
and how a command line, a quoted id and a fault are worded for the model. -/
structure QuerySetting where
  systems : List Str
  named : ∀ system ∈ systems, isSystemName system = true
  stops : Str → Bool
  rawCommand : Str → Str → Params → Str
  quoted : Str → Str
  visible : Str → Str

/-- What the registry, the breaker and the verb's own declaration say of a call. -/
structure Verdicts (setting : QuerySetting) (asked : Asked) where
  authorized : Decision
  declared : authorized = .granted → asked.system ∈ setting.systems
  down : Bool := false
  resolved : Except Str Decision := .ok .granted
  paramsFault : Option Str := none

/-- What a backend answers. -/
inductive Answer where
  | returned (text : Str) (empty : Bool)
  | fault (exitCode : Nat) (detail : Str)

/-- The run and its closed doors; then, for the record, the calls in flight, those given to the
backend, those of them that left no row, and the leads of rejections no guard stopped. -/
structure Capture where
  run : LiveRun
  closed : List Str := []
  flying : List Asked := []
  reached : List Asked := []
  unrowed : List Asked := []
  turnedBack : List Str := []

def undeclaredSystemDetail : Str := "unresolvable: an undeclared system"

namespace Capture

section Calls

variable (setting : QuerySetting)

/-- `_system_of_record`. -/
def systemOfRecord (system : Str) : Str := if system ∈ setting.systems then system else []

def payloadDigest (text : Str) : Str :=
  message [decimalText text.length, " bytes, ",
    decimalText (if strip text = [] then 0 else count ['\n'] text + 1), " line(s)"]

/-- A row that carries no payload. -/
def failedCall (lead system verb queryId : Str) (params : Params) (exitCode : Nat)
    (detail systemKey : Str) : QueryCall where
  leadId := lead
  system := system
  verb := verb
  queryId := queryId
  params := params
  rawCommand := setting.rawCommand system verb params
  payloadText := []
  exitCode := exitCode
  payloadStatus := "error"
  payloadDigest := message ["exit=", decimalText exitCode, "; ",
    (strip (setting.visible detail)).take 160]
  systemKey := systemKey

/-- The row of a call its backend answered. -/
def answeredCall (asked : Asked) : Answer → QueryCall
  | .fault exitCode detail =>
      failedCall setting asked.lead asked.system asked.verb
        (resolveQueryId asked.system asked.verb asked.queryId) asked.params exitCode detail []
  | .returned text empty =>
      { failedCall setting asked.lead asked.system asked.verb
          (resolveQueryId asked.system asked.verb asked.queryId) asked.params 0 [] [] with
        payloadText := text
        payloadStatus := if empty then "empty" else "ok"
        payloadDigest := payloadDigest text }

/-- `_record`: the row appended, and whether the append came through. -/
def record (host : AppendHost) (call : QueryCall) (capture : Capture) : Bool × Capture :=
  let appended := appendQueryRow host call capture.run
  (appended.1.isOk, { capture with run := appended.2 })

def rows (capture : Capture) (lead : Str) : List Json := capture.run.state.leadRows lead

/-- `_stop`: the door of a lead that has a stop record closes once the stop is rowed. -/
def stop (lead : Str) (recorded : Bool × Capture) : Capture :=
  if recorded.1 && setting.stops lead then { recorded.2 with closed := recorded.2.closed ++ [lead] }
  else recorded.2

/-- `_forbidden_reject`. -/
def forbiddenReject (queryId : Option Str) : Option Str :=
  match queryId with
  | none => none
  | some text =>
      if carriesForbidden text then
        some (message ["invalid query_id ", setting.quoted text, ": no '/', '\\', '..', NUL, ",
          "newline or '#' — it becomes a catalog path segment and a markdown span the offline ",
          "collectors render. Coin a `\x7bsystem\x7d.\x7bkebab-name\x7d` id."])
      else none

variable {setting} in
/-- From the repeat guard to the backend. -/
def guarded (host : AppendHost) (asked : Asked) (verdicts : Verdicts setting asked)
    (capture : Capture) : Capture :=
  match repeatTrip (capture.rows asked.lead) asked.lead (.string asked.system)
      (.string asked.verb) asked.params.json [] with
  | some trip =>
      stop setting asked.lead (capture.record host (failedCall setting asked.lead asked.system
        asked.verb repeatTripQueryId asked.params usageExitCode (repeatTripDetail trip) []))
  | none =>
      match (forbiddenReject setting asked.queryId).or verdicts.paramsFault with
      | some reason =>
          (capture.record host (failedCall setting asked.lead asked.system asked.verb
            (resolveQueryId asked.system asked.verb none) asked.params usageExitCode reason [])).2
      | none =>
          { capture with
            flying := capture.flying ++ [asked], reached := capture.reached ++ [asked] }

/-- The end of the call at a place among those in flight: an answer, or none where control flow
took it. -/
def answer (host : AppendHost) (place : Nat) (answered : Option Answer) (capture : Capture) :
    Capture :=
  match capture.flying[place]? with
  | none => capture
  | some asked =>
      let landed := { capture with flying := capture.flying.eraseIdx place }
      match answered with
      | none => { landed with unrowed := landed.unrowed ++ [asked] }
      | some answer =>
          let call := answeredCall setting asked answer
          let lost := if recordedBy host call capture.run = [] then [asked] else []
          { (landed.record host call).2 with unrowed := capture.unrowed ++ lost }

end Calls

section Rejections

variable [UnicodeDatabase] (setting : QuerySetting)

def systemFingerprint (raw recorded : Str) : Str :=
  if recorded ≠ [] ∨ isContentLess raw then [] else sha256Hex (encodeUtf8 raw)

/-- A call rejected above the repeat guard: `_reject` of one the schema refuses and
`_reject_unresolved` of one the registry cannot resolve. The rejection's text depends on whether
the system is named in the row. -/
def reject (host : AppendHost) (lead raw verb : Str) (params : Params) (rejection : Str → Str)
    (capture : Capture) : Capture :=
  let system := systemOfRecord setting raw
  let systemKey := systemFingerprint raw system
  let trip := rejectionGuard (capture.rows lead) lead (.string system) (.string verb) params.json
    systemKey
  let detail := match trip with
    | none => rejection system
    | some trip => rejectionDetail trip (rejection system)
  let call := failedCall setting lead system verb aboveGuardQueryId params usageExitCode detail
    systemKey
  let recorded := capture.record host call
  match trip with
  | some _ => stop setting lead recorded
  | none => { recorded.2 with turnedBack := recorded.2.turnedBack ++
      (recordedBy host call capture.run).map fun _ => lead }

/-- `_reject` of a schema refusal, worded by what refused it and by the host for a row that names
no system; nothing is rowed behind a closed door. -/
def rejectSchema (host : AppendHost) (lead system verb : Str) (params : Params)
    (refused coarse : Str) (capture : Capture) : Capture :=
  if lead ∈ capture.closed then capture
  else reject setting host lead system verb params
    (fun recorded => if recorded = [] then coarse else refused) capture

def rejectUnresolved (host : AppendHost) (asked : Asked) (refusal : Str) (capture : Capture) :
    Capture :=
  reject setting host asked.lead asked.system asked.verb asked.params (fun recorded =>
    if recorded = [] then undeclaredSystemDetail
    else if refusal = [] then "unresolvable" else refusal) capture

variable {setting} in
/-- `_execute` up to the backend: the grant, the door, the breaker, the adapter, the guard and
the screens, in that order. -/
def execute (host : AppendHost) (asked : Asked) (verdicts : Verdicts setting asked)
    (capture : Capture) : Capture :=
  match verdicts.authorized with
  | .denied refusal =>
      if asked.lead ∈ capture.closed then capture
      else (capture.record host (failedCall setting asked.lead asked.system asked.verb
        deniedQueryId asked.params deniedExitCode (if refusal = [] then
          message ["denied: ", asked.system, ['.'], asked.verb] else refusal) [])).2
  | .unresolvable refusal =>
      if asked.lead ∈ capture.closed then capture
      else rejectUnresolved setting host asked refusal capture
  | .granted =>
      if asked.lead ∈ capture.closed ∨ verdicts.down then capture
      else
        match verdicts.resolved with
        | .error fault =>
            (capture.record host (failedCall setting asked.lead asked.system asked.verb
              aboveGuardQueryId asked.params defaultFaultExit fault [])).2
        | .ok (.unresolvable refusal) | .ok (.denied refusal) =>
            rejectUnresolved setting host asked refusal capture
        | .ok .granted => guarded host asked verdicts capture

end Rejections

end Capture

/-- A step of a run's query calls, or another writer's row. -/
inductive QueryEvent (setting : QuerySetting) where
  | refused (host : AppendHost) (lead system verb : Str) (params : Params) (refused coarse : Str)
  | asks (host : AppendHost) (asked : Asked) (verdicts : Verdicts setting asked)
  | ends (host : AppendHost) (place : Nat) (answered : Option Answer)
  | elsewhere (host : AppendHost) (call : QueryCall)

namespace Capture

section Runs

variable [UnicodeDatabase] {setting : QuerySetting}

def step (capture : Capture) : QueryEvent setting → Capture
  | .refused host lead system verb params refused coarse =>
      rejectSchema setting host lead system verb params refused coarse capture
  | .asks host asked verdicts => execute host asked verdicts capture
  | .ends host place answered => answer setting host place answered capture
  | .elsewhere host call => (capture.record host call).2

def runs (capture : Capture) (events : List (QueryEvent setting)) : Capture :=
  events.foldl step capture

end Runs

section Rows

variable {setting : QuerySetting} {capture next : Capture} {lead : Str}

/-- The rows of a lead the rejection budget counts. -/
def rejections (capture : Capture) (lead : Str) : Nat :=
  (capture.rows lead).countP fun row => inRejectionDomain row && leadOf row == some lead

/-- A rejection goes unstopped only within its lead's budget, and is one of its rows. -/
def Turned (capture next : Capture) (lead : Str) : Prop :=
  next.turnedBack.count lead = capture.turnedBack.count lead ∨
    capture.rejections lead + 1 < rejectionBudget ∧
      next.turnedBack.count lead = capture.turnedBack.count lead + 1 ∧
      capture.rejections lead + 1 ≤ next.rejections lead

/-- Rows are only added, and no call is sent or ended. -/
structure Appends (capture next : Capture) : Prop where
  turned : ∀ lead, Turned capture next lead
  closed : capture.closed <+: next.closed
  flying : next.flying = capture.flying
  reached : next.reached = capture.reached
  unrowed : next.unrowed = capture.unrowed
  rows : ∀ lead, capture.rows lead <+: next.rows lead

theorem Appends.refl (capture : Capture) : Appends capture capture :=
  ⟨fun _ => .inl rfl, List.prefix_refl _, rfl, rfl, rfl, fun _ => List.prefix_refl _⟩

theorem record_rows (host : AppendHost) (call : QueryCall) (capture : Capture) (lead : Str) :
    (capture.record host call).2.rows lead = capture.rows lead ++
      (recordedBy host call capture.run).filter fun row => leadOf row = some lead :=
  append_lead_rows lead

theorem record_appends (host : AppendHost) (call : QueryCall) (capture : Capture) :
    Appends capture (capture.record host call).2 :=
  ⟨fun _ => .inl rfl, List.prefix_refl _, rfl, rfl, rfl, fun lead => by
    rw [record_rows]
    exact List.prefix_append _ _⟩

theorem stop_appends (lead : Str) {capture : Capture} {recorded : Bool × Capture}
    (appends : Appends capture recorded.2) : Appends capture (stop setting lead recorded) := by
  unfold stop
  split
  · exact { appends with
      turned := appends.turned, closed := appends.closed.trans (List.prefix_append _ _) }
  · exact appends

theorem recorded_at_most (host : AppendHost) (call : QueryCall) (run : LiveRun) :
    recordedBy host call run = [] ∨ ∃ row, recordedBy host call run = [row] := by
  unfold recordedBy
  split
  · exact .inl rfl
  · split
    · exact .inl rfl
    · exact .inr ⟨_, rfl⟩

/-- The row of a rejection is one its lead's budget counts. -/
theorem rejection_counted {host : AppendHost} {call : QueryCall} {capture : Capture} {row : Json}
    (rejected : rejectionCall call = true)
    (recorded : recordedBy host call capture.run = [row]) :
    capture.rejections call.leadId + 1 ≤ (capture.record host call).2.rejections call.leadId := by
  obtain ⟨prepared, taken, made⟩ := recorded_by_prepared (recorded ▸ List.mem_singleton_self row)
  obtain ⟨stored, digest, receivedAt, _, _, same⟩ := prepared_stored taken made
  have lead : leadOf row = some call.leadId := same ▸ query_row_lead ..
  have domain : inRejectionDomain row = true := by
    rw [same, (query_row_domains ..).2, rejected]
  unfold rejections
  rw [record_rows, recorded]
  simp [lead, domain]

/-- What any step does to the rejections, the doors and the calls sent. -/
structure Moves (capture next : Capture) : Prop where
  turned : ∀ lead, Turned capture next lead
  closed : capture.closed <+: next.closed
  rows : ∀ lead, capture.rows lead <+: next.rows lead
  sent : next.reached = capture.reached ∨
    ∃ asked, asked.lead ∉ capture.closed ∧ next.reached = capture.reached ++ [asked]

theorem Appends.moves (appends : Appends capture next) : Moves capture next :=
  ⟨appends.turned, appends.closed, appends.rows, .inl appends.reached⟩

theorem answer_moves (host : AppendHost) (place : Nat) (answered : Option Answer)
    (capture : Capture) : Moves capture (answer setting host place answered capture) := by
  have still : Moves capture capture := (Appends.refl capture).moves
  unfold answer
  split
  · exact still
  · cases answered with
    | none => exact { still with }
    | some answer =>
        rename_i asked here
        have moved := (record_appends host (answeredCall setting asked answer)
          { capture with flying := capture.flying.eraseIdx place }).moves
        exact { moved with }

/-- The rejections no guard stopped are rows of their lead, and within its budget. -/
structure Spared (lead : Str) (capture : Capture) : Prop where
  rowed : capture.turnedBack.count lead ≤ capture.rejections lead
  few : capture.turnedBack.count lead ≤ rejectionBudget - 1

theorem Moves.spared (moves : Moves capture next) (spared : Spared lead capture) :
    Spared lead next := by
  have grown : capture.rejections lead ≤ next.rejections lead :=
    (moves.rows lead).sublist.countP_le
  have rowed := spared.rowed
  have few := spared.few
  rcases moves.turned lead with same | ⟨within, more, counted⟩
  · exact ⟨by omega, by omega⟩
  · exact ⟨by omega, by omega⟩

theorem Moves.shut (moves : Moves capture next) (shut : lead ∈ capture.closed) :
    next.reached.filter (·.lead = lead) = capture.reached.filter (·.lead = lead) ∧
      lead ∈ next.closed := by
  refine ⟨?_, moves.closed.subset shut⟩
  rcases moves.sent with same | ⟨asked, opened, sent⟩
  · rw [same]
  · have other : asked.lead ≠ lead := fun same => opened (same ▸ shut)
    simp [sent, other]

end Rows

section Moved

variable [UnicodeDatabase] {setting : QuerySetting} {capture : Capture} {lead : Str}

theorem reject_appends (host : AppendHost) (lead raw verb : Str) (params : Params)
    (rejection : Str → Str) (capture : Capture) :
    Appends capture (reject setting host lead raw verb params rejection capture) := by
  unfold reject
  dsimp only
  split
  · exact stop_appends lead (record_appends ..)
  · rename_i untripped
    rw [untripped]
    refine { record_appends host _ capture with turned := ?_ }
    intro other
    have few := no_rejection_few untripped
    rcases recorded_at_most host (failedCall setting lead (systemOfRecord setting raw) verb
      aboveGuardQueryId params usageExitCode (rejection (systemOfRecord setting raw))
      (systemFingerprint raw (systemOfRecord setting raw))) capture.run with nothing | ⟨row, one⟩
    · left
      rw [nothing]
      simp [record]
    · by_cases same : lead = other
      · right
        subst same
        refine ⟨few, ?_, rejection_counted rfl one⟩
        rw [one]
        simp [record]
      · left
        rw [one]
        simp [record, same]

/-- A call that is sent was granted and met an open door and a guard that let it through; any
other only leaves rows. -/
theorem execute_cases (host : AppendHost) (asked : Asked) (verdicts : Verdicts setting asked)
    (capture : Capture) :
    Appends capture (execute host asked verdicts capture) ∨
      asked.system ∈ setting.systems ∧ asked.lead ∉ capture.closed ∧
        repeatTrip (capture.rows asked.lead) asked.lead (.string asked.system)
          (.string asked.verb) asked.params.json [] = none ∧
        execute host asked verdicts capture = { capture with
          flying := capture.flying ++ [asked], reached := capture.reached ++ [asked] } := by
  cases authorized : verdicts.authorized with
  | denied refusal =>
      left
      simp only [execute, authorized]
      split
      · exact .refl capture
      · exact record_appends ..
  | unresolvable refusal =>
      left
      simp only [execute, authorized]
      split
      · exact .refl capture
      · exact reject_appends ..
  | granted =>
      simp only [execute, authorized]
      split
      · exact .inl (.refl capture)
      · rename_i goes
        split
        · exact .inl (record_appends ..)
        · exact .inl (reject_appends ..)
        · exact .inl (reject_appends ..)
        · unfold guarded
          split
          · exact .inl (stop_appends _ (record_appends ..))
          · rename_i untripped
            split
            · exact .inl (record_appends ..)
            · exact .inr ⟨verdicts.declared authorized, fun shut => goes (.inl shut), untripped,
                rfl⟩

theorem step_moves (event : QueryEvent setting) : Moves capture (capture.step event) := by
  cases event with
  | refused host lead system verb params refused coarse =>
      change Moves _ (rejectSchema ..)
      unfold rejectSchema
      split
      · exact (Appends.refl capture).moves
      · exact (reject_appends ..).moves
  | asks host asked verdicts =>
      change Moves _ (execute ..)
      rcases execute_cases host asked verdicts capture with quiet | ⟨_, shut, _, sent⟩
      · exact quiet.moves
      · rw [sent]
        exact { (Appends.refl capture).moves with sent := .inr ⟨asked, shut, rfl⟩ }
  | ends host place answered => exact answer_moves ..
  | elsewhere host call => exact (record_appends host call capture).moves

theorem runs_spared (spared : Spared lead capture) (events : List (QueryEvent setting)) :
    Spared lead (capture.runs events) := by
  induction events generalizing capture with
  | nil => exact spared
  | cons event rest ih => exact ih ((step_moves event).spared spared)

theorem runs_shut (shut : lead ∈ capture.closed) (events : List (QueryEvent setting)) :
    (capture.runs events).reached.filter (·.lead = lead) =
      capture.reached.filter (·.lead = lead) := by
  induction events generalizing capture with
  | nil => rfl
  | cons event rest ih =>
      obtain ⟨same, still⟩ := (step_moves event).shut shut
      exact (ih still).trans same

/-- In any run a lead has fewer unstopped rejections than its budget, and a lead whose door a
guard has closed sends no more calls. -/
theorem stopped_leads_stay_stopped (run : LiveRun) (before after : List (QueryEvent setting))
    (lead : Str) :
    (runs { run := run } before).turnedBack.count lead < rejectionBudget ∧
      (lead ∈ (runs { run := run } before).closed →
        (runs { run := run } (before ++ after)).reached.filter (·.lead = lead) =
          (runs { run := run } before).reached.filter (·.lead = lead)) := by
  have fresh : Spared lead { run := run } := ⟨Nat.zero_le _, Nat.zero_le _⟩
  have few := (runs_spared fresh before).few
  refine ⟨?_, fun shut => ?_⟩
  · unfold rejectionBudget at few ⊢
    omega
  · have split : runs { run := run } (before ++ after) =
        (runs { run := run } before).runs after := List.foldl_append
    rw [split]
    exact runs_shut shut after

end Moved

end Capture

section Repeats

def Asked.key (asked : Asked) : Str :=
  queryRequestKey (.string asked.system) (.string asked.verb) asked.params.json

/-- The same request of the same lead. -/
def Asked.repeats (request asked : Asked) : Bool :=
  asked.lead == request.lead && asked.key == request.key

/-- The rows the repeat guard counts for a request. -/
def Capture.counted (request : Asked) (capture : Capture) : Nat :=
  (capture.rows request.lead).countP (requestMatches request.lead (.string request.system)
    (.string request.verb) request.params.json [] inRepeatDomain)

/-- Each call that was sent is in flight, left no row, or is counted by its row; and since each
met a guard that counted, they are few. -/
structure Capture.Bounded (bound : Nat) (request : Asked) (capture : Capture) : Prop where
  named : ∀ asked ∈ capture.flying, isSystemName asked.system = true
  traced : capture.reached.countP request.repeats ≤ capture.flying.countP request.repeats +
    capture.unrowed.countP request.repeats + capture.counted request
  few : capture.reached.countP request.repeats ≤
    (repeatThreshold - 1) + (bound - 1) + capture.unrowed.countP request.repeats

namespace Capture

section Steps

variable {setting : QuerySetting} {bound : Nat} {request : Asked} {capture next : Capture}

theorem Appends.bounded (appends : Appends capture next) (held : capture.Bounded bound request) :
    next.Bounded bound request := by
  have counted : capture.counted request ≤ next.counted request :=
    (appends.rows request.lead).sublist.countP_le
  refine ⟨appends.flying ▸ held.named, ?_, ?_⟩
  · rw [appends.reached, appends.flying, appends.unrowed]
    exact held.traced.trans (Nat.add_le_add_left counted _)
  · rw [appends.reached, appends.unrowed]
    exact held.few

/-- A guard asked of one request counts the rows of whatever repeats it. -/
theorem matches_of_repeats {asked : Asked} (repeated : request.repeats asked = true) :
    requestMatches asked.lead (.string asked.system) (.string asked.verb) asked.params.json []
        inRepeatDomain =
      requestMatches request.lead (.string request.system) (.string request.verb)
        request.params.json [] inRepeatDomain := by
  rw [Asked.repeats, Bool.and_eq_true, beq_iff_eq, beq_iff_eq] at repeated
  obtain ⟨lead, key⟩ := repeated
  unfold Asked.key at key
  funext row
  unfold requestMatches
  rw [lead, key]

theorem counted_of_repeats {asked : Asked} (repeated : request.repeats asked = true) :
    capture.counted asked = capture.counted request := by
  have lead : asked.lead = request.lead := by
    rw [Asked.repeats, Bool.and_eq_true, beq_iff_eq] at repeated
    exact repeated.1
  unfold counted
  rw [matches_of_repeats repeated, lead]

theorem sent_bounded (held : capture.Bounded bound request) {asked : Asked}
    (named : isSystemName asked.system = true)
    (untripped : repeatTrip (capture.rows asked.lead) asked.lead (.string asked.system)
      (.string asked.verb) asked.params.json [] = none)
    (within : (capture.flying ++ [asked]).countP request.repeats ≤ bound) :
    Bounded bound request { capture with
      flying := capture.flying ++ [asked], reached := capture.reached ++ [asked] } := by
  have few : capture.counted asked + 1 < repeatThreshold := no_trip_few untripped
  have traced := held.traced
  have before := held.few
  refine ⟨?_, ?_, ?_⟩
  · intro other member
    rcases List.mem_append.mp member with old | new
    · exact held.named other old
    · rw [List.mem_singleton.mp new]
      exact named
  · change (capture.reached ++ [asked]).countP _ ≤ (capture.flying ++ [asked]).countP _ +
      capture.unrowed.countP _ + capture.counted request
    rw [List.countP_append, List.countP_append]
    omega
  · change (capture.reached ++ [asked]).countP _ ≤ _ + capture.unrowed.countP _
    rw [List.countP_append, List.countP_singleton] at within ⊢
    split_ifs at within ⊢ with repeated
    · rw [counted_of_repeats repeated] at few
      omega
    · omega

/-- The row of a call that was sent is in the guard's domain and holds its request. -/
theorem answered_counted {host : AppendHost} {asked : Asked} {answer : Answer} {run : LiveRun}
    (named : isSystemName asked.system = true) {row : Json}
    (recorded : row ∈ recordedBy host (answeredCall setting asked answer) run) :
    leadOf row = some asked.lead ∧
      requestMatches asked.lead (.string asked.system) (.string asked.verb) asked.params.json []
        inRepeatDomain row = true := by
  obtain ⟨prepared, taken, made⟩ := recorded_by_prepared recorded
  obtain ⟨stored, digest, receivedAt, kept, _, rfl⟩ := prepared_stored taken made
  have lead : (answeredCall setting asked answer).leadId = asked.lead := by cases answer <;> rfl
  have queryId : (answeredCall setting asked answer).queryId =
      resolveQueryId asked.system asked.verb asked.queryId := by cases answer <;> rfl
  have plain := resolved_not_reserved named asked.verb asked.queryId
  have ordinary : repeatCall (answeredCall setting asked answer) = true := by
    unfold repeatCall
    rw [queryId, Bool.not_eq_true', ← Bool.not_eq_true, List.contains_iff_mem]
    intro above
    have reserved : isReservedQueryId (resolveQueryId asked.system asked.verb asked.queryId) =
        true := by
      rcases List.mem_cons.mp above with same | same
      · rw [same]
        rfl
      · rw [List.mem_singleton.mp same]
        rfl
    rw [plain] at reserved
    cases reserved
  refine ⟨lead ▸ query_row_lead .., ?_⟩
  have within := (query_row_domains (answeredCall setting asked answer) prepared.seq stored
    (payloadPath prepared.persisted (answeredCall setting asked answer).leadId prepared.seq)
    digest receivedAt).1.trans ordinary
  have counted := query_row_matches prepared.seq _ digest receivedAt kept within
  rw [lead] at counted ⊢
  cases answer <;> exact counted

/-- An answered call that is not among the lost ones is counted by its row. -/
theorem answered_counts {host : AppendHost} {asked : Asked} {answer : Answer} {lost : List Asked}
    (named : isSystemName asked.system = true)
    (unrecorded : lost = if recordedBy host (answeredCall setting asked answer) capture.run = []
      then [asked] else []) :
    capture.counted request + [asked].countP request.repeats ≤
      (capture.record host (answeredCall setting asked answer)).2.counted request +
        lost.countP request.repeats := by
  subst unrecorded
  unfold counted
  rw [record_rows, List.countP_append, List.countP_singleton]
  split_ifs with repeated nothing
  · simp [nothing, repeated]
  · obtain ⟨row, member⟩ := List.exists_mem_of_ne_nil _ nothing
    obtain ⟨lead, counted⟩ := answered_counted named member
    rw [matches_of_repeats repeated] at counted
    rw [Asked.repeats, Bool.and_eq_true, beq_iff_eq] at repeated
    have listed : row ∈ (recordedBy host (answeredCall setting asked answer) capture.run).filter
        fun row => leadOf row = some request.lead := by
      rw [List.mem_filter, decide_eq_true_eq, lead, repeated.1]
      exact ⟨member, rfl⟩
    have found := List.countP_pos_iff.mpr ⟨row, listed, counted⟩
    omega
  · omega
  · omega

theorem answer_bounded (held : capture.Bounded bound request) (host : AppendHost) (place : Nat)
    (answered : Option Answer) :
    (answer setting host place answered capture).Bounded bound request := by
  unfold answer
  split
  · exact held
  · rename_i asked here
    obtain ⟨inside, same⟩ := List.getElem?_eq_some_iff.mp here
    have named := held.named asked (same ▸ List.getElem_mem inside)
    have landing : ∀ other ∈ capture.flying.eraseIdx place, isSystemName other.system = true :=
      fun other member => held.named other (List.mem_of_mem_eraseIdx member)
    have flown : capture.flying.countP request.repeats =
        [asked].countP request.repeats + (capture.flying.eraseIdx place).countP request.repeats := by
      rw [← (List.getElem_cons_eraseIdx_perm inside).countP_eq, same, ← List.countP_append]
      rfl
    have traced := held.traced
    have few := held.few
    cases answered with
    | none =>
        constructor
        · exact landing
        · simp only [List.countP_append, counted, rows] at traced ⊢
          omega
        · simp only [List.countP_append]
          omega
    | some answer =>
        have counts := @answered_counts setting request
          { capture with flying := capture.flying.eraseIdx place } host asked answer _ named rfl
        constructor
        · exact landing
        · simp only [List.countP_append, counted, rows, record] at traced counts ⊢
          omega
        · simp only [List.countP_append, record]
          omega

end Steps

section Bounds

variable [UnicodeDatabase] {setting : QuerySetting} {bound : Nat} {request : Asked}
  {capture : Capture}

/-- Never more than `bound` calls of a request in flight. -/
def Within (bound : Nat) (request : Asked) : Capture → List (QueryEvent setting) → Prop
  | capture, [] => capture.flying.countP request.repeats ≤ bound
  | capture, event :: rest =>
      capture.flying.countP request.repeats ≤ bound ∧ Within bound request (capture.step event) rest

theorem Within.now {events : List (QueryEvent setting)} (within : Within bound request capture events) :
    capture.flying.countP request.repeats ≤ bound := by
  cases events with
  | nil => exact within
  | cons event rest => exact within.1

theorem step_bounded (held : capture.Bounded bound request) (event : QueryEvent setting)
    (within : (capture.step event).flying.countP request.repeats ≤ bound) :
    (capture.step event).Bounded bound request := by
  cases event with
  | refused host lead system verb params refused coarse =>
      change Bounded _ _ (rejectSchema ..)
      unfold rejectSchema
      split
      · exact held
      · exact (reject_appends ..).bounded held
  | asks host asked verdicts =>
      change Bounded _ _ (execute host asked verdicts capture)
      change (execute host asked verdicts capture).flying.countP _ ≤ _ at within
      rcases execute_cases host asked verdicts capture with quiet | ⟨declared, _, untripped, sent⟩
      · exact quiet.bounded held
      · rw [sent] at within ⊢
        exact sent_bounded held (setting.named _ declared) untripped within
  | ends host place answered => exact answer_bounded held host place answered
  | elsewhere host call => exact (record_appends host call capture).bounded held

theorem runs_bounded (held : capture.Bounded bound request) (events : List (QueryEvent setting))
    (within : Within bound request capture events) :
    (capture.runs events).Bounded bound request := by
  induction events generalizing capture with
  | nil => exact held
  | cons event rest ih => exact ih (step_bounded held event within.2.now) within.2

/-- The same request reaches its backend at most twice, once more for each further call of it in
flight, and again for each that left no row. -/
theorem requests_bounded (run : LiveRun) (request : Asked) (events : List (QueryEvent setting))
    (within : Within bound request { run := run } events) :
    (runs { run := run } events).reached.countP request.repeats ≤
      (repeatThreshold - 1) + (bound - 1) +
        (runs { run := run } events).unrowed.countP request.repeats := by
  have fresh : Bounded bound request { run := run } := ⟨nofun, Nat.zero_le _, Nat.zero_le _⟩
  exact (runs_bounded fresh events within).few

end Bounds

def siemSearch : Asked := ⟨"l-001", "siem", "search", .empty, none⟩

def siemSetting : QuerySetting where
  systems := ["siem"]
  named := by decide
  stops _ := true
  rawCommand system verb _ := message [system, [' '], verb]
  quoted text := text
  visible text := text

/-- A search sent twice, its first call cut short. -/
def searchedTwice : List (QueryEvent siemSetting) :=
  let search := .asks ⟨0, true, none, none⟩ siemSearch ⟨.granted, fun _ => by decide, false,
    .ok .granted, none⟩
  [search, .ends ⟨0, true, none, none⟩ 0 none, search]

theorem searched_twice_bounded :
    let ended := @runs asciiDatabase siemSetting ⟨⟨.start "r" 0 0, {}⟩, [], [], [], [], []⟩
      searchedTwice
    ended.reached.countP siemSearch.repeats ≤
      (repeatThreshold - 1) + (1 - 1) + ended.unrowed.countP siemSearch.repeats :=
  @requests_bounded asciiDatabase siemSetting 1 ⟨.start "r" 0 0, {}⟩ siemSearch searchedTwice
    ⟨Nat.zero_le _, by decide +kernel, by decide +kernel, show List.countP _ _ ≤ 1 by decide +kernel⟩

end Capture

end Repeats

end Defender.Investigation
