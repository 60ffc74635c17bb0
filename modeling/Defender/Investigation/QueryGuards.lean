import Defender.Invlang.Validate.Ceiling
import Defender.Investigation.RecordQuery

/-!
# The guards of a lead's queries

A guard counts a lead's rows in its domain and refuses a call that would be one too many. The
repeat guard counts rows of the same request that were written at its own place or below, the
rejection guards those of calls the model itself could have made right. Each is asked of the
rows alone, so it can be asked again of a row and the rows before it.
-/

namespace Defender.Investigation

open Defender.Python Defender.Filesystem
open Defender.Execution (encodeUtf8)
open Defender.Invlang (isSystemName isSystemChar matchesSystemPattern)

def repeatThreshold : Nat := 3

def rejectionBudget : Nat := 6

def abovePlacementQueryIds : List Str := [aboveGuardQueryId, deniedQueryId]

structure RepeatTrip where
  firstSeq : Option Int
  occurrence : Nat
  deriving DecidableEq, Repr

structure RejectionBudgetTrip where
  occurrence : Nat
  budget : Nat
  deriving DecidableEq, Repr

inductive GuardTrip where
  | repeated (trip : RepeatTrip)
  | budget (trip : RejectionBudgetTrip)
  deriving DecidableEq, Repr

def column (row : Json) (name : Str) : Json := (row.get? name).getD .null

def textOf : Json → Option Str
  | .string text => some text
  | _ => none

def textUnder (name : Str) (row : Json) : Option Str := (row.get? name).bind textOf

def inRepeatDomain (row : Json) : Bool :=
  match textUnder "query_id" row with
  | some queryId => !abovePlacementQueryIds.contains queryId
  | none => true

/-- `in_rejection_domain`. -/
def inRejectionDomain (row : Json) : Bool :=
  textUnder "query_id" row == some aboveGuardQueryId &&
    textUnder "error_class" row == some agentFixableErrorClass

section Guards

variable (rows : List Json) (lead : Str) (system verb params : Json) (systemKey : Str)

def requestMatches (inDomain : Json → Bool) (row : Json) : Bool :=
  leadOf row == some lead && inDomain row && Json.asStr (row.get? "system_key") == systemKey &&
    queryRequestKey (column row "system") (column row "verb") (column row "params") ==
      queryRequestKey system verb params

/-- `_trip`: the occurrence this call would be, once it is too many. -/
def tripOver (threshold : Nat) (inDomain : Json → Bool) : Option RepeatTrip :=
  let matched := rows.filter (requestMatches lead system verb params systemKey inDomain)
  let occurrence := matched.length + 1
  if occurrence < threshold then none
  else
    some { firstSeq := (matched.filterMap fun row => (row.get? "seq").bind Json.asInt).min?,
           occurrence := occurrence }

def repeatTrip : Option RepeatTrip :=
  tripOver rows lead system verb params systemKey repeatThreshold inRepeatDomain

def rejectionTrip : Option RepeatTrip :=
  tripOver rows lead system verb params systemKey repeatThreshold inRejectionDomain

def rejectionBudgetTrip : Option RejectionBudgetTrip :=
  let count := rows.countP fun row => inRejectionDomain row && leadOf row == some lead
  let occurrence := count + 1
  if occurrence < rejectionBudget then none
  else some { occurrence := occurrence, budget := rejectionBudget }

/-- `_rejection_guard`: the repeated request first. -/
def rejectionGuard : Option GuardTrip :=
  match rejectionTrip rows lead system verb params systemKey with
  | some trip => some (.repeated trip)
  | none => (rejectionBudgetTrip rows lead).map .budget

end Guards

def rejectionCall (call : QueryCall) : Bool :=
  some call.queryId == some aboveGuardQueryId &&
    textOf (errorClassForExit call.exitCode) == some agentFixableErrorClass

def repeatCall (call : QueryCall) : Bool := !abovePlacementQueryIds.contains call.queryId

/-! What a stopped call's row says. -/

/-- `_ordinal`. -/
def ordinal (number : Nat) : Str :=
  let suffix : Str :=
    if 10 ≤ number % 100 ∧ number % 100 ≤ 20 then "th"
    else if number % 10 = 1 then "st"
    else if number % 10 = 2 then "nd"
    else if number % 10 = 3 then "rd"
    else "th"
  decimalText number ++ suffix

def seqText : Option Int → Str
  | some seq => showInt seq
  | none => "None"

def repeatTripDetail (trip : RepeatTrip) : Str :=
  message ["refused: repeat of request already issued at seq ", seqText trip.firstSeq, " (",
    ordinal trip.occurrence, " occurrence)"]

def withRejectionTail (detail rejection : Str) : Str :=
  if rejection = [] then detail else message [detail, "; rejected: ", rejection]

def rejectionTripDetail (trip : RepeatTrip) (rejection : Str) : Str :=
  withRejectionTail (message ["refused: repeat of request already turned back at seq ",
    seqText trip.firstSeq, " (", ordinal trip.occurrence, " occurrence)"]) rejection

/-- `rejection_detail`. -/
def rejectionDetail (trip : GuardTrip) (rejection : Str) : Str :=
  match trip with
  | .repeated trip => rejectionTripDetail trip rejection
  | .budget trip =>
      withRejectionTail (message ["refused: ", ordinal trip.occurrence,
        " request in this lead rejected before it ran (budget ", decimalText trip.budget,
        [')']]) rejection

/-! Query ids. -/

/-- `QID_FORBIDDEN`. -/
def qidForbidden : List Str := [['/'], ['\\'], "..", ['\x00'], ['\n'], ['\r'], ['#']]

def carriesForbidden (queryId : Str) : Bool := qidForbidden.any fun token => contains token queryId

def isKebabChar (char : Char) : Bool := isAsciiAlnum char || char == '_' || char == '-'

/-- `_KEBAB_SEGMENT`. -/
def isKebabSegment : Str → Bool
  | [] => false
  | first :: rest => isAsciiAlnum first && rest.all isKebabChar

def isReservedQueryId (value : Str) : Bool := startsWith reservedQueryIdPrefix value

def modelQueryId (system queryId : Str) : Option Str :=
  if queryId = [] ∨ isReservedQueryId queryId ∨ carriesForbidden queryId then none
  else
    let (start, found, remainder) := partition ['.'] queryId
    if found ∧ start = system ∧ isKebabSegment remainder then some queryId else none

def resolveQueryId (system verb : Str) (queryId : Option Str) : Str :=
  (queryId.bind (modelQueryId system)).getD
    (message [system, ['.'], if verb = [] then "ad-hoc" else verb])

section Domains

variable {rows : List Json} {lead : Str}

/-- Only a system named like a sentinel's head could be given a sentinel's id. -/
theorem resolved_not_reserved {system : Str} (named : isSystemName system = true) (verb : Str)
    (queryId : Option Str) : isReservedQueryId (resolveQueryId system verb queryId) = false := by
  unfold resolveQueryId
  cases chosen : queryId.bind (modelQueryId system) with
  | some text =>
      obtain ⟨given, _, accepted⟩ := Option.bind_eq_some_iff.mp chosen
      unfold modelQueryId at accepted
      split at accepted
      · cases accepted
      · rename_i allowed
        rw [not_or, not_or, Bool.not_eq_true] at allowed
        dsimp only at accepted
        split at accepted
        · cases accepted
          exact allowed.2.1
        · cases accepted
  | none =>
      rw [Option.getD_none]
      cases system with
      | nil => cases named
      | cons first rest =>
          rw [isSystemName, Bool.and_eq_true, matchesSystemPattern, Bool.and_eq_true] at named
          have plain := named.2.1
          have other : first ≠ '∅' := by
            rintro rfl
            revert plain
            decide
          have apart : ('∅' == first) = false := by
            rw [beq_eq_false_iff_ne]
            exact other.symm
          simp [isReservedQueryId, startsWith, message, reservedQueryIdPrefix, List.isPrefixOf,
            apart]

theorem no_trip_few {system verb params : Json} {systemKey : Str} {threshold : Nat}
    {inDomain : Json → Bool}
    (untripped : tripOver rows lead system verb params systemKey threshold inDomain = none) :
    rows.countP (requestMatches lead system verb params systemKey inDomain) + 1 < threshold := by
  rw [List.countP_eq_length_filter]
  unfold tripOver at untripped
  dsimp only at untripped
  split at untripped
  · rename_i few
    exact few
  · cases untripped

theorem no_budget_trip_few (untripped : rejectionBudgetTrip rows lead = none) :
    (rows.countP fun row => inRejectionDomain row && leadOf row == some lead) + 1 <
      rejectionBudget := by
  unfold rejectionBudgetTrip at untripped
  dsimp only at untripped
  split at untripped
  · rename_i few
    exact few
  · cases untripped

theorem no_rejection_few {system verb params : Json} {systemKey : Str}
    (untripped : rejectionGuard rows lead system verb params systemKey = none) :
    (rows.countP fun row => inRejectionDomain row && leadOf row == some lead) + 1 <
      rejectionBudget := by
  unfold rejectionGuard at untripped
  split at untripped
  · cases untripped
  · exact no_budget_trip_few (Option.map_eq_none_iff.mp untripped)

end Domains

section Stored

variable (call : QueryCall) (seq : Nat) (stored : List (Str × Json)) (path : Json)
  (digest receivedAt : Str)

theorem query_row_domains :
    inRepeatDomain (.object (queryRow call seq stored path digest receivedAt)) = repeatCall call ∧
      inRejectionDomain (.object (queryRow call seq stored path digest receivedAt)) =
        rejectionCall call := by
  have queryId : Json.get? "query_id"
      (.object (queryRow call seq stored path digest receivedAt)) =
        some (.string call.queryId) := rfl
  have errorClass : Json.get? "error_class"
      (.object (queryRow call seq stored path digest receivedAt)) =
        some (errorClassForExit call.exitCode) := rfl
  generalize Json.object (queryRow call seq stored path digest receivedAt) = row at *
  constructor
  · simp only [inRepeatDomain, textUnder, queryId, Option.bind_some, textOf, repeatCall]
  · simp only [inRejectionDomain, textUnder, queryId, errorClass, Option.bind_some, textOf,
      rejectionCall]

theorem query_row_request :
    column (.object (queryRow call seq stored path digest receivedAt)) "system" =
        .string call.system ∧
      column (.object (queryRow call seq stored path digest receivedAt)) "verb" =
        .string call.verb ∧
      column (.object (queryRow call seq stored path digest receivedAt)) "params" =
        .object stored := ⟨rfl, rfl, rfl⟩

theorem query_row_key :
    Json.asStr (Json.get? "system_key"
      (.object (queryRow call seq stored path digest receivedAt))) = call.systemKey := rfl

variable {call stored}

theorem query_row_matches (kept : jsonSafeParams call.params = some stored)
    {inDomain : Json → Bool}
    (within : inDomain (.object (queryRow call seq stored path digest receivedAt)) = true) :
    requestMatches call.leadId (.string call.system) (.string call.verb) call.params.json
      call.systemKey inDomain (.object (queryRow call seq stored path digest receivedAt)) = true := by
  have key := request_key_stored kept (.string call.system) (.string call.verb)
  have named := query_row_lead call seq stored path digest receivedAt
  have fingerprint := query_row_key call seq stored path digest receivedAt
  obtain ⟨system, verb, params⟩ := query_row_request call seq stored path digest receivedAt
  generalize Json.object (queryRow call seq stored path digest receivedAt) = row at *
  simp only [requestMatches, within, named, fingerprint, system, verb, params, key,
    beq_self_eq_true, Bool.and_self]

end Stored

end Defender.Investigation
