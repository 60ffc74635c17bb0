import Defender.Investigation.QueryRules
import Defender.Learning.Pitfalls

/-!
# Evidence pointers

A finding cites records by episode-relative pointers. A pointer's path is reduced to plain
components before anything is resolved; a step out of the episode, or out of a world's folder
once it has entered one, makes the pointer resolve to nothing.

A run's two call records are joined by the call id the host wrote. A call is blocked where its
ledger row was refused or faulted, or where its table row is the denial the whole family inherited.
-/

namespace Defender.Learning.Judge

open Defender.Python Defender.Library.OrderedDict
open Defender.Investigation (queryRequestKey deniedQueryId)

abbrev CallRow := Dict Str Json

/-- What the judge's readers raise on a record no writer makes. -/
inductive Raised where
  | typeError
  | valueError
  deriving DecidableEq, Repr

def refusedSource : Str := "refused"

def faultSource : Str := "fault"

def familyRun : Str := "family"

def textUnder (row : CallRow) (key : Str) : Option Str :=
  match row.get? key with
  | some (.string text) => some text
  | _ => none

/-- `call_id_names_run`. -/
def callIdNamesRun (callId : Option Str) (token : Str) : Bool :=
  match callId with
  | none => false
  | some text =>
      let (run, separated, call) := rpartition ['/'] text
      separated && run == token && call ≠ []

/-- `is_inherited`. -/
def isInherited (row : CallRow) (token : Str) : Bool :=
  !callIdNamesRun (textUnder row "call_id") token

/-- `ledger_partner`. -/
def ledgerPartner (row : CallRow) (ledgerRows : List CallRow) (token : Str) : Option CallRow :=
  if callIdNamesRun (textUnder row "call_id") token then
    ledgerRows.find? fun partner => textUnder partner "call_id" = textUnder row "call_id"
  else none

/-- `is_blocked_ledger_row`; a source that is a list or a mapping cannot be looked up. -/
def isBlockedLedgerRow (row : CallRow) : Except Raised Bool :=
  match row.get? "source" with
  | some (.string source) => .ok (source = refusedSource || source = faultSource)
  | some (.array _) => .error .typeError
  | some (.object _) => .error .typeError
  | _ => .ok false

variable (render : Json → Str)

/-- `mapping_key`. -/
def mappingKey (row : CallRow) : Str :=
  queryRequestKey (.string (Pitfalls.strOrEmpty render (row.get? "system")))
    (.string (Pitfalls.strOrEmpty render (row.get? "verb"))) ((row.get? "params").getD .null)

/-- `inherited_denial_key`. -/
def inheritedDenialKey (row : CallRow) (token : Str) : Option Str :=
  if textUnder row "query_id" ≠ some deniedQueryId ∨ isInherited row token = false then none
  else some (mappingKey render row)

/-- `is_blocked_table_row`. -/
def isBlockedTableRow (row : CallRow) (ledgerRows : List CallRow) (token : Str)
    (inheritedDenials : List Str) : Except Raised Bool :=
  match ledgerPartner row ledgerRows token with
  | some partner => isBlockedLedgerRow partner
  | none =>
      match inheritedDenialKey render row token with
      | some key => .ok (inheritedDenials.contains key)
      | none => .ok false

/-- `blocked_call_key`. -/
def blockedCallKey (run : Str) (row : CallRow) : Str × Str := (run, mappingKey render row)

inductive PointerKind where
  | conduct
  | built
  | plan
  | context
  deriving DecidableEq, Repr

def maxPointer : Nat := 1024

def worldsName : Str := "worlds"

def servedName : Str := "served"

def oracleName : Str := "oracle"

def conductLeaves : List Str := ["report.md", "investigation.md"]

def contextLeaves : List Str :=
  ["alert.json", "provenance.json", "run_end.json", "lessons_loaded.jsonl"]

/-- What the pass read of one world. -/
structure WorldFacts where
  token : Str
  ledgerRows : List CallRow
  tableRows : List CallRow
  summaryLeads : List Str

/-- What one call's pointers may resolve into; `readsPlain` says which names the bounded reader
reads as plain files. -/
structure PointerScope where
  readsPlain : Str → Bool
  runFacts : Dict Str WorldFacts
  manifest : Dict Str Json
  outcome : Dict Str Json
  samples : Option (Dict Str Json)
  inheritedDenials : List Str
  servedSystems : List Str

structure Resolution where
  pointer : Str
  kind : PointerKind
  run : Option Str
  blocked : Bool := false
  inheritedOrdinary : Bool := false
  blockedKey : Option (Str × Str) := none
  blockedRow : Option CallRow := none

/-- One written component of a path, after the components it was reduced to so far. -/
def canonicalStep (out : List Str) (part : Str) : Option (List Str) :=
  if part = [] ∨ part = ['.'] then some out
  else if part = ['.', '.'] then
    if out = [] then none
    else if (2 ≤ out.length ∧ out.head? = some worldsName) ∧ out.dropLast.length < 2 then none
    else some out.dropLast
  else some (out ++ [part])

/-- `_canonical_parts`. -/
def canonicalParts (path : Str) : Option (List Str) :=
  ((splitOn '/' path).foldlM canonicalStep []).bind fun out => if out = [] then none else some out

/-- `_row_index`, with the row it names. -/
def rowAt (fragment : Option Str) (rows : List CallRow) : Option CallRow :=
  match fragment with
  | none => none
  | some digits =>
      if digits = [] ∨ digits.all Json.isDigit = false then none
      else rows[Nat.ofDigitChars 10 digits 0]?

def spellPointer (parts : List Str) (fragment : Option Str) : Str :=
  match fragment with
  | none => join ['/'] parts
  | some fragment => join ['/'] parts ++ '#' :: fragment

def parseText (pointer : Str) : Option (List Str × Option Str) :=
  if strip pointer = [] ∨ maxPointer < pointer.length then none
  else
    let (path, hasFragment, fragment) := partition ['#'] pointer
    if startsWith ['/'] path then none
    else
      (canonicalParts path).map fun parts => (parts, if hasFragment then some fragment else none)

/-- `_parse_pointer`. -/
def parsePointer : Json → Option (List Str × Option Str)
  | .string pointer => parseText pointer
  | _ => none

section Classes

def isHexDigit (char : Char) : Bool := char.isDigit || ('a' ≤ char && char ≤ 'f')

def isUuidText (text : Str) : Bool :=
  match splitOn '-' text with
  | [first, second, third, fourth, last] =>
      first.length == 8 && second.length == 4 && third.length == 4 && fourth.length == 4 &&
        last.length == 12 && (first ++ second ++ third ++ fourth ++ last).all isHexDigit
  | _ => false

def worldFolder (parent worldId : Str) : Except Raised Str :=
  if isUuidText worldId then .ok (join ['/'] [parent, worldId]) else .error .valueError

variable (render : Json → Str) (scope : PointerScope)

def runOfToken (token : Str) : Option (Str × WorldFacts) :=
  scope.runFacts.entries.find? fun run => run.2.token = token

def plainFile (pointer name : Str) (kind : PointerKind) (run : Option Str) : Option Resolution :=
  if scope.readsPlain name then some { pointer := pointer, kind := kind, run := run } else none

def tableRowPointer (pointer label : Str) (run : WorldFacts) (row : CallRow) :
    Except Raised (Option Resolution) := do
  let blocked ← isBlockedTableRow render row run.ledgerRows run.token scope.inheritedDenials
  let inherited := isInherited row run.token
  return some {
    pointer := pointer
    kind := .conduct
    run := some label
    blocked := blocked
    inheritedOrdinary := inherited && !blocked
    blockedKey :=
      if blocked then some (blockedCallKey render (if inherited then familyRun else label) row)
      else none
    blockedRow := if blocked then some row else none }

/-- `_world_pointer`. -/
def worldPointer (pointer : Str) (parts : List Str) (fragment : Option Str) :
    Except Raised (Option Resolution) :=
  let worldId := parts.getD 1 []
  let leaf := join ['/'] (parts.drop 2)
  match runOfToken scope worldId with
  | none => .ok none
  | some (label, run) =>
      if leaf = [] then .ok none
      else if conductLeaves.contains leaf then do
        let folder ← worldFolder worldsName worldId
        return plainFile scope pointer (join ['/'] [folder, leaf]) .conduct (some label)
      else if parts.length = 4 ∧ parts.getD 2 [] = "gather_summaries" ∧
          endsWith ".md" (parts.getD 3 []) ∧
          run.summaryLeads.contains ((parts.getD 3 []).dropLast.dropLast.dropLast) then
        .ok (some { pointer := pointer, kind := .conduct, run := some label })
      else if leaf = "executed_queries.jsonl" then
        match rowAt fragment run.tableRows with
        | none => .ok none
        | some row => tableRowPointer render scope pointer label run row
      else if contextLeaves.contains leaf then do
        let folder ← worldFolder worldsName worldId
        return plainFile scope pointer (join ['/'] [folder, leaf]) .context none
      else .ok none

/-- `_served_pointer`. -/
def servedPointer (pointer name : Str) (fragment : Option Str) :
    Except Raised (Option Resolution) :=
  match scope.runFacts.entries.find? fun run => name = run.2.token ++ ".jsonl" with
  | none => .ok none
  | some (label, run) =>
      match rowAt fragment run.ledgerRows with
      | none => .ok none
      | some row => do
          let blocked ← isBlockedLedgerRow row
          return some {
            pointer := pointer
            kind := .conduct
            run := some label
            blocked := blocked
            blockedKey := if blocked then some (blockedCallKey render label row) else none
            blockedRow := if blocked then some row else none }

/-- Whether a number counts as false. -/
def isZero (literal : Str) : Bool :=
  !Json.namedNumbers.contains literal &&
    (literal.takeWhile fun char => char ≠ 'e' && char ≠ 'E').all fun char =>
      !('1' ≤ char && char ≤ '9')

/-- The labels the manifest declares, as a set is made of them. -/
def declaredLabels (worlds : Option Json) : Except Raised (List Str) :=
  match worlds with
  | some (.array worlds) =>
      worlds.foldlM (fun labels world =>
        match world with
        | .object entries =>
            match (Dict.ofList entries).get? "label" with
            | some (.string label) => .ok (labels ++ [label])
            | some (.array _) => .error .typeError
            | some (.object _) => .error .typeError
            | _ => .ok labels
        | _ => .ok labels) []
  | some (.bool true) => .error .typeError
  | some (.number literal) => if isZero literal then .ok [] else .error .typeError
  | _ => .ok []

/-- `_plan_pointer`. -/
def planPointer (pointer : Str) (fragment : Option Str) : Except Raised (Option Resolution) :=
  match fragment with
  | none => .ok none
  | some fragment =>
      if startsWith (worldsName ++ ['/']) fragment then do
        let label := fragment.drop (worldsName.length + 1)
        let declared ← declaredLabels (scope.manifest.get? worldsName)
        return if declared.contains label then
          some { pointer := pointer, kind := .plan, run := some label } else none
      else if fragment ≠ worldsName ∧ scope.manifest.contains fragment then
        .ok (some { pointer := pointer, kind := .plan, run := none })
      else .ok none

def builtPointer (pointer : Str) (parts : List Str) : Except Raised (Option (Option Resolution)) :=
  if parts.length < 3 then .ok none
  else
    match runOfToken scope (parts.getD 1 []) with
    | none => .ok none
    | some (label, _) => do
        let folder ← worldFolder oracleName (parts.getD 1 [])
        return if join ['/'] (parts.take 2) = folder then
          some (plainFile scope pointer (join ['/'] parts) .built (some label)) else none

/-- A record of the episode itself. -/
def episodePointer (pointer head : Str) (fragment : Option Str) :
    Except Raised (Option Resolution) :=
  if head = "family.yaml" then planPointer scope pointer fragment
  else if head = "samples.yaml" then
    match scope.samples, fragment with
    | some samples, some fragment =>
        match samples.get? fragment with
        | some (.object _) => .ok (some { pointer := pointer, kind := .context, run := none })
        | _ => .ok none
    | _, _ => .ok none
  else if head = "outcome.yaml" then
    if fragment.any fun fragment => !scope.outcome.contains fragment then .ok none
    else .ok (some { pointer := pointer, kind := .context, run := none })
  else .ok none

/-- The classes of `_resolves`, tried in turn on a canonical pointer. -/
def resolveParts (pointer : Str) (parts : List Str) (fragment : Option Str) :
    Except Raised (Option Resolution) :=
  let head := parts.headD []
  if head = worldsName ∧ 3 ≤ parts.length then worldPointer render scope pointer parts fragment
  else if head = servedName ∧ parts.length = 2 then
    servedPointer render scope pointer (parts.getD 1 []) fragment
  else do
    match ← builtPointer scope pointer parts with
    | some built => return built
    | none =>
        if parts.length ≠ 1 then return none else episodePointer scope pointer head fragment

def forbiddenChars : List Char := [Char.ofNat 0, '\n', '\r', '*', '?', '~']

/-- Whether a pointer is written with what no archive path holds. -/
def misspelled (pointer : Str) : Bool :=
  pointer.any (forbiddenChars.contains ·) || contains "://" pointer

/-- `_resolves`. -/
def resolves (pointer : Str) (parts : List Str) (fragment : Option Str) :
    Except Raised (Option Resolution) :=
  if misspelled pointer then .ok none
  else resolveParts render scope (spellPointer parts fragment) parts fragment

end Classes

section Assess

variable (render : Json → Str) (scope : PointerScope)

structure Assessment where
  filed : List Json
  resolving : List Resolution
  prohibitedSample : Bool

/-- Whether a parsed pointer names a section of the samples that may not be cited. -/
def prohibited (parts : List Str) (fragment : Option Str) : Bool :=
  parts = ["samples.yaml".toList] &&
    !(fragment.any fun fragment => scope.servedSystems.contains fragment &&
      (match (scope.samples.getD Dict.empty).get? fragment with
        | some (.object entries) =>
            match (Dict.ofList entries).get? "verbs" with
            | some (.object _) => true
            | _ => false
        | _ => false))

/-- What one filed pointer adds to what its finding's pointers say. -/
def assessPointer (found : List Resolution × Bool) (pointer : Json) :
    Except Raised (List Resolution × Bool) :=
  match pointer, parsePointer pointer with
  | .string text, some (parts, fragment) => do
      let resolution ← resolves render scope text parts fragment
      return (found.1 ++ resolution.toList, found.2 || prohibited scope parts fragment)
  | _, _ => .ok found

/-- `assess`. -/
def assess (pointers : List Json) : Except Raised Assessment := do
  let (resolving, prohibited) ← pointers.foldlM (assessPointer render scope) ([], false)
  return { filed := pointers, resolving := resolving, prohibitedSample := prohibited }

end Assess

end Defender.Learning.Judge
