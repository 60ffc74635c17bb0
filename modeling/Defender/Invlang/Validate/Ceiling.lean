import Defender.Invlang.Validate.Structure

/-!
# Ceiling receipts

What an `inconclusive` close owes: rows that point at a call of this run that
failed or came back empty, or at a capability the deployment does not have.

The `:R consultations` rows that measure what preceded the alert: each must be
placed in time, end before the alerted event, and fit the report.
-/

namespace Defender.Invlang

open Defender.Python Defender.Library.Regex Defender.Library.OrderedDict

/-- An instant with its ISO text. -/
structure Moment where
  instant : Int
  isoformat : Str
deriving DecidableEq

/-- What the checks read from the process they run in: the adapters' verbs by
system, `datetime.fromisoformat` with a naive value read as UTC, and the YAML
dumper. -/
class Deployment where
  verbs : Str → Option (List Str)
  fromIsoformat : Str → Option Moment
  dumpRows : List (List (Str × Str)) → Str

def runtimeEvidence : Str := "runtime-evidence"

def reportCloseDelimiter : Str := "</report>"

def utf8Length (text : Str) : Nat := (text.map Char.utf8Size).sum

structure RuntimeEvidenceReceipt where
  resolvedByLead : Str
  anchorKind : Str
  groundingKind : Str
  anchorId : Str
  result : Str
  reasoning : Str
  window : Str
  windowStart : Moment
  windowEnd : Moment
deriving DecidableEq

def maxRuntimeEvidenceBodyBytes : Nat := 2048

def runtimeEvidenceLine (receipt : RuntimeEvidenceReceipt) : Str :=
  message ["\n", receipt.anchorKind, " (", receipt.groundingKind, ", ", receipt.anchorId, ", ",
    receipt.resolvedByLead, ", ", receipt.window, "): ", receipt.result,
    if receipt.reasoning = [] then [] else message [" — ", receipt.reasoning]]

def runtimeEvidenceBlock (receipts : List RuntimeEvidenceReceipt) : Str :=
  receipts.flatMap runtimeEvidenceLine

def renderedBaselineCells : List Str :=
  ["anchor_kind", "grounding_kind", "anchor_id", "resolved_by_lead", "effective_window", "result",
    "reasoning"]

def delimiterBearingCell (row : ResolutionRow) (keys : List Str) : Option Str :=
  keys.find? fun key => contains reportCloseDelimiter (rowCell row key)

section Windows

variable [Deployment]

def parseIsoUtc (raw : Str) : Option Moment :=
  Deployment.fromIsoformat (replace ['Z'] ['+', '0', '0', ':', '0', '0'] raw)

def parseWindow (text : Str) : Option (Moment × Moment) :=
  let (start, found, stop) := partition ['/'] text
  if !found then none
  else
    match parseIsoUtc (strip start), parseIsoUtc (strip stop) with
    | some first, some last => some (first, last)
    | _, _ => none

def earlierMoment (held : Option Moment) (moment : Moment) : Option Moment :=
  match held with
  | none => some moment
  | some first => if moment.instant < first.instant then some moment else some first

/-- When the explained activity happened: the earliest `when` of a prologue edge. -/
def alertedMoment (companion : CompanionBody) : Option Moment :=
  ((prologueEdges companion).filterMap fun edge =>
    parseIsoUtc (optionCell edge.whenTimestamp)).foldl earlierMoment none

structure BaselineWalk where
  receipts : List RuntimeEvidenceReceipt
  errors : List Str
  seen : List (List Str)

variable [UnicodeDatabase]

def baselineLabel (row : ResolutionRow) : Str :=
  let anchor := rowCell row "anchor_id"
  message ["lead ", orUnknown (rowCell row "resolved_by_lead"), ": `:R consultations` baseline ",
    if anchor = [] then "<no anchor_id>" else anchor]

def placeBaseline (alerted : Option Moment) (row : ResolutionRow) :
    Except Str RuntimeEvidenceReceipt :=
  let place := baselineLabel row
  let window := rowCell row "effective_window"
  match parseWindow window with
  | none => .error (message [place, ": `effective_window` ", reprText window, " is not an ",
      "`<start>/<end>` pair of ISO-8601 instants — a baseline that cannot be placed ",
      "in time cannot be shown to PRECEDE the alerted event, which is the whole of ",
      "what makes it context rather than the incident describing itself"])
  | some (start, stop) =>
      if stop.instant < start.instant then
        .error (message [place, ": `effective_window` ", reprText window,
          " ends before it begins — an inverted ",
          "span measures nothing, and read either way round it would silently change ",
          "which endpoint the guard below holds against the alert"])
      else
        match alerted with
        | none => .error (message [place, ": this document records no parseable `when` on any ",
            "`:E prologue.edges` row, so the baseline cannot be shown to PRECEDE the ",
            "alerted event — which is the whole of what makes it context rather than the ",
            "incident describing itself. Record the alerted edge's timestamp, or drop the ",
            "`", runtimeEvidence, "` consultation"])
        | some moment =>
            if moment.instant ≤ stop.instant then
              .error (message [place, ": `effective_window` ", reprText window,
                " does not end before the alerted event ", "at ", moment.isoformat, " — a `",
                runtimeEvidence, "` consultation is evidence ",
                "about what PRECEDED the alert, and a window that reaches it (or past it) is ",
                "partly made of the thing being explained. Re-measure over a window that ",
                "closes before the alerted event"])
            else .ok
              { resolvedByLead := rowCell row "resolved_by_lead"
                anchorKind := rowCell row "anchor_kind"
                groundingKind := rowCell row "grounding_kind"
                anchorId := rowCell row "anchor_id"
                result := rowCell row "result"
                reasoning := rowCell row "reasoning"
                window := window
                windowStart := start
                windowEnd := stop }

def BaselineWalk.step (alerted : Option Moment) (walk : BaselineWalk) (row : ResolutionRow) :
    BaselineWalk :=
  let identity := renderedBaselineCells.map (rowCell row)
  if rowCell row "anchor_kind" ≠ runtimeEvidence then walk
  else if identity ∈ walk.seen then
    { walk with errors := walk.errors ++ [message [baselineLabel row,
      ": repeats an earlier baseline verbatim — a second copy measures ",
      "nothing further and renders the same line into the committed report twice. ",
      "Write one row per measurement"]] }
  else
    let noted := { walk with seen := identity :: walk.seen }
    match delimiterBearingCell row renderedBaselineCells with
    | some cell => { noted with errors := walk.errors ++ [message [baselineLabel row, ": `", cell,
        "` carries the literal ", reprText reportCloseDelimiter, ", which ",
        "the committed report may not carry — this text rides into `report.md`'s body, ",
        "and a close that renders it is refused with no way left to repair the row. ",
        "Rewrite the cell without it"]] }
    | none =>
        match placeBaseline alerted row with
        | .error reason => { noted with errors := walk.errors ++ [reason] }
        | .ok receipt => { noted with receipts := walk.receipts ++ [receipt] }

def evidenceOverBoundReason (bytes : Nat) : Str :=
  message ["the accumulated `", runtimeEvidence, "` consultations render ", decimalText bytes,
    " bytes of `report.md` body, over the ", decimalText maxRuntimeEvidenceBodyBytes,
    "-byte bound — state the recurrence and its ", "scope, not every occurrence in full"]

def walkRuntimeEvidenceRows (companion : CompanionBody) : BaselineWalk :=
  let walk := (iterAnchorConsultations companion).foldl
    (BaselineWalk.step (alertedMoment companion)) ⟨[], [], []⟩
  let bytes := utf8Length (runtimeEvidenceBlock walk.receipts)
  if maxRuntimeEvidenceBodyBytes < bytes then
    { walk with errors := walk.errors ++ [evidenceOverBoundReason bytes] }
  else walk

def checkRuntimeEvidenceWindows (companion : CompanionBody) : List Str :=
  (walkRuntimeEvidenceRows companion).errors

end Windows

/-- Whether a lead's own retrieval returned anything. -/
def leadRetrievalCameBack (lead : FindingRecord) : Bool :=
  lead.outcome.observations.isSome || !lead.outcome.attributeUpdates.isEmpty

def leadById (companion : CompanionBody) (id : Str) : Option FindingRecord :=
  companion.findings.find? fun lead => lead.id = id

def rowRendersAsEmptyMarker (row : Str) : Bool := isBlank row || isConcludeEmptyMarker row

def rowStatesSomething (row : Str) : Bool := !isBlank row && !isConcludeEmptyMarker row

def ceilingQueryFailed : Str := "query-failed"

def ceilingQueryEmpty : Str := "query-empty"

def ceilingNothingToTry : Str := "nothing-to-try"

def ceilingStates : List Str := [ceilingQueryFailed, ceilingQueryEmpty, ceilingNothingToTry]

def leadAnchoredStates : List Str := [ceilingQueryFailed, ceilingQueryEmpty]

def leadRefRe : Pattern := .sequence [.literal ['l', '-'], alnumRun]

structure CeilingReceipt where
  state : Str
  ref : Option Str
  cap : Option Str
  note : Str
  raw : Str
deriving DecidableEq

/-- Groups: 1 the fields, 2 the note. -/
def receiptRowRe : Pattern :=
  .sequence [.group 1 (.star true (.sequence [nonSpaceRun, .char (· == '='), nonSpaceRun,
      someSpace])), .literal ['n', 'o', 't', 'e', '='], .group 2 lineRest, .endOfText]

/-- Groups: 1 the name, 2 the value. -/
def receiptFieldRe : Pattern :=
  .sequence [.group 1 nonSpaceRun, .char (· == '='), .group 2 nonSpaceRun]

def receiptFieldNames : List Str := ["ref", "state", "cap"]

def receiptFields (text : Str) : Dict Str Str :=
  Dict.ofList ((receiptFieldRe.findAll text).map fun found =>
    ((found.cursor.group 1).getD [], (found.cursor.group 2).getD []))

/-- One row, `none` where it is not shaped like a receipt. -/
def parseCeilingRow (row : Str) : Option CeilingReceipt :=
  (receiptRowRe.matchPrefix (strip row)).bind fun line =>
    let fields := receiptFields ((line.group 1).getD [])
    if fields.keys.all fun name => receiptFieldNames.contains name then
      (fields.get? "state").map fun state =>
        ⟨state, fields.get? "ref", fields.get? "cap", strip ((line.group 2).getD []), row⟩
    else none

def isSystemChar (char : Char) : Bool := isLower char || char.isDigit

/-- `[a-z0-9][a-z0-9-]*` on the whole text. -/
def matchesSystemPattern (text : Str) : Bool :=
  match text with
  | [] => false
  | first :: rest => isSystemChar first && rest.all fun char => isSystemChar char || char == '-'

def systemMaxLen : Nat := 64

def isSystemName (name : Str) : Bool := name.length ≤ systemMaxLen && matchesSystemPattern name

def capIsIdentifierShaped (cap : Str) : Bool :=
  let (system, found, verb) := partition ['.'] cap
  isSystemName system && (!found || matchesSystemPattern verb)

def maxCeilingFrontmatterBytes : Nat := 300

def maxCeilingNoteBytes : Nat := 2048

def ceilingNoteLine (receipt : CeilingReceipt) : Str :=
  message ["\nceiling_test (", receipt.state, ", ",
    if receipt.ref.getD [] ≠ [] then receipt.ref.getD [] else receipt.cap.getD "None",
    "): ", receipt.note]

def ceilingNoteBlock (receipts : List CeilingReceipt) : Str :=
  (receipts.filter fun receipt => receipt.note ≠ []).flatMap ceilingNoteLine

section Receipts

variable [UnicodeDatabase]

def receiptLabel (receipt : CeilingReceipt) : Str :=
  message ["`ceiling_test` row ", reprText receipt.raw, ": "]

def leadAnchoredReceiptError (companion : CompanionBody) (receipt : CeilingReceipt) :
    Option Str :=
  let row := receiptLabel receipt
  let ref := receipt.ref.getD []
  if receipt.cap.isSome then
    some (message [row, "`state=", receipt.state, "` takes `ref=`, ",
      "not `cap=` — a call that was actually dispatched points at the lead that ", "made it"])
  else if ref = [] then
    some (message [row, "`state=", receipt.state, "` needs ",
      "`ref=<lead-id>` naming the `:L findings` row that made the attempt"])
  else if !leadRefRe.fullMatches ref then
    some (message [row, "`ref=", ref, "` is not shaped like a ",
      "`:L findings` lead id (`l-<alphanumeric>`)"])
  else
    match leadById companion ref with
    | none => some (message [row, "`ref=", ref, "` is not a lead in ", "`:L findings`"])
    | some lead =>
        let errored := lead.outcome.failureReason.getD [] ≠ []
        if leadRetrievalCameBack lead then
          some (message [row, "lead ", ref, " actually retrieved ",
            "something (an observation, an updated attribute) — a receipt cannot claim a ",
            "gap for a call that came back with data. An analytical CONCLUSION about the ",
            "lead (an authz/anchor/impact resolution) does not by itself disqualify it — ",
            "only retrieved data does; see `_lead_retrieval_came_back`"])
        else if receipt.state = ceilingQueryFailed ∧ !errored then
          some (message [row, "`state=query-failed` but lead ", ref,
            " records no `fail_reason` in `:L findings` — write ",
            "`state=query-empty` for a call that ran clean and came back with nothing, ",
            "or add the lead's `fail_reason`"])
        else if receipt.state = ceilingQueryEmpty ∧ errored then
          some (message [row, "`state=query-empty` but lead ", ref,
            " records a `fail_reason` in `:L findings` — write ",
            "`state=query-failed` for a call that errored"])
        else none

variable [Deployment]

def capabilityExists (cap : Str) : Bool :=
  let (system, found, verb) := partition ['.'] cap
  if found then ((Deployment.verbs system).getD []).contains verb
  else (Deployment.verbs cap).isSome

def nothingToTryReceiptError (receipt : CeilingReceipt) : Option Str :=
  let row := receiptLabel receipt
  let cap := receipt.cap.getD []
  if receipt.ref.isSome then
    some (message [row, "`state=nothing-to-try` takes `cap=`, not ",
      "`ref=` — nothing was dispatched, so there is no lead to point at"])
  else if cap = [] then
    some (message [row, "`state=nothing-to-try` needs ",
      "`cap=<system>` or `cap=<system.verb>` naming the missing capability"])
  else if !capIsIdentifierShaped cap then
    some (message [row, "`cap=", cap, "` is not shaped like ",
      "`<system>` or `<system.verb>` — lowercase letters, digits and hyphens only, one ",
      "optional `.verb` segment. `cap` is checked by ABSENCE from the closed roster, ",
      "which cannot constrain an arbitrary string on its own; rewrite it as the ",
      "capability's actual system[.verb] name"])
  else if capabilityExists cap then
    some (message [row, "`cap=", cap, "` names a capability this ",
      "deployment DOES provide — `nothing-to-try` is for a capability that does not ",
      "exist at all. If the call was made and failed or came back empty, use ",
      "`state=query-failed`/`state=query-empty` with `ref=<lead-id>` instead"])
  else none

def ceilingReceiptError (companion : CompanionBody) (receipt : CeilingReceipt) : Option Str :=
  let row := receiptLabel receipt
  if !ceilingStates.contains receipt.state then
    some (message [row, "`state=", receipt.state, "` is not one of ", "(",
      join ", " (ceilingStates.map reprText), ")"])
  else if contains reportCloseDelimiter receipt.note then
    some (message [row, "the `note` carries the literal ", reprText reportCloseDelimiter,
      ", which the committed report may not carry — ", "rewrite the note without it"])
  else if leadAnchoredStates.contains receipt.state then
    leadAnchoredReceiptError companion receipt
  else nothingToTryReceiptError receipt

structure CeilingWalk where
  paying : List CeilingReceipt
  errors : List Str
  seen : List (Str × Str)

def CeilingWalk.step (companion : CompanionBody) (walk : CeilingWalk) (row : Str) :
    CeilingWalk :=
  if rowRendersAsEmptyMarker row then walk
  else
    match parseCeilingRow row with
    | none => walk
    | some receipt =>
        let identity := (receipt.state, receipt.ref.getD (receipt.cap.getD []))
        if identity ∈ walk.seen then
          { walk with errors := walk.errors ++ [message ["`ceiling_test` row ", reprText row,
            " repeats an earlier gap — each row must name a ",
            "DISTINCT gap; repetition does not pay for a second one"]] }
        else
          let noted := { walk with seen := identity :: walk.seen }
          match ceilingReceiptError companion receipt with
          | some problem => { noted with errors := walk.errors ++ [problem] }
          | none => { noted with paying := walk.paying ++ [receipt] }

def ceilingRows (companion : CompanionBody) : List Str :=
  (companion.conclude.map Conclude.ceilingTest).getD []

def walkCeilingRows (companion : CompanionBody) : CeilingWalk :=
  (ceilingRows companion).foldl (CeilingWalk.step companion) ⟨[], [], []⟩

def ceilingTestBlock (receipts : List CeilingReceipt) : Str :=
  if receipts = [] then []
  else Deployment.dumpRows (receipts.map fun receipt =>
    (("state" : Str), receipt.state) :: (receipt.ref.map fun ref => (("ref" : Str), ref)).toList ++
      (receipt.cap.map fun cap => (("cap" : Str), cap)).toList)

def inconclusivePrefix : Str := "disposition inconclusive blocked: "

def checkInconclusiveGating (companion : CompanionBody) : List Str :=
  let walk := walkCeilingRows companion
  let totalBytes := utf8Length (ceilingTestBlock walk.paying)
  let noteBytes := utf8Length (ceilingNoteBlock walk.paying)
  walk.errors.map (inconclusivePrefix ++ ·) ++
    (if maxCeilingFrontmatterBytes < totalBytes then
      [message [inconclusivePrefix, "the accumulated `ceiling_test` receipts are ",
        decimalText totalBytes, " bytes, over the ", decimalText maxCeilingFrontmatterBytes,
        "-byte bound — ", "name fewer, more specific gaps rather than every one in full"]]
    else []) ++
    (if maxCeilingNoteBytes < noteBytes then
      [message [inconclusivePrefix, "the accumulated `ceiling_test` notes render ",
        decimalText noteBytes, " bytes of `report.md` body, over the ",
        decimalText maxCeilingNoteBytes, "-byte ", "bound — shorten the ",
        "notes; they are free text for the human analyst, never required to make a ",
        "receipt pay"]]
    else []) ++
    if walk.paying = [] then
      [message [inconclusivePrefix, "no `ceiling_test` row is a receipt that pays ",
        "— write `state=query-failed ref=<lead-id> note=<text>` or ",
        "`state=query-empty ref=<lead-id> note=<text>` naming a `:L findings` lead this ",
        "run dispatched that failed or came back empty, or `state=nothing-to-try ",
        "cap=<system[.verb]> note=<text>` naming a capability this deployment does not ",
        "provide."]]
    else []

end Receipts

end Defender.Invlang
