import Defender.Invlang.Validate.AttrUpdateKeys
import Defender.Invlang.Validate.Ceiling

/-!
# What a disposition costs

The price of each priced disposition, the grounding of `:R authz` rows, the
structure of a screen, and what the close must enumerate.

Which contracts on live hypotheses no `:R authz` row discharges. A row names
only the contract id, so a shared id is told apart by the anchor kind.
-/

namespace Defender.Invlang

open Defender.Python Defender.Library.Regex Defender.Library.OrderedDict

def contractId (contract : AuthorizationContract) : Str := cellText contract.id

def contractAnchorKind (contract : AuthorizationContract) : Str := cellText contract.anchorKind

def rowAnchorKind (row : ResolutionRow) : Str := rowCell row "anchor_kind"

def fulfilledContract (row : ResolutionRow) : Str := rowCell row "fulfills_contract"

/-- A contract declaration: the hypothesis and the anchor kind it asks about. -/
structure Declarer where
  hypothesis : Str
  anchorKind : Str
deriving DecidableEq

abbrev DeclarerIndex := Dict Str (List Declarer)

def DeclarerIndex.of (index : DeclarerIndex) (id : Str) : List Declarer := (index.get? id).getD []

def declarersByContractId (companion : CompanionBody) : DeclarerIndex :=
  ((allHypotheses companion).entries.flatMap fun entry =>
    (entry.2.authorizationContract.filter fun contract => contractId contract ≠ []).map
      fun contract => (contractId contract, (⟨entry.1, contractAnchorKind contract⟩ : Declarer))
    ).foldl (fun held entry => held.modify entry.1 [] (· ++ [entry.2])) Dict.empty

/-- What a `:R authz` row says of the contract it fulfills. -/
structure AuthzVerdict where
  verdict : Str
  anchorKind : Str
  citesPastCase : Bool
deriving DecidableEq

def authzVerdicts (companion : CompanionBody) : Dict Str (List AuthzVerdict) :=
  (iterAuthzResolutions companion).foldl (fun held row =>
    if fulfilledContract row = [] then held
    else held.modify (fulfilledContract row) []
      (· ++ [⟨(rowText row "verdict").getD "indeterminate", rowAnchorKind row,
        rowCell row "cites_past_case" ≠ []⟩])) Dict.empty

section Outstanding

variable [UnicodeDatabase]

def contractLabel (id hid : Str) : Str :=
  message ["disposition benign blocked: authz contract ", id, " on live hypothesis ", hid]

def twinContractReason (id hid anchor : Str) (twins : List Str) : Str :=
  message [contractLabel id hid, " shares BOTH its id and its anchor kind ", reprText anchor,
    " with a contract ", "on ", join ", " twins,
    " — a `:R authz` row names only the contract it ",
    "fulfills, so no row can be attributed to this one and none discharges ",
    "it; number `ac*` across the document, not per hypothesis"]

def unansweredKindReason (id hid anchor : Str) (competing : List Str) : Str :=
  message [contractLabel id hid, " asks an ", reprText anchor, " question, and ", id,
    " is also declared by ", join ", " (sorted competing), " — so only a `:R authz` row ",
    "carrying anchor kind ", reprText anchor, " discharges it, and the document has none"]

def unfulfilledReason (id hid : Str) : Str :=
  message [contractLabel id hid, " resolved 'no fulfilling :R authz ",
    "row', not 'authorized' — benign requires every contract ", "authorized"]

def notAuthorizedReason (id hid verdict : Str) : Str :=
  message [contractLabel id hid, " resolved ", reprText verdict, ", not 'authorized' ",
    "— benign requires every contract authorized"]

def pastCasesOnlyReason (id hid : Str) : Str :=
  message [contractLabel id hid, " is ",
    "authorized only by rows citing a past case (`cites_past_case`) — a past case is an earlier ",
    "run's verdict, and benign cannot rest on past cases alone (rule #27). Resolve ", id,
    " on an authored record too (an iam-policy, a change-mgmt hit, a ",
    "tacit-knowledge registry entry), or leave it `indeterminate`"]

def attributedRowsError (id hid : Str) (rows : List AuthzVerdict) : Option Str :=
  if rows = [] then some (unfulfilledReason id hid)
  else
    match rows.find? fun row => row.verdict ≠ ("authorized" : Str) with
    | some row => some (notAuthorizedReason id hid row.verdict)
    | none => if rows.all AuthzVerdict.citesPastCase then some (pastCasesOnlyReason id hid) else none

/-- Why one contract on a live hypothesis does not close benign. -/
def authzContractError (declarers : DeclarerIndex) (verdicts : Dict Str (List AuthzVerdict))
    (hid : Str) (contract : AuthorizationContract) : Option Str :=
  let id := orUnknown (contractId contract)
  let anchor := contractAnchorKind contract
  let competing := (declarers.of id).filter fun declarer => declarer.hypothesis ≠ hid
  let candidates := (verdicts.get? id).getD []
  if competing = [] then attributedRowsError id hid candidates
  else
    let twins := sorted ((competing.filter fun declarer => declarer.anchorKind = anchor).map
      Declarer.hypothesis)
    if twins ≠ [] then some (twinContractReason id hid anchor twins)
    else
      let rows := candidates.filter fun row => row.anchorKind = anchor
      if rows = [] then
        some (unansweredKindReason id hid anchor (competing.map Declarer.hypothesis))
      else attributedRowsError id hid rows

structure OutstandingContract where
  hypothesis : Str
  contract : AuthorizationContract
  why : Str

def outstandingAuthzContracts (companion : CompanionBody) : List OutstandingContract :=
  let declarers := declarersByContractId companion
  let verdicts := authzVerdicts companion
  (sorted (liveHypothesisIds companion)).flatMap fun hid =>
    (((allHypotheses companion).get? hid).map
      HypothesisRecord.authorizationContract).getD [] |>.filterMap fun contract =>
        (authzContractError declarers verdicts hid contract).map fun why => ⟨hid, contract, why⟩

def checkBenignAuthz (companion : CompanionBody) : List Str :=
  (outstandingAuthzContracts companion).map OutstandingContract.why

end Outstanding

def tacitKnowledge : Str := "tacit-knowledge"

def telemetryBaseline : Str := "telemetry-baseline"

def authzAuthorized : Str := "authorized"

def authzIndeterminate : Str := "indeterminate"

def basisExhausted : Str := "exhausted"

def basisDefault : Str := "retry"

def leadReturnedAResult (lead : FindingRecord) : Bool :=
  !lead.resolutions.isEmpty || { lead.outcome with failureReason := none } ≠ LeadOutcome.empty

def hexRun (count : Nat) (text : Str) : Bool :=
  text.length == count && text.all fun char => char.isDigit || ('a' ≤ char && char ≤ 'f')

/-- Canonical lower-case UUID text, as a run id must be. -/
def isRunId (text : Str) : Bool :=
  match splitOn '-' text with
  | [first, second, third, fourth, fifth] =>
      hexRun 8 first && hexRun 4 second && hexRun 4 third && hexRun 4 fourth && hexRun 12 fifth
  | _ => false

section Prices

variable [UnicodeDatabase]

def stripZeroWidth (text : Str) : Str :=
  text.filter fun char => isSpace char || !UnicodeDatabase.invisible char

def renderedDisposition (value : Option Str) : Option Str :=
  value.bind fun text =>
    let candidate := strip (stripZeroWidth text)
    if Vocab.disposition.contains candidate then some candidate else none

def falsePositivePrefix : Str := "disposition false-positive blocked: "

/-- What the `entity_check` lead has to have done. -/
def entityCheckErrors (companion : CompanionBody) (id : Str) : List Str :=
  match leadById companion id with
  | none => [message [falsePositivePrefix, "`entity_check` names ", reprText id, ", ",
      "which is not a lead in `:L findings`"]]
  | some lead =>
      let named := (prologueVertices companion).map VertexRecord.id
      (if leadReturnedAResult lead then [] else
        [message [falsePositivePrefix, "`entity_check` lead ", id, " ",
          "committed no result — a lead that was planned and never resolved, or ",
          "whose only outcome is a `fail_reason`, did not test anything"]]) ++
      if lead.target.any (named.contains ·) then [] else
        [message [falsePositivePrefix, "`entity_check` lead ", id, " ", "targets ",
          reprOption lead.target, ", which the prologue does not carry — the check has ",
          "to be against an entity the ALERT named, not one the refutation ", "introduced"]]

def checkFalsePositiveGating (companion : CompanionBody) : List Str :=
  let stated := (concludeScalar companion .detectionNotes).any rowStatesSomething
  let entity := strip ((concludeScalar companion .entityCheck).getD [])
  (if stated then [] else
    [message [falsePositivePrefix, "no `detection_notes` row — the ",
      "close rests on a claim about the rule, so the defect has to be stated"]]) ++
  if entity = [] then
    [message [falsePositivePrefix, "no `entity_check` row — name the ",
      "`:L findings` lead that tested the alerted entity for suspicion ",
      "independent of the alert's claim, or conclude in another vocabulary"]]
  else entityCheckErrors companion entity

def checkBenignGrounding (companion : CompanionBody) : List Str :=
  if prologueVertices companion ≠ [] then [] else
    [message ["disposition benign blocked: no `:V prologue.vertices` row — benign says the ",
      "alerted activity was accounted for, so the log has to name the entity the ",
      "alert was about. An `investigation.md` that records no vertex records no ",
      "investigation; conclude `inconclusive` instead."]]

/-- The outcome that opens a registry lookup's `result`. -/
def lookupOutcome (row : ResolutionRow) : Str :=
  let (head, found, _) := partition [':'] (rowCell row "result")
  let token := lower (strip head)
  if found && Vocab.tacitLookupOutcomes.contains token then token else []

def lookupOutcomeError (row : ResolutionRow) : Option Str :=
  let lead := rowCell row "resolved_by_lead"
  let place := message ["lead ", orUnknown lead, ": `:R consultations` ", "`", tacitKnowledge,
    "` row"]
  let outcome := lookupOutcome row
  let cited := rowCell row "anchor_id"
  if rowCell row "anchor_kind" ≠ tacitKnowledge then none
  else if outcome = [] then
    some (message [place, ": `result` ", reprText (rowCell row "result"), " does not open with ",
      "`", join "`/`" Vocab.tacitLookupOutcomes, "` — a registry lookup came back ",
      "with an entry or it did not (`enum consultation.lookup_outcome`), and an ",
      "authorization citing this row is checked against WHICH. Write ",
      "`result=\"hit: <what the entry covers>\"` or ",
      "`result=\"miss: <what nothing covered>\"`"])
  else if outcome = ("hit" : Str) ∧ cited = [] then
    some (message [place, ": `result` records a hit and the row names no `anchor_id` — a hit came ",
      "back holding an entry, and its id is what a `:R authz` row cites. Name the ",
      "entry, or record the lookup as a miss"])
  else if outcome = ("miss" : Str) ∧ cited ≠ [] then
    some (message [place, ": `result` records a miss and the row names `anchor_id` ",
      reprText cited, " — a ",
      "lookup that came back empty has no entry to name, and an id written beside a ",
      "recorded miss is a citation waiting to be written. Drop the `anchor_id`, or ",
      "record the outcome as a hit if the entry really came back"])
  else none

def checkTacitLookupOutcomes (companion : CompanionBody) : List Str :=
  (iterAnchorConsultations companion).filterMap lookupOutcomeError

/-- The registry entries a lead recorded coming back with. -/
def recordedLookupIds (companion : CompanionBody) (lead : Str) : List Str :=
  ((iterAnchorConsultations companion).filter fun row =>
    rowCell row "anchor_kind" = tacitKnowledge ∧ rowCell row "resolved_by_lead" = lead ∧
      lookupOutcome row = ("hit" : Str) ∧ rowCell row "anchor_id" ≠ []).map
        fun row => rowCell row "anchor_id"

def authzRowLabel (row : ResolutionRow) : Str :=
  message ["`:R authz` row for contract ", orUnknown (fulfilledContract row)]

def registryCitationError (companion : CompanionBody) (row : ResolutionRow) : Option Str :=
  let place := authzRowLabel row
  let cited := rowCell row "anchor_id"
  let lead := rowCell row "resolved_by_lead"
  let leadText : Str := if lead = [] then "<none>" else lead
  let recorded := sorted (dedup (recordedLookupIds companion lead))
  if cited = [] then
    if rowCell row "verdict" ≠ authzAuthorized then none
    else some (message [place, ": `verdict ", authzAuthorized, "` on an `anchor_kind ",
      tacitKnowledge, "` row ",
      "that names no `anchor_id`. The registry is a human-authored file, so the verdict ",
      "is only as good as the entry behind it — and an optional column left blank is the ",
      "whole receipt skipped, not a receipt paid. Cite the entry id lead ", leadText,
      " recorded coming back with (its own `:R consultations` ",
      "`result=\"hit: ...\"` row), or resolve `indeterminate`"])
  else if recorded.contains cited then none
  else some (message [place, ": cites registry entry ", reprText cited, ", which lead ", leadText,
    " never ", "recorded coming back with. An `", tacitKnowledge,
    "` authorization is only as good as ",
    "the lookup behind it, so the lead named by `resolved_by` has to have recorded the ",
    "matching entry as its own `:R consultations` outcome first (`anchor_kind ",
    tacitKnowledge, "`, `anchor_id ", cited, "`, `result=\"hit: ...\"`). That lead recorded ",
    if recorded = [] then "no entry at all" else reprList recorded,
    " — a lookup that came back empty records ",
    "`result=\"miss: ...\"` and no `anchor_id`, and there is then nothing for a citation ",
    "to equal; resolve `indeterminate` instead"])

def authzRowGroundingError (companion : CompanionBody) (row : ResolutionRow) : Option Str :=
  let place := authzRowLabel row
  let cites := rowCell row "cites_past_case"
  let grounding := foldedGrounding (rowCell row "grounding_kind")
  if cites ≠ [] ∧ !isRunId cites then
    some (message [place, ": `cites_past_case ", cites,
      "` is not a run id — the cell names the earlier ",
      "run whose verdict this row leans on, as the agent tag on its comment spells it ",
      "(`[defender agent comment, run <run id>]`)"])
  else if cites = [] ∧ grounding = pastCase then
    some (message [place, ": `grounding ", pastCase,
      "` with no `cites_past_case` — a past case names ",
      "the run it cites. Fill `cites_past_case <run id>` from the tag on the comment ",
      "you are leaning on"])
  else if grounding = telemetryBaseline then
    some (message [place, ": `grounding ", telemetryBaseline,
      "` — a telemetry baseline is what the ",
      "estate HAS been doing, not what it is permitted to do, so it grounds a ",
      "`:R consultations` row and never an authorization. Record the recurrence as a ",
      "consultation (`anchor_kind ", runtimeEvidence, "`, `grounding ", telemetryBaseline,
      "`) and resolve this contract on an authored record — an ", "`", tacitKnowledge,
      "` registry entry, an iam-policy or a change-mgmt hit — or ", "`indeterminate`"])
  else if rowCell row "anchor_kind" = runtimeEvidence then
    some (message [place, ": `anchor_kind ", runtimeEvidence,
      "` — that kind exists so a BASELINE has ",
      "one, and a baseline is context rather than a verdict. `:R consultations` is the ",
      "bucket it belongs in; its rows carry no `fulfills` cell precisely because they ",
      "cannot discharge a contract"])
  else if rowCell row "anchor_kind" ≠ tacitKnowledge then none
  else registryCitationError companion row

def checkAuthzRowGrounding (companion : CompanionBody) : List Str :=
  (iterAuthzResolutions companion).filterMap (authzRowGroundingError companion)

def checkBenignGating (companion : CompanionBody) : List Str :=
  checkBenignGrounding companion ++ checkBenignOpenSlots companion ++
    checkBenignAuthz companion ++ checkAuthzRowGrounding companion

/-- The anchor kind an exhaustion claim is checked against: the contract's own,
the row's where several kinds share the id. -/
def contractRowKind (companion : CompanionBody) (row : ResolutionRow) : Str :=
  let rowKind := rowCell row "anchor_kind"
  match dedup (((declarersByContractId companion).of (fulfilledContract row)).map
      Declarer.anchorKind) with
  | [kind] => kind
  | _ => rowKind

def exhaustedReceiptError (companion : CompanionBody) (row : ResolutionRow) : Option Str :=
  let id := rowCell row "resolved_by_lead"
  let place := message [authzRowLabel row, ": ", "`basis=", basisExhausted, "`"]
  match (if id = [] then none else leadById companion id) with
  | none => some (message [place, " is resolved by ", if id = [] then "<none>" else id,
      ", which `:L findings` does not ",
      "declare — the claim that every applicable registry was queried has to point at ",
      "the lead that queried them"])
  | some lead =>
      if !leadRetrievalCameBack lead then
        some (message [place, " rests on lead ", id,
          ", whose own retrieval came back with nothing this ",
          "run — no observation, no `:R attr_updates` row. A lead that was planned and ",
          "never dispatched cannot show that anything was asked, so write `basis=",
          basisDefault, "` (the contract has not been worked yet) or point the row at the ",
          "lead that made the calls"])
      else
        let kind := contractRowKind companion row
        let wentTo := optionCell lead.queryDetails.system
        match Dict.lookup kind Vocab.anchorKindSystems with
        | none => none
        | some wanted =>
            if wentTo = wanted then none
            else some (message [place, " on an ", reprText kind, " contract is resolved by lead ",
              id, ", whose own ", "`:L findings` row says it queried ",
              reprText (if wentTo = [] then "<no system>" else wentTo),
              " — the kind is answered ", "by the ", reprText wanted,
              " system, and a lead that never went there cannot have exhausted it. ",
              "Dispatch a lead against ", wanted, ", or write `basis=", basisDefault, "`"])

def authzBasisErrors (companion : CompanionBody) (row : ResolutionRow) : List Str :=
  let basis := rowCell row "basis"
  let verdict := rowCell row "verdict"
  let place := authzRowLabel row
  if basis = [] then []
  else if verdict ≠ authzIndeterminate then
    [message [place, ": `basis=", basis, "` on `verdict ",
      if verdict = [] then "<none>" else verdict, "` — the cell says ",
      "whether an UNSETTLED contract is worth another retrieval loop, so it is ",
      "defined on `verdict ", authzIndeterminate, "` and on nothing else. A settled ",
      "verdict has no loop left to price; drop the cell"]]
  else if !Vocab.authzIndetBasis.contains basis then
    [message [place, ": basis ", reprText basis, " is not one of ",
      join ", " Vocab.authzIndetBasis, " (`enum authz.basis`) — the cell says ",
      "whether an unsettled contract is worth another retrieval loop, and an ",
      "absent cell already reads as ", reprText basisDefault]]
  else if basis ≠ basisExhausted then []
  else (exhaustedReceiptError companion row).toList

def checkAuthzBasis (companion : CompanionBody) : List Str :=
  (iterAuthzResolutions companion).flatMap (authzBasisErrors companion)

section Gates

variable [Deployment]

/-- The checks a disposition is priced at; the others cost nothing. -/
def dispositionGate (companion : CompanionBody) (disposition : Str) : List Str :=
  if disposition = ("benign" : Str) then checkBenignGating companion
  else if disposition = ("false-positive" : Str) then checkFalsePositiveGating companion
  else if disposition = ("inconclusive" : Str) then checkInconclusiveGating companion
  else []

def checkDispositionGating (companion : CompanionBody) : List Str :=
  ((renderedDisposition (concludeScalar companion .disposition)).map
    (dispositionGate companion)).getD []

end Gates

def screenMode : Str := "screen"

def screenMatch : Str := "match"

def screenResult (lead : FindingRecord) : Str := lower (optionCell lead.screenResult)

def statesScreen (lead : FindingRecord) : Bool :=
  screenResult lead ≠ [] && !isConcludeEmptyMarker (screenResult lead)

def screenModeError (lead : FindingRecord) : Option Str :=
  let mode := lower (optionCell lead.mode)
  if !statesScreen lead || mode = screenMode then none
  else some (message ["lead ", lead.id, ": `screen_result: ", screenResult lead,
    "` on a lead whose mode is ", reprText mode, " — ",
    "the column records a SCREEN's verdict; set `mode: screen` on the lead that ",
    "ran the screen, or drop the cell"])

def firstScreenMatch (companion : CompanionBody) : Option FindingRecord :=
  companion.findings.find? fun lead =>
    statesScreen lead && lower (optionCell lead.mode) == screenMode &&
      screenResult lead == screenMatch && lead.id ≠ []

def checkScreenStructure (companion : CompanionBody) : List Str :=
  companion.findings.filterMap screenModeError ++
    match firstScreenMatch companion with
    | none => []
    | some lead =>
        if (allHypotheses companion).isEmpty then []
        else [message ["lead ", lead.id, ": `screen_result: ", screenMatch,
          "` closes the run on the fast ", "path, but ", hypothesisDeclaringBlocks,
          " enumerates hypotheses — a matched ",
          "screen and an investigation are two different runs; drop the block, or record ",
          "the screen as `no_match` and keep investigating"]]

def weightText (weight : Option Str) : Str :=
  reprText (if weight.getD [] = [] then Vocab.nullWeight else weight.getD [])

def droppedHypothesisReason (surviving : List Str) (entry : Str × Option Str) : Str :=
  message ["conclude: hypothesis ", entry.1,
    " is neither refuted nor carried into the close — its ", "final weight is ",
    weightText entry.2, " and the `:T conclude.surviving` table, ", "which names ",
    knownIds surviving, ", omits it. Resolve it to ", reprText refutedWeight,
    ", or add its row; a hypothesis declared and then dropped reads ",
    "like one that was never proposed"]

/-- A close that enumerates its survivors enumerates all of them. -/
def checkHypothesisPersistence (companion : CompanionBody) : List Str :=
  match companion.conclude.bind Conclude.survivingHypotheses with
  | none => []
  | some rows =>
      let surviving := rows.map SurvivingHypothesis.hypothesis
      ((finalWeights companion).entries.filter fun entry =>
        entry.2 ≠ some refutedWeight && !surviving.contains entry.1).map
          (droppedHypothesisReason surviving)

def severityCeiling : Str := "severity-ceiling"

def terminationCategory (companion : CompanionBody) : Option Str :=
  ((companion.conclude.bind Conclude.termination).bind Termination.category).join

def checkCeilingTestScope (companion : CompanionBody) : List Str :=
  if terminationCategory companion ≠ some severityCeiling ∨
      (ceilingRows companion).any rowStatesSomething then []
  else
    [message ["conclude: `termination.category ", severityCeiling,
      "` with no `ceiling_test` — the ",
      "category says live hypotheses remain and their critical edges cannot be tested, so ",
      "the close owes the specific check it could not make. Add one ",
      "`ceiling_test  state=query-failed ref=<lead-id> note=<text>` (or ",
      "`state=query-empty`) row per gap to `:T conclude` (repeat the key; the SKILL's ",
      "§`:T conclude` has the shape). If you wrote a `:T conclude.ceiling_test ",
      "[kind|subject]` sub-table, that is the RETIRED spelling from ",
      "`defender/docs/dense-investigation-format.md` — the parser recognizes it and projects ",
      "nothing, so its rows never reach this rule; re-send them as flat rows. If nothing ",
      "was actually out of reach, this run did not hit a ceiling — terminate on the ",
      "category that describes what happened."]]

end Prices

end Defender.Invlang
