import Defender.Invlang.Walkers

/-!
# Reference rules

Every id a row cites must resolve to something the document declares.

What a rule reports, and the check of the document's surface: invlang content
stands inside invlang fences.
-/

namespace Defender.Invlang

open Defender.Python Defender.Library.Regex Defender.Library.OrderedDict

inductive Severity where
  | error
  | warning
deriving DecidableEq

/-- Where the offending row stands, when there is one row to point at. -/
structure Locus where
  block : Str
  rowText : Str
  rowIndex : Option Int
deriving DecidableEq

structure Diagnostic where
  message : Str
  locus : Option Locus
  fix : List Str
  severity : Severity
deriving DecidableEq

def Diagnostic.isError (diagnostic : Diagnostic) : Bool := diagnostic.severity ≠ .warning

def plainDiagnostic (message : Str) : Diagnostic := ⟨message, none, [], .error⟩

/-- The row-less checks lifted to diagnostics. -/
def plain (messages : List Str) : List Diagnostic := messages.map plainDiagnostic

def normalizeNewlines (text : Str) : Str := replace ['\r'] ['\n'] (replace ['\r', '\n'] ['\n'] text)

/-- Lines beyond those the baseline already carries, counted. -/
def introducedLines : List Str → List Str → List Str
  | _, [] => []
  | baseline, line :: rest =>
      if line ∈ baseline then introducedLines (baseline.erase line) rest
      else line :: introducedLines baseline rest

section Surface

variable [UnicodeDatabase]

def parseDiagnostic (warning : ParseWarning) : Diagnostic where
  message := message ["parse error: ", warning.format]
  locus := some ⟨warning.block, warning.row, some warning.rowIndex⟩
  fix := []
  severity := .error

def yamlFenceRe : Pattern :=
  .sequence [.literal ['`', '`', '`', 'y'], .optional (.char (· == 'a')), .literal ['m', 'l'],
    .boundary isWord]

def yamlFenceReason : Str :=
  message ["non-invlang surface: investigation.md contains a ```yaml/```yml ",
    "fenced block, but the on-disk surface is ```invlang (defender ",
    "SKILL §dense format). Rewrite the block(s) as ```invlang."]

def introducedReason (introduced : List Str) : Str :=
  let shown := join ", " ((introduced.take 3).map fun line => reprText (strip line))
  let count := decimalText introduced.length
  message ["non-invlang surface: this write adds ", count, " block header(s) OUTSIDE ",
    "any ```invlang fence — ", shown,
    if 3 < introduced.length then message [", … (", count, " in all)"] else [],
    ". Content outside a fence is not parsed, so the ",
    "rows under those headers reach no validator rule and no corpus query: they are ",
    "invisible, not merely unchecked. This is what a `## PLAN` section written after a ",
    "closed fence looks like. Re-send the block with ```invlang on its own line before ",
    "the first header and ``` after the last row."]

def introducedHeaders (proposedText : Str) (currentText : Option Str) : List Str :=
  introducedLines ((currentText.map fun text => (scanFences text).orphanedHeaders).getD [])
    (scanFences proposedText).orphanedHeaders

def checkSurface (proposedText : Str) (currentText : Option Str) : List Str :=
  let errors := if yamlFenceRe.occursIn proposedText then [yamlFenceReason] else []
  if (currentText.map fun text => (scanFences text).openTail.isSome).getD false then errors
  else
    match introducedHeaders proposedText currentText with
    | [] => errors
    | first :: others => errors ++ [introducedReason (first :: others)]

end Surface

def declareItYourself : Str :=
  message [". Declare it in a `:L findings` block and re-send — that holds for a ",
    "HARNESS-RESERVED id whose declaring row is not on the page too: the harness ",
    "reserves the id so you do not attach new work to it, and writing the row it ",
    "is missing is not reusing it"]

def rowText (row : ResolutionRow) (key : Str) : Option Str :=
  match row.get? key with
  | some (.text value) => some value
  | _ => none

def rowItems (row : ResolutionRow) (key : Str) : List Str :=
  match row.get? key with
  | some (.items values) => values
  | _ => []

def leadPrefix (lead : Str) : Str := message ["lead ", lead, ": "]

/-- The leads a `:L findings` row declared: only such a row carries a name. -/
def declaredLeads (companion : CompanionBody) : List Str :=
  (companion.findings.filter fun lead => lead.name.getD [] ≠ []).map FindingRecord.id

def knownIds (declared : List Str) : Str :=
  if declared = [] then "none" else join ", " (sorted (dedup declared))

def unresolvedIds (cited declared : List Str) : List Str :=
  (dedup cited).filter fun id => !declared.contains id

def declaredPredictionIds (hyp : HypothesisRecord) : List Str :=
  hyp.predictions.map PredictionRecord.id ++
    hyp.attributePredictions.map AttrPredictionRecord.id

def refutationIds (hyp : HypothesisRecord) : List Str :=
  hyp.refutationShape.map RefutationRecord.id

def declaredCommitments (hyp : HypothesisRecord) : List Str :=
  declaredPredictionIds hyp ++ refutationIds hyp ++
    (hyp.authorizationContract.map AuthorizationContract.id).filter (· ≠ [])

def hypothesisDeclaringBlocks : Str := "`:H hypothesize.hypotheses` or `:H l-NNN.new_hypotheses`"

section Leads

variable [UnicodeDatabase]

def undeclaredLeadReason (id : Str) : Str :=
  message ["undeclared lead ", reprText id, ": referenced by a `:R` / `:T` row or a ",
    "lead sub-block, but no `:L findings` row declares it",
    if id.contains ',' then
      message [" — a resolution is owned by exactly one lead; attribute it to one ",
        "and name the others in `cites_leads`"]
    else declareItYourself]

def citedUndeclaredReason (owner : Option Str) (cited : Str) : Str :=
  let named : Str := if owner.getD [] = [] then "<unattributed>" else owner.getD []
  message ["`cites_leads` on the resolution owned by ", named, " names ", reprText cited,
    ", which no ", "`:L findings` row declares", declareItYourself]

def citesItselfReason (owner : Str) : Str :=
  message ["`cites_leads` on ", owner, "'s resolution cites ", owner, " ",
    "itself — it names the other leads the verdict rests on"]

def citedLeadErrors (declared : List Str) (row : ResolutionRow) : List Str :=
  let owner := rowText row "resolved_by_lead"
  (rowItems row "cites_leads").filterMap fun cited =>
    if !declared.contains cited then some (citedUndeclaredReason owner cited)
    else if some cited = owner then some (citesItselfReason cited)
    else none

/-- `:L findings` is the sole site that declares a lead. -/
def checkLeadRefs (companion : CompanionBody) : List Str :=
  let declared := declaredLeads companion
  let undeclared := (companion.findings.map FindingRecord.id).filter fun id =>
    !declared.contains id
  undeclared.map undeclaredLeadReason ++
    (iterGroundedResolutions companion).flatMap (citedLeadErrors declared)

end Leads

/-- One entry of a `tests` cell, split into the namespaces that own it. -/
structure TestsToken where
  raw : Str
  hypothesis : Option Str
  commitment : Option Str
  foreign : Bool
deriving DecidableEq

section Tests

variable [UnicodeDatabase]

def leadPredIdRe : Pattern := .sequence [.literal ['l', 'p'], digitRun]

def classifyTestsToken (token : Str) : TestsToken :=
  if hypothesisIdRe.fullMatches token then ⟨token, some token, none, false⟩
  else if commitmentIdRe.fullMatches token then ⟨token, none, some token, false⟩
  else
    let (owner, dotted, commitment) := rpartition ['.'] token
    if dotted && hypothesisIdRe.fullMatches owner && commitmentIdRe.fullMatches commitment then
      ⟨token, some owner, some commitment, false⟩
    else ⟨token, none, none, leadPredIdRe.fullMatches token⟩

def testsTokens (lead : FindingRecord) : List TestsToken :=
  (lead.testsHypotheses.filter (· ≠ [])).map classifyTestsToken

def citedHypothesisIds (lead : FindingRecord) : List Str :=
  (testsTokens lead).filterMap TestsToken.hypothesis

/-- A site that names hypotheses: where it stands, how it is called, and the ids. -/
structure HypothesisReference where
  place : Str
  site : Str
  ids : List Str

def hypothesisReferences (companion : CompanionBody) : List HypothesisReference :=
  let moved := (iterResolutions companion).map fun entry =>
    ⟨leadPrefix entry.1, "resolution moves", [entry.2.hypothesis]⟩
  let surviving := ((companion.conclude.bind Conclude.survivingHypotheses).getD []).map
    SurvivingHypothesis.hypothesis
  let tested := companion.findings.map fun lead =>
    ⟨leadPrefix lead.id, "`:L findings` tests", citedHypothesisIds lead⟩
  moved ++ [⟨[], "`:T conclude.surviving` names", surviving⟩] ++ tested

def undeclaredHypothesisReason (reference : HypothesisReference) (declared id : Str) : Str :=
  message [reference.place, reference.site, " undeclared hypothesis ", reprText id, " — no ",
    hypothesisDeclaringBlocks, " row declares it (declared: ", declared, "); ",
    "a hypothesis born mid-run is declared by the lead that found it, ",
    "before anything references it"]

/-- Every mention of a hypothesis resolves; `deferred` holds the ids of rejected
declaration blocks, and its absence stands the rule down. -/
def checkHypothesisRefs (companion : CompanionBody) (deferred : Option (List Str)) : List Str :=
  match deferred with
  | none => []
  | some dropped =>
      let declared := (allHypotheses companion).keys
      (hypothesisReferences companion).flatMap fun reference =>
        (unresolvedIds reference.ids (declared ++ dropped)).map
          (undeclaredHypothesisReason reference (knownIds declared))

def commitmentsByHypothesis (companion : CompanionBody) (hid : Str) : Option (List Str) :=
  ((allHypotheses companion).get? hid).map declaredCommitments

def testedCommitmentReason (lead cited : Str) (scopeIds scope : List Str) : Str :=
  message [leadPrefix lead, "`:L findings` tests commitment ", reprText cited,
    ", which none of the hypotheses it tests declares ", "(", knownIds scopeIds,
    ") — a `p*`/`ap*` is declared by ",
    "`:H h-NNN.preds` / `.attr_preds`, an `r*` by `.refuts` and an `ac*` by ",
    "`.authz` (declared: ", knownIds scope, ")"]

def qualifiedCommitmentReason (lead raw owner commitment : Str) (declared : List Str) : Str :=
  message [leadPrefix lead, "`:L findings` tests commitment ", reprText raw, ", but ", owner,
    " does not declare ", reprText commitment, " (declared: ", knownIds declared, ") ",
    "— a qualified `h-NNN.<id>` resolves against the hypothesis it names, ",
    "never against a sibling on the same row"]

/-- A qualified entry resolves against the hypothesis it names. -/
def qualifiedTokenError (companion : CompanionBody) (lead : Str) (token : TestsToken) :
    Option Str :=
  match token.hypothesis, token.commitment with
  | some owner, some commitment =>
      match commitmentsByHypothesis companion owner with
      | none => none
      | some declared =>
          if declared.contains commitment then none
          else some (qualifiedCommitmentReason lead token.raw owner commitment declared)
  | _, _ => none

def testedCommitmentErrors (companion : CompanionBody) (lead : FindingRecord) : List Str :=
  let declared := (allHypotheses companion).keys
  let tokens := testsTokens lead
  let named := (tokens.filter fun token =>
    token.hypothesis.isSome && token.commitment.isNone).map TestsToken.raw
  let scopeIds := if named = [] then declared else named
  if named.any (fun hid => !declared.contains hid) || scopeIds = [] then []
  else
    let scope := scopeIds.flatMap fun hid => (commitmentsByHypothesis companion hid).getD []
    let cited := (tokens.filter fun token =>
      token.commitment.isSome && token.hypothesis.isNone).map TestsToken.raw
    (unresolvedIds cited scope).map (testedCommitmentReason lead.id · scopeIds scope) ++
      tokens.filterMap (qualifiedTokenError companion lead.id)

def checkTestedCommitmentRefs (companion : CompanionBody) : List Str :=
  companion.findings.flatMap (testedCommitmentErrors companion)

def testedNamespaceReason (lead raw : Str) : Str :=
  message [leadPrefix lead, "`:L findings` tests ", reprText raw, ", which ",
    "is in no id namespace this format declares — write a hypothesis ",
    "(`h-001`, `h-001-002`), a commitment the tested hypotheses declare ",
    "(`p1`/`ap1`/`r1`/`ac1`), or the qualified form `h-001.ac1`"]

def checkTestedIdNamespaces (companion : CompanionBody) : List Str :=
  companion.findings.flatMap fun lead =>
    ((testsTokens lead).filter fun token =>
      token.hypothesis.isNone && token.commitment.isNone && !token.foreign).map
        fun token => testedNamespaceReason lead.id token.raw

def citedPredictionReason (lead hid prediction : Str) (declared : List Str) : Str :=
  message ["lead ", lead, ": resolution of ", hid, " cites prediction ", reprText prediction,
    ", ", "which ", hid, " does not declare (`:H ", hid, ".preds` / ",
    "`.attr_preds` declare: ", knownIds declared, ") — a resolution ",
    "matches only its own hypothesis's predictions"]

def citedRefutationReason (lead hid refutation : Str) (declared : List Str) : Str :=
  message ["lead ", lead, ": resolution of ", hid, " cites refutation ", reprText refutation,
    ", ", "which ", hid, " does not declare (`:H ", hid, ".refuts` declares: ",
    knownIds declared, ")"]

def checkPredictionRefs (companion : CompanionBody) : List Str :=
  (iterResolutions companion).flatMap fun entry =>
    match (allHypotheses companion).get? entry.2.hypothesis with
    | none => []
    | some hyp =>
        let hid := entry.2.hypothesis
        (unresolvedIds entry.2.matchedPredictionIds (declaredPredictionIds hyp)).map
            (citedPredictionReason entry.1 hid · (declaredPredictionIds hyp)) ++
          (unresolvedIds entry.2.matchedRefutationIds (refutationIds hyp)).map
            (citedRefutationReason entry.1 hid · (refutationIds hyp))

end Tests

/-- The hypothesis an id hangs under; the relation lives only in the id. -/
def parentHypothesisId (hid : Str) : Str :=
  let (head, _, _) := rpartition ['-'] hid
  if head.contains '-' then head else []

section Claims

variable [UnicodeDatabase]

def dropLeadingStop (text : Str) : Str :=
  match text with
  | '.' :: rest => if (rest.head?.map isDecimal).getD false then text else rest
  | _ => text

def trimClaim (text : Str) : Str :=
  strip (rstripChars [' ', '.'] (dropLeadingStop (stripChars ['"', '\''] text)))

/-- The source iterates to a fixpoint; a round that changes the text shortens it,
so its length bounds the rounds. -/
def trimClaimFrom : Nat → Str → Str
  | 0, text => text
  | fuel + 1, text => if trimClaim text = text then text else trimClaimFrom fuel (trimClaim text)

def normalizedClaim (claim : Str) : Str :=
  let text := join [' '] (splitWhitespace (lower claim))
  trimClaimFrom text.length text

def predictedObservables (hyp : HypothesisRecord) : List Str :=
  let claims := (hyp.predictions.map fun pred => normalizedClaim pred.claim).filter (· ≠ [])
  let attributes := hyp.attributePredictions.filterMap fun pred =>
    if normalizedClaim pred.claim = [] then none
    else some (message [lower (strip pred.target), ".", lower (strip pred.attributeName), "=",
      normalizedClaim pred.claim])
  sorted (dedup (claims ++ attributes))

def siblingForkTag : Str := "predict the same observables"

def forkReason (anchor : Str) (hids : List Str) : Str :=
  message ["hypotheses ", join ", " (sorted hids), " anchor on ",
    if anchor = [] then "?" else anchor, " and ", siblingForkTag,
    " — siblings must differ on at least one predicted ",
    "observable, the claim a lead splits them on. A different `?name` or ",
    "`parent_class` is not that difference: leave the slots the alert has not ",
    "settled `??` and write the difference as a prediction. If the two readings ",
    "share a cause and differ only on whether it was authorized, they are ONE ",
    "hypothesis with an `:H h-NNN.authz` contract"]

abbrev ForkGroups := Dict (Str × Str) (Dict (List Str) (List Str))

def joinFork (groups : ForkGroups) (entry : Str × HypothesisRecord) : ForkGroups :=
  let claims := predictedObservables entry.2
  if claims = [] then groups
  else groups.modify (parentHypothesisId entry.1, entry.2.anchor.getD []) Dict.empty
    fun byClaims => byClaims.modify claims [] (· ++ [entry.1])

def liveHypotheses (companion : CompanionBody) : List (Str × HypothesisRecord) :=
  (allHypotheses companion).entries.filter fun entry =>
    (liveHypothesisIds companion).contains entry.1

/-- Live siblings must not predict the same observables. -/
def checkForkDistinctness (companion : CompanionBody) : List Str :=
  ((liveHypotheses companion).foldl joinFork Dict.empty).entries.flatMap fun group =>
    (group.2.values.filter fun hids => 2 ≤ hids.length).map (forkReason group.1.2)

def refutationScopeReason (hid refutation prediction : Str) (declared : List Str) : Str :=
  message ["`:H ", hid, ".refuts` row ", reprText refutation, " refutes prediction ",
    reprText prediction, ", which ", hid, " does not declare (`:H ", hid,
    ".preds` / `.attr_preds` declare: ", knownIds declared,
    ") — a refutation overturns its own ",
    "hypothesis's predictions, and a `--` citing it inherits that scope"]

def refutationScopeErrors (hid : Str) (hyp : HypothesisRecord) : List Str :=
  let declared := declaredPredictionIds hyp
  if declared = [] then []
  else hyp.refutationShape.flatMap fun shape =>
    let cited := shape.refutesPredictions.filter fun id => !isConcludeEmptyMarker id
    (unresolvedIds cited declared).map (refutationScopeReason hid shape.id · declared)

def checkRefutationScope (companion : CompanionBody) : List Str :=
  (allHypotheses companion).entries.flatMap fun entry => refutationScopeErrors entry.1 entry.2

def sharedContractReason (contract : Str) (hids : List Str) : Str :=
  message ["authz contract ", reprText contract,
    " is declared by more than one live hypothesis ", "(", join ", " (sorted hids),
    ") — a `:R authz` row names only the contract it ",
    "fulfills, so one row would discharge all of them; number `ac*` across the ",
    "document, not per hypothesis (or refute one of them, if the evidence says so)"]

def enrollContracts (held : Dict Str (List Str)) (entry : Str × HypothesisRecord) :
    Dict Str (List Str) :=
  (entry.2.authorizationContract.map AuthorizationContract.id).foldl (fun held id =>
    if id = [] then held else held.modify id [] (enroll · entry.1)) held

def checkAuthzContractIds (companion : CompanionBody) : List Str :=
  let declaredBy := (liveHypotheses companion).foldl enrollContracts Dict.empty
  (declaredBy.entries.filter fun entry => 1 < entry.2.length).map fun entry =>
    sharedContractReason entry.1 entry.2

end Claims

end Defender.Invlang
