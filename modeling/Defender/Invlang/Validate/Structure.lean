import Defender.Invlang.Validate.Predictions

/-!
# Structure rules

Whether a row is filled in, and whether its cells draw from their vocabularies.
-/

namespace Defender.Invlang

open Defender.Python Defender.Library.Regex Defender.Library.OrderedDict

/-- A projected cell as compared: stripped on both sides of its quotes. -/
def cellText (value : Str) : Str := strip (unquote (strip value))

def rowCell (row : ResolutionRow) (key : Str) : Str := ((rowText row key).map cellText).getD []

def optionCell (value : Option Str) : Str := (value.map cellText).getD []

def checkVocab (value : Option Str) (allowed : List Str) (reason : Str) : List Str :=
  match value with
  | none => []
  | some text => if text ≠ [] && !allowed.contains text then [reason] else []

def concludeScalar (companion : CompanionBody) (field : ConcludeField) : Option Str :=
  (companion.conclude.bind fun conclude => conclude.scalars.get? field).join

def pastCase : Str := "past-case"

/-- Runs of underscores, white space and hyphens as one hyphen; `pending` says the
last character read belonged to such a run. -/
def foldHyphensFrom : Bool → Str → Str
  | _, [] => []
  | pending, char :: rest =>
      if isSpace char || char == '_' || char == '-' then
        if pending then foldHyphensFrom true rest else '-' :: foldHyphensFrom true rest
      else char :: foldHyphensFrom false rest

def routeSentinels : List Str := ["CONCLUDE", "HYPOTHESIZE"]

def leadNames (companion : CompanionBody) : List Str :=
  (companion.findings.map fun lead => optionCell lead.name).filter (· ≠ [])

section Rules

variable [UnicodeDatabase]

def foldedGrounding (value : Str) : Str := foldHyphensFrom false (lower (strip value))

def leadPredCells (route : LeadPrediction) : List (Str × Str × Str) :=
  [(route.condition, "if", message
      ["the row pre-commits to WHICH result sends the run down this branch, and a blank cell ",
        "branches on nothing"]),
    (route.readAs, "read_as", message
      ["the row says what that result MEANS, and a blank cell commits to no reading — which ",
        "is the whole reason a route is registered before the data lands rather than chosen ",
        "after it"]),
    (route.advanceTo, "advance_to",
      "the row names WHERE that reading routes, and a blank cell routes nowhere")]

def leadPredErrors (names : List Str) (lead : Str) (route : LeadPrediction) : List Str :=
  let row := message ["`:L ", lead, ".lead_preds` row ", reprText (orUnknown route.id)]
  let numbered := if leadPredIdRe.fullMatches (orUnknown route.id) then [] else
    [message [row, ": a lead-level route is numbered `lp<n>` — the namespace is what ",
      "keeps a route out of the `p*`/`ap*`/`r*` a resolution head and ",
      "`:L findings`' `tests` column resolve against, so a route spelled `p1` ",
      "collides with the hypothesis prediction of that name at both sites"]]
  let blank := (leadPredCells route).filterMap fun cell =>
    if cellText cell.1 ≠ [] then none
    else some (message [row, ": empty `", cell.2.1, "` — ", cell.2.2])
  let destination := cellText route.advanceTo
  let routed := if destination = [] || (names ++ routeSentinels).contains destination then [] else
    [message [row, ": `advance_to` names ", reprText destination,
      ", which is neither a lead NAME this ", "document declares (", knownIds names,
      ") nor one of ", join ", " routeSentinels, " — the cell carries the lead's `name`, not ",
      "its `l-*` id, and a route nobody can follow is not a plan"]]
  numbered ++ blank ++ routed

def checkLeadPredictionStructure (companion : CompanionBody) : List Str :=
  companion.findings.flatMap fun lead =>
    lead.predictions.flatMap (leadPredErrors (leadNames companion) lead.id)

def impactPredIdRe : Pattern := .sequence [.literal ['i', 'p'], digitRun]

def impactPredCells (pred : ImpactPrediction) : List (Str × Str) :=
  [(pred.dimension, "dimension"), (pred.claim, "claim"), (pred.onMatch, "on_match"),
    (pred.onMismatch, "on_mismatch"), (pred.onIndeterminate, "on_indeterminate"),
    (pred.escalationOn, "escalation_on")]

def ticked (names : List Str) : Str := join ", " (names.map fun name => message ["`", name, "`"])

def impactPredErrors (lead : Str) (pred : ImpactPrediction) : List Str :=
  let row := message ["`:L ", lead, ".impact_preds` row ", reprText (orUnknown pred.id)]
  let numbered := if impactPredIdRe.fullMatches (orUnknown pred.id) then [] else
    [message [row, ": an impact prediction is numbered `ip<n>` — a `:R impact` row's ",
      "`pred_ref` resolves in that namespace, both bare and as the ",
      "cross-lead `", lead, ".ip<n>`, so an id outside it can be graded by nothing"]]
  let dimension := cellText pred.dimension
  let axis := checkVocab (some dimension) Vocab.impactDimension
    (message [row, ": dimension ", reprText dimension, " is not one of ",
      join ", " Vocab.impactDimension, " — the cell says which axis the ",
      "consequence is measured on, and `:R impact` grades against it"])
  let blank := ((impactPredCells pred).filter fun cell => cellText cell.1 = []).map Prod.snd
  let filled := if blank = [] then [] else
    [message [row, ": empty ", ticked blank, " — an impact ",
      "predicate registers its axis, its threshold AND every outcome before ",
      "the measurement lands, so all of ", join ", " ((impactPredCells pred).map Prod.snd),
      " are ", "required; a blank cell lets ANALYZE decide that outcome after seeing ",
      "the answer"]]
  numbered ++ axis ++ filled

def checkImpactPredictionStructure (companion : CompanionBody) : List Str :=
  companion.findings.flatMap fun lead => lead.impactPredictions.flatMap (impactPredErrors lead.id)

def impactResolutionRequired : List Str :=
  ["prediction_ref", "dimension", "verdict", "grounding_kind", "authority_for_question", "as_of",
    "reasoning"]

/-- A `pred_ref` under its cross-lead identity. -/
def qualifyRef (lead ref : Str) : Str := if ref.contains '.' then ref else lead ++ ['.'] ++ ref

def declaredImpactPredictions (companion : CompanionBody) : Dict Str ImpactPrediction :=
  (companion.findings.flatMap fun lead =>
    (lead.impactPredictions.filter fun pred => pred.id ≠ []).map fun pred =>
      (lead.id ++ ['.'] ++ pred.id, pred)).foldl
    (fun held entry => held.setDefault entry.1 entry.2) Dict.empty

/-- Every `:R impact` row with the lead it landed on. -/
def impactRows (companion : CompanionBody) : List (Str × ResolutionRow) :=
  companion.findings.flatMap fun lead =>
    lead.outcome.impactResolutions.map fun row => (lead.id, row)

def impactRowLabel (lead : Str) (row : ResolutionRow) : Str :=
  let ref := rowCell row "prediction_ref"
  message ["lead ", lead, ": `:R impact` row for ",
    if ref = [] then "<no prediction_ref>" else ref]

def impactCellErrors (lead : Str) (row : ResolutionRow) : List Str :=
  let place := impactRowLabel lead row
  let blank := impactResolutionRequired.filter fun key => rowCell row key = []
  let filled := if blank = [] then [] else
    [message [place, ": empty ", ticked blank, " — an impact ",
      "resolution carries a consequence verdict AND the provenance that makes ",
      "it checkable, so all of ", join ", " impactResolutionRequired, " are required; a ",
      "blank cell records the verdict without what it rests on"]]
  let verdict := rowCell row "verdict"
  let judged := checkVocab (some verdict) Vocab.impactVerdict
    (message [place, ": verdict ", reprText verdict, " is not one of ",
      join ", " Vocab.impactVerdict, " — the cell says whether the measurement ",
      "landed inside the registered threshold, not what was measured"])
  let grounding := rowCell row "grounding_kind"
  let grounded := if foldedGrounding grounding = pastCase then
      [message [place, ": `grounding past-case` — impact is per-instance reasoning about ",
        "what THIS event did, and a past case establishes only what a CATEGORY ",
        "of event was permitted to do. Re-send this row grounded on ",
        join ", " Vocab.impactGrounding, ". Deferring the predicate in ",
        "`:T conclude.deferred_impact` does NOT clear this: the refusal is on the ",
        "`:R impact` row, and append-only leaves it on disk"]]
    else checkVocab (some grounding) Vocab.impactGrounding
      (message [place, ": grounding ", reprText grounding, " is not one of ",
        join ", " Vocab.impactGrounding])
  filled ++ judged ++ grounded

def impactRefErrors (companion : CompanionBody) (lead : Str) (row : ResolutionRow) : List Str :=
  let place := impactRowLabel lead row
  let declared := declaredImpactPredictions companion
  if rowCell row "prediction_ref" = [] then []
  else
    let ref := qualifyRef lead (rowCell row "prediction_ref")
    match declared.get? ref with
    | none =>
        [message [place, ": `prediction_ref` resolves to ", reprText ref, ", which no ",
          "`:L l-NNN.impact_preds` row declares (declared: ", knownIds declared.keys,
          ") — a bare `ip<n>` resolves within ", lead, " and ",
          "a qualified `l-NNN.ip<n>` across leads; register the predicate before ",
          "grading it"]]
    | some pred =>
        let dimension := rowCell row "dimension"
        let registered := cellText pred.dimension
        if dimension ≠ [] ∧ registered ≠ [] ∧ dimension ≠ registered then
          [message [place, ": `dimension ", dimension, "` but ", ref, " was registered on ",
            reprText registered, " — a ",
            "resolution grades the predicate it names, so the two axes have to be ",
            "the same one; fix the column, or point `pred_ref` at the predicate this ",
            "row actually measured"]]
        else []

def verdictsByRef (companion : CompanionBody) : Dict Str (List Str) :=
  (impactRows companion).foldl (fun held entry =>
    let ref := qualifyRef entry.1 (rowCell entry.2 "prediction_ref")
    let verdict := rowCell entry.2 "verdict"
    if rowCell entry.2 "prediction_ref" ≠ [] ∧
        (declaredImpactPredictions companion).contains ref ∧ verdict ≠ [] then
      held.modify ref [] (enroll · verdict)
    else held) Dict.empty

def gradedTwiceReason (ref : Str) (seen : List Str) : Str :=
  message ["impact prediction ", ref, ": graded ", join ", " (sorted seen), " by different ",
    "`:R impact` rows — a predicate registers ONE threshold and the measurement lands ",
    "inside it or outside it, so two verdicts on one `ip<n>` let the close pick which of ",
    "its own answers to be measured against. Keep the grading that measured the ",
    "registered claim, or register a second predicate for the second measurement"]

def checkImpactResolutionRefs (companion : CompanionBody) : List Str :=
  let verdicts := verdictsByRef companion
  (impactRows companion).flatMap (fun entry =>
      impactCellErrors entry.1 entry.2 ++ impactRefErrors companion entry.1 entry.2) ++
    (sorted verdicts.keys).filterMap fun ref =>
      let seen := (verdicts.get? ref).getD []
      if 1 < seen.length then some (gradedTwiceReason ref seen) else none

def checkVocabVertices (companion : CompanionBody) : List Str :=
  (allVertices companion).flatMap fun vertex =>
    checkVocab (some vertex.type) Vocab.types
      (message ["vertex ", vertex.id, ": type ", reprText vertex.type,
        " is not a known vertex ", "type (`enum types`)"])

def checkVocabEdges (companion : CompanionBody) : List Str :=
  (allEdges companion).flatMap fun edge =>
    checkVocab (some edge.relation) Vocab.relations
        (message ["edge ", edge.id, ": rel ", reprText edge.relation,
          " is not a known relation ", "(`enum relations`)"]) ++
      checkVocab (authKindOf edge) Vocab.authKinds
        (message ["edge ", edge.id, ": auth_kind ", reprOption (authKindOf edge),
          " is not a known ", "observational authority (`enum auth-kinds`)"])

def checkVocabHypotheses (companion : CompanionBody) : List Str :=
  (allHypotheses companion).values.flatMap fun hyp =>
    let edge := hyp.proposedEdge.getD .empty
    let parent := edge.parentVertex.getD .empty
    checkVocab parent.type Vocab.types
        (message ["hypothesis ", hyp.id, ": parent_type ", reprOption parent.type, " is not a ",
          "known vertex type (`enum types`)"]) ++
      checkVocab edge.relation Vocab.relations
        (message ["hypothesis ", hyp.id, ": rel ", reprOption edge.relation,
          " is not a known ", "relation (`enum relations`)"])

def resolutionWeightErrors (entry : Str × ResolutionRecord) : List Str :=
  [(("before" : Str), entry.2.before), ("after", entry.2.after)].flatMap fun cell =>
    checkVocab (some cell.2) Vocab.weightCellValues
      (message ["lead ", entry.1, ": resolution of ", entry.2.hypothesis, " has ", cell.1, " ",
        reprText cell.2, ", which is not a weight — the cells either side of ",
        "the arrow are one of ", join ", " Vocab.weightCellValues, "; a token outside ",
        "the list moves nothing and skips every gate that reads the grade"])

def checkVocabWeights (companion : CompanionBody) : List Str :=
  ((allHypotheses companion).entries.flatMap fun entry =>
    checkVocab entry.2.weight Vocab.weightCellValues
      (message ["hypothesis ", entry.1, ": weight ", reprOption entry.2.weight,
        " is not a weight — a `:H` row's ", "cell is one of ",
        join ", " Vocab.weightCellValues])) ++
    (iterResolutions companion).flatMap resolutionWeightErrors

def consultationVocabErrors (row : ResolutionRow) : List Str :=
  let place := message ["lead ", (rowText row "resolved_by_lead").getD "?",
    ": `:R consultations` row for ", (rowText row "anchor_id").getD "<no anchor_id>"]
  let kind := rowCell row "anchor_kind"
  let grounding := rowCell row "grounding_kind"
  checkVocab (some kind) Vocab.anchorKinds
      (message [place, ": anchor_kind ", reprText kind, " is not known (`enum anchor-kinds`)"]) ++
    checkVocab (some grounding) Vocab.consultationGrounding
      (message [place, ": grounding ", reprText grounding, " is not one of ",
        join ", " Vocab.consultationGrounding, " (`enum consultation.grounding`) — a ",
        "consultation records what a system of record or a telemetry baseline SAYS, and ",
        "`past-case` in particular is excluded by name: grounding a baseline on a past ",
        "case is precedent-by-similarity, which this axis does not admit"])

def contractKindErrors (hyp : HypothesisRecord) : List Str :=
  hyp.authorizationContract.flatMap fun contract =>
    checkVocab (some contract.anchorKind) Vocab.anchorKinds
      (message ["hypothesis ", hyp.id, " contract ", contract.id, ": anchor_kind ",
        reprText contract.anchorKind, " is not known ", "(`enum anchor-kinds`)"])

def checkVocabAnchorKinds (companion : CompanionBody) : List Str :=
  (allHypotheses companion).values.flatMap contractKindErrors ++
    (iterAuthzResolutions companion).flatMap (fun row =>
      checkVocab (rowText row "anchor_kind") Vocab.anchorKinds
        (message ["authz resolution for contract ",
          (rowText row "fulfills_contract").getD "?", ": ", "anchor_kind ",
          reprOption (rowText row "anchor_kind"), " is not known (`enum anchor-kinds`)"])) ++
    (iterAnchorConsultations companion).flatMap consultationVocabErrors

def checkConcludeVocab (companion : CompanionBody) : List Str :=
  let disposition := concludeScalar companion .disposition
  checkVocab disposition Vocab.disposition
      (message ["conclude: disposition ", reprOption disposition,
        " is not a known disposition ", "(`enum disposition`)"]) ++
    if disposition = some Vocab.hostOnlyDisposition then
      [message ["conclude: disposition ", reprText Vocab.hostOnlyDisposition,
        " is recorded by the host when a ",
        "run terminates without a settled finding — the investigating model reports what ",
        "it could not settle as `inconclusive` instead, naming the gap in `ceiling_test`; ",
        "it never concludes ", reprText Vocab.hostOnlyDisposition, " itself."]]
    else []

end Rules

end Defender.Invlang
