import Defender.Invlang.Vocab
import Defender.Invlang.Validate.AppendOnly
import Defender.Invlang.Validate.References

/-!
# Weight rules

The provenance a strong move owes, which of a hypothesis's predictions the run
settled, and the shape of prediction rows.
-/

namespace Defender.Invlang

open Defender.Python Defender.Library.Regex Defender.Library.OrderedDict

def strongAuthKindsText : Str := join " / " (sorted Vocab.strongAuthKinds)

def authByEdge (companion : CompanionBody) : Dict Str Str :=
  (allEdges companion).foldl (fun held edge =>
    match authKindOf edge with
    | some kind => held.set edge.id kind
    | none => held) Dict.empty

/-- The bucket a resolution moved its hypothesis to; an `after` cell outside the
buckets is no move. -/
def resolutionMove (resolution : ResolutionRecord) : Str :=
  let after := strip resolution.after
  if Vocab.weightBuckets.contains after then after else []

/-- A cell of a record, `?` where it is blank. -/
def orUnknown (text : Str) : Str := if text = [] then "?" else text

section Provenance

variable [UnicodeDatabase]

def noCitationReason (lead hyp after : Str) : Str :=
  message ["lead ", lead, ": resolution of ", hyp, " to ", reprText after,
    " cites no prediction or refutation id — a strong (++/--) ",
    "move must name the `p*`/`ap*`/`r*` it turned on, in the ",
    "`[<lead> <ids> <severity> ⟂ <edges>]` head"]

def noSupportReason (lead hyp after : Str) : Str :=
  message ["lead ", lead, ": resolution of ", hyp, " to ", reprText after, " cites no ",
    "supporting edge — a strong (++/--) resolution must cite at ", "least one ",
    strongAuthKindsText, " edge"]

def weakSupportReason (lead hyp after : Str) (supporting seen : List Str) : Str :=
  message ["lead ", lead, ": resolution of ", hyp, " to ", reprText after, " cites ",
    reprList supporting, " but none carry strong observational authority ", "(found: ",
    reprList (sorted (dedup seen)), "); ++/-- needs ", strongAuthKindsText]

def strongMoveErrors (companion : CompanionBody) (entry : Str × ResolutionRecord) : List Str :=
  let (lead, resolution) := entry
  let after := resolutionMove resolution
  if !Vocab.strongWeights.contains after then []
  else
    let kinds := authByEdge companion
    let supporting := resolution.supportingEdges
    let uncited := if resolution.matchedPredictionIds = [] ∧ resolution.matchedRefutationIds = []
      then [noCitationReason lead resolution.hypothesis after] else []
    if supporting = [] then uncited ++ [noSupportReason lead resolution.hypothesis after]
    else if supporting.any fun edge =>
        (kinds.get? edge).any fun kind => Vocab.strongAuthKinds.contains kind then uncited
    else
      let seen := supporting.map fun edge => (kinds.get? edge).getD "<unknown>"
      uncited ++ [weakSupportReason lead resolution.hypothesis after supporting seen]

def checkStrongMoveProvenance (companion : CompanionBody) : List Str :=
  (iterResolutions companion).flatMap (strongMoveErrors companion)

def negatedLiteralRe : Pattern :=
  .sequence [.char (fun c => c == '¬' || c == '~'), anySpace, .group 1 refIdRe, .boundary isWord]

/-- The predictions a resolution's own annotation says did not come in. -/
def contradictedPredictions (resolution : ResolutionRecord) : List Str :=
  match resolution.reasoning with
  | none => []
  | some reasoning =>
      ((negatedLiteralRe.findAll (replace "<=>" "⟺" reasoning)).map fun found =>
        (found.cursor.group 1).getD []).filter fun id => !isRefutationId id

end Provenance

/-- Per refutation a hypothesis declares, the predictions its `refutes` cell names. -/
def refutationScopes (hyp : HypothesisRecord) : Dict Str (List Str) :=
  Dict.ofList (hyp.refutationShape.map fun shape =>
    (shape.id, shape.refutesPredictions.filter fun id => id ≠ [] && !isConcludeEmptyMarker id))

section Settlement

variable [UnicodeDatabase]

def settledByRow (companion : CompanionBody) (resolution : ResolutionRecord) : List Str :=
  let scopes := (((allHypotheses companion).get? resolution.hypothesis).map
    refutationScopes).getD Dict.empty
  let cited := resolution.matchedPredictionIds.filter (· ≠ []) ++
    resolution.matchedRefutationIds.flatMap fun id => (scopes.get? id).getD []
  cited.filter fun id => !(contradictedPredictions resolution).contains id

def settledPredictions (companion : CompanionBody) : Dict Str (List Str) :=
  (iterResolutions companion).foldl (fun held entry =>
    if resolutionMove entry.2 = [] then held
    else held.modify entry.2.hypothesis [] (· ++ settledByRow companion entry.2)) Dict.empty

structure Standing where
  confirmed : Dict Str Str
  net : Dict Str Int

def Standing.step (standing : Standing) (entry : Str × ResolutionRecord) : Standing :=
  let (lead, resolution) := entry
  let hid := resolution.hypothesis
  let before := strip resolution.before
  let after := strip resolution.after
  let entered := resolutionMove resolution = Vocab.confirmedWeight
  { confirmed := if entered then standing.confirmed.setDefault hid lead else standing.confirmed
    net :=
      if entered ∧ before ≠ Vocab.confirmedWeight then standing.net.modify hid 0 (· + 1)
      else if before = Vocab.confirmedWeight ∧ after ≠ Vocab.confirmedWeight ∧
          after ∈ Vocab.weightCellValues then standing.net.modify hid 0 (· - 1)
      else standing.net }

/-- Per hypothesis standing at `++`, the first lead whose resolution moved it there. -/
def confirmedAndStanding (companion : CompanionBody) : List (Str × Str) :=
  let standing := (iterResolutions companion).foldl Standing.step ⟨Dict.empty, Dict.empty⟩
  standing.confirmed.entries.filter fun entry => 0 < (standing.net.get? entry.1).getD 0

def unmetReason (hid lead : Str) (unmet cited declared : List Str) : Str :=
  let grade := reprText Vocab.confirmedWeight
  message ["lead ", lead, ": resolution of ", hid, " to ", grade, " leaves ", knownIds unmet,
    " unmatched — ", grade, " says every prediction ",
    "the hypothesis declared came in, and the resolutions on ", hid, " cite ",
    knownIds (cited.filter fun id => declared.contains id), " of ", knownIds declared,
    "; cite the rest in ", "a resolution that moves ", hid,
    ", or withdraw the coverage claim by appending ", "`", hid, "  ", Vocab.confirmedWeight,
    " → +   [", lead, " <ids> <severity> ⟂ <edges>]` to a ",
    "`:T resolutions` block — head filled in from the row that graded it — to ",
    "grade it partial coverage"]

/-- A hypothesis graded `++` has settled every prediction it declared. -/
def checkPredictionCompleteness (companion : CompanionBody) : List Str :=
  (confirmedAndStanding companion).filterMap fun entry =>
    match (allHypotheses companion).get? entry.1 with
    | none => none
    | some hyp =>
        let declared := declaredPredictionIds hyp
        let cited := ((settledPredictions companion).get? entry.1).getD []
        let unmet := declared.filter fun id => !cited.contains id
        if unmet = [] then none else some (unmetReason entry.1 entry.2 unmet cited declared)

def attrPredIdRe : Pattern := .sequence [.literal ['a', 'p'], digitRun]

def attrPredErrors (hid : Str) (pred : AttrPredictionRecord) : List Str :=
  let row := message ["`:H ", hid, ".attr_preds` row ", reprText (orUnknown pred.id)]
  let numbered := if attrPredIdRe.fullMatches (orUnknown pred.id) then [] else
    [message [row, ": an attribute prediction is numbered ",
      "`ap<n>` — `matched_prediction_ids` and `.refuts` resolve ids in that ",
      "namespace, so one outside it can be cited by nothing"]]
  let targeted := if Vocab.attrPredTargets.contains (lower (strip pred.target)) then [] else
    [message [row, ": target ", reprText pred.target, " is not one of ",
      join ", " Vocab.attrPredTargets, " — the cell says which of the ",
      "hypothesis's OWN objects carries the attribute, not which vertex id"]]
  let claimed := if normalizedClaim pred.claim ≠ [] then [] else
    [message [row, ": empty `claim` — the row pre-commits ", "to what ",
      reprText (orUnknown pred.attributeName), " will read as, and a blank cell commits to nothing ",
      "while still counting as a prediction rules #6 and #34 require settled"]]
  numbered ++ targeted ++ claimed

def checkAttributePredictionStructure (companion : CompanionBody) : List Str :=
  (allHypotheses companion).entries.flatMap fun entry =>
    entry.2.attributePredictions.flatMap (attrPredErrors entry.1)

def predIdRe : Pattern := .sequence [.literal ['p'], digitRun]

def predNamespaceReason (hid id : Str) : Str :=
  message ["`:H ", hid, ".preds` row ", reprText id,
    ": a prediction is numbered `p<n>` — a resolution head ",
    "reads only `p*`/`ap*`/`r*` as ids, so one outside the namespace can be cited by ",
    "nothing and rule #34 then refuses the close for a prediction no row can settle"]

def checkPredictionIdNamespace (companion : CompanionBody) : List Str :=
  (allHypotheses companion).entries.flatMap fun entry =>
    ((entry.2.predictions.map fun pred => orUnknown pred.id).filter fun id =>
      !predIdRe.fullMatches id).map (predNamespaceReason entry.1)

end Settlement

end Defender.Invlang
