import Defender.Invlang.Validate.Gating

/-!
# Closure gates

At the close every declared commitment is resolved, or deferred with a reason;
and a loop is closed only once, over a finding that was committed.
-/

namespace Defender.Invlang

open Defender.Python Defender.Library.Regex Defender.Library.OrderedDict

/-- Whether the document wrote a `:T conclude` block; the sub-tables do not count. -/
def isClosing (companion : CompanionBody) : Bool :=
  (companion.conclude.map Conclude.hasFlatRow).getD false

structure Commitment where
  owner : Str
  localId : Str
deriving DecidableEq

def Commitment.ref (commitment : Commitment) : Str :=
  commitment.owner ++ ['.'] ++ commitment.localId

def deferralRationales (rows : List DeferralRecord) (ref : Str) : List Str :=
  (rows.filter fun row => strip row.ref ≠ [] && strip row.ref = ref).map
    fun row => row.rationale.getD []

/-- The commitments neither resolved nor deferred with a reason; the flag says a
deferral names it and every rationale is blank. -/
def unclosedCommitments (declared : List Commitment) (resolved : List Str)
    (deferrals : List DeferralRecord) : List (Commitment × Bool) :=
  declared.filterMap fun commitment =>
    if resolved.contains commitment.ref || resolved.contains commitment.localId then none
    else
      let rationales := deferralRationales deferrals commitment.ref ++
        deferralRationales deferrals commitment.localId
      if rationales = [] then some (commitment, false)
      else if rationales.any rowStatesSomething then none
      else some (commitment, true)

def closureRefusal (subject table ref resolve : Str) (blankRationale : Bool) : Str :=
  if blankRationale then
    message ["conclude: ", subject, " is deferred with an empty rationale — a ",
      "`:T conclude.", table, "` row records WHY the commitment could not be settled, and a ",
      "blank cell records nothing while still discharging it. Write the reason, or ",
      resolve, "."]
  else
    message ["conclude: ", subject, " is declared and then abandoned — nothing settles it and no ",
      "`:T conclude.", table, "` row defers it. Either ", resolve, ", or add a ",
      "`:T conclude.", table, "` row `", ref,
      "|\"<why it could not be settled>\"`; a commitment ",
      "made and then dropped reads like one that was never made."]

def ownKinds (declarers : DeclarerIndex) (commitment : Commitment) : List Str :=
  ((declarers.of commitment.localId).filter fun declarer =>
    declarer.hypothesis = commitment.owner).map Declarer.anchorKind

def competingKinds (declarers : DeclarerIndex) (commitment : Commitment) : List Str :=
  ((declarers.of commitment.localId).filter fun declarer =>
    declarer.hypothesis ≠ commitment.owner).map Declarer.anchorKind

def dischargedByRow (declarers : DeclarerIndex) (kindsById : Dict Str (List Str))
    (commitment : Commitment) : Bool :=
  let mine := ownKinds declarers commitment
  let competing := competingKinds declarers commitment
  match kindsById.get? commitment.localId with
  | none => false
  | some kinds =>
      kinds ≠ [] && (competing = [] ||
        (!mine.any (competing.contains ·) && mine.any (kinds.contains ·)))

section Contracts

variable [UnicodeDatabase]

def authzClosureRepair (declarers : DeclarerIndex) (commitment : Commitment) : Str :=
  let bare := message ["fulfil it with a `:R authz` row carrying `fulfills=",
    commitment.localId, "`"]
  let mine := ownKinds declarers commitment
  let competing := competingKinds declarers commitment
  if competing = [] then bare
  else
    match sorted (dedup (mine.filter (competing.contains ·))) with
    | twin :: _ => message ["fulfil it with a `:R authz` row carrying `fulfills=",
        commitment.ref, "` — ", commitment.localId, " is ",
        "also declared on another hypothesis under anchor kind ", reprText twin,
        ", so the bare ", "id names no one contract and only the qualified `h-NNN.ac<n>` form says which ",
        "question the row answered (`ac<n>` numbers across the DOCUMENT, so the durable ",
        "fix is not to share one)"]
    | [] => message [bare, " AND `anchor_kind=", (sorted mine).headD [], "` — ",
        commitment.localId, " is declared on more than ",
        "one hypothesis, so the anchor kind is what says which question the row answered"]

/-- A `fulfills` cell that names its hypothesis. -/
def isQualifiedContract (id : Str) : Bool :=
  let (owner, dotted, contract) := rpartition ['.'] id
  dotted && contract ≠ [] && hypothesisIdRe.fullMatches owner

def fulfilledContracts (companion : CompanionBody) : List (Str × Str) :=
  ((iterAuthzResolutions companion).filter fun row => fulfilledContract row ≠ []).map
    fun row => (fulfilledContract row, rowAnchorKind row)

def qualifiedContracts (companion : CompanionBody) : List Str :=
  ((fulfilledContracts companion).map Prod.fst).filter isQualifiedContract

def kindsByContract (companion : CompanionBody) : Dict Str (List Str) :=
  ((fulfilledContracts companion).filter fun entry => !isQualifiedContract entry.1).foldl
    (fun held entry => held.modify entry.1 [] (enroll · entry.2)) Dict.empty

/-- Every declared contract, less those the disposition gate already refused. -/
def closingContracts (companion : CompanionBody) (gated : List Str) : List Commitment :=
  let spokenFor := ((outstandingAuthzContracts companion).filter fun outstanding =>
    gated.contains outstanding.why).map fun outstanding =>
      (⟨outstanding.hypothesis, contractId outstanding.contract⟩ : Commitment).ref
  ((allHypotheses companion).entries.flatMap fun entry =>
    (entry.2.authorizationContract.filter fun contract => contractId contract ≠ []).map
      fun contract => (⟨entry.1, contractId contract⟩ : Commitment)).filter fun commitment =>
        !spokenFor.contains commitment.ref

def checkAuthzContractClosure (companion : CompanionBody) (gated : List Str) : List Str :=
  if !isClosing companion then []
  else
    let declarers := declarersByContractId companion
    let declared := closingContracts companion gated
    let resolved := (declared.filter fun commitment =>
      (qualifiedContracts companion).contains commitment.ref ||
        dischargedByRow declarers (kindsByContract companion) commitment).map Commitment.ref
    (unclosedCommitments declared resolved
      ((companion.conclude.map Conclude.deferredAuthorizations).getD [])).map fun entry =>
        closureRefusal (message ["authz contract ", entry.1.ref]) "deferred_authz" entry.1.ref
          (authzClosureRepair declarers entry.1) entry.2

end Contracts

/-- The row verdicts that claim a consequence. -/
def severityOwing : List Str := Vocab.impactVerdict.filter (· ≠ ("within" : Str))

section Impact

variable [UnicodeDatabase]

def gradedImpactRefs (companion : CompanionBody) : List Str :=
  ((impactRows companion).filter fun entry => rowCell entry.2 "prediction_ref" ≠ []).map
    fun entry => qualifyRef entry.1 (rowCell entry.2 "prediction_ref")

def impactCommitment (ref : Str) : Commitment :=
  let (owner, _, localId) := rpartition ['.'] ref
  ⟨owner, localId⟩

/-- Whether the roll-up states a severity; `null` states none. -/
def statesSeverity (companion : CompanionBody) : Bool :=
  (concludeScalar companion .impactSeverity).any fun severity =>
    rowStatesSomething severity && lower (cellText severity) ≠ Vocab.nullWeight

def owesSeverity (companion : CompanionBody) : Bool :=
  severityOwing.contains (lower (optionCell (concludeScalar companion .impactVerdict)))

/-- The roll-up over the grades is consistent. -/
def impactSeverityErrors (companion : CompanionBody) : List Str :=
  let verdict := concludeScalar companion .impactVerdict
  (if owesSeverity companion && !statesSeverity companion then
    [message ["conclude: `impact_verdict ", verdict.getD "None",
      "` with no `impact_severity` — the verdict ",
      "says a registered threshold was crossed or could not be shown not to be, and ",
      "the severity is how far. Add `impact_severity` ", "(",
      join ", " (Vocab.impactSeverity.filter (· ≠ Vocab.nullWeight)), "), or roll up to ",
      "`within` if nothing was actually exceeded"]]
  else []) ++
  if statesSeverity companion && !owesSeverity companion then
    [message ["conclude: `impact_severity ",
      (concludeScalar companion .impactSeverity).getD "None", "` beside `impact_verdict ",
      verdict.getD "null", "` — severity is the magnitude of a ",
      "consequence the run is CLAIMING, and this verdict claims none. Write ",
      "`impact_severity null`, or say which predicate was exceeded and roll the ",
      "verdict up to match"]]
  else []

def checkImpactClosure (companion : CompanionBody) : List Str :=
  if !isClosing companion then []
  else
    (unclosedCommitments ((declaredImpactPredictions companion).keys.map impactCommitment)
      (gradedImpactRefs companion)
      ((companion.conclude.map Conclude.deferredImpactPredictions).getD [])).map (fun entry =>
        closureRefusal (message ["impact prediction ", entry.1.ref]) "deferred_impact" entry.1.ref
          (message ["grade it with a `:R impact` row carrying `pred_ref=", entry.1.ref, "`"])
          entry.2) ++
      impactSeverityErrors companion

def carriedPredictions (companion : CompanionBody) : List Commitment :=
  let weights := finalWeights companion
  let confirmed := (confirmedAndStanding companion).map Prod.fst
  ((allHypotheses companion).entries.filter fun entry =>
    (weights.get? entry.1).join ≠ some refutedWeight && !confirmed.contains entry.1).flatMap
      fun entry => (sorted (dedup (declaredPredictionIds entry.2))).map fun id => ⟨entry.1, id⟩

def checkPredictionClosure (companion : CompanionBody) : List Str :=
  if !isClosing companion then []
  else
    let resolved := (settledPredictions companion).entries.flatMap fun entry =>
      entry.2.map fun id => (⟨entry.1, id⟩ : Commitment).ref
    (unclosedCommitments (carriedPredictions companion) resolved
      ((companion.conclude.map Conclude.deferredPredictions).getD [])).map fun entry =>
        closureRefusal (message ["prediction ", entry.1.ref, " on live hypothesis ",
            entry.1.owner]) "deferred_preds" entry.1.ref
          (message ["cite ", entry.1.localId, " in a `:T resolutions` head that moves ",
            entry.1.owner]) entry.2

end Impact

def leadCommitted (lead : FindingRecord) : Bool :=
  !lead.resolutions.isEmpty || lead.outcome ≠ LeadOutcome.empty

def loopCommitted (companion : CompanionBody) (loop : Int) : Bool :=
  companion.findings.any fun lead => lead.loop == some (.number loop) && leadCommitted lead

/-- The errors on one closed loop; `seen` are the loops closed before it. -/
def loopCloseErrors (companion : CompanionBody) : List Int → List Int → List Str
  | _, [] => []
  | seen, loop :: rest =>
      (if loop ∈ seen then
        [message [":T close blocked: loop ", showInt loop, " closed more than once"]] else []) ++
      (if loopCommitted companion loop then [] else
        [message [":T close blocked: loop ", showInt loop, " has no committed finding ",
          "— cannot close an empty/drafted loop"]]) ++
      loopCloseErrors companion (loop :: seen) rest

def checkLoopClose (companion : CompanionBody) : List Str :=
  loopCloseErrors companion [] companion.closedLoops

end Defender.Invlang
