import Defender.Invlang.Validate.Closure

/-!
# The validator

Every rule, in the order the source runs them. A document is accepted when no
finding is an error.
-/

namespace Defender.Invlang

open Defender.Python

section Diagnosis

variable [UnicodeDatabase] [Deployment]

/-- The rules that read a companion which holds something. -/
def companionFindings (proposedText : Str) (companion : CompanionBody)
    (warnings : List ParseWarning) (current : Option CompanionBody) : List Diagnostic :=
  let grounding := checkAuthzRowGrounding companion
  let gated := checkDispositionGating companion
  plain (checkLeadRefs companion) ++
    plain (checkAttrUpdateTargets companion) ++
    plain (checkHypothesisRefs companion (deferredHypothesisIds warnings)) ++
    plain (checkPredictionRefs companion) ++
    plain (checkForkDistinctness companion) ++
    plain (checkRefutationScope companion) ++
    plain (checkAuthzContractIds companion) ++
    plain (checkTestedCommitmentRefs companion) ++
    plain (checkTestedIdNamespaces companion) ++
    plain (checkStrongMoveProvenance companion) ++
    plain (checkPredictionCompleteness companion) ++
    plain (checkAttributePredictionStructure companion) ++
    plain (checkPredictionIdNamespace companion) ++
    plain (checkLeadPredictionStructure companion) ++
    plain (checkImpactPredictionStructure companion) ++
    plain (checkImpactResolutionRefs companion) ++
    plain (checkVertexParticipation proposedText companion current) ++
    checkClosedVocab companion proposedText ++
    plain grounding ++
    plain (checkAuthzBasis companion) ++
    plain (checkTacitLookupOutcomes companion) ++
    plain (checkRuntimeEvidenceWindows companion) ++
    plain (checkScreenStructure companion) ++
    plain (gated.filter fun error => !grounding.contains error) ++
    plain (checkCeilingTestScope companion) ++
    plain (checkHypothesisPersistence companion) ++
    plain (checkAuthzContractClosure companion gated) ++
    plain (checkImpactClosure companion) ++
    plain (checkPredictionClosure companion) ++
    plain (checkLoopClose companion)

/-- `diagnose` on texts whose newlines are normalized. -/
def diagnoseNormalized (proposedText : Str) (currentText : Option Str) : List Diagnostic :=
  let (companion, warnings) := parseDenseCompanion proposedText
  let current := currentText.map fun text => (parseDenseCompanion text).1
  plain (checkSurface proposedText currentText) ++
    plain (checkAppendOnly proposedText currentText (some companion) current) ++
    warnings.map parseDiagnostic ++
    if companion.isEmpty then [] else companionFindings proposedText companion warnings current

def diagnose (proposedText : Str) (currentText : Option Str) : List Diagnostic :=
  diagnoseNormalized (normalizeNewlines proposedText) (currentText.map normalizeNewlines)

end Diagnosis

end Defender.Invlang
