import Defender.Invlang.Cells

/-!
# Companion records

What a document projects to. A key the source may leave out is an `Option`; a
list the source opens only to append to it is empty where the key is absent. An
absent weight and a `null` one are both `none`, as every reader sees them.
-/

namespace Defender.Invlang

open Defender.Python Defender.Library.OrderedDict

abbrev AttributesMap := Dict Str Str

structure AuthorityRef where
  kind : Str
  source : Str
deriving DecidableEq

structure VertexRecord where
  id : Str
  type : Str
  classification : Str
  identifier : Str
  attributes : Option AttributesMap
deriving DecidableEq

structure EdgeRecord where
  id : Str
  relation : Str
  sourceVertex : Str
  targetVertex : Str
  whenTimestamp : Option Str
  authority : Option AuthorityRef
  attributes : Option AttributesMap
deriving DecidableEq

structure ParentVertex where
  type : Option Str
  classification : Option Str
  attributes : Option AttributesMap
deriving DecidableEq

def ParentVertex.empty : ParentVertex := ⟨none, none, none⟩

structure ProposedEdge where
  relation : Option Str
  parentVertex : Option ParentVertex
deriving DecidableEq

def ProposedEdge.empty : ProposedEdge := ⟨none, none⟩

structure PredictionRecord where
  id : Str
  subject : Str
  claim : Str
deriving DecidableEq

structure AttrPredictionRecord where
  id : Str
  target : Str
  attributeName : Str
  claim : Str
deriving DecidableEq

structure RefutationRecord where
  id : Str
  claim : Str
  refutesPredictions : List Str
deriving DecidableEq

structure AuthorizationContract where
  id : Str
  edgeRef : Str
  anchorKind : Str
  predicate : Str
  onUnauthorized : Str
  onIndeterminate : Str
deriving DecidableEq

structure HypothesisRecord where
  id : Str
  name : Str
  anchor : Option Str
  proposedEdge : Option ProposedEdge
  integrityWaived : Option Str
  weight : Option Str
  status : Option Str
  predictions : List PredictionRecord
  attributePredictions : List AttrPredictionRecord
  refutationShape : List RefutationRecord
  authorizationContract : List AuthorizationContract
deriving DecidableEq

structure ResolutionRecord where
  hypothesis : Str
  before : Str
  after : Str
  severityOfTest : Str
  supportingEdges : List Str
  matchedPredictionIds : List Str
  matchedRefutationIds : List Str
  supportingMarker : Option Str
  reasoning : Option Str
deriving DecidableEq

structure QueryDetails where
  system : Option Str
  template : Option Str
  query : Option Str
  timeWindow : Option Str
deriving DecidableEq

structure Observations where
  vertices : List VertexRecord
  edges : List EdgeRecord
deriving DecidableEq

structure LeadPrediction where
  id : Str
  condition : Str
  readAs : Str
  advanceTo : Str
deriving DecidableEq

structure ImpactPrediction where
  id : Str
  dimension : Str
  claim : Str
  onMatch : Str
  onMismatch : Str
  onIndeterminate : Str
  escalationOn : Str
deriving DecidableEq

/-- A cell of a header-driven `:R` row: some columns hold lists. -/
inductive RowValue where
  | text (value : Str)
  | items (values : List Str)
deriving DecidableEq

abbrev ResolutionRow := Dict Str RowValue

structure AttributeUpdate where
  target : Str
  updates : Dict Str Str
deriving DecidableEq

structure LeadOutcome where
  failureReason : Option Str
  observations : Option Observations
  authorizationResolutions : List ResolutionRow
  anchorConsultations : List ResolutionRow
  impactResolutions : List ResolutionRow
  attributeUpdates : List AttributeUpdate
deriving DecidableEq

/-- A `loop` cell: a number where it reads as one. -/
inductive LoopCell where
  | number (value : Int)
  | text (value : Str)
deriving DecidableEq

structure FindingRecord where
  id : Str
  name : Option Str
  target : Option Str
  loop : Option LoopCell
  mode : Option Str
  trustRootReached : Option Str
  screenResult : Option Str
  status : Option Str
  testsHypotheses : List Str
  outcome : LeadOutcome
  queryDetails : QueryDetails
  predictions : List LeadPrediction
  impactPredictions : List ImpactPrediction
  newHypotheses : List HypothesisRecord
  resolutions : List ResolutionRecord
deriving DecidableEq

structure Termination where
  category : Option (Option Str)
  rationale : Option (Option Str)
deriving DecidableEq

def Termination.empty : Termination := ⟨none, none⟩

structure SurvivingHypothesis where
  hypothesis : Str
  finalWeight : Option Str
deriving DecidableEq

/-- A row of a deferral table; `ref` is the cell of the table's own reference
column. -/
structure DeferralRecord where
  ref : Str
  rationale : Option Str
deriving DecidableEq

/-- The scalar rows of `:T conclude`. -/
inductive ConcludeField where
  | disposition
  | impactVerdict
  | impactSeverity
  | confidence
  | matchedArchetype
  | ceilingRationale
  | summary
  | detectionNotes
  | entityCheck
deriving DecidableEq

def ConcludeField.all : List ConcludeField :=
  [.disposition, .impactVerdict, .impactSeverity, .confidence, .matchedArchetype,
    .ceilingRationale, .summary, .detectionNotes, .entityCheck]

def ConcludeField.name : ConcludeField → Str
  | .disposition => "disposition"
  | .impactVerdict => "impact_verdict"
  | .impactSeverity => "impact_severity"
  | .confidence => "confidence"
  | .matchedArchetype => "matched_archetype"
  | .ceilingRationale => "ceiling_rationale"
  | .summary => "summary"
  | .detectionNotes => "detection_notes"
  | .entityCheck => "entity_check"

/-- The three deferral tables. -/
inductive DeferralTable where
  | authz
  | impact
  | preds
deriving DecidableEq

/-- The scalars hold `none` for a literal `null`. -/
structure Conclude where
  scalars : Dict ConcludeField (Option Str)
  ceilingTest : List Str
  survivingHypotheses : Option (List SurvivingHypothesis)
  deferredAuthorizations : List DeferralRecord
  deferredImpactPredictions : List DeferralRecord
  deferredPredictions : List DeferralRecord
  termination : Option Termination
deriving DecidableEq

def Conclude.empty : Conclude := ⟨Dict.empty, [], none, [], [], [], none⟩

structure Prologue where
  vertices : List VertexRecord
  edges : List EdgeRecord
deriving DecidableEq

structure CompanionBody where
  prologue : Option Prologue
  hypothesize : Option (List HypothesisRecord)
  conclude : Option Conclude
  closedLoops : List Int
  findings : List FindingRecord
deriving DecidableEq

def CompanionBody.empty : CompanionBody := ⟨none, none, none, [], []⟩

/-- Whether the source's dictionary holds no key. -/
def CompanionBody.isEmpty (companion : CompanionBody) : Bool :=
  companion.prologue.isNone && companion.hypothesize.isNone && companion.conclude.isNone &&
    companion.closedLoops.isEmpty && companion.findings.isEmpty

end Defender.Invlang
