import Defender.Invlang.Schema
import Defender.Invlang.Tokenize

/-!
# Row projections

One row of one block type, read as one record. A row that cannot be read is an
error with the reason the projector reports.
-/

namespace Defender.Invlang

open Defender.Python Defender.Library.Regex Defender.Library.OrderedDict

def unobservedEdgeRef : Str := "proposed"

def parseAuth (cell : Str) : AuthorityRef :=
  let (kind, _, source) := partition ":" cell
  ⟨strip kind, strip source⟩

def vertexCols : List Str := ["id", "type", "class", "ident", "attrs"]

def edgeCols : List Str := ["id", "rel", "src", "tgt", "when", "auth_kind:source", "attrs"]

def survivingCols : List Str := ["hyp_id", "final_weight"]

def hypHeaderCols : List Str :=
  ["id", "name", "attached_to", "rel", "parent_type", "parent_class", "integrity_waived",
    "weight", "status"]

def leadPredCols : List Str := ["id", "if", "read_as", "advance_to"]

def impactPredCols : List Str :=
  ["id", "dim", "claim", "on_match", "on_mismatch", "on_indeterminate", "escalation_on"]

def hypPredCols : List Str := ["id", "subject", "claim"]

def hypAttrPredCols : List Str := ["id", "target", "attribute", "claim"]

def hypRefutCols : List Str := ["id", "refutes", "claim"]

def hypAuthzCols : List Str :=
  ["id", "edge_ref", "anchor_kind", "predicate", "on_unauth", "on_indet"]

def writtenCell (rec : RowRecord) (key : Str) : Option Str :=
  if cellOf rec key ≠ [] then some (cellOf rec key) else none

def unquotedCell (rec : RowRecord) (key : Str) : Str := unquote (cellOf rec key)

section Records

variable [UnicodeDatabase]

def vertexRecord (block : Block) (row : Str) : RowResult VertexRecord := do
  let cells ← rowDict block row vertexCols
  requireCells cells ["id", "type"] "vertex missing id/type"
  .ok { id := cellOf cells "id"
        type := cellOf cells "type"
        classification := cellOf cells "class"
        identifier := cellOf cells "ident"
        attributes := (writtenCell cells "attrs").map parseAttrs }

def edgeRecord (block : Block) (row : Str) : RowResult EdgeRecord := do
  let cells ← rowDict block row edgeCols
  requireCells cells ["id", "rel"] "edge missing id/rel"
  let authCol := (blockColumns block edgeCols).find? (startsWith "auth_kind")
  .ok { id := cellOf cells "id"
        relation := cellOf cells "rel"
        sourceVertex := cellOf cells "src"
        targetVertex := cellOf cells "tgt"
        whenTimestamp := writtenCell cells "when"
        authority := (authCol.bind (writtenCell cells)).map parseAuth
        attributes := (writtenCell cells "attrs").map parseAttrs }

/-- The `:H` header cells that checks compare; they are read unquoted. -/
def hypComparedCells : List Str :=
  ["id", "name", "attached_to", "rel", "parent_type", "parent_class", "weight", "status"]

def buildProposedEdge (cells : RowRecord) : Option ProposedEdge :=
  let parentType := writtenCell cells "parent_type"
  let parentClass := writtenCell cells "parent_class"
  let parent : Option ParentVertex :=
    if parentType.isSome || parentClass.isSome then some ⟨parentType, parentClass, none⟩ else none
  let relation := writtenCell cells "rel"
  if relation.isSome || parent.isSome then some ⟨relation, parent⟩ else none

def edgeAnchorReason (id anchor : Str) : Str :=
  message ["hypothesis ", reprText id, " attached_to=", reprText anchor, " names an edge; ",
    ":H is discovery-only (propose a new parent vertex+edge anchored ",
    "to a v-* id). For class refinement of an existing vertex, use ",
    "`??` / `\x7b...\x7d` notation on the prologue entry instead."]

def hypothesisRecord (block : Block) (row : Str) : RowResult HypothesisRecord := do
  let raw ← rowDict block row []
  let cells := hypComparedCells.foldl (fun held key =>
    if held.contains key then held.set key (strip (unquotedCell held key)) else held) raw
  requireCells cells ["id", "name"] "hypothesis missing id/name"
  let anchor := writtenCell cells "attached_to"
  if (anchor.map (startsWith "e-")).getD false then
    .error (edgeAnchorReason (cellOf cells "id") (anchor.getD []))
  else
    .ok { id := cellOf cells "id"
          name := cellOf cells "name"
          anchor := anchor
          proposedEdge := buildProposedEdge cells
          integrityWaived := writtenCell cells "integrity_waived"
          weight := (writtenCell cells "weight").filter (· ≠ ("null" : Str))
          status := writtenCell cells "status"
          predictions := []
          attributePredictions := []
          refutationShape := []
          authorizationContract := [] }

def leadPredRow (block : Block) (row : Str) : RowResult LeadPrediction := do
  let cells ← rowDict block row leadPredCols
  requireCells cells ["id"] "lead_preds row missing id"
  .ok { id := unquotedCell cells "id"
        condition := unquotedCell cells "if"
        readAs := unquotedCell cells "read_as"
        advanceTo := unquotedCell cells "advance_to" }

def impactPredRow (block : Block) (row : Str) : RowResult ImpactPrediction := do
  let cells ← rowDict block row impactPredCols
  requireCells cells ["id"] "impact_preds row missing id"
  .ok { id := unquotedCell cells "id"
        dimension := unquotedCell cells "dim"
        claim := unquotedCell cells "claim"
        onMatch := unquotedCell cells "on_match"
        onMismatch := unquotedCell cells "on_mismatch"
        onIndeterminate := unquotedCell cells "on_indeterminate"
        escalationOn := unquotedCell cells "escalation_on" }

def strippedCells (cells : RowRecord) (keys : List Str) : RowRecord :=
  keys.foldl (fun held key => held.set key (strip (unquotedCell held key))) cells

def hypSubPredRow (block : Block) (row : Str) : RowResult PredictionRecord := do
  let raw ← rowDict block row hypPredCols
  let cells := strippedCells raw ["id", "subject"]
  requireCells cells ["id", "subject"] "preds row missing id/subject"
  .ok { id := cellOf cells "id"
        subject := cellOf cells "subject"
        claim := unquotedCell cells "claim" }

def hypSubAttrPredRow (block : Block) (row : Str) : RowResult AttrPredictionRecord := do
  let raw ← rowDict block row hypAttrPredCols
  let cells := strippedCells raw ["id", "target", "attribute"]
  requireCells cells ["id", "target", "attribute"] "attr_preds row missing id/target/attribute"
  .ok { id := cellOf cells "id"
        target := cellOf cells "target"
        attributeName := cellOf cells "attribute"
        claim := unquotedCell cells "claim" }

def hypSubRefutRow (block : Block) (row : Str) : RowResult RefutationRecord := do
  let raw ← rowDict block row hypRefutCols
  let cells := strippedCells raw ["id"]
  requireCells cells ["id"] "refuts row missing id"
  .ok { id := cellOf cells "id"
        claim := unquotedCell cells "claim"
        refutesPredictions := splitCsv (unquotedCell cells "refutes") }

def hypSubAuthzRow (block : Block) (row : Str) : RowResult AuthorizationContract := do
  let cells ← rowDict block row hypAuthzCols
  requireCells cells ["id", "anchor_kind"] "authz row missing id/anchor_kind"
  .ok { id := cellOf cells "id"
        edgeRef := (writtenCell cells "edge_ref").getD unobservedEdgeRef
        anchorKind := cellOf cells "anchor_kind"
        predicate := unquotedCell cells "predicate"
        onUnauthorized := (writtenCell cells "on_unauth").getD "escalate"
        onIndeterminate := (writtenCell cells "on_indet").getD "escalate" }

end Records

/-- A `:L findings` row split into identity, outcome and query details. -/
structure LeadHeader where
  id : Str
  name : Str
  target : Str
  loop : Option LoopCell
  mode : Option Str
  trustRootReached : Option Str
  screenResult : Option Str
  status : Option Str
  testsHypotheses : Option (List Str)
  failureReason : Option Str
  queryDetails : QueryDetails

def loopCell [UnicodeDatabase] (value : Str) : LoopCell :=
  match parseInt value with
  | some number => .number number
  | none => .text value

def leadHeaderRecord [UnicodeDatabase] (cells : RowRecord) : LeadHeader where
  id := cellOf cells "id"
  name := cellOf cells "name"
  target := cellOf cells "target"
  loop := (writtenCell cells "loop").map fun value => loopCell (unquote value)
  mode := (writtenCell cells "mode").map unquote
  trustRootReached := (writtenCell cells "trust_root").map unquote
  screenResult := (writtenCell cells "screen_result").map unquote
  status := (writtenCell cells "status").map unquote
  testsHypotheses := (writtenCell cells "tests").map fun value => splitCsv (unquote value)
  failureReason := writtenCell cells "fail_reason"
  queryDetails :=
    { system := writtenCell cells "system"
      template := writtenCell cells "template"
      query := writtenCell cells "query"
      timeWindow := writtenCell cells "window" }

def alnumRun : Pattern := .plus (.char isAsciiAlnum)

/-- An `h-*` id, with the hierarchical child form. -/
def hypothesisIdRe : Pattern :=
  .sequence [.literal ['h', '-'], alnumRun, .star true (.sequence [.char (· == '-'), alnumRun])]

def hypPrefixRe : Pattern :=
  .sequence [.group 1 hypothesisIdRe, .char (· == '.'),
    .group 2 (.oneOf [.literal "preds", .literal "attr_preds", .literal "refuts",
      .literal "authz", .literal "parent_attrs"]),
    .endOfText]

def hypDeclarationBlockRe : Pattern :=
  .sequence [.literal ":H ",
    .oneOf [.literal "hypothesize.hypotheses",
      .sequence [.literal ['l', '-'], alnumRun, .literal ".new_hypotheses"]],
    .endOfText]

def rowFirstCell (row : Str) : Str := (splitCells row).headD []

/-- The `h-*` ids that warnings dropped; `none` when a dropped declaration cannot
be mapped to an id. -/
def deferredHypothesisIds : List ParseWarning → Option (List Str)
  | [] => some []
  | warning :: rest =>
      let named : Option (List Str) :=
        if warning.droppedIds ≠ [] then some warning.droppedIds
        else if hypDeclarationBlockRe.matches warning.block && warning.row ≠ [] then
          some [rowFirstCell warning.row]
        else none
      match named with
      | none => deferredHypothesisIds rest
      | some ids =>
          let usable := ids.filter hypothesisIdRe.fullMatches
          if usable = [] then none else (deferredHypothesisIds rest).map (usable ++ ·)

def isCurrentHypHeader (cols : Option (List Str)) : Bool :=
  match cols with
  | some (first :: others) =>
      (first :: others).all (hypHeaderCols.contains ·) &&
        hypHeaderCols.all ((first :: others).contains ·)
  | _ => false

section Resolutions

variable [UnicodeDatabase]

def digitRun : Pattern := .plus (.char isDecimal)

def nonSpaceRun : Pattern := .plus (.char fun c => !isSpace c)

def lineRest : Pattern := .star true (.char (· != '\n'))

/-- Groups: 1 the hypothesis, 2 before, 3 after, 4 the bracketed part. -/
def resolutionLineRe : Pattern :=
  .sequence [.group 1 nonSpaceRun, someSpace, .group 2 nonSpaceRun, anySpace,
    .char (· == '→'), anySpace, .group 3 nonSpaceRun, someSpace, .char (· == '['),
    .group 4 lineRest, .char (· == ']'), anySpace, .endOfText]

def refIdRe : Pattern :=
  .oneOf [.sequence [.literal ['a', 'p'], digitRun], .sequence [.literal ['p'], digitRun],
    .sequence [.literal ['r'], digitRun]]

def iffLiteralRe : Pattern := .sequence [.boundary isWord, refIdRe, .boundary isWord]

def commitmentIdRe : Pattern :=
  .oneOf [refIdRe, .sequence [.literal ['a', 'c'], digitRun]]

def supportingEdgeRe : Pattern :=
  .sequence [.boundary isWord, .literal ['e', '-'], alnumRun, .boundary isWord]

def isRefutationId (id : Str) : Bool := startsWith ['r'] id

/-- The ids right of each `⟺`, predictions and refutations apart. -/
def extractIffLiterals (reasoning : Str) : List Str × List Str :=
  let clauses := splitOn ';' (replace "<=>" "⟺" reasoning)
  let tokens := clauses.flatMap fun clause =>
    let (_, found, right) := partition "⟺" clause
    if found then (iffLiteralRe.findAll right).map Found.text else []
  (dedup (tokens.filter fun id => !isRefutationId id), dedup (tokens.filter isRefutationId))

def resolutionRecord (row : Str) : RowResult (Str × ResolutionRecord) :=
  match resolutionLineRe.matchPrefix row with
  | none => .error "resolution head doesn't match `<hyp> <before> → <after> [...]`"
  | some line =>
      let inner := (line.group 4).getD []
      let (bracketed, _, noted) := partition "::" inner
      let reasoning := strip noted
      let (head, separated, supporting) := partition "⟂" bracketed
      if !separated then .error "resolution missing `⟂` supporting-edges separator"
      else
        match splitWhitespace head with
        | lead :: second :: others =>
            let severity := (second :: others).getLastD []
            let refs := (second :: others).dropLast.flatMap fun token =>
              ((splitOn ',' token).map strip).filter (· ≠ [])
            let headIds := refs.filter refIdRe.fullMatches
            let supportText := strip supporting
            let (iffPredIds, iffRefutIds) := extractIffLiterals reasoning
            .ok (lead,
              { hypothesis := (line.group 1).getD []
                before := (line.group 2).getD []
                after := (line.group 3).getD []
                severityOfTest := severity
                supportingEdges := dedup ((supportingEdgeRe.findAll supportText).map Found.text)
                matchedPredictionIds :=
                  dedup (headIds.filter (fun id => !isRefutationId id) ++ iffPredIds)
                matchedRefutationIds := dedup (headIds.filter isRefutationId ++ iffRefutIds)
                supportingMarker :=
                  if supportText ≠ [] && !startsWith "e-" supportText then some supportText
                  else none
                reasoning := if reasoning ≠ [] then some reasoning else none })
        | _ => .error "resolution head needs lead-id + severity"

end Resolutions

def resolutionKeyCanonical : List (Str × Str) :=
  [("conditioning", "conditioning_context"), ("grounding", "grounding_kind"),
    ("authority", "authority_for_question"), ("fulfills", "fulfills_contract"),
    ("resolved_by", "resolved_by_lead"), ("lead", "resolved_by_lead"),
    ("pred_ref", "prediction_ref"), ("dim", "dimension"),
    ("matched_pred", "matched_prediction")]

def resolutionListKeys : List Str := ["conditioning_context", "concerns", "cites_leads"]

def canonicalKey (key : Str) : Str := (Dict.lookup key resolutionKeyCanonical).getD key

def canonicalizeResolutionRow (cells : RowRecord) : ResolutionRow :=
  cells.entries.foldl (fun out cell =>
    if cell.2 = [] then out
    else
      let key := canonicalKey cell.1
      out.set key (if key ∈ resolutionListKeys then .items (splitCsvOrSemi cell.2)
        else .text cell.2)) Dict.empty

def ceilingTestKey : Str := "ceiling_test"

def terminationCategoryKey : Str := "termination.category"

def terminationRationaleKey : Str := "termination.rationale"

def concludeField? (key : Str) : Option ConcludeField :=
  ConcludeField.all.find? fun field => field.name = key

def concludeKeysHint : Str :=
  join ", " (sorted (ceilingTestKey :: ConcludeField.all.map ConcludeField.name) ++
    [terminationCategoryKey, terminationRationaleKey])

def DeferralTable.all : List DeferralTable := [.authz, .impact, .preds]

def DeferralTable.blockName : DeferralTable → Str
  | .authz => "conclude.deferred_authz"
  | .impact => "conclude.deferred_impact"
  | .preds => "conclude.deferred_preds"

def DeferralTable.refCol : DeferralTable → Str
  | .authz => "contract_ref"
  | .impact => "prediction_ref"
  | .preds => "prediction_ref"

def deferralBlock? (name : Str) : Option DeferralTable :=
  DeferralTable.all.find? fun table => table.blockName = name

/-- What the projection has recorded under a row key; the outer `none` is a key
not set yet, the inner one a literal `null`. -/
def concludeValue (conclude : Conclude) (key : Str) : Option (Option Str) :=
  if key = terminationCategoryKey then conclude.termination.bind Termination.category
  else if key = terminationRationaleKey then conclude.termination.bind Termination.rationale
  else (concludeField? key).bind conclude.scalars.get?

def crossBlockGuarded (key : Str) : Bool :=
  key == terminationCategoryKey || key == terminationRationaleKey || (concludeField? key).isSome

def retiredCeilingTestBlock : Str := "conclude.ceiling_test"

section Loops

variable [UnicodeDatabase]

def loopRowRe : Pattern :=
  .sequence [.literal ['l', 'o', 'o', 'p'], someSpace, .group 1 nonSpaceRun]

/-- The first `loop N` row decides, also when its cell is no number. -/
def closeLoop : List Str → Option Int
  | [] => none
  | row :: rest =>
      match loopRowRe.matchPrefix (strip row) with
      | some line => parseInt ((line.group 1).getD [])
      | none => closeLoop rest

def twoSiteReason (hid : Str) : Str :=
  message ["hypothesis ", reprText hid,
    " is declared both by `:H hypothesize.hypotheses` and ",
    "by a lead's `:H l-NNN.new_hypotheses` — declare it at exactly one site. ",
    "Its `:H ", hid, ".<sub>` blocks attach to whichever record the parser met ",
    "first, while every reader takes the table's, so a contract or ",
    "prediction can land on a record nothing reads."]

end Loops

/-- The `:R` blocks. -/
inductive ResolutionBucket where
  | authz
  | consultations
  | impact
  | attrUpdates
deriving DecidableEq

def ResolutionBucket.all : List ResolutionBucket := [.authz, .consultations, .impact, .attrUpdates]

def ResolutionBucket.blockName : ResolutionBucket → Str
  | .authz => "authz"
  | .consultations => "consultations"
  | .impact => "impact"
  | .attrUpdates => "attr_updates"

def resolutionBucket? (name : Str) : Option ResolutionBucket :=
  ResolutionBucket.all.find? fun bucket => bucket.blockName = name

/-- One row appended unless the destination carries its id. -/
def addById {α : Type*} (idOf : α → Str) (dest : List α) (row : α) : List α :=
  if idOf row ≠ [] ∧ idOf row ∈ dest.map idOf then dest else dest ++ [row]

/-- First declaration wins; a row with no id is always appended. -/
def extendById {α : Type*} (idOf : α → Str) (dest rows : List α) : List α :=
  rows.foldl (addById idOf) dest

end Defender.Invlang
