import Defender.Invlang.Validate.Structure
import Defender.Invlang.Validate.VertexState

/-!
# Vertex cells

The cells of the folded vertex state, judged against the grammar of their
vertex's type, and the rule that a declared vertex takes part in something.
-/

namespace Defender.Invlang

open Defender.Python Defender.Library.Regex Defender.Library.OrderedDict

inductive CellState where
  | openCell
  | heldCell
  | emptyCell
deriving DecidableEq

structure VertexCell where
  vertexId : Str
  classification : Str
  slot : Str
  value : Str
  state : CellState
deriving DecidableEq

def cellState (openTest : Str → Bool) (value : Str) : CellState :=
  if isBlank value then .emptyCell else if openTest value then .openCell else .heldCell

def vertexCells (includeIdent : Bool) (entry : Str × VertexState) : List VertexCell :=
  let (id, state) := entry
  let cls := state.classification
  ⟨id, cls, slotClass, cls, cellState hasOpenSlot cls⟩ ::
    (if includeIdent then
      [⟨id, cls, slotIdent, state.identifier, cellState isIdentOpen state.identifier⟩] else []) ++
    state.attributes.entries.map fun attr =>
      ⟨id, cls, attrPrefix ++ attr.1, attr.2, cellState isUnresolved attr.2⟩

def iterVertexCells (companion : CompanionBody) (includeIdent : Bool) : List VertexCell :=
  (effectiveVertexState companion).entries.flatMap (vertexCells includeIdent)

def catchallPrefixes : List Str := ["unclassified-", "ambiguous-"]

def isCatchallSlot (value : Str) : Bool :=
  catchallPrefixes.any fun start => startsWith start (strip value)

abbrev DeclaredTypes := Dict Str (List Str)

def declaredTypes (companion : CompanionBody) : DeclaredTypes :=
  (allVertices companion).foldl (fun held vertex =>
    if vertex.id = [] then held else held.modify vertex.id [] (enroll · vertex.type)) Dict.empty

def DeclaredTypes.typesOf (declared : DeclaredTypes) (id : Str) : List Str :=
  (declared.get? id).getD []

/-- A verdict on a cell, returned only when no declared type can hold the value. -/
def DeclaredTypes.refusalUnderEveryType (declared : DeclaredTypes) (id : Str)
    (judge : Str → List Str) : List Str :=
  let perType := (declared.typesOf id).map judge
  if perType.all (· ≠ []) then perType.headD [] else []

section Vocabulary

variable [UnicodeDatabase]

def vocabCellErrors (id slotKey value place : Str) : List Str :=
  let cell := unquote (strip value)
  if isOpenSlot cell || isCatchallSlot cell then []
  else
    let reason := message ["vertex ", id, ": ", place, " ", reprText cell, " is not a known ",
      slotKey, " ", "(`enum ", slotKey, "`)"]
    match checkVocab (some cell) (Vocab.getEnum slotKey) reason,
        Vocab.vertexSlotsHolding cell slotKey with
    | first :: _, other :: _ =>
        [message [first, " — it is a `", other, "` value, not `", slotKey, "`"]]
    | errors, _ => errors

/-- One `attrs.<name>` key carrying a value. -/
def attrRouteErrors (id vertexType key value : Str) : List Str :=
  match Vocab.attrSlotKey vertexType (key.drop attrPrefix.length) with
  | none => []
  | some slotKey => vocabCellErrors id slotKey value (message ["`", key, "`"])

def classCellErrors (id vertexType value : Str) : List Str :=
  ((Vocab.classSlotKeys vertexType).zip (classSlots (unquote (strip value)))).flatMap fun slot =>
    vocabCellErrors id slot.1 slot.2
      (message ["class slot `", (splitOn '.' slot.1).getLastD [], "`"])

def foldedCellErrors (declared : DeclaredTypes) (cell : VertexCell) : List Str :=
  declared.refusalUnderEveryType cell.vertexId fun vertexType =>
    if cell.slot = slotClass then classCellErrors cell.vertexId vertexType cell.value
    else attrRouteErrors cell.vertexId vertexType cell.slot cell.value

def declaredRowErrors (companion : CompanionBody) : List Str :=
  ((allVertices companion).filter fun vertex => vertex.id ≠ [] && vertex.type ≠ []).flatMap
    fun vertex =>
      classCellErrors vertex.id vertex.type vertex.classification ++
        (vertex.attributes.getD Dict.empty).entries.flatMap fun attr =>
          attrRouteErrors vertex.id vertex.type (attrPrefix ++ attr.1) attr.2

def checkVocabClassCells (companion : CompanionBody) (declared : DeclaredTypes) : List Str :=
  dedup (declaredRowErrors companion ++
    ((iterVertexCells companion false).filter fun cell =>
      cell.slot = slotClass || startsWith attrPrefix cell.slot).flatMap (foldedCellErrors declared))

def openCellError (cell : VertexCell) : Option Str :=
  if cell.state ≠ .openCell then none
  else if cell.slot = slotClass then
    some (message ["disposition benign blocked: vertex ", cell.vertexId, " still has an ",
      "unresolved class (", reprText cell.value, ") — resolve via ",
      ":R attr_updates or escalate"])
  else if startsWith attrPrefix cell.slot then
    some (message ["disposition benign blocked: vertex ", cell.vertexId, " attribute ",
      reprText (cell.slot.drop attrPrefix.length), " is still unresolved (",
      reprText cell.value, ") — ", "resolve via :R attr_updates or escalate"])
  else none

def checkBenignOpenSlots (companion : CompanionBody) : List Str :=
  (iterVertexCells companion false).filterMap openCellError

/-- The graph objects a refinement may name. -/
def declaredObjects (companion : CompanionBody) : List Str :=
  (allVertices companion).map VertexRecord.id ++ (allEdges companion).map EdgeRecord.id

def undeclaredTargetReason (target : Str) (declared : List Str) : Str :=
  message [":R attr_updates refines ", reprText target,
    ", which no `:V` or `:E` block declares — declare ", "it before refining it (declared: ",
    reprList (sorted (dedup (declared.filter (· ≠ [])))), ")"]

def checkAttrUpdateTargets (companion : CompanionBody) : List Str :=
  let declared := declaredObjects companion
  (((iterAttrUpdates companion).map AttributeUpdate.target).filter fun target =>
    target ≠ [] && !declared.contains target).map fun target =>
      undeclaredTargetReason target declared

end Vocabulary

def observationSubblocks : List Str := ["observations.vertices", "observations.edges"]

def recordsAnObservation (block : Block) : Bool :=
  ((leadPrefixRe.matchPrefix block.name).map fun found =>
    observationSubblocks.contains ((found.group 2).getD [])).getD false

/-- The fences written before any lead recorded an observation; the first one
always counts. -/
def openingFences : List (List Block) → List (List Block)
  | [] => []
  | first :: rest => first :: rest.takeWhile fun blocks => !blocks.any recordsAnObservation

def prologueSite : Str := "prologue"

def siteDeclarations (site : Str) (vertices : List VertexRecord) : List (Str × Str) :=
  ((vertices.map VertexRecord.id).filter (· ≠ [])).map fun id => (site, id)

def vertexDeclarations (companion : CompanionBody) : List (Str × Str) :=
  siteDeclarations prologueSite (prologueVertices companion) ++
    companion.findings.flatMap fun lead => siteDeclarations lead.id (leadVertices lead)

def edgeParticipants (companion : CompanionBody) : List Str :=
  let declared := (allVertices companion).map VertexRecord.id
  (allEdges companion).flatMap fun edge =>
    if edge.sourceVertex = edge.targetVertex then []
    else ([(edge.sourceVertex, edge.targetVertex),
        (edge.targetVertex, edge.sourceVertex)].filter fun ends =>
      ends.1 ≠ [] && (declared.contains ends.2 || isUnresolved ends.2)).map Prod.fst

section Participation

variable [UnicodeDatabase]

def openingPrologueIds (proposedText : Str) : List Str :=
  ((openingFences (iterFenceBlocks proposedText)).flatten.filter fun block =>
    block.tag == 'V' && block.name == ("prologue.vertices" : Str)).flatMap fun block =>
      (readRows block vertexRecord).map VertexRecord.id

def participationRepair (site : Str) : Str :=
  let block : Str :=
    if site = prologueSite then "prologue.edges" else message [site, ".observations.edges"]
  message [" A vertex is declared because something was observed to DO something or to have ",
    "something done to it, and the `:E` row IS that observation: write it (the relation ",
    "actually seen — `contained_in`, `spawned`, `executed`, whichever fits) into ",
    "`:E ", block, "`. If the relation is not yet known, say THAT: a `:H` row whose ",
    "`attached_to` names the vertex records the claim without committing an observation, ",
    "and discharges this too. If there is neither an observation nor a claim, this is ",
    "not a graph object — do not declare the vertex; carry the fact as an attribute on ",
    "the vertex it was read off, or as an `:R attr_updates` row. Do NOT infer an edge ",
    "from a text field (a `cmdline` attribute, say) the detector never recorded as an ",
    "event of its own, and do NOT point one at an id no `:V` block declares: both reach ",
    "below the resolution of what the detector actually observed."]

/-- One isolated declaration; only the first of a write carries the repair text. -/
def participationReason (entry : (Str × Str) × Nat) : Str :=
  let ((site, id), index) := entry
  let place : Str := if site = prologueSite then "`:V prologue.vertices`"
    else message [leadPrefix site, "`:V ", site, ".observations.vertices`"]
  message [place, " row ", reprText id, " — no `:E` row anywhere in the document names it ",
    "as `src` or `tgt`, and no `:H` row is attached to it.",
    if index = 0 then participationRepair site else []]

def checkVertexParticipation (proposedText : Str) (companion : CompanionBody)
    (current : Option CompanionBody) : List Str :=
  let exempt := openingPrologueIds proposedText
  let anchors := (allHypotheses companion).values.filterMap HypothesisRecord.anchor
  let committed := (current.map vertexDeclarations).getD []
  let isolated := (vertexDeclarations companion).filter fun entry =>
    !exempt.contains entry.2 && !(edgeParticipants companion).contains entry.2 &&
      !anchors.contains entry.2 && !committed.contains entry
  isolated.zipIdx.map participationReason

end Participation

end Defender.Invlang
