import Defender.Invlang.Rows

/-!
# The projector

Walks blocks and accumulates them into the companion. The source indexes the
hypothesis records that sub-blocks attach to by reference; here the index holds
the site of the record, and attaching changes the first record of that id at the
site. Leads are created where they are first mentioned.
-/

namespace Defender.Invlang

open Defender.Python Defender.Library.Regex Defender.Library.OrderedDict

/-- Where a hypothesis is declared. -/
inductive HypSite where
  | table
  | lead (id : Str)
deriving DecidableEq

structure Projector where
  prologue : Option Prologue
  hypothesize : Option (List HypothesisRecord)
  conclude : Option Conclude
  closedLoops : List Int
  findings : Dict Str FindingRecord
  warnings : List ParseWarning
  hypothesesById : Dict Str HypSite
  prologueHypothesisIds : List Str
  emptyConcludeBlocks : List Block

def Projector.start : Projector :=
  ⟨none, none, none, [], Dict.empty, [], Dict.empty, [], []⟩

def LeadOutcome.empty : LeadOutcome := ⟨none, none, [], [], [], []⟩

def QueryDetails.empty : QueryDetails := ⟨none, none, none, none⟩

def freshLead (id : Str) : FindingRecord where
  id := id
  name := none
  target := none
  loop := none
  mode := none
  trustRootReached := none
  screenResult := none
  status := none
  testsHypotheses := []
  outcome := .empty
  queryDetails := .empty
  predictions := []
  impactPredictions := []
  newHypotheses := []
  resolutions := []

def blockLabel (block : Block) : Str := message [[':', block.tag, ' '], block.name]

def blockWarning (block : Block) (rowIndex : Int) (row reason : Str) (droppedIds : List Str) :
    ParseWarning :=
  ⟨blockLabel block, rowIndex, row, reason, [], droppedIds⟩

namespace Projector

def addWarnings (state : Projector) (warnings : List ParseWarning) : Projector :=
  { state with warnings := state.warnings ++ warnings }

def warn (state : Projector) (block : Block) (rowIndex : Int) (row reason : Str) : Projector :=
  state.addWarnings [blockWarning block rowIndex row reason []]

def editLead (state : Projector) (id : Str) (change : FindingRecord → FindingRecord) :
    Projector :=
  { state with findings := state.findings.modify id (freshLead id) change }

def leadBucket (state : Projector) (id : Str) : Projector := state.editLead id fun lead => lead

def editOutcome (state : Projector) (id : Str) (change : LeadOutcome → LeadOutcome) : Projector :=
  state.editLead id fun lead => { lead with outcome := change lead.outcome }

def editConclude (state : Projector) (change : Conclude → Conclude) : Projector :=
  { state with conclude := some (change (state.conclude.getD .empty)) }

end Projector

section Reading

variable {α : Type*}

def readRows (block : Block) (projectOne : Block → Str → RowResult α) : List α :=
  block.rows.filterMap fun row => (projectOne block row).toOption

def rowWarnings (block : Block) (projectOne : Block → Str → RowResult α) : List ParseWarning :=
  block.rows.zipIdx.filterMap fun entry =>
    match projectOne block entry.1 with
    | .ok _ => none
    | .error reason => some (blockWarning block entry.2 entry.1 reason [])

def splitRepeats (idOf : α → Str) : List Str → List α → List α × List Str
  | _, [] => ([], [])
  | seen, row :: rest =>
      if idOf row = [] then
        let (firsts, again) := splitRepeats idOf seen rest
        (row :: firsts, again)
      else if idOf row ∈ seen then
        let (firsts, again) := splitRepeats idOf seen rest
        (firsts, idOf row :: again)
      else
        let (firsts, again) := splitRepeats idOf (idOf row :: seen) rest
        (row :: firsts, again)

def repeatRemedySecondBlock : Str :=
  "Give each row its own id, or send the added rows as a second block."

def repeatRemedyOneBlock : Str :=
  message ["Give each row its own id and re-send this block whole: a second `:L findings` block ",
    "naming the same id AMENDS that lead rather than adding a row, so it would blend the ",
    "two readings instead of separating them."]

def repeatWarnings [UnicodeDatabase] (block : Block) (idOf : α → Str) (rows : List α)
    (remedy : Str) : List ParseWarning :=
  (splitRepeats idOf [] rows).2.map fun id =>
    blockWarning block (-1) [] (message [reprText id,
      " is declared twice in this block; only the FIRST row is kept ",
      "and the later one is discarded with everything it declares. ", remedy]) []

end Reading

namespace Projector

variable [UnicodeDatabase]

def forEachRow (state : Projector) (block : Block) (defaultCols : List Str)
    (body : Projector → Nat → Str → RowRecord → Projector) : Projector :=
  block.rows.zipIdx.foldl (fun state entry =>
    match rowDict block entry.1 defaultCols with
    | .error reason => state.warn block entry.2 entry.1 reason
    | .ok cells => body state entry.2 entry.1 cells) state

def unclosedQuoteReason : Str :=
  message ["row opens a quoted value that does not close on this row — invlang rows ",
    "are ONE line each, so the lines below it are parsed as separate rows and ",
    "the rest of the value is dropped. Write it as ONE line (long is fine — ",
    "`summary` routinely is)."]

def checkOneLineRows (state : Projector) (block : Block) : Projector :=
  state.addWarnings (block.rows.zipIdx.filterMap fun entry =>
    if hasUnbalancedQuote entry.1 then
      some (blockWarning block entry.2 entry.1 unclosedQuoteReason [])
    else none)

def noteRows {α : Type*} (state : Projector) (block : Block)
    (projectOne : Block → Str → RowResult α) (idOf : α → Str) : Projector :=
  state.addWarnings (rowWarnings block projectOne ++
    repeatWarnings block idOf (readRows block projectOne) repeatRemedySecondBlock)

def projectPrologueVertices (state : Projector) (block : Block) : Projector :=
  let noted := state.noteRows block vertexRecord VertexRecord.id
  let held := noted.prologue.getD ⟨[], []⟩
  let vertices := extendById VertexRecord.id held.vertices (readRows block vertexRecord)
  { noted with prologue := some { held with vertices := vertices } }

def projectPrologueEdges (state : Projector) (block : Block) : Projector :=
  let noted := state.noteRows block edgeRecord EdgeRecord.id
  let held := noted.prologue.getD ⟨[], []⟩
  let edges := extendById EdgeRecord.id held.edges (readRows block edgeRecord)
  { noted with prologue := some { held with edges := edges } }

def reprColumns (columns : Option (List Str)) : Str :=
  match columns with
  | none => "None"
  | some names => reprList names

def staleHypHeaderReason (block : Block) : Str :=
  message ["column header ", reprColumns block.columns, " does not match the ",
    "current schema (id|name|attached_to|rel|parent_type|",
    "parent_class|integrity_waived?|weight|status); whole ",
    "block rejected"]

def warnStaleHypHeader (state : Projector) (block : Block) : Projector :=
  state.addWarnings [blockWarning block (-1) [] (staleHypHeaderReason block)
    (block.rows.map rowFirstCell)]

/-- Index one declared hypothesis. At its own site a second declaration is a
re-emission; the table outranks a lead. -/
def registerHypothesis (block : Block) (site : HypSite) (state : Projector)
    (hyp : HypothesisRecord) : Projector :=
  match site with
  | .table =>
      if hyp.id ∈ state.prologueHypothesisIds then state
      else
        let warned := if state.hypothesesById.contains hyp.id then
          state.warn block (-1) [] (twoSiteReason hyp.id) else state
        { warned with
          prologueHypothesisIds := state.prologueHypothesisIds ++ [hyp.id]
          hypothesesById := state.hypothesesById.set hyp.id .table }
  | .lead id =>
      if hyp.id ∈ state.prologueHypothesisIds then
        state.warn block (-1) [] (twoSiteReason hyp.id)
      else if state.hypothesesById.contains hyp.id then state
      else { state with hypothesesById := state.hypothesesById.set hyp.id (.lead id) }

def registerHypotheses (state : Projector) (block : Block) (site : HypSite)
    (hyps : List HypothesisRecord) : Projector :=
  hyps.foldl (registerHypothesis block site) state

def projectHypothesizeBlock (state : Projector) (block : Block) : Projector :=
  if !isCurrentHypHeader block.columns then state.warnStaleHypHeader block
  else
    let noted := state.noteRows block hypothesisRecord HypothesisRecord.id
    let hyps := readRows block hypothesisRecord
    let landed := { noted with hypothesize := some (extendById HypothesisRecord.id
      (noted.hypothesize.getD []) hyps) }
    landed.registerHypotheses block .table hyps

end Projector

def changeFirst (hid : Str) (change : HypothesisRecord → HypothesisRecord) :
    List HypothesisRecord → List HypothesisRecord
  | [] => []
  | hyp :: rest =>
      if hyp.id = hid then change hyp :: rest else hyp :: changeFirst hid change rest

namespace Projector

def editHypothesis (state : Projector) (site : HypSite) (hid : Str)
    (change : HypothesisRecord → HypothesisRecord) : Projector :=
  match site with
  | .table => { state with hypothesize := state.hypothesize.map (changeFirst hid change) }
  | .lead id => state.editLead id fun lead =>
      { lead with newHypotheses := changeFirst hid change lead.newHypotheses }

end Projector

/-- The sub-blocks of a hypothesis. -/
inductive HypSub where
  | preds
  | attrPreds
  | refuts
  | authz
  | parentAttrs
deriving DecidableEq

def HypSub.all : List HypSub := [.preds, .attrPreds, .refuts, .authz, .parentAttrs]

def HypSub.name : HypSub → Str
  | .preds => "preds"
  | .attrPreds => "attr_preds"
  | .refuts => "refuts"
  | .authz => "authz"
  | .parentAttrs => "parent_attrs"

def hypSubBlock? (name : Str) : Option (Str × HypSub) :=
  (hypPrefixRe.matchPrefix name).bind fun found =>
    (HypSub.all.find? fun sub => sub.name = (found.group 2).getD []).map fun sub =>
      ((found.group 1).getD [], sub)

/-- The parent vertex's attributes, with the chain of tables that leads to them
opened. -/
def HypothesisRecord.updateParentAttrs (hyp : HypothesisRecord) (attrs : AttributesMap) :
    HypothesisRecord :=
  let edge := hyp.proposedEdge.getD .empty
  let parent := edge.parentVertex.getD .empty
  let updated := (parent.attributes.getD Dict.empty).update attrs
  { hyp with
    proposedEdge := some { edge with parentVertex := some { parent with attributes := updated } } }

namespace Projector

variable [UnicodeDatabase]

/-- One `parent_attrs` row; the attributes read so far are threaded through. -/
def parentAttrRow (block : Block) (held : Projector × AttributesMap) (entry : Str × Nat) :
    Projector × AttributesMap :=
  match rowDict block entry.1 ["key", "value"] with
  | .error reason => (held.1.warn block entry.2 entry.1 reason, held.2)
  | .ok cells =>
      if cellOf cells "key" = [] then
        (held.1.warn block entry.2 entry.1 "parent_attrs row missing key", held.2)
      else (held.1, held.2.set (cellOf cells "key") (unquotedCell cells "value"))

def attachRows {α : Type*} (state : Projector) (block : Block) (site : HypSite) (hid : Str)
    (projectOne : Block → Str → RowResult α) (idOf : α → Str)
    (extend : List α → HypothesisRecord → HypothesisRecord) : Projector :=
  let noted := state.noteRows block projectOne idOf
  match readRows block projectOne with
  | [] => noted
  | first :: others => noted.editHypothesis site hid (extend (first :: others))

def attachHypSubRows (state : Projector) (block : Block) (site : HypSite) (hid : Str)
    (sub : HypSub) : Projector :=
  match sub with
  | .preds => state.attachRows block site hid hypSubPredRow PredictionRecord.id
      fun rows hyp => { hyp with
        predictions := extendById PredictionRecord.id hyp.predictions rows }
  | .attrPreds => state.attachRows block site hid hypSubAttrPredRow AttrPredictionRecord.id
      fun rows hyp => { hyp with
        attributePredictions := extendById AttrPredictionRecord.id hyp.attributePredictions rows }
  | .refuts => state.attachRows block site hid hypSubRefutRow RefutationRecord.id
      fun rows hyp => { hyp with
        refutationShape := extendById RefutationRecord.id hyp.refutationShape rows }
  | .authz => state.attachRows block site hid hypSubAuthzRow AuthorizationContract.id
      fun rows hyp => { hyp with
        authorizationContract :=
          extendById AuthorizationContract.id hyp.authorizationContract rows }
  | .parentAttrs =>
      let (noted, attrs) := block.rows.zipIdx.foldl (parentAttrRow block) (state, Dict.empty)
      if attrs.isEmpty then noted
      else noted.editHypothesis site hid fun hyp => hyp.updateParentAttrs attrs

def projectHypSubblock (state : Projector) (block : Block) (hid : Str) (sub : HypSub) :
    Projector :=
  match state.hypothesesById.get? hid with
  | none => state.warn block (-1) []
      (message ["sub-block references unknown hypothesis ", reprText hid])
  | some site => state.attachHypSubRows block site hid sub

def unreadColumnsReason (block : Block) (cols unread : List Str) : Str :=
  message ["column header ", reprColumns block.columns, " names ",
    join ", " (unread.map reprText), ", which `:L l-NNN.", subName block.name,
    "` does not read — the columns are [", join "|" cols,
    "], so a cell under any other name is dropped and the row is then ",
    "refused for a value you wrote; whole block rejected"]
where
  /-- What follows the first dot of a block name, or the whole name. -/
  subName (name : Str) : Str :=
    let (whole, found, after) := partition "." name
    if found then after else whole

/-- The columns of a plan header this projection does not read. -/
def unreadColumns (block : Block) (cols : List Str) : List Str :=
  (block.columns.getD []).filter fun column => !cols.contains column

/-- `readRows` without the empty-table marker. -/
def markedRows {α : Type*} (block : Block) (projectOne : Block → Str → RowResult α)
    (idOf : α → Str) : List α :=
  (readRows block projectOne).filter fun row => !isConcludeEmptyMarker (idOf row)

def projectPlanRows {α : Type*} (state : Projector) (block : Block) (lead : Str)
    (cols : List Str) (projectOne : Block → Str → RowResult α) (idOf : α → Str)
    (extend : List α → FindingRecord → FindingRecord) : Projector :=
  match unreadColumns block cols with
  | first :: others => state.warn block (-1) [] (unreadColumnsReason block cols (first :: others))
  | [] =>
      let rows := markedRows block projectOne idOf
      let noted := (state.addWarnings (rowWarnings block projectOne)).addWarnings
        (repeatWarnings block idOf rows repeatRemedySecondBlock)
      noted.editLead lead (extend rows)

def projectLeadVertices (state : Projector) (block : Block) (lead : Str) : Projector :=
  let noted := state.noteRows block vertexRecord VertexRecord.id
  noted.editOutcome lead fun outcome =>
    let held := outcome.observations.getD ⟨[], []⟩
    let vertices := extendById VertexRecord.id held.vertices (readRows block vertexRecord)
    { outcome with observations := some { held with vertices := vertices } }

def projectLeadEdges (state : Projector) (block : Block) (lead : Str) : Projector :=
  let noted := state.noteRows block edgeRecord EdgeRecord.id
  noted.editOutcome lead fun outcome =>
    let held := outcome.observations.getD ⟨[], []⟩
    let edges := extendById EdgeRecord.id held.edges (readRows block edgeRecord)
    { outcome with observations := some { held with edges := edges } }

def projectNewHypotheses (state : Projector) (block : Block) (lead : Str) : Projector :=
  if !isCurrentHypHeader block.columns then state.warnStaleHypHeader block
  else
    let noted := state.noteRows block hypothesisRecord HypothesisRecord.id
    let hyps := readRows block hypothesisRecord
    let landed := noted.editLead lead fun held => { held with
      newHypotheses := extendById HypothesisRecord.id held.newHypotheses hyps }
    landed.registerHypotheses block (.lead lead) hyps

def retiredShelvedReason : Str :=
  message ["`:T shelved` is retired — a hypothesis leaves the live frontier by being ",
    "RESOLVED: move its final weight to `--` in a `:T resolutions` row when the run ",
    "refuted it, or NAME it in `:T conclude.surviving` when the run is still carrying ",
    "it. Omitting it from a written `:T conclude.surviving` table is not a ",
    "retirement — rule #24 refuses exactly that. Neither this block nor its rows are ",
    "projected, so nothing here reaches the close."]

/-- The sub-blocks a lead carries, per tag, as messages list them. -/
def leadSubblocks : Char → List Str
  | 'V' => ["observations.vertices"]
  | 'E' => ["observations.edges"]
  | 'H' => ["new_hypotheses"]
  | 'L' => ["lead_preds", "impact_preds", "substitutions"]
  | _ => []

def legalSubblocks (tag : Char) : Str :=
  join ", " ((leadSubblocks tag).map fun sub => message ["`:", [tag], " l-NNN.", sub, "`"])

def unknownHypSubblockReason (sub : Str) : Str :=
  message ["unknown lead sub-block `:H l-NNN.", sub, "` — the only `:H` block ",
    "a lead carries is ", legalSubblocks 'H', "; its rows ", "were dropped"]

def unknownLeadSubblockReason (tag : Char) (sub : Str) : Str :=
  message ["unknown lead sub-block `:", [tag], " l-NNN.", sub, "` — its rows were dropped. ",
    if leadSubblocks tag ≠ [] then
      message ["The lead-scoped `:", [tag], "` blocks are ", legalSubblocks tag, "."]
    else message ["`:", [tag], "` carries no `l-NNN.`-prefixed block at all; a lead's `:", [tag],
      "` rows name their lead in the row itself — a `resolved_by` COLUMN on ",
      "every `:R` block, the leading `[l-NNN …]` head on a ", "`:T resolutions` row."]]

def projectLeadSubblock (state : Projector) (block : Block) (lead sub : Str) : Projector :=
  let opened := state.leadBucket lead
  if block.tag = 'V' ∧ sub = ("observations.vertices" : Str) then
    opened.projectLeadVertices block lead
  else if block.tag = 'E' ∧ sub = ("observations.edges" : Str) then
    opened.projectLeadEdges block lead
  else if block.tag = 'H' ∧ sub = ("new_hypotheses" : Str) then
    opened.projectNewHypotheses block lead
  else if block.tag = 'L' ∧ sub = ("lead_preds" : Str) then
    opened.projectPlanRows block lead leadPredCols leadPredRow LeadPrediction.id
      fun rows held => { held with
        predictions := extendById LeadPrediction.id held.predictions rows }
  else if block.tag = 'L' ∧ sub = ("impact_preds" : Str) then
    opened.projectPlanRows block lead impactPredCols impactPredRow ImpactPrediction.id
      fun rows held => { held with
        impactPredictions := extendById ImpactPrediction.id held.impactPredictions rows }
  else if block.tag = 'L' ∧ sub = ("substitutions" : Str) then opened
  else if block.tag = 'H' then
    opened.addWarnings [blockWarning block (-1) [] (unknownHypSubblockReason sub)
      ((block.rows.map rowFirstCell).filter hypothesisIdRe.fullMatches)]
  else if block.tag = 'T' ∧ sub = ("shelved" : Str) then
    opened.warn block (-1) [] retiredShelvedReason
  else opened.warn block (-1) [] (unknownLeadSubblockReason block.tag sub)

end Projector

/-- The identity, outcome and query cells a `:L findings` row states. -/
def LeadHeader.amend (header : LeadHeader) (lead : FindingRecord) : FindingRecord :=
  { lead with
    name := some header.name
    target := some header.target
    loop := header.loop.or lead.loop
    mode := header.mode.or lead.mode
    trustRootReached := header.trustRootReached.or lead.trustRootReached
    screenResult := header.screenResult.or lead.screenResult
    status := header.status.or lead.status
    testsHypotheses := header.testsHypotheses.getD lead.testsHypotheses
    outcome := { lead.outcome with
      failureReason := header.failureReason.or lead.outcome.failureReason }
    queryDetails :=
      { system := header.queryDetails.system.or lead.queryDetails.system
        template := header.queryDetails.template.or lead.queryDetails.template
        query := header.queryDetails.query.or lead.queryDetails.query
        timeWindow := header.queryDetails.timeWindow.or lead.queryDetails.timeWindow } }

/-- One refinement entered: the last row of a target and key stands. -/
def addAttrUpdate (target key value : Str) : List AttributeUpdate → List AttributeUpdate
  | [] => [⟨target, Dict.empty.set key value⟩]
  | entry :: rest =>
      if entry.target = target then { entry with updates := entry.updates.set key value } :: rest
      else entry :: addAttrUpdate target key value rest

namespace Projector

variable [UnicodeDatabase]

/-- The rows of a `:L findings` block that name a lead. -/
def findingsRow (block : Block) (held : Projector × List RowRecord) (entry : Str × Nat) :
    Projector × List RowRecord :=
  match rowDict block entry.1 [] with
  | .error reason => (held.1.warn block entry.2 entry.1 reason, held.2)
  | .ok cells =>
      if cellOf cells "id" = [] ∨ cellOf cells "name" = [] then
        (held.1.warn block entry.2 entry.1 "findings row missing id/name", held.2)
      else (held.1, held.2 ++ [cells])

def projectFindingsBlock (state : Projector) (block : Block) : Projector :=
  let (noted, landed) := block.rows.zipIdx.foldl (findingsRow block) (state, [])
  let idOf := fun cells : RowRecord => cellOf cells "id"
  let warned := noted.addWarnings (repeatWarnings block idOf landed repeatRemedyOneBlock)
  (splitRepeats idOf [] landed).1.foldl (fun state cells =>
    state.editLead (cellOf cells "id") (leadHeaderRecord cells).amend) warned

/-- The lead a `:R` row is attributed to. -/
def rowLead (cells : RowRecord) : Str :=
  if cellOf cells "resolved_by" ≠ [] then cellOf cells "resolved_by" else cellOf cells "lead"

def applyAttrUpdate (state : Projector) (block : Block) (lead : Str) (index : Nat) (row : Str)
    (cells : RowRecord) : Projector :=
  if cellOf cells "target" = [] ∨ cellOf cells "key" = [] then
    (state.leadBucket lead).warn block index row "attr_updates missing target/key"
  else
    state.editOutcome lead fun outcome => { outcome with
      attributeUpdates := addAttrUpdate (cellOf cells "target") (cellOf cells "key")
        (cellOf cells "value") outcome.attributeUpdates }

def addResolutionRow (bucket : ResolutionBucket) (row : ResolutionRow) (outcome : LeadOutcome) :
    LeadOutcome :=
  match bucket with
  | .authz => { outcome with
      authorizationResolutions := outcome.authorizationResolutions ++ [row] }
  | .consultations => { outcome with
      anchorConsultations := outcome.anchorConsultations ++ [row] }
  | .impact => { outcome with impactResolutions := outcome.impactResolutions ++ [row] }
  | .attrUpdates => outcome

def resolutionRow (bucket : ResolutionBucket) (block : Block) (state : Projector) (index : Nat)
    (row : Str) (cells : RowRecord) : Projector :=
  if rowLead cells = [] then state.warn block index row "row has no lead attribution"
  else
    match bucket with
    | .attrUpdates => state.applyAttrUpdate block (rowLead cells) index row cells
    | other => state.editOutcome (rowLead cells)
        (addResolutionRow other (canonicalizeResolutionRow cells))

def projectResolutionBlock (state : Projector) (block : Block) (bucket : ResolutionBucket) :
    Projector :=
  state.forEachRow block [] (resolutionRow bucket block)

def resolutionsRow (block : Block) (state : Projector) (entry : Str × Nat) : Projector :=
  match resolutionRecord entry.1 with
  | .error reason => state.warn block entry.2 entry.1 reason
  | .ok (lead, record) =>
      if lead = [] then state.warn block entry.2 entry.1 "resolution has no lead attribution"
      else state.editLead lead fun held => { held with resolutions := held.resolutions ++ [record] }

def projectResolutionsBlock (state : Projector) (block : Block) : Projector :=
  block.rows.zipIdx.foldl (resolutionsRow block) state

end Projector

/-- The local state of one `:T conclude` block. -/
structure ConcludeScan where
  conclude : Conclude
  termination : Termination
  seen : List Str
  landed : Bool
  warnings : List ParseWarning

section Concluding

variable [UnicodeDatabase]

/-- Groups: 1 the key, 2 the value. -/
def concludeRowRe : Pattern :=
  .sequence [.group 1 nonSpaceRun, someSpace, .group 2 lineRest, .endOfText]

def concludeNoRowReason : Str :=
  message ["conclude: row records nothing — every row is `<key> <value>` on one ",
    "line, keyed by one of ", concludeKeysHint, ". If this is the ",
    "continuation of a value from the row above, join it onto one line."]

def concludeTwiceReason (key : Str) : Str :=
  message ["conclude: ", reprText key, " is set twice in this block; the later row wins and ",
    "the earlier value is lost. Keep one row per key, and join a value that ",
    "spilled onto a second line back into one line."]

def concludeReplacedReason (key : Str) (held : Option Str) : Str :=
  message ["conclude: ", reprText key, " is already set to ", reprOption held,
    " by an earlier ", "`:T conclude` block, and this row replaces it — append-only means the ",
    "first value cannot be withdrawn, so the two rows are a disagreement ",
    "rather than a correction. Drop this row, or restate the value the ",
    "close is actually making everywhere it appears."]

def concludeEmptyReason : Str :=
  message ["`:T conclude` recorded nothing — not one row keyed on a field this projection ",
    "carries, so the close projects empty and the CONCLUDE rules (#13, #24, #26, ",
    "#31, #34) all stand down. Key at least `disposition`; the fields are ",
    concludeKeysHint, "."]

/-- One row put where it goes; `landed` marks that a value was recorded. -/
def landConcludeRow (scan : ConcludeScan) (key : Str) (value : Option Str) : ConcludeScan :=
  let seen := { scan with seen := key :: scan.seen }
  if key = terminationCategoryKey then
    { seen with termination := { scan.termination with category := some value }, landed := true }
  else if key = terminationRationaleKey then
    { seen with termination := { scan.termination with rationale := some value }, landed := true }
  else if key = ceilingTestKey then
    match value with
    | none => seen
    | some text =>
        if isConcludeEmptyMarker text then seen
        else { seen with
          conclude := { scan.conclude with ceilingTest := scan.conclude.ceilingTest ++ [text] }
          landed := true }
  else
    match concludeField? key with
    | some field => { seen with
        conclude := { scan.conclude with scalars := scan.conclude.scalars.set field value }
        landed := true }
    | none => scan

def concludeRowWarnings (block : Block) (index : Nat) (row : Str) (scan : ConcludeScan)
    (key : Str) (value : Option Str) : List ParseWarning :=
  if key ∈ scan.seen ∧ key ≠ ceilingTestKey then
    [blockWarning block index row (concludeTwiceReason key) []]
  else
    match concludeValue scan.conclude key with
    | some held =>
        if crossBlockGuarded key ∧ held ≠ value then
          [blockWarning block index row (concludeReplacedReason key held) []]
        else []
    | none => []

def concludeRow (block : Block) (scan : ConcludeScan) (entry : Str × Nat) : ConcludeScan :=
  match concludeRowRe.matchPrefix entry.1 with
  | none =>
      let dropped := blockWarning block entry.2 entry.1 concludeNoRowReason []
      { scan with warnings := scan.warnings ++ [dropped] }
  | some line =>
      let key := (line.group 1).getD []
      let raw := strip ((line.group 2).getD [])
      let value := if raw = ("null" : Str) then none else some (unquote raw)
      let found := concludeRowWarnings block entry.2 entry.1 scan key value
      let noted := { scan with warnings := scan.warnings ++ found }
      landConcludeRow noted key value

/-- A later block that restates one termination field keeps the other. -/
def mergeTermination (conclude : Conclude) (termination : Termination) : Conclude :=
  if termination = .empty then conclude
  else
    let held := conclude.termination.getD .empty
    let merged : Termination :=
      ⟨termination.category.or held.category, termination.rationale.or held.rationale⟩
    { conclude with termination := some merged }

end Concluding

/-- Whether a flat `:T conclude` row recorded anything; the sub-tables do not count. -/
def Conclude.hasFlatRow (conclude : Conclude) : Bool :=
  !conclude.scalars.isEmpty || !conclude.ceilingTest.isEmpty || conclude.termination.isSome

def DeferralTable.add (table : DeferralTable) (row : DeferralRecord) (conclude : Conclude) :
    Conclude :=
  match table with
  | .authz => { conclude with
      deferredAuthorizations := conclude.deferredAuthorizations ++ [row] }
  | .impact => { conclude with
      deferredImpactPredictions := conclude.deferredImpactPredictions ++ [row] }
  | .preds => { conclude with deferredPredictions := conclude.deferredPredictions ++ [row] }

namespace Projector

variable [UnicodeDatabase]

def projectConcludeScalars (state : Projector) (block : Block) : Projector :=
  let scan := block.rows.zipIdx.foldl (concludeRow block)
    ⟨state.conclude.getD .empty, .empty, [], false, []⟩
  let noted := state.addWarnings scan.warnings
  { noted with
    conclude := some (mergeTermination scan.conclude scan.termination)
    emptyConcludeBlocks :=
      if scan.landed then state.emptyConcludeBlocks else state.emptyConcludeBlocks ++ [block] }

/-- The blocks that recorded nothing are reported once the whole document is
projected, unless another block recorded a flat row. -/
def flushDeferredWarnings (state : Projector) : Projector :=
  let silent := (state.conclude.map Conclude.hasFlatRow).getD false
  let warned := state.addWarnings (if silent then [] else
    state.emptyConcludeBlocks.map fun block => blockWarning block (-1) [] concludeEmptyReason [])
  { warned with emptyConcludeBlocks := [] }

def survivingNoIdReason : Str :=
  message ["surviving row has no hypothesis id — the row records WHICH hypothesis ",
    "is still standing, so an empty `hyp_id` cell records nothing. Name the ",
    "`h-*`, or write the whole table as one `none` row if none survived."]

def survivingRow (block : Block) (state : Projector) (index : Nat) (row : Str)
    (cells : RowRecord) : Projector :=
  let hid := unquotedCell cells "hyp_id"
  if isConcludeEmptyMarker hid then state
  else if hid = [] then state.warn block index row survivingNoIdReason
  else
    let entry : SurvivingHypothesis := ⟨hid, (writtenCell cells "final_weight").map unquote⟩
    state.editConclude fun conclude => { conclude with
      survivingHypotheses := some ((conclude.survivingHypotheses.getD []) ++ [entry]) }

def projectSurvivingBlock (state : Projector) (block : Block) : Projector :=
  let opened := state.editConclude fun conclude => { conclude with
    survivingHypotheses := some (conclude.survivingHypotheses.getD []) }
  opened.forEachRow block survivingCols (survivingRow block)

def unknownConcludeSubblockReason (block : Block) : Str :=
  let legal := sorted (("conclude.surviving" : Str) ::
    DeferralTable.all.map DeferralTable.blockName)
  message ["unknown conclude sub-block `:T ", block.name,
    "` — the sub-tables `:T conclude` ", "carries are ", join ", " legal,
    "; its rows were dropped. Everything else `conclude` records ",
    "is a flat `<key> <value>` row in `:T conclude` itself, keyed by one of ",
    concludeKeysHint, "."]

def warnUnknownConcludeSubblock (state : Projector) (block : Block) : Projector :=
  if block.name = retiredCeilingTestBlock then state
  else state.warn block (-1) [] (unknownConcludeSubblockReason block)

def deferralHeaderReason (block : Block) (table : DeferralTable) : Str :=
  message ["column header ", reprColumns block.columns, " does not match `:T ", block.name, " ",
    "[", table.refCol, "|rationale]` — this projection reads those two names, so a cell ",
    "under any other one is dropped and the closure rule then refuses the ",
    "commitment for a rationale you wrote; whole block rejected"]

def deferralNoRefReason (table : DeferralTable) : Str :=
  message ["deferral row has no `", table.refCol,
    "` — the row records WHICH commitment the ",
    "close is leaving open, so an empty cell defers nothing and the closure ",
    "rule will still refuse the commitment. Name it, or write the whole ",
    "table as one `none` row if nothing was deferred."]

def deferralRow (table : DeferralTable) (block : Block) (state : Projector) (index : Nat)
    (row : Str) (cells : RowRecord) : Projector :=
  let ref := strip (unquotedCell cells table.refCol)
  if isConcludeEmptyMarker ref then state
  else if ref = [] then state.warn block index row (deferralNoRefReason table)
  else
    let rationale := unquotedCell cells "rationale"
    state.editConclude (table.add ⟨ref, if rationale ≠ [] then some rationale else none⟩)

def deferralHeaderOff (block : Block) (table : DeferralTable) : Bool :=
  match block.columns with
  | some (first :: others) =>
      !((first :: others).contains table.refCol && (first :: others).contains "rationale")
  | _ => false

def projectDeferralBlock (state : Projector) (block : Block) (table : DeferralTable) :
    Projector :=
  if deferralHeaderOff block table then
    state.warn block (-1) [] (deferralHeaderReason block table)
  else state.forEachRow block [table.refCol, "rationale"] (deferralRow table block)

def projectCloseBlock (state : Projector) (block : Block) : Projector :=
  match closeLoop block.rows with
  | none => state.warn block (-1) ((join ['\n'] block.rows).take 200)
      "`:T close` needs a `loop N` (integer) row"
  | some loop => { state with closedLoops := state.closedLoops ++ [loop] }

def projectTBlock (state : Projector) (block : Block) : Option Projector :=
  if block.name = ("conclude" : Str) then some (state.projectConcludeScalars block)
  else if block.name = ("conclude.surviving" : Str) then some (state.projectSurvivingBlock block)
  else
    match deferralBlock? block.name with
    | some table => some (state.projectDeferralBlock block table)
    | none =>
        if startsWith "conclude." block.name then some (state.warnUnknownConcludeSubblock block)
        else if block.name = ("close" : Str) then some (state.projectCloseBlock block)
        else if block.name = ("resolutions" : Str) then some (state.projectResolutionsBlock block)
        else if block.name = ("shelved" : Str) then
          some (state.warn block (-1) [] retiredShelvedReason)
        else none

def warnUnknownBlock (state : Projector) (block : Block) : Projector :=
  state.warn block (-1) [] "unknown block — no projection rule"

/-- What a block name stands for. -/
inductive BlockKind where
  | prologueVertices
  | prologueEdges
  | hypotheses
  | hypSub (hid : Str) (sub : HypSub)
  | findings
  | leadSub (lead sub : Str)
  | resolution (bucket : ResolutionBucket)
  | tBlock
  | unknown
deriving DecidableEq

/-- The dispatch of the source, in its order. -/
def blockKind (block : Block) : BlockKind :=
  if block.tag = 'V' ∧ block.name = ("prologue.vertices" : Str) then .prologueVertices
  else if block.tag = 'E' ∧ block.name = ("prologue.edges" : Str) then .prologueEdges
  else if block.tag = 'H' ∧ block.name = ("hypothesize.hypotheses" : Str) then .hypotheses
  else
    match (if block.tag = 'H' then hypSubBlock? block.name else none) with
    | some (hid, sub) => .hypSub hid sub
    | none =>
        if block.tag = 'L' ∧ block.name = ("findings" : Str) then .findings
        else
          match leadPrefixRe.matchPrefix block.name with
          | some found => .leadSub ("l-" ++ (found.group 1).getD []) ((found.group 2).getD [])
          | none =>
              match (if block.tag = 'R' then resolutionBucket? block.name else none) with
              | some bucket => .resolution bucket
              | none => if block.tag = 'T' then .tBlock else .unknown

def projectBlock (state : Projector) (block : Block) : Projector :=
  let checked := state.checkOneLineRows block
  match blockKind block with
  | .prologueVertices => checked.projectPrologueVertices block
  | .prologueEdges => checked.projectPrologueEdges block
  | .hypotheses => checked.projectHypothesizeBlock block
  | .hypSub hid sub => checked.projectHypSubblock block hid sub
  | .findings => checked.projectFindingsBlock block
  | .leadSub lead sub => checked.projectLeadSubblock block lead sub
  | .resolution bucket => checked.projectResolutionBlock block bucket
  | .tBlock => (checked.projectTBlock block).getD (checked.warnUnknownBlock block)
  | .unknown => checked.warnUnknownBlock block

def companion (state : Projector) : CompanionBody :=
  ⟨state.prologue, state.hypothesize, state.conclude, state.closedLoops, state.findings.values⟩

end Projector

section Parsing

variable [UnicodeDatabase]

def projectBlocks (blocks : List Block) : Projector :=
  blocks.foldl Projector.projectBlock .start

def companionFromBlocks (blocks : List Block) : CompanionBody × List ParseWarning :=
  let state := (projectBlocks blocks).flushDeferredWarnings
  (state.companion, state.warnings)

def parseDenseCompanion (text : Str) : CompanionBody × List ParseWarning :=
  let fences := (scanFences text).bodies.map tokenizeFence
  let blocks := fences.flatMap Prod.fst
  let warnings := fences.flatMap Prod.snd
  if blocks = [] then (.empty, warnings)
  else
    let (companion, projected) := companionFromBlocks blocks
    (companion, warnings ++ projected)

end Parsing

end Defender.Invlang
