import Defender.Invlang.Walkers

/-!
# What a block can do

Every projection arm is a sequence of primitive edits of the accumulated state.
The edits of a block depend on the state only through the site a hypothesis is
registered at and through the conclusion recorded so far. Invariants of the
projection are proved edit by edit.
-/

namespace Defender.Invlang

open Defender.Python Defender.Library.OrderedDict

/-- What a sub-block attaches to a hypothesis. -/
inductive Attachment where
  | preds (rows : List PredictionRecord)
  | attrPreds (rows : List AttrPredictionRecord)
  | refuts (rows : List RefutationRecord)
  | authz (rows : List AuthorizationContract)
  | parentAttrs (attrs : AttributesMap)

def Attachment.apply (attachment : Attachment) (hyp : HypothesisRecord) : HypothesisRecord :=
  match attachment with
  | .preds rows => { hyp with
      predictions := extendById PredictionRecord.id hyp.predictions rows }
  | .attrPreds rows => { hyp with
      attributePredictions := extendById AttrPredictionRecord.id hyp.attributePredictions rows }
  | .refuts rows => { hyp with
      refutationShape := extendById RefutationRecord.id hyp.refutationShape rows }
  | .authz rows => { hyp with
      authorizationContract := extendById AuthorizationContract.id hyp.authorizationContract rows }
  | .parentAttrs attrs => hyp.updateParentAttrs attrs

/-- What a block does to one lead; `mention` only opens the lead's record. -/
inductive LeadChange where
  | mention
  | amend (header : LeadHeader)
  | vertices (rows : List VertexRecord)
  | edges (rows : List EdgeRecord)
  | declare (hyps : List HypothesisRecord)
  | plan (rows : List LeadPrediction)
  | impact (rows : List ImpactPrediction)
  | resolve (record : ResolutionRecord)
  | ground (bucket : ResolutionBucket) (row : ResolutionRow)
  | refine (target key value : Str)

def LeadOutcome.addVertices (outcome : LeadOutcome) (rows : List VertexRecord) : LeadOutcome :=
  let held := outcome.observations.getD ⟨[], []⟩
  let vertices := extendById VertexRecord.id held.vertices rows
  { outcome with observations := some { held with vertices := vertices } }

def LeadOutcome.addEdges (outcome : LeadOutcome) (rows : List EdgeRecord) : LeadOutcome :=
  let held := outcome.observations.getD ⟨[], []⟩
  let edges := extendById EdgeRecord.id held.edges rows
  { outcome with observations := some { held with edges := edges } }

def LeadChange.apply (change : LeadChange) (lead : FindingRecord) : FindingRecord :=
  match change with
  | .mention => lead
  | .amend header => header.amend lead
  | .vertices rows => { lead with outcome := lead.outcome.addVertices rows }
  | .edges rows => { lead with outcome := lead.outcome.addEdges rows }
  | .declare hyps => { lead with
      newHypotheses := extendById HypothesisRecord.id lead.newHypotheses hyps }
  | .plan rows => { lead with
      predictions := extendById LeadPrediction.id lead.predictions rows }
  | .impact rows => { lead with
      impactPredictions := extendById ImpactPrediction.id lead.impactPredictions rows }
  | .resolve record => { lead with resolutions := lead.resolutions ++ [record] }
  | .ground bucket row => { lead with
      outcome := Projector.addResolutionRow bucket row lead.outcome }
  | .refine target key value => { lead with outcome := { lead.outcome with
      attributeUpdates := addAttrUpdate target key value lead.outcome.attributeUpdates } }

inductive Edit where
  | warn (warnings : List ParseWarning)
  | vertices (rows : List VertexRecord)
  | edges (rows : List EdgeRecord)
  | table (hyps : List HypothesisRecord)
  | register (block : Block) (site : HypSite) (hyp : HypothesisRecord)
  | attach (site : HypSite) (hid : Str) (attachment : Attachment)
  | lead (id : Str) (change : LeadChange)
  | conclude (change : Conclude → Conclude)
  | silentClose (block : Block)
  | closeLoop (loop : Int)

section Applying

variable [UnicodeDatabase]

def Edit.apply (state : Projector) (edit : Edit) : Projector :=
  match edit with
  | .warn warnings => state.addWarnings warnings
  | .vertices rows =>
      let held := state.prologue.getD ⟨[], []⟩
      let vertices := extendById VertexRecord.id held.vertices rows
      { state with prologue := some { held with vertices := vertices } }
  | .edges rows =>
      let held := state.prologue.getD ⟨[], []⟩
      let edges := extendById EdgeRecord.id held.edges rows
      { state with prologue := some { held with edges := edges } }
  | .table hyps =>
      let declared := extendById HypothesisRecord.id (state.hypothesize.getD []) hyps
      { state with hypothesize := some declared }
  | .register block site hyp => state.registerHypothesis block site hyp
  | .attach site hid attachment => state.editHypothesis site hid attachment.apply
  | .lead id change => state.editLead id change.apply
  | .conclude change => state.editConclude change
  | .silentClose block => { state with
      emptyConcludeBlocks := state.emptyConcludeBlocks ++ [block] }
  | .closeLoop loop => { state with closedLoops := state.closedLoops ++ [loop] }

def applyEdits (state : Projector) (edits : List Edit) : Projector := edits.foldl Edit.apply state

end Applying

section Blocks

variable [UnicodeDatabase]

def noteEdit {α : Type*} (block : Block) (projectOne : Block → Str → RowResult α)
    (idOf : α → Str) : Edit :=
  .warn (rowWarnings block projectOne ++
    repeatWarnings block idOf (readRows block projectOne) repeatRemedySecondBlock)

def rowWarn (block : Block) (entry : Str × Nat) (reason : Str) : Edit :=
  .warn [blockWarning block entry.2 entry.1 reason []]

def blockWarn (block : Block) (reason : Str) : Edit := .warn [blockWarning block (-1) [] reason []]

def readRowEdits (block : Block) (defaultCols : List Str)
    (edits : Str × Nat → RowRecord → List Edit) (entry : Str × Nat) : List Edit :=
  match rowDict block entry.1 defaultCols with
  | .error reason => [rowWarn block entry reason]
  | .ok cells => edits entry cells

def rowEdits (block : Block) (defaultCols : List Str)
    (edits : Str × Nat → RowRecord → List Edit) : List Edit :=
  block.rows.zipIdx.flatMap (readRowEdits block defaultCols edits)

def staleHeaderEdit (block : Block) : Edit :=
  .warn [blockWarning block (-1) [] (Projector.staleHypHeaderReason block)
    (block.rows.map rowFirstCell)]

def hypothesizeEdits (block : Block) : List Edit :=
  if !isCurrentHypHeader block.columns then [staleHeaderEdit block]
  else
    let hyps := readRows block hypothesisRecord
    [noteEdit block hypothesisRecord HypothesisRecord.id, .table hyps] ++
      hyps.map (.register block .table)

/-- A `parent_attrs` row without a key enters nothing. -/
def enterParentAttr (block : Block) (attrs : AttributesMap) (row : Str) : AttributesMap :=
  match rowDict block row ["key", "value"] with
  | .error _ => attrs
  | .ok cells =>
      if cellOf cells "key" = [] then attrs
      else attrs.set (cellOf cells "key") (unquotedCell cells "value")

/-- The attributes of a `parent_attrs` block, the last of a key standing. -/
def parentAttrs (block : Block) : AttributesMap :=
  block.rows.foldl (enterParentAttr block) Dict.empty

def parentAttrEdits (block : Block) (entry : Str × Nat) (cells : RowRecord) : List Edit :=
  if cellOf cells "key" = [] then [rowWarn block entry "parent_attrs row missing key"] else []

def attachEdits {α : Type*} (block : Block) (site : HypSite) (hid : Str)
    (projectOne : Block → Str → RowResult α) (idOf : α → Str)
    (attachment : List α → Attachment) : List Edit :=
  noteEdit block projectOne idOf ::
    match readRows block projectOne with
    | [] => []
    | first :: others => [.attach site hid (attachment (first :: others))]

def hypSubEdits (block : Block) (site : HypSite) (hid : Str) (sub : HypSub) : List Edit :=
  match sub with
  | .preds => attachEdits block site hid hypSubPredRow PredictionRecord.id .preds
  | .attrPreds => attachEdits block site hid hypSubAttrPredRow AttrPredictionRecord.id .attrPreds
  | .refuts => attachEdits block site hid hypSubRefutRow RefutationRecord.id .refuts
  | .authz => attachEdits block site hid hypSubAuthzRow AuthorizationContract.id .authz
  | .parentAttrs =>
      let attrs := parentAttrs block
      rowEdits block ["key", "value"] (parentAttrEdits block) ++
        if attrs.isEmpty then [] else [.attach site hid (.parentAttrs attrs)]

/-- A `:L findings` row that names a lead. -/
def findingsCells (block : Block) (row : Str) : Option RowRecord :=
  match rowDict block row [] with
  | .error _ => none
  | .ok cells => if cellOf cells "id" = [] ∨ cellOf cells "name" = [] then none else some cells

def findingsRows (block : Block) : List RowRecord := block.rows.filterMap (findingsCells block)

def rowId (cells : RowRecord) : Str := cellOf cells "id"

def findingsRowEdits (block : Block) (entry : Str × Nat) (cells : RowRecord) : List Edit :=
  if cellOf cells "id" = [] ∨ cellOf cells "name" = [] then
    [rowWarn block entry "findings row missing id/name"]
  else []

def findingsEdits (block : Block) : List Edit :=
  rowEdits block [] (findingsRowEdits block) ++
  [.warn (repeatWarnings block rowId (findingsRows block) repeatRemedyOneBlock)] ++
  (splitRepeats rowId [] (findingsRows block)).1.map fun cells =>
    .lead (rowId cells) (.amend (leadHeaderRecord cells))

def planEdits {α : Type*} (block : Block) (lead : Str) (cols : List Str)
    (projectOne : Block → Str → RowResult α) (idOf : α → Str)
    (change : List α → LeadChange) : List Edit :=
  match Projector.unreadColumns block cols with
  | first :: others =>
      [blockWarn block (Projector.unreadColumnsReason block cols (first :: others))]
  | [] =>
      let rows := Projector.markedRows block projectOne idOf
      [.warn (rowWarnings block projectOne),
        .warn (repeatWarnings block idOf rows repeatRemedySecondBlock),
        .lead lead (change rows)]

def newHypothesesEdits (block : Block) (lead : Str) : List Edit :=
  if !isCurrentHypHeader block.columns then [staleHeaderEdit block]
  else
    let hyps := readRows block hypothesisRecord
    [noteEdit block hypothesisRecord HypothesisRecord.id, .lead lead (.declare hyps)] ++
      hyps.map (.register block (.lead lead))

def leadSubEdits (block : Block) (lead sub : Str) : List Edit :=
  .lead lead .mention ::
    if block.tag = 'V' ∧ sub = ("observations.vertices" : Str) then
      [noteEdit block vertexRecord VertexRecord.id,
        .lead lead (.vertices (readRows block vertexRecord))]
    else if block.tag = 'E' ∧ sub = ("observations.edges" : Str) then
      [noteEdit block edgeRecord EdgeRecord.id, .lead lead (.edges (readRows block edgeRecord))]
    else if block.tag = 'H' ∧ sub = ("new_hypotheses" : Str) then newHypothesesEdits block lead
    else if block.tag = 'L' ∧ sub = ("lead_preds" : Str) then
      planEdits block lead leadPredCols leadPredRow LeadPrediction.id .plan
    else if block.tag = 'L' ∧ sub = ("impact_preds" : Str) then
      planEdits block lead impactPredCols impactPredRow ImpactPrediction.id .impact
    else if block.tag = 'L' ∧ sub = ("substitutions" : Str) then []
    else if block.tag = 'H' then
      [.warn [blockWarning block (-1) [] (Projector.unknownHypSubblockReason sub)
        ((block.rows.map rowFirstCell).filter hypothesisIdRe.fullMatches)]]
    else if block.tag = 'T' ∧ sub = ("shelved" : Str) then
      [blockWarn block Projector.retiredShelvedReason]
    else [blockWarn block (Projector.unknownLeadSubblockReason block.tag sub)]

/-- One `:R` row; a refinement without target or key still opens its lead. -/
def resolutionRowEdits (bucket : ResolutionBucket) (block : Block) (entry : Str × Nat)
    (cells : RowRecord) : List Edit :=
  let lead := Projector.rowLead cells
  if lead = [] then [rowWarn block entry "row has no lead attribution"]
  else
    match bucket with
    | .attrUpdates =>
        if cellOf cells "target" = [] ∨ cellOf cells "key" = [] then
          [.lead lead .mention, rowWarn block entry "attr_updates missing target/key"]
        else
          [.lead lead (.refine (cellOf cells "target") (cellOf cells "key") (cellOf cells "value"))]
    | other => [.lead lead (.ground other (canonicalizeResolutionRow cells))]

def resolutionsEdits (block : Block) : List Edit :=
  block.rows.zipIdx.flatMap fun entry =>
    match resolutionRecord entry.1 with
    | .error reason => [rowWarn block entry reason]
    | .ok (lead, record) =>
        if lead = [] then [rowWarn block entry "resolution has no lead attribution"]
        else [.lead lead (.resolve record)]

def concludeScan (block : Block) (conclude : Conclude) : ConcludeScan :=
  block.rows.zipIdx.foldl (concludeRow block) ⟨conclude, .empty, [], false, []⟩

def concludeEdits (block : Block) (conclude : Conclude) : List Edit :=
  let scan := concludeScan block conclude
  [.warn scan.warnings,
    .conclude fun _ => mergeTermination scan.conclude scan.termination] ++
  if scan.landed then [] else [.silentClose block]

def survivingEdits (block : Block) : List Edit :=
  .conclude (fun conclude => { conclude with
    survivingHypotheses := some (conclude.survivingHypotheses.getD []) }) ::
  rowEdits block survivingCols fun entry cells =>
    let hid := unquotedCell cells "hyp_id"
    if isConcludeEmptyMarker hid then []
    else if hid = [] then [rowWarn block entry Projector.survivingNoIdReason]
    else
      let row : SurvivingHypothesis := ⟨hid, (writtenCell cells "final_weight").map unquote⟩
      [.conclude fun conclude => { conclude with
        survivingHypotheses := some (conclude.survivingHypotheses.getD [] ++ [row]) }]

def deferralEdits (block : Block) (table : DeferralTable) : List Edit :=
  if Projector.deferralHeaderOff block table then
    [blockWarn block (Projector.deferralHeaderReason block table)]
  else
    rowEdits block [table.refCol, "rationale"] fun entry cells =>
      let ref := strip (unquotedCell cells table.refCol)
      let rationale := unquotedCell cells "rationale"
      if isConcludeEmptyMarker ref then []
      else if ref = [] then [rowWarn block entry (Projector.deferralNoRefReason table)]
      else [.conclude (table.add ⟨ref, if rationale ≠ [] then some rationale else none⟩)]

def closeEdits (block : Block) : List Edit :=
  match closeLoop block.rows with
  | none => [.warn [blockWarning block (-1) ((join ['\n'] block.rows).take 200)
      "`:T close` needs a `loop N` (integer) row" []]]
  | some loop => [.closeLoop loop]

def tBlockEdits (block : Block) (conclude : Conclude) : List Edit :=
  if block.name = ("conclude" : Str) then concludeEdits block conclude
  else if block.name = ("conclude.surviving" : Str) then survivingEdits block
  else
    match deferralBlock? block.name with
    | some table => deferralEdits block table
    | none =>
        if startsWith "conclude." block.name then
          if block.name = retiredCeilingTestBlock then []
          else [blockWarn block (Projector.unknownConcludeSubblockReason block)]
        else if block.name = ("close" : Str) then closeEdits block
        else if block.name = ("resolutions" : Str) then resolutionsEdits block
        else if block.name = ("shelved" : Str) then
          [blockWarn block Projector.retiredShelvedReason]
        else [blockWarn block "unknown block — no projection rule"]

def quoteEdit (block : Block) : Edit :=
  .warn (block.rows.zipIdx.filterMap fun entry =>
    if hasUnbalancedQuote entry.1 then
      some (blockWarning block entry.2 entry.1 Projector.unclosedQuoteReason [])
    else none)

def kindEdits (block : Block) (registered : Str → Option HypSite) (conclude : Conclude) :
    List Edit :=
  match Projector.blockKind block with
  | .prologueVertices =>
      [noteEdit block vertexRecord VertexRecord.id, .vertices (readRows block vertexRecord)]
  | .prologueEdges =>
      [noteEdit block edgeRecord EdgeRecord.id, .edges (readRows block edgeRecord)]
  | .hypotheses => hypothesizeEdits block
  | .hypSub hid sub =>
      match registered hid with
      | none => [blockWarn block
          (message ["sub-block references unknown hypothesis ", reprText hid])]
      | some site => hypSubEdits block site hid sub
  | .findings => findingsEdits block
  | .leadSub lead sub => leadSubEdits block lead sub
  | .resolution bucket => rowEdits block [] (resolutionRowEdits bucket block)
  | .tBlock => tBlockEdits block conclude
  | .unknown => [blockWarn block "unknown block — no projection rule"]

def blockEdits (state : Projector) (block : Block) : List Edit :=
  quoteEdit block ::
    kindEdits block state.hypothesesById.get? (state.conclude.getD .empty)

end Blocks

section Replay

variable [UnicodeDatabase] (state : Projector) (block : Block)

theorem apply_edits_append (early late : List Edit) :
    applyEdits state (early ++ late) = applyEdits (applyEdits state early) late :=
  List.foldl_append

theorem apply_edits_cons (edit : Edit) (edits : List Edit) :
    applyEdits state (edit :: edits) = applyEdits (edit.apply state) edits := rfl

theorem foldl_edits {Item : Type*} (step : Projector → Item → Projector)
    (edits : Item → List Edit) (same : ∀ held item, step held item = applyEdits held (edits item))
    (items : List Item) : items.foldl step state = applyEdits state (items.flatMap edits) := by
  induction items generalizing state with
  | nil => rfl
  | cons item rest ih =>
      rw [List.foldl_cons, List.flatMap_cons, apply_edits_append, ← same, ih]

theorem for_each_row_edits (defaultCols : List Str)
    (body : Projector → Nat → Str → RowRecord → Projector)
    (edits : Str × Nat → RowRecord → List Edit)
    (same : ∀ held index row cells,
      body held index row cells = applyEdits held (edits (row, index) cells)) :
    state.forEachRow block defaultCols body = applyEdits state (rowEdits block defaultCols edits) := by
  unfold Projector.forEachRow rowEdits
  apply foldl_edits
  intro held entry
  unfold readRowEdits
  cases rowDict block entry.1 defaultCols with
  | error reason => rfl
  | ok cells => exact same held _ _ cells

theorem register_edits (site : HypSite) (hyps : List HypothesisRecord) :
    state.registerHypotheses block site hyps =
      applyEdits state (hyps.map (.register block site)) := by
  unfold Projector.registerHypotheses applyEdits
  rw [List.foldl_map]
  rfl

theorem hypothesize_edits : state.projectHypothesizeBlock block =
    applyEdits state (hypothesizeEdits block) := by
  unfold Projector.projectHypothesizeBlock hypothesizeEdits
  split
  · rfl
  · dsimp only
    rw [register_edits, apply_edits_append]
    rfl

theorem attach_edits {α : Type*} (site : HypSite) (hid : Str)
    (projectOne : Block → Str → RowResult α) (idOf : α → Str)
    (extend : List α → HypothesisRecord → HypothesisRecord) (attachment : List α → Attachment)
    (same : ∀ rows, (attachment rows).apply = extend rows) :
    state.attachRows block site hid projectOne idOf extend =
      applyEdits state (attachEdits block site hid projectOne idOf attachment) := by
  unfold Projector.attachRows attachEdits
  cases readRows block projectOne with
  | nil => rfl
  | cons first others =>
      dsimp only
      rw [← same]
      rfl

theorem foldl_edits_with {Item Held : Type*} (step : Projector × Held → Item → Projector × Held)
    (edits : Item → List Edit) (enter : Held → Item → Held)
    (same : ∀ held item, step held item = (applyEdits held.1 (edits item), enter held.2 item))
    (items : List Item) (held : Held) : items.foldl step (state, held) =
      (applyEdits state (items.flatMap edits), items.foldl enter held) := by
  induction items generalizing state held with
  | nil => rfl
  | cons item rest ih =>
      rw [List.foldl_cons, List.foldl_cons, List.flatMap_cons, apply_edits_append, same, ih]

theorem parent_attr_row_edits (held : Projector × AttributesMap) (entry : Str × Nat) :
    Projector.parentAttrRow block held entry =
      (applyEdits held.1 (readRowEdits block ["key", "value"] (parentAttrEdits block) entry),
        enterParentAttr block held.2 entry.1) := by
  unfold Projector.parentAttrRow enterParentAttr readRowEdits parentAttrEdits
  cases rowDict block entry.1 ["key", "value"] with
  | error reason => rfl
  | ok cells =>
      dsimp only
      split
      · rfl
      · rfl

theorem parent_attrs_edits (attrs : AttributesMap) :
    block.rows.zipIdx.foldl (Projector.parentAttrRow block) (state, attrs) =
      (applyEdits state (rowEdits block ["key", "value"] (parentAttrEdits block)),
        block.rows.foldl (enterParentAttr block) attrs) := by
  rw [foldl_edits_with state _ _ (fun attrs entry => enterParentAttr block attrs entry.1)
    (parent_attr_row_edits block), ← List.foldl_map, List.zipIdx_map_fst]
  rfl

theorem hyp_sub_edits (site : HypSite) (hid : Str) (sub : HypSub) :
    state.attachHypSubRows block site hid sub =
      applyEdits state (hypSubEdits block site hid sub) := by
  unfold Projector.attachHypSubRows hypSubEdits
  cases sub with
  | preds => exact attach_edits state block site hid _ _ _ _ fun _ => rfl
  | attrPreds => exact attach_edits state block site hid _ _ _ _ fun _ => rfl
  | refuts => exact attach_edits state block site hid _ _ _ _ fun _ => rfl
  | authz => exact attach_edits state block site hid _ _ _ _ fun _ => rfl
  | parentAttrs =>
      dsimp only
      rw [parent_attrs_edits, apply_edits_append]
      dsimp only
      unfold parentAttrs
      split
      · rfl
      · rfl

theorem findings_row_edits (held : Projector × List RowRecord) (entry : Str × Nat) :
    Projector.findingsRow block held entry =
      (applyEdits held.1 (readRowEdits block [] (findingsRowEdits block) entry),
        held.2 ++ (findingsCells block entry.1).toList) := by
  unfold Projector.findingsRow findingsCells readRowEdits findingsRowEdits
  cases rowDict block entry.1 [] with
  | error reason => exact Prod.ext rfl (List.append_nil _).symm
  | ok cells =>
      dsimp only
      split
      · exact Prod.ext rfl (List.append_nil _).symm
      · rfl

theorem findings_rows_edits :
    block.rows.zipIdx.foldl (Projector.findingsRow block) (state, []) =
      (applyEdits state (rowEdits block [] (findingsRowEdits block)), findingsRows block) := by
  have collected : ∀ (rows : List Str) (held : List RowRecord),
      rows.foldl (fun held row => held ++ (findingsCells block row).toList) held =
        held ++ rows.filterMap (findingsCells block) := by
    intro rows
    induction rows with
    | nil => simp
    | cons row rest ih =>
        intro held
        rw [List.foldl_cons, ih, List.filterMap_cons]
        cases findingsCells block row <;> simp
  have indexed : block.rows.zipIdx.foldl
      (fun held entry => held ++ (findingsCells block entry.1).toList) [] =
        block.rows.foldl (fun held row => held ++ (findingsCells block row).toList) [] := by
    have firsts : block.rows.zipIdx.map Prod.fst = block.rows := List.zipIdx_map_fst _ _
    nth_rewrite 2 [← firsts]
    rw [List.foldl_map]
  rw [foldl_edits_with state _ _
    (fun held entry => held ++ (findingsCells block entry.1).toList) (findings_row_edits block),
    indexed, collected, List.nil_append]
  rfl

theorem findings_edits : state.projectFindingsBlock block =
    applyEdits state (findingsEdits block) := by
  unfold Projector.projectFindingsBlock findingsEdits
  rw [findings_rows_edits, apply_edits_append, apply_edits_append]
  dsimp only
  unfold applyEdits
  rw [List.foldl_map]
  rfl

theorem plan_edits {α : Type*} (lead : Str) (cols : List Str)
    (projectOne : Block → Str → RowResult α) (idOf : α → Str)
    (extend : List α → FindingRecord → FindingRecord) (change : List α → LeadChange)
    (same : ∀ rows, (change rows).apply = extend rows) :
    state.projectPlanRows block lead cols projectOne idOf extend =
      applyEdits state (planEdits block lead cols projectOne idOf change) := by
  unfold Projector.projectPlanRows planEdits
  cases Projector.unreadColumns block cols with
  | cons first others => rfl
  | nil =>
      dsimp only
      rw [← same]
      rfl

theorem new_hypotheses_edits (lead : Str) : state.projectNewHypotheses block lead =
    applyEdits state (newHypothesesEdits block lead) := by
  unfold Projector.projectNewHypotheses newHypothesesEdits
  split
  · rfl
  · dsimp only
    rw [register_edits, apply_edits_append]
    rfl

theorem lead_sub_edits (lead sub : Str) : state.projectLeadSubblock block lead sub =
    applyEdits state (leadSubEdits block lead sub) := by
  unfold Projector.projectLeadSubblock leadSubEdits
  rw [apply_edits_cons]
  dsimp only
  split
  · rfl
  · split
    · rfl
    · split
      · exact new_hypotheses_edits _ block lead
      · split
        · exact plan_edits _ block lead _ _ _ _ _ fun _ => rfl
        · split
          · exact plan_edits _ block lead _ _ _ _ _ fun _ => rfl
          · split
            · rfl
            · split
              · rfl
              · split
                · rfl
                · rfl

theorem resolution_row_edits (bucket : ResolutionBucket) (index : Nat) (row : Str)
    (cells : RowRecord) : Projector.resolutionRow bucket block state index row cells =
      applyEdits state (resolutionRowEdits bucket block (row, index) cells) := by
  unfold Projector.resolutionRow resolutionRowEdits
  dsimp only
  split
  · rfl
  · cases bucket with
    | attrUpdates =>
        dsimp only
        unfold Projector.applyAttrUpdate
        split
        · rfl
        · rfl
    | authz => rfl
    | consultations => rfl
    | impact => rfl

theorem resolutions_edits : state.projectResolutionsBlock block =
    applyEdits state (resolutionsEdits block) := by
  unfold Projector.projectResolutionsBlock resolutionsEdits
  apply foldl_edits
  intro held entry
  unfold Projector.resolutionsRow
  cases resolutionRecord entry.1 with
  | error reason => rfl
  | ok found =>
      dsimp only
      split
      · rfl
      · rfl

theorem surviving_edits : state.projectSurvivingBlock block =
    applyEdits state (survivingEdits block) := by
  unfold Projector.projectSurvivingBlock survivingEdits
  rw [apply_edits_cons]
  apply for_each_row_edits
  intro held index row cells
  unfold Projector.survivingRow
  dsimp only
  split
  · rfl
  · split
    · rfl
    · rfl

theorem deferral_edits (table : DeferralTable) : state.projectDeferralBlock block table =
    applyEdits state (deferralEdits block table) := by
  unfold Projector.projectDeferralBlock deferralEdits
  split
  · rfl
  · apply for_each_row_edits
    intro held index row cells
    unfold Projector.deferralRow
    dsimp only
    split
    · rfl
    · split
      · rfl
      · rfl

theorem conclude_edits : state.projectConcludeScalars block =
    applyEdits state (concludeEdits block (state.conclude.getD .empty)) := by
  unfold Projector.projectConcludeScalars concludeEdits concludeScan
  rw [apply_edits_append]
  dsimp only
  split
  · rfl
  · rfl

theorem t_block_edits :
    (state.projectTBlock block).getD (state.warnUnknownBlock block) =
      applyEdits state (tBlockEdits block (state.conclude.getD .empty)) := by
  unfold Projector.projectTBlock tBlockEdits
  split
  · exact conclude_edits state block
  · split
    · exact surviving_edits state block
    · cases deferralBlock? block.name with
      | some table => exact deferral_edits state block table
      | none =>
          dsimp only
          split
          · unfold Projector.warnUnknownConcludeSubblock
            split
            · rfl
            · rfl
          · split
            · unfold Projector.projectCloseBlock closeEdits
              cases closeLoop block.rows with
              | none => rfl
              | some loop => rfl
            · split
              · exact resolutions_edits state block
              · split
                · rfl
                · rfl

/-- A block does what its edits do. -/
theorem project_block_edits : state.projectBlock block =
    applyEdits state (blockEdits state block) := by
  unfold Projector.projectBlock blockEdits kindEdits
  rw [apply_edits_cons]
  cases Projector.blockKind block with
  | prologueVertices => rfl
  | prologueEdges => rfl
  | hypotheses => exact hypothesize_edits _ block
  | hypSub hid sub =>
      change Projector.projectHypSubblock _ block hid sub =
        applyEdits _ (match state.hypothesesById.get? hid with
          | none => _
          | some site => _)
      unfold Projector.projectHypSubblock
      have untouched : (state.checkOneLineRows block).hypothesesById = state.hypothesesById := rfl
      rw [untouched]
      cases state.hypothesesById.get? hid with
      | none => rfl
      | some site => exact hyp_sub_edits _ block site hid sub
  | findings => exact findings_edits _ block
  | leadSub lead sub => exact lead_sub_edits _ block lead sub
  | resolution bucket =>
      apply for_each_row_edits
      intro held index row cells
      exact resolution_row_edits held block bucket index row cells
  | tBlock => exact t_block_edits _ block
  | unknown => rfl

end Replay

end Defender.Invlang
