import Defender.Library.Growth
import Defender.Invlang.EditKinds

/-!
# The projection grows

Projecting one more block keeps every list of the companion as a prefix. Records
inside a list may grow themselves: a hypothesis through its sub-blocks, a lead
through its tables. A value that is there changes only where the block states it
again: a cell of a lead by the lead's own row, a refined key, an attribute of a
parent, a single-valued row of the conclusion. Growth is shown edit by edit.
-/

namespace Defender.Invlang

open Defender.Python Defender.Library.OrderedDict Defender.Library.Growth

/-- A value that a later block can state again. -/
inductive Restatable where
  | cell (lead column : Str)
  | refinement (lead target key : Str)
  | parentAttr (hypothesis key : Str)
  | conclusion (key : Str)

def parentVertex (edge : Option ProposedEdge) : ParentVertex :=
  (edge.bind ProposedEdge.parentVertex).getD .empty

def parentAttributes (edge : Option ProposedEdge) : AttributesMap :=
  (parentVertex edge).attributes.getD Dict.empty

/-- The same proposed edge up to those attributes of the parent that are stated again. -/
structure ParentGrows (again : Str → Prop) (before after : Option ProposedEdge) : Prop where
  relation : before.bind ProposedEdge.relation = after.bind ProposedEdge.relation
  type : (parentVertex before).type = (parentVertex after).type
  classification : (parentVertex before).classification = (parentVertex after).classification
  attributes : KeptUnless again (parentAttributes before) (parentAttributes after)

structure EntryGrows (again : Str → Str → Prop) (before after : AttributeUpdate) : Prop where
  target : before.target = after.target
  updates : KeptUnless (again before.target) before.updates after.updates

/-- The cells of a lead's own row, each under its column. -/
structure CellsKept (again : Str → Prop) (before after : FindingRecord) : Prop where
  name : ¬again "name" → before.name = after.name
  target : ¬again "target" → before.target = after.target
  loop : ¬again "loop" → before.loop = after.loop
  mode : ¬again "mode" → before.mode = after.mode
  trustRootReached : ¬again "trust_root" → before.trustRootReached = after.trustRootReached
  screenResult : ¬again "screen_result" → before.screenResult = after.screenResult
  status : ¬again "status" → before.status = after.status
  testsHypotheses : ¬again "tests" → before.testsHypotheses = after.testsHypotheses
  failureReason : ¬again "fail_reason" →
    before.outcome.failureReason = after.outcome.failureReason
  system : ¬again "system" → before.queryDetails.system = after.queryDetails.system
  template : ¬again "template" → before.queryDetails.template = after.queryDetails.template
  query : ¬again "query" → before.queryDetails.query = after.queryDetails.query
  timeWindow : ¬again "window" → before.queryDetails.timeWindow = after.queryDetails.timeWindow

section Records

variable (restated : Restatable → Prop)

structure HypothesisGrows (before after : HypothesisRecord) : Prop where
  id : before.id = after.id
  name : before.name = after.name
  anchor : before.anchor = after.anchor
  integrityWaived : before.integrityWaived = after.integrityWaived
  weight : before.weight = after.weight
  status : before.status = after.status
  proposedEdge : ParentGrows (fun key => restated (.parentAttr before.id key))
    before.proposedEdge after.proposedEdge
  predictions : before.predictions <+: after.predictions
  attributePredictions : before.attributePredictions <+: after.attributePredictions
  refutationShape : before.refutationShape <+: after.refutationShape
  authorizationContract : before.authorizationContract <+: after.authorizationContract

structure LeadGrows (before after : FindingRecord) : Prop where
  id : before.id = after.id
  cells : CellsKept (fun column => restated (.cell before.id column)) before after
  vertices : leadVertices before <+: leadVertices after
  edges : leadEdges before <+: leadEdges after
  newHypotheses : PrefixUpTo (HypothesisGrows restated) before.newHypotheses after.newHypotheses
  predictions : before.predictions <+: after.predictions
  impactPredictions : before.impactPredictions <+: after.impactPredictions
  resolutions : before.resolutions <+: after.resolutions
  authorizationResolutions :
    before.outcome.authorizationResolutions <+: after.outcome.authorizationResolutions
  anchorConsultations : before.outcome.anchorConsultations <+: after.outcome.anchorConsultations
  impactResolutions : before.outcome.impactResolutions <+: after.outcome.impactResolutions
  attributeUpdates :
    PrefixUpTo (EntryGrows fun target key => restated (.refinement before.id target key))
      before.outcome.attributeUpdates after.outcome.attributeUpdates

structure ConcludeGrows (before after : Conclude) : Prop where
  values : ∀ key, ¬restated (.conclusion key) → concludeValue before key = concludeValue after key
  ceilingTest : before.ceilingTest <+: after.ceilingTest
  survivingHypotheses :
    before.survivingHypotheses.getD [] <+: after.survivingHypotheses.getD []
  deferredAuthorizations : before.deferredAuthorizations <+: after.deferredAuthorizations
  deferredImpactPredictions :
    before.deferredImpactPredictions <+: after.deferredImpactPredictions
  deferredPredictions : before.deferredPredictions <+: after.deferredPredictions

structure CompanionGrows (before after : CompanionBody) : Prop where
  vertices : prologueVertices before <+: prologueVertices after
  edges : prologueEdges before <+: prologueEdges after
  hypotheses :
    PrefixUpTo (HypothesisGrows restated) (tableHypotheses before) (tableHypotheses after)
  conclude : ConcludeGrows restated (before.conclude.getD .empty) (after.conclude.getD .empty)
  closedLoops : before.closedLoops <+: after.closedLoops
  findings : PrefixUpTo (LeadGrows restated) before.findings after.findings

end Records

section Relations

theorem parent_grows_refl (again : Str → Prop) (edge : Option ProposedEdge) :
    ParentGrows again edge edge :=
  ⟨rfl, rfl, rfl, kept_unless_refl _ _⟩

theorem entry_grows_refl (again : Str → Str → Prop) (entry : AttributeUpdate) :
    EntryGrows again entry entry :=
  ⟨rfl, kept_unless_refl _ _⟩

theorem entry_grows_trans {again : Str → Str → Prop} {first second third : AttributeUpdate}
    (early : EntryGrows again first second) (late : EntryGrows again second third) :
    EntryGrows again first third :=
  ⟨early.target.trans late.target,
    kept_unless_trans early.updates (by rw [early.target]; exact late.updates)⟩

theorem cells_kept_of_same {again : Str → Prop} {before after : FindingRecord}
    (cells : (after.name, after.target, after.loop, after.mode, after.trustRootReached,
      after.screenResult, after.status, after.testsHypotheses, after.outcome.failureReason,
      after.queryDetails) = (before.name, before.target, before.loop, before.mode,
      before.trustRootReached, before.screenResult, before.status, before.testsHypotheses,
      before.outcome.failureReason, before.queryDetails)) : CellsKept again before after := by
  simp only [Prod.mk.injEq] at cells
  obtain ⟨name, target, loop, mode, root, screen, status, tests, failed, details⟩ := cells
  constructor <;> intro _ <;> simp only [*]

theorem cells_kept_trans {again : Str → Prop} {first second third : FindingRecord}
    (early : CellsKept again first second) (late : CellsKept again second third) :
    CellsKept again first third where
  name silent := (early.name silent).trans (late.name silent)
  target silent := (early.target silent).trans (late.target silent)
  loop silent := (early.loop silent).trans (late.loop silent)
  mode silent := (early.mode silent).trans (late.mode silent)
  trustRootReached silent := (early.trustRootReached silent).trans (late.trustRootReached silent)
  screenResult silent := (early.screenResult silent).trans (late.screenResult silent)
  status silent := (early.status silent).trans (late.status silent)
  testsHypotheses silent := (early.testsHypotheses silent).trans (late.testsHypotheses silent)
  failureReason silent := (early.failureReason silent).trans (late.failureReason silent)
  system silent := (early.system silent).trans (late.system silent)
  template silent := (early.template silent).trans (late.template silent)
  query silent := (early.query silent).trans (late.query silent)
  timeWindow silent := (early.timeWindow silent).trans (late.timeWindow silent)

variable (restated : Restatable → Prop)

theorem hypothesis_grows_refl (hyp : HypothesisRecord) : HypothesisGrows restated hyp hyp where
  id := rfl
  name := rfl
  anchor := rfl
  integrityWaived := rfl
  weight := rfl
  status := rfl
  proposedEdge := parent_grows_refl _ _
  predictions := List.prefix_refl _
  attributePredictions := List.prefix_refl _
  refutationShape := List.prefix_refl _
  authorizationContract := List.prefix_refl _

theorem lead_grows_refl (lead : FindingRecord) : LeadGrows restated lead lead where
  id := rfl
  cells := cells_kept_of_same rfl
  vertices := List.prefix_refl _
  edges := List.prefix_refl _
  newHypotheses := prefix_up_to_refl (hypothesis_grows_refl restated) _
  predictions := List.prefix_refl _
  impactPredictions := List.prefix_refl _
  resolutions := List.prefix_refl _
  authorizationResolutions := List.prefix_refl _
  anchorConsultations := List.prefix_refl _
  impactResolutions := List.prefix_refl _
  attributeUpdates := prefix_up_to_refl (entry_grows_refl _) _

theorem conclude_grows_refl (conclude : Conclude) : ConcludeGrows restated conclude conclude :=
  ⟨fun _ _ => rfl, List.prefix_refl _, List.prefix_refl _, List.prefix_refl _, List.prefix_refl _,
    List.prefix_refl _⟩

variable {restated}

theorem hypothesis_grows_trans {first second third : HypothesisRecord}
    (early : HypothesisGrows restated first second)
    (late : HypothesisGrows restated second third) : HypothesisGrows restated first third where
  id := early.id.trans late.id
  name := early.name.trans late.name
  anchor := early.anchor.trans late.anchor
  integrityWaived := early.integrityWaived.trans late.integrityWaived
  weight := early.weight.trans late.weight
  status := early.status.trans late.status
  proposedEdge := by
    have edge := late.proposedEdge
    rw [← early.id] at edge
    exact ⟨early.proposedEdge.relation.trans edge.relation,
      early.proposedEdge.type.trans edge.type,
      early.proposedEdge.classification.trans edge.classification,
      kept_unless_trans early.proposedEdge.attributes edge.attributes⟩
  predictions := early.predictions.trans late.predictions
  attributePredictions := early.attributePredictions.trans late.attributePredictions
  refutationShape := early.refutationShape.trans late.refutationShape
  authorizationContract := early.authorizationContract.trans late.authorizationContract

theorem lead_grows_trans {first second third : FindingRecord}
    (early : LeadGrows restated first second) (late : LeadGrows restated second third) :
    LeadGrows restated first third where
  id := early.id.trans late.id
  cells := cells_kept_trans early.cells (by rw [early.id]; exact late.cells)
  vertices := early.vertices.trans late.vertices
  edges := early.edges.trans late.edges
  newHypotheses := prefix_up_to_trans early.newHypotheses late.newHypotheses
    fun _ _ _ => hypothesis_grows_trans
  predictions := early.predictions.trans late.predictions
  impactPredictions := early.impactPredictions.trans late.impactPredictions
  resolutions := early.resolutions.trans late.resolutions
  authorizationResolutions :=
    early.authorizationResolutions.trans late.authorizationResolutions
  anchorConsultations := early.anchorConsultations.trans late.anchorConsultations
  impactResolutions := early.impactResolutions.trans late.impactResolutions
  attributeUpdates := prefix_up_to_trans early.attributeUpdates
    (by rw [early.id]; exact late.attributeUpdates) fun _ _ _ => entry_grows_trans

theorem conclude_grows_trans {first second third : Conclude}
    (early : ConcludeGrows restated first second)
    (late : ConcludeGrows restated second third) : ConcludeGrows restated first third :=
  ⟨fun key silent => (early.values key silent).trans (late.values key silent),
    early.ceilingTest.trans late.ceilingTest,
    early.survivingHypotheses.trans late.survivingHypotheses,
    early.deferredAuthorizations.trans late.deferredAuthorizations,
    early.deferredImpactPredictions.trans late.deferredImpactPredictions,
    early.deferredPredictions.trans late.deferredPredictions⟩

end Relations

section Rows

theorem extend_by_id_grows {α : Type*} (idOf : α → Str) (dest rows : List α) :
    dest <+: extendById idOf dest rows := by
  induction rows generalizing dest with
  | nil => exact List.prefix_refl _
  | cons row rest ih =>
      refine List.IsPrefix.trans ?_ (ih (addById idOf dest row))
      unfold addById
      split
      · exact List.prefix_refl _
      · exact List.prefix_append _ _

theorem change_first_grows {restated : Restatable → Prop} (hid : Str)
    (change : HypothesisRecord → HypothesisRecord)
    (grows : ∀ hyp, hyp.id = hid → HypothesisGrows restated hyp (change hyp))
    (hyps : List HypothesisRecord) :
    PrefixUpTo (HypothesisGrows restated) hyps (changeFirst hid change hyps) := by
  induction hyps with
  | nil => exact .nil _
  | cons hyp rest ih =>
      unfold changeFirst
      split
      · rename_i named
        exact .cons (grows hyp named) (prefix_up_to_refl (hypothesis_grows_refl restated) rest)
      · exact .cons (hypothesis_grows_refl restated hyp) ih

theorem add_attr_update_grows {again : Str → Str → Prop} {target key : Str}
    (entered : again target key) (value : Str) (entries : List AttributeUpdate) :
    PrefixUpTo (EntryGrows again) entries (addAttrUpdate target key value entries) := by
  induction entries with
  | nil => exact .nil _
  | cons entry rest ih =>
      unfold addAttrUpdate
      split
      · rename_i same
        exact .cons ⟨rfl, kept_unless_set (by rw [same]; exact entered) _ _⟩
          (prefix_up_to_refl (entry_grows_refl again) rest)
      · exact .cons (entry_grows_refl again entry) ih

theorem parent_vertex_update (attrs : AttributesMap) (hyp : HypothesisRecord) :
    parentVertex (hyp.updateParentAttrs attrs).proposedEdge =
      { parentVertex hyp.proposedEdge with
        attributes := some ((parentAttributes hyp.proposedEdge).update attrs) } := by
  cases edge : hyp.proposedEdge with
  | none => simp [HypothesisRecord.updateParentAttrs, parentVertex, parentAttributes, edge,
      ProposedEdge.empty, ParentVertex.empty]
  | some held => simp [HypothesisRecord.updateParentAttrs, parentVertex, parentAttributes, edge]

theorem update_parent_attrs_grows {again : Str → Prop} {attrs : AttributesMap}
    (entered : ∀ key ∈ attrs.keys, again key) (hyp : HypothesisRecord) :
    ParentGrows again hyp.proposedEdge (hyp.updateParentAttrs attrs).proposedEdge := by
  have parent := parent_vertex_update attrs hyp
  refine ⟨?_, ?_, ?_, ?_⟩
  · cases edge : hyp.proposedEdge <;>
      simp [HypothesisRecord.updateParentAttrs, edge, ProposedEdge.empty]
  · rw [parent]
  · rw [parent]
  · rw [parentAttributes, parentAttributes, parent]
    exact kept_unless_update entered _

/-- A row states its lead's name and target, without a target the empty one, and those of the
other cells that hold something. -/
def StatesCell (cells : RowRecord) (column : Str) : Prop :=
  column = "name" ∨ column = "target" ∨ cellOf cells column ≠ []

theorem amend_cells_kept [UnicodeDatabase] {again : Str → Prop} {cells : RowRecord}
    (stated : ∀ column, StatesCell cells column → again column) (lead : FindingRecord) :
    CellsKept again lead ((leadHeaderRecord cells).amend lead) := by
  have unwritten : ∀ {column : Str}, ¬again column → writtenCell cells column = none := by
    intro column silent
    refine if_neg fun written => silent (stated column (.inr (.inr written)))
  constructor
  · exact fun silent => absurd (stated "name" (.inl rfl)) silent
  · exact fun silent => absurd (stated "target" (.inr (.inl rfl))) silent
  all_goals
    intro silent
    simp only [LeadHeader.amend, leadHeaderRecord, unwritten silent, Option.map_none,
      Option.none_or, Option.getD_none]

end Rows

section Edits

variable [UnicodeDatabase] (restated : Restatable → Prop)

/-- What the change states again is admitted. -/
def LeadChange.Admitted (lead : Str) : LeadChange → Prop
  | .amend header => ∃ cells, header = leadHeaderRecord cells ∧
      ∀ column, StatesCell cells column → restated (.cell lead column)
  | .refine target key _ => restated (.refinement lead target key)
  | _ => True

def Edit.Admitted (held : Conclude) : Edit → Prop
  | .attach _ hid (.parentAttrs attrs) => ∀ key ∈ attrs.keys, restated (.parentAttr hid key)
  | .lead id change => change.Admitted restated id
  | .conclude change => ConcludeGrows restated held (change held)
  | _ => True

/-- Growth of the accumulated state; the leads are compared under their ids. -/
structure ProjectorGrows (before after : Projector) : Prop where
  vertices : prologueVertices before.companion <+: prologueVertices after.companion
  edges : prologueEdges before.companion <+: prologueEdges after.companion
  hypotheses : PrefixUpTo (HypothesisGrows restated) (before.hypothesize.getD [])
    (after.hypothesize.getD [])
  conclude : ConcludeGrows restated (before.conclude.getD .empty) (after.conclude.getD .empty)
  closedLoops : before.closedLoops <+: after.closedLoops
  findings : DictGrows (LeadGrows restated) before.findings after.findings

/-- Each lead is held under its id. -/
def Named (state : Projector) : Prop :=
  ∀ key lead, state.findings.get? key = some lead → lead.id = key

omit [UnicodeDatabase] in
theorem projector_grows_refl (state : Projector) : ProjectorGrows restated state state :=
  ⟨List.prefix_refl _, List.prefix_refl _, prefix_up_to_refl (hypothesis_grows_refl restated) _,
    conclude_grows_refl restated _, List.prefix_refl _, dict_grows_refl (lead_grows_refl restated) _⟩

variable {restated}

omit [UnicodeDatabase] in
theorem projector_grows_trans {first second third : Projector}
    (early : ProjectorGrows restated first second) (late : ProjectorGrows restated second third) :
    ProjectorGrows restated first third :=
  ⟨early.vertices.trans late.vertices, early.edges.trans late.edges,
    prefix_up_to_trans early.hypotheses late.hypotheses fun _ _ _ => hypothesis_grows_trans,
    conclude_grows_trans early.conclude late.conclude,
    early.closedLoops.trans late.closedLoops,
    dict_grows_trans early.findings late.findings fun _ _ _ => lead_grows_trans⟩

omit [UnicodeDatabase] in
theorem ProjectorGrows.companion {before after : Projector}
    (grows : ProjectorGrows restated before after) :
    CompanionGrows restated before.companion after.companion :=
  ⟨grows.vertices, grows.edges, grows.hypotheses, grows.conclude, grows.closedLoops,
    dict_grows_values grows.findings⟩

theorem attachment_grows {site : HypSite} {hid : Str} {held : Conclude} (attachment : Attachment)
    (admitted : (Edit.attach site hid attachment).Admitted restated held) (hyp : HypothesisRecord)
    (named : hyp.id = hid) : HypothesisGrows restated hyp (attachment.apply hyp) := by
  cases attachment with
  | preds rows =>
      exact { hypothesis_grows_refl restated hyp with predictions := extend_by_id_grows _ _ _ }
  | attrPreds rows =>
      exact { hypothesis_grows_refl restated hyp with
        attributePredictions := extend_by_id_grows _ _ _ }
  | refuts rows =>
      exact { hypothesis_grows_refl restated hyp with refutationShape := extend_by_id_grows _ _ _ }
  | authz rows =>
      exact { hypothesis_grows_refl restated hyp with
        authorizationContract := extend_by_id_grows _ _ _ }
  | parentAttrs attrs =>
      exact { hypothesis_grows_refl restated hyp with
        proposedEdge := update_parent_attrs_grows (by rw [named]; exact admitted) hyp }

theorem lead_change_grows {id : Str} (change : LeadChange)
    (admitted : change.Admitted restated id) (lead : FindingRecord) (named : lead.id = id) :
    LeadGrows restated lead (change.apply lead) := by
  subst named
  cases change with
  | mention => exact lead_grows_refl restated lead
  | amend header =>
      obtain ⟨cells, rfl, stated⟩ := admitted
      exact { lead_grows_refl restated lead with
        id := rfl
        cells := amend_cells_kept stated lead }
  | vertices rows =>
      refine { lead_grows_refl restated lead with
        cells := cells_kept_of_same rfl, vertices := ?_, edges := ?_ } <;>
        cases seen : lead.outcome.observations <;>
        simp [leadVertices, leadEdges, LeadChange.apply, LeadOutcome.addVertices, seen,
          extend_by_id_grows]
  | edges rows =>
      refine { lead_grows_refl restated lead with
        cells := cells_kept_of_same rfl, vertices := ?_, edges := ?_ } <;>
        cases seen : lead.outcome.observations <;>
        simp [leadVertices, leadEdges, LeadChange.apply, LeadOutcome.addEdges, seen,
          extend_by_id_grows]
  | declare hyps =>
      exact { lead_grows_refl restated lead with
        cells := cells_kept_of_same rfl
        newHypotheses := prefix_up_to_of_prefix (hypothesis_grows_refl restated)
          (extend_by_id_grows _ _ _) }
  | plan rows =>
      exact { lead_grows_refl restated lead with
        cells := cells_kept_of_same rfl, predictions := extend_by_id_grows _ _ _ }
  | impact rows =>
      exact { lead_grows_refl restated lead with
        cells := cells_kept_of_same rfl, impactPredictions := extend_by_id_grows _ _ _ }
  | resolve record =>
      exact { lead_grows_refl restated lead with
        cells := cells_kept_of_same rfl, resolutions := List.prefix_append _ _ }
  | ground bucket row =>
      cases bucket with
      | attrUpdates => exact lead_grows_refl restated lead
      | authz =>
          exact { lead_grows_refl restated lead with
            cells := cells_kept_of_same rfl
            authorizationResolutions := List.prefix_append _ _ }
      | consultations =>
          exact { lead_grows_refl restated lead with
            cells := cells_kept_of_same rfl, anchorConsultations := List.prefix_append _ _ }
      | impact =>
          exact { lead_grows_refl restated lead with
            cells := cells_kept_of_same rfl, impactResolutions := List.prefix_append _ _ }
  | refine target key value =>
      exact { lead_grows_refl restated lead with
        cells := cells_kept_of_same rfl
        attributeUpdates := add_attr_update_grows admitted value _ }

omit [UnicodeDatabase] in
theorem edit_lead_grows {state : Projector} (named : Named state) (id : Str)
    (change : FindingRecord → FindingRecord)
    (grows : ∀ lead, lead.id = id → LeadGrows restated lead (change lead)) :
    ProjectorGrows restated state (state.editLead id change) ∧
      Named (state.editLead id change) := by
  refine ⟨{ projector_grows_refl restated state with
    findings := dict_grows_modify (lead_grows_refl restated) state.findings id (freshLead id)
      change fun lead held => grows lead (named id lead held) }, fun key lead held => ?_⟩
  simp only [Projector.editLead, Dict.get_modify] at held
  split at held
  · rename_i same
    rw [← Option.some.inj held, ← same]
    cases found : state.findings.get? id with
    | none => exact (grows _ rfl).id.symm
    | some lead => exact ((grows lead (named id lead found)).id.symm.trans (named id lead found))
  · exact named key lead held

theorem register_grows (state : Projector) (block : Block) (site : HypSite)
    (hyp : HypothesisRecord) :
    ProjectorGrows restated state (state.registerHypothesis block site hyp) ∧
      (state.registerHypothesis block site hyp).findings = state.findings := by
  unfold Projector.registerHypothesis
  cases site with
  | table =>
      dsimp only
      split_ifs <;> exact ⟨{ projector_grows_refl restated state with }, rfl⟩
  | lead id =>
      dsimp only
      split_ifs <;> exact ⟨{ projector_grows_refl restated state with }, rfl⟩

theorem edit_grows {state : Projector} (named : Named state) (edit : Edit)
    (admitted : edit.Admitted restated (state.conclude.getD .empty)) :
    ProjectorGrows restated state (edit.apply state) ∧ Named (edit.apply state) := by
  cases edit with
  | warn warnings => exact ⟨{ projector_grows_refl restated state with }, named⟩
  | vertices rows =>
      refine ⟨{ projector_grows_refl restated state with vertices := ?_, edges := ?_ }, named⟩ <;>
        cases held : state.prologue <;>
        simp [Edit.apply, prologueVertices, prologueEdges, Projector.companion, held,
          extend_by_id_grows]
  | edges rows =>
      refine ⟨{ projector_grows_refl restated state with vertices := ?_, edges := ?_ }, named⟩ <;>
        cases held : state.prologue <;>
        simp [Edit.apply, prologueVertices, prologueEdges, Projector.companion, held,
          extend_by_id_grows]
  | table hyps =>
      exact ⟨{ projector_grows_refl restated state with
        hypotheses := prefix_up_to_of_prefix (hypothesis_grows_refl restated)
          (extend_by_id_grows _ _ _) }, named⟩
  | register block site hyp =>
      have registered : ProjectorGrows restated state _ ∧ _ := register_grows state block site hyp
      exact ⟨registered.1, by unfold Named; rw [Edit.apply, registered.2]; exact named⟩
  | attach site hid attachment =>
      have grows := attachment_grows attachment admitted
      cases site with
      | table =>
          refine ⟨{ projector_grows_refl restated state with hypotheses := ?_ }, named⟩
          cases held : state.hypothesize with
          | none => exact .nil _
          | some hyps =>
              simpa [Edit.apply, Projector.editHypothesis, held] using
                change_first_grows hid attachment.apply grows hyps
      | lead id =>
          refine edit_lead_grows named id _ fun lead _ => ?_
          exact { lead_grows_refl restated lead with
            cells := cells_kept_of_same rfl
            newHypotheses := change_first_grows hid attachment.apply grows lead.newHypotheses }
  | lead id change => exact edit_lead_grows named id _ (lead_change_grows change admitted)
  | conclude change => exact ⟨{ projector_grows_refl restated state with conclude := admitted }, named⟩
  | silentClose block => exact ⟨{ projector_grows_refl restated state with }, named⟩
  | closeLoop loop =>
      exact ⟨{ projector_grows_refl restated state with closedLoops := List.prefix_append _ _ },
        named⟩

theorem apply_edits_grow {edits : List Edit} {state : Projector} (named : Named state)
    (admitted : ∀ edit ∈ edits, ∀ held, edit.Admitted restated held) :
    ProjectorGrows restated state (applyEdits state edits) ∧ Named (applyEdits state edits) := by
  induction edits generalizing state with
  | nil => exact ⟨projector_grows_refl restated state, named⟩
  | cons edit rest ih =>
      have first := edit_grows named edit (admitted edit List.mem_cons_self _)
      have others := ih first.2 fun other member => admitted other (List.mem_cons_of_mem _ member)
      exact ⟨projector_grows_trans first.1 others.1, others.2⟩

end Edits

section Blocks

variable [UnicodeDatabase]

/-- What the rows of a block state of what may be stated again. -/
def Block.states (block : Block) : Restatable → Prop
  | .cell lead column => Projector.blockKind block = .findings ∧ ∃ row ∈ block.rows,
      ∃ cells, rowDict block row [] = .ok cells ∧ cellOf cells "id" = lead ∧
        StatesCell cells column
  | .refinement lead target key => Projector.blockKind block = .resolution .attrUpdates ∧
      ∃ row ∈ block.rows, ∃ cells, rowDict block row [] = .ok cells ∧
        Projector.rowLead cells = lead ∧ cellOf cells "target" = target ∧ cellOf cells "key" = key
  | .parentAttr hypothesis key =>
      Projector.blockKind block = .hypSub hypothesis .parentAttrs ∧ ∃ row ∈ block.rows,
        ∃ cells, rowDict block row ["key", "value"] = .ok cells ∧ cellOf cells "key" = key
  | .conclusion key => Projector.blockKind block = .tBlock ∧ block.name = ("conclude" : Str) ∧
      ∃ row ∈ block.rows, ∃ line, concludeRowRe.matchPrefix row = some line ∧
        (line.group 1).getD [] = key

variable {block : Block}

omit [UnicodeDatabase] in
/-- The kinds of edit that state nothing again. -/
theorem admitted_of_kind [UnicodeDatabase] {restated : Restatable → Prop} {edit : Edit}
    (plain : [EditKind.warn, .prologue, .table, .register, .lead, .declare].contains edit.kind =
      true) (held : Conclude) : edit.Admitted restated held := by
  cases edit with
  | lead id change =>
      cases change with
      | amend header => cases plain
      | refine target key value => cases plain
      | _ => trivial
  | attach site hid attachment => cases plain
  | conclude change => cases plain
  | _ => trivial

theorem rows_admitted {restated : Restatable → Prop} {held : Conclude} {defaultCols : List Str}
    {edits : Str × Nat → RowRecord → List Edit}
    (each : ∀ entry, entry.1 ∈ block.rows → ∀ cells,
      rowDict block entry.1 defaultCols = .ok cells →
        ∀ edit ∈ edits entry cells, edit.Admitted restated held) :
    ∀ edit ∈ rowEdits block defaultCols edits, edit.Admitted restated held := by
  intro edit member
  obtain ⟨entry, listed, found⟩ := List.mem_flatMap.mp member
  unfold readRowEdits at found
  split at found
  · rw [List.mem_singleton.mp found]
    trivial
  · rename_i cells read
    exact each entry (List.fst_mem_of_mem_zipIdx listed) cells read edit found

theorem findings_cells_stated {cells : RowRecord} (member : cells ∈ findingsRows block) :
    ∃ row ∈ block.rows, rowDict block row [] = .ok cells := by
  obtain ⟨row, listed, read⟩ := List.mem_filterMap.mp member
  unfold findingsCells at read
  split at read
  · cases read
  · rename_i found made
    split at read
    · cases read
    · exact ⟨row, listed, by rw [made, Option.some.inj read]⟩

omit [UnicodeDatabase] in
theorem split_repeats_subset {α : Type*} (idOf : α → Str) (rows : List α) (seen : List Str) :
    ∀ row ∈ (splitRepeats idOf seen rows).1, row ∈ rows := by
  induction rows generalizing seen with
  | nil => exact fun _ member => member
  | cons row rest ih =>
      intro kept member
      unfold splitRepeats at member
      dsimp only at member
      split at member
      · rcases List.mem_cons.mp member with rfl | later
        · exact List.mem_cons_self
        · exact List.mem_cons_of_mem _ (ih _ kept later)
      · split at member
        · exact List.mem_cons_of_mem _ (ih _ kept member)
        · rcases List.mem_cons.mp member with rfl | later
          · exact List.mem_cons_self
          · exact List.mem_cons_of_mem _ (ih _ kept later)

section Stating

variable {restated : Restatable → Prop} (stated : ∀ item, block.states item → restated item)

include stated

theorem findings_admitted (kind : Projector.blockKind block = .findings) (held : Conclude) :
    ∀ edit ∈ findingsEdits block, edit.Admitted restated held := by
  intro edit member
  rcases List.mem_append.mp member with early | amends
  · rcases List.mem_append.mp early with row | again
    · exact admitted_of_kind (within_mono (findings_rows_within block) rfl edit row) held
    · rw [List.mem_singleton.mp again]
      trivial
  · obtain ⟨cells, kept, rfl⟩ := List.mem_map.mp amends
    obtain ⟨row, listed, read⟩ :=
      findings_cells_stated (split_repeats_subset rowId _ _ cells kept)
    exact ⟨cells, rfl, fun column cell =>
      stated (.cell _ column) ⟨kind, row, listed, cells, read, rfl, cell⟩⟩

theorem resolution_row_admitted {bucket : ResolutionBucket}
    (kind : Projector.blockKind block = .resolution bucket) (held : Conclude) (entry : Str × Nat)
    (listed : entry.1 ∈ block.rows) (cells : RowRecord)
    (read : rowDict block entry.1 [] = .ok cells) :
    ∀ edit ∈ resolutionRowEdits bucket block entry cells, edit.Admitted restated held := by
  unfold resolutionRowEdits
  dsimp only
  split
  · exact fun edit member => List.mem_singleton.mp member ▸ trivial
  · cases bucket with
    | attrUpdates =>
        dsimp only
        split
        · rw [List.forall_mem_cons]
          exact ⟨trivial, fun edit member => List.mem_singleton.mp member ▸ trivial⟩
        · intro edit member
          rw [List.mem_singleton.mp member]
          exact stated (.refinement _ _ _) ⟨kind, entry.1, listed, cells, read, rfl, rfl, rfl⟩
    | _ => exact fun edit member => List.mem_singleton.mp member ▸ trivial

omit stated in
theorem parent_attrs_stated (rows : List Str) (attrs : AttributesMap) {key : Str}
    (member : key ∈ (rows.foldl (enterParentAttr block) attrs).keys) :
    key ∈ attrs.keys ∨ ∃ row ∈ rows, ∃ cells,
      rowDict block row ["key", "value"] = .ok cells ∧ cellOf cells "key" = key := by
  induction rows generalizing attrs with
  | nil => exact .inl member
  | cons row rest ih =>
      rcases ih _ member with entered | ⟨later, listed, stated⟩
      · unfold enterParentAttr at entered
        split at entered
        · exact .inl entered
        · rename_i cells read
          split at entered
          · exact .inl entered
          · rw [Dict.keys_set] at entered
            split at entered
            · exact .inl entered
            · rcases List.mem_append.mp entered with before | new
              · exact .inl before
              · exact .inr ⟨row, List.mem_cons_self, cells, read,
                  (List.mem_singleton.mp new).symm⟩
      · exact .inr ⟨later, List.mem_cons_of_mem _ listed, stated⟩

theorem hyp_sub_admitted {hid : Str} {sub : HypSub}
    (kind : Projector.blockKind block = .hypSub hid sub) (site : HypSite) (held : Conclude) :
    ∀ edit ∈ hypSubEdits block site hid sub, edit.Admitted restated held := by
  have attached : ∀ {α : Type} (projectOne : Block → Str → RowResult α) (idOf : α → Str)
      (attachment : List α → Attachment),
      (∀ rows, (Edit.attach site hid (attachment rows)).Admitted restated held) →
      ∀ edit ∈ attachEdits block site hid projectOne idOf attachment,
        edit.Admitted restated held := by
    intro α projectOne idOf attachment each
    unfold attachEdits
    rw [List.forall_mem_cons]
    refine ⟨trivial, ?_⟩
    split
    · exact fun _ member => nomatch member
    · exact fun edit member => List.mem_singleton.mp member ▸ each _
  unfold hypSubEdits
  cases sub with
  | preds => exact attached _ _ _ fun _ => trivial
  | attrPreds => exact attached _ _ _ fun _ => trivial
  | refuts => exact attached _ _ _ fun _ => trivial
  | authz => exact attached _ _ _ fun _ => trivial
  | parentAttrs =>
      dsimp only
      rw [List.forall_mem_append]
      constructor
      · refine rows_admitted fun entry _ cells _ => ?_
        unfold parentAttrEdits
        split
        · exact fun edit member => List.mem_singleton.mp member ▸ trivial
        · exact fun _ member => nomatch member
      · split
        · exact fun _ member => nomatch member
        · intro edit member
          rw [List.mem_singleton.mp member]
          intro key entered
          rcases parent_attrs_stated block.rows Dict.empty entered with none | row
          · cases none
          · exact stated (.parentAttr _ _) ⟨kind, row⟩

end Stating

omit [UnicodeDatabase] in
theorem conclude_field_name {key : Str} {field : ConcludeField}
    (found : concludeField? key = some field) : field.name = key := by
  unfold concludeField? at found
  simpa using List.find?_some found

omit [UnicodeDatabase] in
theorem land_conclude_row_grows {restated : Restatable → Prop} (scan : ConcludeScan) {key : Str}
    (value : Option Str) (stated : restated (.conclusion key)) :
    ConcludeGrows restated scan.conclude (landConcludeRow scan key value).conclude := by
  unfold landConcludeRow
  dsimp only
  split_ifs with category rationale ceiling
  · exact conclude_grows_refl restated _
  · exact conclude_grows_refl restated _
  · cases value with
    | none => exact conclude_grows_refl restated _
    | some text =>
        dsimp only
        split
        · exact conclude_grows_refl restated _
        · exact { conclude_grows_refl restated scan.conclude with
            values := fun _ _ => rfl
            ceilingTest := List.prefix_append _ _ }
  · split
    · rename_i field found
      refine { conclude_grows_refl restated scan.conclude with values := fun other silent => ?_ }
      unfold concludeValue
      split_ifs
      · rfl
      · rfl
      · cases named : concludeField? other with
        | none => rfl
        | some held =>
            rw [Option.bind_some, Option.bind_some, Dict.get_set, if_neg]
            rintro rfl
            have same : key = other := by
              rw [← conclude_field_name found, ← conclude_field_name named]
            exact silent (same ▸ stated)
    · exact conclude_grows_refl restated _

/-- Where a `:T conclude` row puts a termination, the block's scan has it under its key. -/
structure TerminationStated (restated : Restatable → Prop) (termination : Termination) : Prop where
  category : termination.category.isSome → restated (.conclusion terminationCategoryKey)
  rationale : termination.rationale.isSome → restated (.conclusion terminationRationaleKey)

omit [UnicodeDatabase] in
theorem land_conclude_row_termination {restated : Restatable → Prop} (scan : ConcludeScan)
    {key : Str} (value : Option Str) (stated : restated (.conclusion key))
    (known : TerminationStated restated scan.termination) :
    TerminationStated restated (landConcludeRow scan key value).termination := by
  unfold landConcludeRow
  dsimp only
  split_ifs with category rationale ceiling
  · exact ⟨fun _ => category ▸ stated, known.rationale⟩
  · exact ⟨known.category, fun _ => rationale ▸ stated⟩
  · cases value with
    | none => exact known
    | some text =>
        dsimp only
        split <;> exact known
  · split <;> exact known

theorem conclude_rows_grow {restated : Restatable → Prop} {rows : List (Str × Nat)}
    (stated : ∀ entry ∈ rows, ∀ line, concludeRowRe.matchPrefix entry.1 = some line →
      restated (.conclusion ((line.group 1).getD [])))
    (scan : ConcludeScan) (known : TerminationStated restated scan.termination) :
    ConcludeGrows restated scan.conclude (rows.foldl (concludeRow block) scan).conclude ∧
      TerminationStated restated (rows.foldl (concludeRow block) scan).termination := by
  induction rows generalizing scan with
  | nil => exact ⟨conclude_grows_refl restated _, known⟩
  | cons entry rest ih =>
      have first : ConcludeGrows restated scan.conclude (concludeRow block scan entry).conclude ∧
          TerminationStated restated (concludeRow block scan entry).termination := by
        unfold concludeRow
        split
        · exact ⟨conclude_grows_refl restated _, known⟩
        · rename_i line read
          have key := stated entry List.mem_cons_self line read
          let noted (warnings : List ParseWarning) : ConcludeScan :=
            { scan with warnings := scan.warnings ++ warnings }
          exact ⟨land_conclude_row_grows (noted _) _ key,
            land_conclude_row_termination (noted _) _ key known⟩
      have others := ih (fun other member => stated other (List.mem_cons_of_mem _ member)) _ first.2
      exact ⟨conclude_grows_trans first.1 others.1, others.2⟩

omit [UnicodeDatabase] in
theorem merge_termination_grows {restated : Restatable → Prop} (conclude : Conclude)
    {termination : Termination} (known : TerminationStated restated termination) :
    ConcludeGrows restated conclude (mergeTermination conclude termination) := by
  unfold mergeTermination
  split
  · exact conclude_grows_refl restated _
  · refine { conclude_grows_refl restated conclude with values := fun key silent => ?_ }
    unfold concludeValue
    split_ifs with category rationale
    · subst category
      cases stated : termination.category with
      | none => cases conclude.termination <;> simp [Termination.empty]
      | some value => exact absurd (known.category (by rw [stated]; rfl)) silent
    · subst rationale
      cases stated : termination.rationale with
      | none => cases conclude.termination <;> simp [Termination.empty]
      | some value => exact absurd (known.rationale (by rw [stated]; rfl)) silent
    · rfl

theorem conclude_block_grows {restated : Restatable → Prop}
    (stated : ∀ item, block.states item → restated item)
    (kind : Projector.blockKind block = .tBlock) (named : block.name = ("conclude" : Str))
    (conclude : Conclude) :
    ConcludeGrows restated conclude (mergeTermination (concludeScan block conclude).conclude
      (concludeScan block conclude).termination) := by
  have keys : ∀ entry ∈ block.rows.zipIdx, ∀ line, concludeRowRe.matchPrefix entry.1 = some line →
      restated (.conclusion ((line.group 1).getD [])) := fun entry listed line read =>
    stated (.conclusion _)
      ⟨kind, named, entry.1, List.fst_mem_of_mem_zipIdx listed, line, read, rfl⟩
  have rows : ConcludeGrows restated conclude (concludeScan block conclude).conclude ∧
      TerminationStated restated (concludeScan block conclude).termination :=
    conclude_rows_grow keys ⟨conclude, .empty, [], false, []⟩ ⟨nofun, nofun⟩
  exact conclude_grows_trans rows.1 (merge_termination_grows _ rows.2)

theorem surviving_admitted {restated : Restatable → Prop} (held : Conclude) :
    ∀ edit ∈ survivingEdits block, edit.Admitted restated held := by
  unfold survivingEdits
  rw [List.forall_mem_cons]
  constructor
  · exact { conclude_grows_refl restated held with
      values := fun _ _ => rfl, survivingHypotheses := by simp }
  · refine rows_admitted fun entry _ cells _ => ?_
    dsimp only
    split
    · exact fun _ member => nomatch member
    · split
      · exact fun edit member => List.mem_singleton.mp member ▸ trivial
      · intro edit member
        rw [List.mem_singleton.mp member]
        exact { conclude_grows_refl restated held with
          values := fun _ _ => rfl, survivingHypotheses := by simp }

theorem deferral_admitted {restated : Restatable → Prop} (table : DeferralTable)
    (held : Conclude) : ∀ edit ∈ deferralEdits block table, edit.Admitted restated held := by
  unfold deferralEdits
  split
  · exact fun edit member => List.mem_singleton.mp member ▸ trivial
  · refine rows_admitted fun entry _ cells _ => ?_
    dsimp only
    split
    · exact fun _ member => nomatch member
    · split
      · exact fun edit member => List.mem_singleton.mp member ▸ trivial
      · intro edit member
        rw [List.mem_singleton.mp member]
        cases table with
        | authz =>
            exact { conclude_grows_refl restated held with
              values := fun _ _ => rfl, deferredAuthorizations := List.prefix_append _ _ }
        | impact =>
            exact { conclude_grows_refl restated held with
              values := fun _ _ => rfl, deferredImpactPredictions := List.prefix_append _ _ }
        | preds =>
            exact { conclude_grows_refl restated held with
              values := fun _ _ => rfl, deferredPredictions := List.prefix_append _ _ }

/-- Of a `:T` block only the conclusion's own rows depend on the conclusion so far. -/
theorem t_block_admitted {restated : Restatable → Prop} (conclude held : Conclude)
    (other : block.name ≠ ("conclude" : Str)) :
    ∀ edit ∈ tBlockEdits block conclude, edit.Admitted restated held := by
  have warned : ∀ reason, ∀ edit ∈ [blockWarn block reason], edit.Admitted restated held :=
    fun reason edit member => List.mem_singleton.mp member ▸ trivial
  by_cases resolves : block.name = ("resolutions" : Str)
  · rw [t_block_resolutions block conclude resolves]
    exact fun edit member =>
      admitted_of_kind (within_mono (resolutions_within block) rfl edit member) held
  · unfold tBlockEdits
    rw [if_neg other]
    split
    · exact surviving_admitted held
    · split
      · exact deferral_admitted _ held
      · split
        · split
          · exact fun _ member => nomatch member
          · exact warned _
        · split
          · unfold closeEdits
            split <;> exact fun edit member => List.mem_singleton.mp member ▸ trivial
          · split <;> exact warned _

theorem kind_edits_admitted {restated : Restatable → Prop}
    (stated : ∀ item, block.states item → restated item) (registered : Str → Option HypSite)
    (conclude held : Conclude)
    (other : Projector.blockKind block = .tBlock → block.name ≠ ("conclude" : Str)) :
    ∀ edit ∈ kindEdits block registered conclude, edit.Admitted restated held := by
  have within := kind_edits_within block registered conclude
  cases kind : Projector.blockKind block with
  | findings =>
      rw [kindEdits, kind]
      exact findings_admitted stated kind held
  | hypSub hid sub =>
      rw [kindEdits, kind]
      dsimp only
      split
      · exact fun edit member => List.mem_singleton.mp member ▸ trivial
      · exact hyp_sub_admitted stated kind _ held
  | resolution bucket =>
      rw [kindEdits, kind]
      exact rows_admitted (resolution_row_admitted stated kind held)
  | tBlock =>
      rw [kindEdits, kind]
      exact t_block_admitted conclude held (other kind)
  | _ =>
      rw [kind] at within
      exact fun edit member => admitted_of_kind (within_mono within rfl edit member) held

theorem project_block_grows {restated : Restatable → Prop} {state : Projector}
    (named : Named state) (block : Block) (stated : ∀ item, block.states item → restated item) :
    ProjectorGrows restated state (state.projectBlock block) ∧
      Named (state.projectBlock block) := by
  rw [project_block_edits, blockEdits, apply_edits_cons]
  have noted : ProjectorGrows restated state ((quoteEdit block).apply state) :=
    { projector_grows_refl restated state with }
  have still : Named ((quoteEdit block).apply state) := named
  by_cases concludes : Projector.blockKind block = .tBlock ∧ block.name = ("conclude" : Str)
  · obtain ⟨kind, name⟩ := concludes
    rw [kindEdits, kind]
    dsimp only
    rw [tBlockEdits, if_pos name, concludeEdits, apply_edits_append, apply_edits_cons,
      apply_edits_cons]
    have warned : ProjectorGrows restated _ _ ∧ _ :=
      edit_grows still (.warn (concludeScan block (state.conclude.getD .empty)).warnings) trivial
    have concluded := edit_grows warned.2 (.conclude fun _ => _)
      (conclude_block_grows stated kind name (state.conclude.getD .empty))
    have silent : ∀ edit ∈ (if (concludeScan block (state.conclude.getD .empty)).landed then []
        else [Edit.silentClose block]), ∀ held, edit.Admitted restated held := by
      split
      · exact fun _ member => nomatch member
      · exact fun edit member _ => List.mem_singleton.mp member ▸ trivial
    have closed := apply_edits_grow concluded.2 silent
    exact ⟨projector_grows_trans noted (projector_grows_trans warned.1
      (projector_grows_trans concluded.1 closed.1)), closed.2⟩
  · have grown : ProjectorGrows restated ((quoteEdit block).apply state)
        (applyEdits ((quoteEdit block).apply state)
          (kindEdits block state.hypothesesById.get? (state.conclude.getD .empty))) ∧ _ :=
      apply_edits_grow still fun edit member held => kind_edits_admitted stated _ _ held
        (fun kind name => concludes ⟨kind, name⟩) edit member
    exact ⟨projector_grows_trans noted grown.1, grown.2⟩

theorem foldl_blocks_grow (blocks : List Block) {state : Projector} (named : Named state) :
    ProjectorGrows (fun _ => True) state (blocks.foldl Projector.projectBlock state) ∧
      Named (blocks.foldl Projector.projectBlock state) := by
  induction blocks generalizing state with
  | nil => exact ⟨projector_grows_refl _ state, named⟩
  | cons block rest ih =>
      have first : ProjectorGrows (fun _ => True) state (state.projectBlock block) ∧ _ :=
        project_block_grows named block fun _ _ => trivial
      have others := ih first.2
      exact ⟨projector_grows_trans first.1 others.1, others.2⟩

theorem projected_named (blocks : List Block) : Named (projectBlocks blocks) :=
  (foldl_blocks_grow blocks fun _ _ held => by simp [Projector.start] at held).2

theorem project_blocks_grow (blocks more : List Block) :
    ProjectorGrows (fun _ => True) (projectBlocks blocks) (projectBlocks (blocks ++ more)) := by
  rw [projectBlocks, projectBlocks, List.foldl_append]
  exact (foldl_blocks_grow more (projected_named blocks)).1

/-- One more block keeps every list of the companion as a prefix, and every value that the
block's rows do not state again. -/
theorem companion_from_blocks_grows (blocks : List Block) (block : Block) :
    CompanionGrows block.states (companionFromBlocks blocks).1
      (companionFromBlocks (blocks ++ [block])).1 := by
  have step : ProjectorGrows block.states (projectBlocks blocks)
      (projectBlocks (blocks ++ [block])) := by
    rw [projectBlocks, projectBlocks, List.foldl_append]
    exact (project_block_grows (projected_named blocks) block fun _ same => same).1
  exact step.companion

end Blocks

/-- Cells of a lead's own row and single-valued rows of the conclusion, of any lead and key. -/
def Restatable.ofRow : Restatable → Prop
  | .cell _ _ | .conclusion _ => True
  | .refinement _ _ _ | .parentAttr _ _ => False

/-- A one-row refinement of the class of `v-001`. -/
def refineClass (value : Str) : Block where
  tag := 'R'
  name := "attr_updates"
  columns := some ["resolved_by", "target", "key", "value"]
  rows := ["l-001|v-001|class|" ++ value]
  requiredCells := 4

theorem refinement_value_restated :
    ¬ CompanionGrows Restatable.ofRow
      (@companionFromBlocks asciiDatabase [refineClass "db"]).1
      (@companionFromBlocks asciiDatabase ([refineClass "db"] ++ [refineClass "web"])).1 := by
  intro grows
  have entries : PrefixUpTo (PrefixUpTo (EntryGrows fun _ _ => False)) _ _ :=
    prefix_up_to_map grows.findings (fun lead => lead.outcome.attributeUpdates)
      fun _ _ kept => kept.attributeUpdates
  have before : (@companionFromBlocks asciiDatabase [refineClass "db"]).1.findings.map
      (fun lead => lead.outcome.attributeUpdates) =
      [[⟨"v-001", Dict.empty.set "class" "db"⟩]] := by
    decide +kernel
  have after : (@companionFromBlocks asciiDatabase
        ([refineClass "db"] ++ [refineClass "web"])).1.findings.map
      (fun lead => lead.outcome.attributeUpdates) =
      [[⟨"v-001", Dict.empty.set "class" "web"⟩]] := by
    decide +kernel
  rw [before, after] at entries
  rcases entries with _ | ⟨lists, _⟩
  rcases lists with _ | ⟨same, _⟩
  exact absurd (same.updates.values "class" id) (by decide +kernel)

end Defender.Invlang
