import Defender.Invlang.EditKinds

/-!
# Leads and refinements in document order

A lead is mentioned by a findings row, by a block of its own, and by the rows of
`:R` and `:T resolutions` blocks that are attributed to it. The companion keeps
leads in the order first mentioned, and each lead enters the refinements
attributed to it in document order.
-/

namespace Defender.Invlang

open Defender.Python Defender.Library.OrderedDict

/-- One `:R attr_updates` row. -/
structure Refinement where
  lead : Str
  target : Str
  key : Str
  value : Str
deriving DecidableEq

section Reading

variable [UnicodeDatabase]

/-- The lead an `:R` row is attributed to. -/
def attributedLead (block : Block) (row : Str) : Option Str :=
  match rowDict block row [] with
  | .error _ => none
  | .ok cells => if Projector.rowLead cells = [] then none else some (Projector.rowLead cells)

/-- The lead a `:T resolutions` row is attributed to. -/
def movedBy (row : Str) : Option Str :=
  match resolutionRecord row with
  | .error _ => none
  | .ok (lead, _) => if lead = [] then none else some lead

def refinement (block : Block) (row : Str) : Option Refinement :=
  match rowDict block row [] with
  | .error _ => none
  | .ok cells =>
      if Projector.rowLead cells = [] then none
      else if cellOf cells "target" = [] ∨ cellOf cells "key" = [] then none
      else some ⟨Projector.rowLead cells, cellOf cells "target", cellOf cells "key",
        cellOf cells "value"⟩

def blockMentions (block : Block) : List Str :=
  match Projector.blockKind block with
  | .findings => (splitRepeats rowId [] (findingsRows block)).1.map rowId
  | .leadSub lead _ => [lead]
  | .resolution _ => block.rows.filterMap (attributedLead block)
  | .tBlock => if block.name = ("resolutions" : Str) then block.rows.filterMap movedBy else []
  | _ => []

def blockRefinements (block : Block) : List Refinement :=
  match Projector.blockKind block with
  | .resolution .attrUpdates => block.rows.filterMap (refinement block)
  | _ => []

def leadMentions (blocks : List Block) : List Str := blocks.flatMap blockMentions

def refinementRows (blocks : List Block) : List Refinement := blocks.flatMap blockRefinements

end Reading

def Edit.mention? : Edit → Option Str
  | .lead id _ => some id
  | _ => none

def Edit.refinement? : Edit → Option Refinement
  | .lead id (.refine target key value) => some ⟨id, target, key, value⟩
  | _ => none

section Views

variable [UnicodeDatabase] {β : Type*} (view : Edit → Option β)

theorem row_edits_view (block : Block) (defaultCols : List Str)
    (edits : Str × Nat → RowRecord → List Edit) (shown : Str → Option β)
    (read : ∀ entry, (readRowEdits block defaultCols edits entry).filterMap view =
      (shown entry.1).toList) :
    (rowEdits block defaultCols edits).filterMap view = block.rows.filterMap shown := by
  have firsts : block.rows.zipIdx.map Prod.fst = block.rows := List.zipIdx_map_fst _ _
  unfold rowEdits
  rw [List.filterMap_flatMap]
  simp only [read]
  nth_rewrite 2 [← firsts]
  rw [List.filterMap_map, List.filterMap_eq_flatMap_toList]
  rfl

end Views

section Homes

variable [UnicodeDatabase] (block : Block)

def Edit.home? : Edit → Option Str
  | .lead id _ => some id
  | .register _ (.lead id) _ => some id
  | _ => none

def OnlyLead (lead : Str) (edit : Edit) : Prop :=
  edit.refinement? = none ∧ (edit.home? = none ∨ edit.home? = some lead)

omit [UnicodeDatabase] in
theorem only_lead_one {lead : Str} {edit : Edit} (only : OnlyLead lead edit) :
    ∀ found ∈ [edit], OnlyLead lead found := by
  intro found member
  rw [List.mem_singleton.mp member]
  exact only

theorem plan_only_lead {α : Type*} (lead : Str) (cols : List Str)
    (projectOne : Block → Str → RowResult α) (idOf : α → Str) (change : List α → LeadChange)
    (plain : ∀ rows, (Edit.lead lead (change rows)).refinement? = none) :
    ∀ edit ∈ planEdits block lead cols projectOne idOf change, OnlyLead lead edit := by
  unfold planEdits
  split
  · exact only_lead_one ⟨rfl, .inl rfl⟩
  · refine List.forall_mem_cons.mpr ⟨⟨rfl, .inl rfl⟩, ?_⟩
    exact List.forall_mem_cons.mpr ⟨⟨rfl, .inl rfl⟩, only_lead_one ⟨plain _, .inr rfl⟩⟩

theorem new_hypotheses_only_lead (lead : Str) :
    ∀ edit ∈ newHypothesesEdits block lead, OnlyLead lead edit := by
  unfold newHypothesesEdits
  split
  · exact only_lead_one ⟨rfl, .inl rfl⟩
  · rw [List.forall_mem_append]
    constructor
    · exact List.forall_mem_cons.mpr ⟨⟨rfl, .inl rfl⟩, only_lead_one ⟨rfl, .inr rfl⟩⟩
    · intro edit member
      rcases List.mem_map.mp member with ⟨hyp, _, rfl⟩
      exact ⟨rfl, .inr rfl⟩

theorem lead_sub_only_lead (lead sub : Str) :
    ∀ edit ∈ leadSubEdits block lead sub, OnlyLead lead edit := by
  unfold leadSubEdits
  refine List.forall_mem_cons.mpr ⟨⟨rfl, .inr rfl⟩, ?_⟩
  split
  · exact List.forall_mem_cons.mpr ⟨⟨rfl, .inl rfl⟩, only_lead_one ⟨rfl, .inr rfl⟩⟩
  · split
    · exact List.forall_mem_cons.mpr ⟨⟨rfl, .inl rfl⟩, only_lead_one ⟨rfl, .inr rfl⟩⟩
    · split
      · exact new_hypotheses_only_lead block lead
      · split
        · exact plan_only_lead block lead _ _ _ _ fun _ => rfl
        · split
          · exact plan_only_lead block lead _ _ _ _ fun _ => rfl
          · split
            · simp
            · split
              · exact only_lead_one ⟨rfl, .inl rfl⟩
              · split
                · exact only_lead_one ⟨rfl, .inl rfl⟩
                · exact only_lead_one ⟨rfl, .inl rfl⟩

omit [UnicodeDatabase] in
theorem home_of_mention {edit : Edit} {id : Str} (mention : edit.mention? = some id) :
    edit.home? = some id := by
  cases edit with
  | lead lead change => exact mention
  | _ => contradiction

omit [UnicodeDatabase] in
theorem within_view {β : Type*} {view : Edit → Option β} {allowed : List EditKind}
    {edits : List Edit} (ofLeads : ∀ edit, edit.mention? = none → view edit = none)
    (noLead : [EditKind.lead, .amend, .refine, .declare].any allowed.contains = false)
    (within : Within allowed edits) : edits.filterMap view = [] := by
  simp only [List.any_cons, List.any_nil, Bool.or_false, Bool.or_eq_false_iff] at noLead
  apply List.filterMap_eq_nil_iff.mpr
  intro edit member
  apply ofLeads
  have kind := within edit member
  cases edit with
  | lead id change =>
      cases change with
      | amend header => exact absurd (noLead.2.1.symm.trans kind) (by decide)
      | refine target key value => exact absurd (noLead.2.2.1.symm.trans kind) (by decide)
      | declare hyps => exact absurd (noLead.2.2.2.symm.trans kind) (by decide)
      | _ => exact absurd (noLead.1.symm.trans kind) (by decide)
  | _ => rfl

end Homes

section Showing

variable [UnicodeDatabase] (block : Block) (registered : Str → Option HypSite) (conclude : Conclude)

theorem resolution_row_mention (bucket : ResolutionBucket) (entry : Str × Nat) :
    (readRowEdits block [] (resolutionRowEdits bucket block) entry).filterMap Edit.mention? =
      (attributedLead block entry.1).toList := by
  unfold readRowEdits attributedLead resolutionRowEdits
  cases rowDict block entry.1 [] with
  | error reason => rfl
  | ok cells =>
      dsimp only
      split
      · rfl
      · cases bucket with
        | attrUpdates =>
            dsimp only
            split
            · rfl
            · rfl
        | authz => rfl
        | consultations => rfl
        | impact => rfl

theorem resolution_row_refinement (entry : Str × Nat) :
    (readRowEdits block [] (resolutionRowEdits .attrUpdates block) entry).filterMap
      Edit.refinement? = (refinement block entry.1).toList := by
  unfold readRowEdits refinement resolutionRowEdits
  cases rowDict block entry.1 [] with
  | error reason => rfl
  | ok cells =>
      dsimp only
      split
      · rfl
      · split
        · rfl
        · rfl

theorem other_bucket_refines_nothing (bucket : ResolutionBucket)
    (other : bucket ≠ .attrUpdates) :
    (rowEdits block [] (resolutionRowEdits bucket block)).filterMap Edit.refinement? = [] := by
  rw [row_edits_view _ block [] _ (fun _ => none)]
  · simp
  · intro entry
    unfold readRowEdits resolutionRowEdits
    cases rowDict block entry.1 [] with
    | error reason => rfl
    | ok cells =>
        dsimp only
        split
        · rfl
        · cases bucket with
          | attrUpdates => contradiction
          | authz => rfl
          | consultations => rfl
          | impact => rfl

theorem moves_refine_nothing : (resolutionsEdits block).filterMap Edit.refinement? = [] := by
  apply List.filterMap_eq_nil_iff.mpr
  intro edit member
  rcases List.mem_flatMap.mp member with ⟨entry, _, found⟩
  split at found
  · rw [List.mem_singleton.mp found]
    rfl
  · split at found
    · rw [List.mem_singleton.mp found]
      rfl
    · rw [List.mem_singleton.mp found]
      rfl

theorem resolutions_mentions :
    (resolutionsEdits block).filterMap Edit.mention? = block.rows.filterMap movedBy := by
  have firsts : block.rows.zipIdx.map Prod.fst = block.rows := List.zipIdx_map_fst _ _
  unfold resolutionsEdits
  rw [List.filterMap_flatMap]
  nth_rewrite 2 [← firsts]
  rw [List.filterMap_map, List.filterMap_eq_flatMap_toList]
  apply List.flatMap_congr
  intro entry _
  unfold movedBy
  dsimp only [Function.comp]
  cases resolutionRecord entry.1 with
  | error reason => rfl
  | ok found =>
      dsimp only
      split
      · rfl
      · rfl

omit [UnicodeDatabase] in
theorem refinement_of_leads (edit : Edit) (quiet : edit.mention? = none) :
    edit.refinement? = none := by
  cases edit with
  | lead id change => contradiction
  | _ => rfl

/-- The refinements among a block's edits are its readable refinement rows. -/
theorem kind_edits_refinements :
    (kindEdits block registered conclude).filterMap Edit.refinement? = blockRefinements block := by
  unfold kindEdits blockRefinements
  cases Projector.blockKind block with
  | prologueVertices => rfl
  | prologueEdges => rfl
  | hypotheses => exact within_view refinement_of_leads rfl (hypothesize_within block)
  | hypSub hid sub =>
      dsimp only
      cases registered hid with
      | none => rfl
      | some site => exact within_view refinement_of_leads rfl (hyp_sub_within block site hid sub)
  | findings =>
      change (findingsEdits block).filterMap Edit.refinement? = []
      unfold findingsEdits
      rw [List.filterMap_append, List.filterMap_append,
        within_view refinement_of_leads rfl (findings_rows_within block), List.filterMap_map]
      exact List.filterMap_eq_nil_iff.mpr fun _ _ => rfl
  | leadSub lead sub =>
      exact List.filterMap_eq_nil_iff.mpr fun edit member =>
        (lead_sub_only_lead block lead sub edit member).1
  | resolution bucket =>
      cases bucket with
      | attrUpdates =>
          exact row_edits_view _ block [] _ (refinement block) (resolution_row_refinement block)
      | authz => exact other_bucket_refines_nothing block .authz (by decide)
      | consultations => exact other_bucket_refines_nothing block .consultations (by decide)
      | impact => exact other_bucket_refines_nothing block .impact (by decide)
  | tBlock =>
      by_cases named : block.name = ("resolutions" : Str)
      · change (tBlockEdits block conclude).filterMap Edit.refinement? = []
        rw [t_block_resolutions block conclude named]
        exact moves_refine_nothing block
      · exact within_view refinement_of_leads rfl (t_block_within block conclude named)
  | unknown => rfl

omit [UnicodeDatabase] in
theorem enroll_known {known : List Str} {id : Str} (met : id ∈ known) : enroll known id = known :=
  if_pos met

omit [UnicodeDatabase] in
theorem enroll_again (known ids : List Str) (lead : Str) (same : ∀ id ∈ ids, id = lead) :
    ids.foldl enroll (enroll known lead) = enroll known lead := by
  induction ids with
  | nil => rfl
  | cons id rest ih =>
      rw [List.forall_mem_cons] at same
      have met : lead ∈ enroll known lead := (mem_enroll_iff _ _ _).mpr (.inr rfl)
      rw [List.foldl_cons, same.1, enroll_known met, ih same.2]

/-- A block enrolls the leads it mentions. -/
theorem kind_edits_mentions (known : List Str) :
    ((kindEdits block registered conclude).filterMap Edit.mention?).foldl enroll known =
      (blockMentions block).foldl enroll known := by
  unfold kindEdits blockMentions
  cases Projector.blockKind block with
  | prologueVertices => rfl
  | prologueEdges => rfl
  | hypotheses => rw [within_view (fun _ quiet => quiet) rfl (hypothesize_within block)]
  | hypSub hid sub =>
      dsimp only
      cases registered hid with
      | none => rfl
      | some site => rw [within_view (fun _ quiet => quiet) rfl (hyp_sub_within block site hid sub)]
  | findings =>
      change ((findingsEdits block).filterMap Edit.mention?).foldl enroll known = _
      unfold findingsEdits
      rw [List.filterMap_append, List.filterMap_append,
        within_view (fun _ quiet => quiet) rfl (findings_rows_within block), List.filterMap_map]
      change (List.filterMap (fun cells => some (rowId cells)) _).foldl enroll known = _
      rw [List.filterMap_eq_map']
  | leadSub lead sub =>
      change ((leadSubEdits block lead sub).filterMap Edit.mention?).foldl enroll known =
        enroll known lead
      have opens : ∃ rest, leadSubEdits block lead sub = .lead lead .mention :: rest := ⟨_, rfl⟩
      have only := lead_sub_only_lead block lead sub
      rcases opens with ⟨rest, same⟩
      rw [same] at only ⊢
      change (rest.filterMap Edit.mention?).foldl enroll (enroll known lead) = _
      apply enroll_again
      intro id member
      rcases List.mem_filterMap.mp member with ⟨edit, found, shown⟩
      have home := home_of_mention shown
      rcases (only edit (List.mem_cons_of_mem _ found)).2 with away | own
      · rw [away] at home
        contradiction
      · rw [own] at home
        exact (Option.some_inj.mp home).symm
  | resolution bucket =>
      dsimp only
      rw [row_edits_view _ block [] _ (attributedLead block) (resolution_row_mention block bucket)]
  | tBlock =>
      dsimp only
      by_cases named : block.name = ("resolutions" : Str)
      · rw [t_block_resolutions block conclude named, if_pos named, resolutions_mentions]
      · rw [within_view (fun _ quiet => quiet) rfl (t_block_within block conclude named), if_neg named]
  | unknown => rfl

end Showing

section Refining

variable [UnicodeDatabase]

/-- The refinements a lead holds. -/
def leadUpdates (state : Projector) (id : Str) : List AttributeUpdate :=
  ((state.findings.get? id).map fun lead => lead.outcome.attributeUpdates).getD []

def enterRefinement (id : Str) (held : List AttributeUpdate) (row : Refinement) :
    List AttributeUpdate :=
  if row.lead = id then addAttrUpdate row.target row.key row.value held else held

omit [UnicodeDatabase] in
theorem edit_lead_updates (state : Projector) (lead id : Str)
    (change : FindingRecord → FindingRecord) (enter : List AttributeUpdate → List AttributeUpdate)
    (entered : ∀ held, (change held).outcome.attributeUpdates = enter held.outcome.attributeUpdates) :
    leadUpdates (state.editLead lead change) id =
      if lead = id then enter (leadUpdates state id) else leadUpdates state id := by
  unfold leadUpdates Projector.editLead
  rw [Dict.get_modify]
  by_cases same : lead = id
  · subst same
    rw [if_pos rfl, if_pos rfl, Option.map_some, Option.getD_some, entered]
    cases state.findings.get? lead with
    | none => rfl
    | some held => rfl
  · rw [if_neg same, if_neg same]

theorem register_findings (block : Block) (site : HypSite) (state : Projector)
    (hyp : HypothesisRecord) :
    (Projector.registerHypothesis block site state hyp).findings = state.findings := by
  unfold Projector.registerHypothesis
  cases site with
  | table =>
      dsimp only
      split
      · rfl
      · split
        · rfl
        · rfl
  | lead id =>
      dsimp only
      split
      · rfl
      · split
        · rfl
        · rfl

omit [UnicodeDatabase] in
theorem keeps_lead_updates (state : Projector) (lead id : Str)
    (change : FindingRecord → FindingRecord)
    (kept : ∀ held, (change held).outcome.attributeUpdates = held.outcome.attributeUpdates) :
    leadUpdates (state.editLead lead change) id = leadUpdates state id := by
  rw [edit_lead_updates state lead id change (fun held => held) kept]
  split
  · rfl
  · rfl

theorem edit_refines (state : Projector) (edit : Edit) (id : Str) :
    leadUpdates (edit.apply state) id =
      edit.refinement?.toList.foldl (enterRefinement id) (leadUpdates state id) := by
  cases edit with
  | register block site hyp =>
      change leadUpdates (Projector.registerHypothesis block site state hyp) id = _
      unfold leadUpdates
      rw [register_findings]
      rfl
  | attach site hid attachment =>
      cases site with
      | table => rfl
      | lead lead => exact keeps_lead_updates state lead id _ fun _ => rfl
  | lead lead change =>
      cases change with
      | refine target key value => exact edit_lead_updates state lead id _ _ fun _ => rfl
      | ground bucket row =>
          refine keeps_lead_updates state lead id _ ?_
          intro held
          cases bucket with
          | _ => rfl
      | _ => exact keeps_lead_updates state lead id _ fun _ => rfl
  | _ => rfl

theorem edits_refine (edits : List Edit) (state : Projector) (id : Str) :
    leadUpdates (applyEdits state edits) id =
      (edits.filterMap Edit.refinement?).foldl (enterRefinement id) (leadUpdates state id) := by
  induction edits generalizing state with
  | nil => rfl
  | cons edit rest ih =>
      rw [apply_edits_cons, ih, edit_refines, List.filterMap_cons]
      cases edit.refinement? with
      | none => rfl
      | some row => rfl

theorem block_refines (state : Projector) (block : Block) (id : Str) :
    leadUpdates (state.projectBlock block) id =
      (blockRefinements block).foldl (enterRefinement id) (leadUpdates state id) := by
  rw [project_block_edits, edits_refine, ← kind_edits_refinements block
    state.hypothesesById.get? (state.conclude.getD .empty)]
  rfl

theorem lead_updates_entered (blocks : List Block) (id : Str) :
    leadUpdates (projectBlocks blocks) id = (refinementRows blocks).foldl (enterRefinement id) [] := by
  have general : ∀ state : Projector, leadUpdates (blocks.foldl Projector.projectBlock state) id =
      (refinementRows blocks).foldl (enterRefinement id) (leadUpdates state id) := by
    unfold refinementRows
    induction blocks with
    | nil => exact fun _ => rfl
    | cons block rest ih =>
        intro state
        rw [List.foldl_cons, ih, block_refines, List.flatMap_cons, List.foldl_append]
  exact general .start

omit [UnicodeDatabase] in
theorem iter_attr_updates_keys (state : Projector) :
    iterAttrUpdates state.companion = state.findings.keys.flatMap (leadUpdates state) := by
  unfold iterAttrUpdates iterOutcomeRows
  change state.findings.values.flatMap _ = _
  rw [Dict.values_by_keys]
  induction state.findings.keys with
  | nil => rfl
  | cons key rest ih =>
      rw [List.filterMap_cons, List.flatMap_cons, ← ih]
      unfold leadUpdates
      cases state.findings.get? key with
      | none => rfl
      | some lead => rfl

end Refining

section Enrolling

variable [UnicodeDatabase]

def Edit.reach? : Edit → Option Str
  | .lead id _ => some id
  | .attach (.lead id) _ _ => some id
  | _ => none

omit [UnicodeDatabase] in
theorem edit_lead_keys (state : Projector) (id : Str) (change : FindingRecord → FindingRecord) :
    (state.editLead id change).findings.keys = enroll state.findings.keys id := by
  change (state.findings.set id _).keys = _
  exact Dict.keys_set state.findings id _

theorem edit_keys (state : Projector) (edit : Edit) :
    (edit.apply state).findings.keys = edit.reach?.toList.foldl enroll state.findings.keys := by
  cases edit with
  | register block site hyp =>
      change (Projector.registerHypothesis block site state hyp).findings.keys = _
      rw [register_findings]
      rfl
  | attach site hid attachment =>
      cases site with
      | table => rfl
      | lead lead => exact edit_lead_keys state lead _
  | lead lead change => exact edit_lead_keys state lead _
  | _ => rfl

def SitesOpen (state : Projector) : Prop :=
  ∀ hid id, state.hypothesesById.get? hid = some (.lead id) → id ∈ state.findings.keys

theorem edit_keys_mono {state : Projector} {id : Str} (met : id ∈ state.findings.keys)
    (edit : Edit) : id ∈ (edit.apply state).findings.keys := by
  rw [edit_keys]
  cases edit.reach? with
  | none => exact met
  | some other => exact (mem_enroll_iff _ _ _).mpr (.inl met)

theorem edits_keys_mono {state : Projector} {id : Str} (met : id ∈ state.findings.keys)
    (edits : List Edit) : id ∈ (applyEdits state edits).findings.keys := by
  induction edits generalizing state with
  | nil => exact met
  | cons edit rest ih => exact ih (edit_keys_mono met edit)

/-- Where attaching stays at leads already met, only mentions enroll. -/
theorem edits_keys (edits : List Edit) (state : Projector)
    (anchored : ∀ edit ∈ edits, ∀ id, edit.mention? = none → edit.reach? = some id →
      id ∈ state.findings.keys) :
    (applyEdits state edits).findings.keys =
      (edits.filterMap Edit.mention?).foldl enroll state.findings.keys := by
  induction edits generalizing state with
  | nil => rfl
  | cons edit rest ih =>
      rw [List.forall_mem_cons] at anchored
      have later : ∀ next ∈ rest, ∀ id, next.mention? = none → next.reach? = some id →
          id ∈ (edit.apply state).findings.keys := by
        intro next member id quiet reached
        exact edit_keys_mono (anchored.2 next member id quiet reached) edit
      rw [apply_edits_cons, ih _ later, edit_keys, List.filterMap_cons]
      cases mention : edit.mention? with
      | none =>
          cases reach : edit.reach? with
          | none => rfl
          | some id =>
              dsimp only [Option.toList, List.foldl_cons, List.foldl_nil]
              rw [enroll_known (anchored.1 id mention reach)]
      | some id =>
          cases edit with
          | lead lead change =>
              cases mention
              rfl
          | _ => contradiction

theorem register_get (block : Block) (site other : HypSite) (state : Projector)
    (hyp : HypothesisRecord) (hid : Str)
    (found : (Projector.registerHypothesis block site state hyp).hypothesesById.get? hid =
      some other) :
    state.hypothesesById.get? hid = some other ∨ other = site := by
  have entered : ∀ dict : Dict Str HypSite, (dict.set hyp.id site).get? hid = some other →
      dict.get? hid = some other ∨ other = site := by
    intro dict found
    rw [Dict.get_set] at found
    split at found
    · exact .inr (Option.some_inj.mp found).symm
    · exact .inl found
  unfold Projector.registerHypothesis at found
  cases site with
  | table =>
      dsimp only at found
      split at found
      · exact .inl found
      · exact entered _ found
  | lead id =>
      dsimp only at found
      split at found
      · exact .inl found
      · split at found
        · exact .inl found
        · exact entered _ found

theorem registered_by (edits : List Edit) (state : Projector) {hid : Str} {site : HypSite}
    (found : (applyEdits state edits).hypothesesById.get? hid = some site) :
    state.hypothesesById.get? hid = some site ∨
      ∃ block hyp, Edit.register block site hyp ∈ edits := by
  induction edits generalizing state with
  | nil => exact .inl found
  | cons edit rest ih =>
      rcases ih _ found with earlier | ⟨block, hyp, member⟩
      · cases edit with
        | register block other hyp =>
            rcases register_get block other site state hyp hid earlier with held | rfl
            · exact .inl held
            · exact .inr ⟨block, hyp, List.mem_cons_self⟩
        | attach other hid attachment =>
            cases other with
            | table => exact .inl earlier
            | lead lead => exact .inl earlier
        | _ => exact .inl earlier
      · exact .inr ⟨block, hyp, List.mem_cons_of_mem _ member⟩

theorem register_lead_kind {block declaring : Block} {registered : Str → Option HypSite}
    {conclude : Conclude} {id : Str} {hyp : HypothesisRecord}
    (member : Edit.register declaring (.lead id) hyp ∈ kindEdits block registered conclude) :
    ∃ sub, Projector.blockKind block = .leadSub id sub := by
  have allowed := kind_edits_within block registered conclude _ member
  unfold kindEdits at member
  cases kind : Projector.blockKind block with
  | leadSub lead sub =>
      rw [kind] at member
      rcases (lead_sub_only_lead block lead sub _ member).2 with away | own
      · contradiction
      · cases own
        exact ⟨sub, rfl⟩
  | hypotheses =>
      rw [kind] at member
      exact absurd (hypothesize_registers_table block member) (by simp)
  | _ =>
      rw [kind] at allowed
      contradiction

theorem attach_rows_site {α : Type*} (block : Block) (site other : HypSite) (hid named : Str)
    (projectOne : Block → Str → RowResult α) (idOf : α → Str)
    (attachment : List α → Attachment) {attached : Attachment}
    (member : Edit.attach other named attached ∈
      attachEdits block site hid projectOne idOf attachment) : other = site ∧ named = hid := by
  unfold attachEdits at member
  rcases List.mem_cons.mp member with note | rows
  · simp [noteEdit] at note
  · split at rows
    · contradiction
    · cases List.mem_singleton.mp rows
      exact ⟨rfl, rfl⟩

theorem hyp_sub_site (block : Block) (site other : HypSite) (hid named : Str) (sub : HypSub)
    {attached : Attachment}
    (member : Edit.attach other named attached ∈ hypSubEdits block site hid sub) :
    other = site ∧ named = hid := by
  unfold hypSubEdits at member
  cases sub with
  | preds => exact attach_rows_site block site other hid named _ _ _ member
  | attrPreds => exact attach_rows_site block site other hid named _ _ _ member
  | refuts => exact attach_rows_site block site other hid named _ _ _ member
  | authz => exact attach_rows_site block site other hid named _ _ _ member
  | parentAttrs =>
      rcases List.mem_append.mp member with rows | entered
      · have warns : Within [.warn] (rowEdits block ["key", "value"] (parentAttrEdits block)) := by
          refine within_rows block _ _ rfl ?_
          intro entry cells
          unfold parentAttrEdits
          split
          · exact within_one rfl
          · exact within_nil _
        have kind := warns _ rows
        contradiction
      · split at entered
        · contradiction
        · cases List.mem_singleton.mp entered
          exact ⟨rfl, rfl⟩

theorem attach_registered {block : Block} {registered : Str → Option HypSite}
    {conclude : Conclude} {site : HypSite} {hid : Str} {attached : Attachment}
    (member : Edit.attach site hid attached ∈ kindEdits block registered conclude) :
    (∃ sub, Projector.blockKind block = .hypSub hid sub) ∧ registered hid = some site := by
  have allowed := kind_edits_within block registered conclude _ member
  unfold kindEdits at member
  cases kind : Projector.blockKind block with
  | hypSub named sub =>
      rw [kind] at member
      dsimp only at member
      cases found : registered named with
      | none =>
          rw [found] at member
          cases List.mem_singleton.mp member
      | some held =>
          rw [found] at member
          rcases hyp_sub_site block held site named hid sub member with ⟨rfl, rfl⟩
          exact ⟨⟨sub, rfl⟩, found⟩
  | _ =>
      rw [kind] at allowed
      contradiction

theorem block_enrolls {state : Projector} (sites : SitesOpen state) (block : Block) :
    (state.projectBlock block).findings.keys =
      (blockMentions block).foldl enroll state.findings.keys := by
  rw [project_block_edits, edits_keys]
  · exact kind_edits_mentions block _ _ _
  · intro edit member id quiet reached
    cases edit with
    | attach site hid attached =>
        cases site with
        | table => contradiction
        | lead lead =>
            cases reached
            rcases List.mem_cons.mp member with first | rest
            · cases first
            · exact sites hid id (attach_registered rest).2
    | lead lead change => contradiction
    | _ => contradiction

theorem block_sites_open {state : Projector} (sites : SitesOpen state) (block : Block) :
    SitesOpen (state.projectBlock block) := by
  intro hid id found
  rw [project_block_edits] at found
  rcases registered_by _ state found with held | ⟨declaring, hyp, member⟩
  · rw [project_block_edits]
    exact edits_keys_mono (sites hid id held) _
  · rcases List.mem_cons.mp member with first | rest
    · cases first
    · rcases register_lead_kind rest with ⟨sub, kind⟩
      have own : blockMentions block = [id] := by
        unfold blockMentions
        rw [kind]
      rw [block_enrolls sites, own]
      exact (mem_enroll_iff _ _ _).mpr (.inr rfl)

theorem findings_keys_mentions (blocks : List Block) :
    (projectBlocks blocks).findings.keys = dedup (leadMentions blocks) := by
  have general : ∀ state : Projector, SitesOpen state →
      (blocks.foldl Projector.projectBlock state).findings.keys =
        (leadMentions blocks).foldl enroll state.findings.keys := by
    unfold leadMentions
    induction blocks with
    | nil => exact fun _ _ => rfl
    | cons block rest ih =>
        intro state sites
        rw [List.foldl_cons, ih _ (block_sites_open sites block), block_enrolls sites,
          List.flatMap_cons, List.foldl_append]
  exact general .start fun hid id found => by contradiction

end Enrolling

end Defender.Invlang
