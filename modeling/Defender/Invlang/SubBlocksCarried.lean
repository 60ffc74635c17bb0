import Defender.Invlang.HypothesisSites

/-!
# When readers see what sub-blocks declare

The rows of a hypothesis sub-block are carried by the record that readers look up
exactly when the lead to declare the hypothesis first, if a lead declares it, is
the first mentioned of the leads that do.
-/

namespace Defender.Invlang

open Defender.Python Defender.Library.OrderedDict

section Tables

variable [UnicodeDatabase]

/-- A table of a hypothesis that sub-blocks of one name extend. -/
structure SubTable (α : Type) where
  sub : HypSub
  projectOne : Block → Str → RowResult α
  idOf : α → Str
  held : HypothesisRecord → List α
  rows : Attachment → List α
  applied : ∀ attachment hyp,
    held (attachment.apply hyp) = extendById idOf (held hyp) (rows attachment)
  bare : ∀ hyp, Bare hyp → held hyp = []
  attached : ∀ block other, (attachment? block other).toList.flatMap rows =
    if other = sub then readRows block projectOne else []

omit [UnicodeDatabase] in
theorem rows_attached {α β : Type} (attachment : List α → Attachment) (rows : Attachment → List β)
    (shown : List α → List β) (read : ∀ held, rows (attachment held) = shown held)
    (none : shown [] = []) (held : List α) :
    (attachment?.rowsAttached held attachment).toList.flatMap rows = shown held := by
  unfold attachment?.rowsAttached
  cases held with
  | nil => exact none.symm
  | cons first others =>
      rw [if_neg (by simp)]
      simp [read]

theorem parent_attrs_attached {β : Type} (block : Block) (rows : Attachment → List β)
    (read : ∀ attrs, rows (.parentAttrs attrs) = []) :
    (attachment? block .parentAttrs).toList.flatMap rows = [] := by
  unfold attachment?
  dsimp only
  split
  · rfl
  · simp [read]

def predsTable : SubTable PredictionRecord where
  sub := .preds
  projectOne := hypSubPredRow
  idOf := PredictionRecord.id
  held := HypothesisRecord.predictions
  rows attachment := match attachment with
    | .preds rows => rows
    | _ => []
  applied attachment hyp := by
    cases attachment with
    | _ => rfl
  bare _ bare := bare.predictions
  attached block other := by
    cases other with
    | preds => exact rows_attached _ _ (fun rows => rows) (fun _ => rfl) rfl _
    | parentAttrs => exact parent_attrs_attached block _ fun _ => rfl
    | _ => exact rows_attached _ _ (fun _ => []) (fun _ => rfl) rfl _

def attrPredsTable : SubTable AttrPredictionRecord where
  sub := .attrPreds
  projectOne := hypSubAttrPredRow
  idOf := AttrPredictionRecord.id
  held := HypothesisRecord.attributePredictions
  rows attachment := match attachment with
    | .attrPreds rows => rows
    | _ => []
  applied attachment hyp := by
    cases attachment with
    | _ => rfl
  bare _ bare := bare.attributePredictions
  attached block other := by
    cases other with
    | attrPreds => exact rows_attached _ _ (fun rows => rows) (fun _ => rfl) rfl _
    | parentAttrs => exact parent_attrs_attached block _ fun _ => rfl
    | _ => exact rows_attached _ _ (fun _ => []) (fun _ => rfl) rfl _

def refutsTable : SubTable RefutationRecord where
  sub := .refuts
  projectOne := hypSubRefutRow
  idOf := RefutationRecord.id
  held := HypothesisRecord.refutationShape
  rows attachment := match attachment with
    | .refuts rows => rows
    | _ => []
  applied attachment hyp := by
    cases attachment with
    | _ => rfl
  bare _ bare := bare.refutationShape
  attached block other := by
    cases other with
    | refuts => exact rows_attached _ _ (fun rows => rows) (fun _ => rfl) rfl _
    | parentAttrs => exact parent_attrs_attached block _ fun _ => rfl
    | _ => exact rows_attached _ _ (fun _ => []) (fun _ => rfl) rfl _

def authzTable : SubTable AuthorizationContract where
  sub := .authz
  projectOne := hypSubAuthzRow
  idOf := AuthorizationContract.id
  held := HypothesisRecord.authorizationContract
  rows attachment := match attachment with
    | .authz rows => rows
    | _ => []
  applied attachment hyp := by
    cases attachment with
    | _ => rfl
  bare _ bare := bare.authorizationContract
  attached block other := by
    cases other with
    | authz => exact rows_attached _ _ (fun rows => rows) (fun _ => rfl) rfl _
    | parentAttrs => exact parent_attrs_attached block _ fun _ => rfl
    | _ => exact rows_attached _ _ (fun _ => []) (fun _ => rfl) rfl _

variable {α : Type} (table : SubTable α)

def SubTable.declared (blocks : List Block) (hid : Str) : List α :=
  blocks.flatMap fun block =>
    match Projector.blockKind block with
    | .hypSub named sub =>
        if named = hid ∧ sub = table.sub then readRows block table.projectOne else []
    | _ => []

def SubTable.Carries (blocks : List Block) (hid : Str) (block : Block)
    (record : HypothesisRecord) : Prop :=
  ∀ row ∈ readRows block table.projectOne, ∃ held ∈ table.held record,
    (table.declared blocks hid).find? (fun other => table.idOf other == table.idOf row) = some held

theorem attach_all_held (attached : List Attachment) (hyp : HypothesisRecord) :
    table.held (attachAll attached hyp) =
      extendById table.idOf (table.held hyp) (attached.flatMap table.rows) := by
  induction attached generalizing hyp with
  | nil => rfl
  | cons attachment rest ih =>
      change table.held (attachAll rest (attachment.apply hyp)) = _
      rw [ih, table.applied, List.flatMap_cons]
      exact List.foldl_append.symm

theorem attachments_rows (blocks : List Block) (hid : Str) :
    (attachments blocks hid).flatMap table.rows = table.declared blocks hid := by
  unfold attachments SubTable.declared
  rw [List.flatMap_assoc]
  apply List.flatMap_congr
  intro block _
  cases Projector.blockKind block with
  | hypSub named sub =>
      dsimp only
      by_cases here : named = hid
      · rw [if_pos here, table.attached]
        simp [here]
      · simp [here]
  | _ => rfl

theorem carries_attached {blocks : List Block} {hid : Str} {bare : HypothesisRecord}
    (isBare : Bare bare) {block : Block} (member : block ∈ blocks)
    (kind : Projector.blockKind block = .hypSub hid table.sub) :
    table.Carries blocks hid block (attachAll (attachments blocks hid) bare) := by
  intro row found
  have declared : row ∈ table.declared blocks hid := by
    refine List.mem_flatMap.mpr ⟨block, member, ?_⟩
    rw [kind]
    simpa using found
  have first : ((table.declared blocks hid).find?
      fun other => table.idOf other == table.idOf row).isSome := by
    rw [List.find?_isSome]
    exact ⟨row, declared, beq_self_eq_true _⟩
  rcases Option.isSome_iff_exists.mp first with ⟨held, same⟩
  refine ⟨held, ?_, same⟩
  rw [attach_all_held, table.bare bare isBare, attachments_rows]
  apply List.mem_of_find?_eq_some
  rw [extend_by_id_find, same]
  rfl

theorem bare_carries_nothing {blocks : List Block} {hid : Str} {block : Block}
    {bare : HypothesisRecord} (isBare : Bare bare)
    (rows : readRows block table.projectOne ≠ []) : ¬ table.Carries blocks hid block bare := by
  intro carries
  rcases List.exists_mem_of_ne_nil _ rows with ⟨row, found⟩
  rcases carries row found with ⟨held, member, _⟩
  rw [table.bare bare isBare] at member
  contradiction

end Tables

section ParentAttrs

variable [UnicodeDatabase]

def Attachment.attrs : Attachment → AttributesMap
  | .parentAttrs attrs => attrs
  | _ => Dict.empty

def attrsFor (hid : Str) (block : Block) : AttributesMap :=
  match Projector.blockKind block with
  | .hypSub named .parentAttrs => if named = hid then parentAttrs block else Dict.empty
  | _ => Dict.empty

/-- The parent attributes declared for a hypothesis; the last row of a key stands. -/
def declaredAttrs (blocks : List Block) (hid : Str) : AttributesMap :=
  blocks.foldl (fun held block => held.update (attrsFor hid block)) Dict.empty

def CarriesAttrs (blocks : List Block) (hid : Str) (block : Block) (record : HypothesisRecord) :
    Prop :=
  ∀ key ∈ (parentAttrs block).keys, ∃ value,
    (declaredAttrs blocks hid).get? key = some value ∧
      (parentAttributes record.proposedEdge).get? key = some value

omit [UnicodeDatabase] in
theorem attach_all_attrs (attached : List Attachment) (hyp : HypothesisRecord) :
    parentAttributes (attachAll attached hyp).proposedEdge =
      attached.foldl (fun held attachment => held.update attachment.attrs)
        (parentAttributes hyp.proposedEdge) := by
  induction attached generalizing hyp with
  | nil => rfl
  | cons attachment rest ih =>
      change parentAttributes (attachAll rest (attachment.apply hyp)).proposedEdge = _
      rw [ih, List.foldl_cons]
      cases attachment with
      | parentAttrs attrs =>
          change rest.foldl _ (parentAttributes (hyp.updateParentAttrs attrs).proposedEdge) = _
          rw [parentAttributes, parent_vertex_update]
          rfl
      | _ => rfl

theorem attachment_attrs (block : Block) (sub : HypSub) (held : AttributesMap) :
    (attachment? block sub).toList.foldl (fun held attachment => held.update attachment.attrs) held
      = held.update (if sub = .parentAttrs then parentAttrs block else Dict.empty) := by
  have rows : ∀ {α : Type} (rows : List α) (attachment : List α → Attachment),
      (∀ rows, (attachment rows).attrs = Dict.empty) →
      (attachment?.rowsAttached rows attachment).toList.foldl
        (fun held attachment => held.update attachment.attrs) held = held := by
    intro α rows attachment none
    unfold attachment?.rowsAttached
    split
    · rfl
    · change held.update (attachment rows).attrs = held
      rw [none]
      rfl
  cases sub with
  | preds => exact rows _ _ fun _ => rfl
  | attrPreds => exact rows _ _ fun _ => rfl
  | refuts => exact rows _ _ fun _ => rfl
  | authz => exact rows _ _ fun _ => rfl
  | parentAttrs =>
      rw [if_pos rfl]
      unfold attachment?
      dsimp only
      split
      · rename_i empty
        rw [Dict.update, List.isEmpty_iff.mp empty]
        rfl
      · rfl

theorem attachments_attrs (blocks : List Block) (hid : Str) (held : AttributesMap) :
    (attachments blocks hid).foldl (fun held attachment => held.update attachment.attrs) held =
      blocks.foldl (fun held block => held.update (attrsFor hid block)) held := by
  induction blocks generalizing held with
  | nil => rfl
  | cons block rest ih =>
      have split : attachments (block :: rest) hid =
          attachments [block] hid ++ attachments rest hid := by
        simp [attachments]
      rw [split, List.foldl_append, ih, List.foldl_cons]
      congr 1
      unfold attachments attrsFor
      rw [List.flatMap_singleton]
      cases Projector.blockKind block with
      | hypSub named sub =>
          dsimp only
          by_cases here : named = hid
          · rw [if_pos here, attachment_attrs]
            cases sub with
            | parentAttrs =>
                dsimp only
                rw [if_pos rfl, if_pos here]
            | _ => rfl
          · rw [if_neg here]
            cases sub with
            | parentAttrs =>
                dsimp only
                rw [if_neg here]
                rfl
            | _ => rfl
      | _ => rfl

theorem attrs_kept (hid key : Str) (blocks : List Block) {held : AttributesMap}
    (met : held.contains key = true) :
    (blocks.foldl (fun held block => held.update (attrsFor hid block)) held).contains key =
      true := by
  induction blocks generalizing held with
  | nil => exact met
  | cons block rest ih =>
      apply ih
      rw [Dict.contains_update, met]
      rfl

theorem declared_attrs_contains {blocks : List Block} {hid key : Str} {block : Block}
    (member : block ∈ blocks) (declared : (attrsFor hid block).contains key = true) :
    (declaredAttrs blocks hid).contains key = true := by
  rcases List.append_of_mem member with ⟨early, late, rfl⟩
  unfold declaredAttrs
  rw [List.foldl_append, List.foldl_cons]
  apply attrs_kept
  rw [Dict.contains_update, declared, Bool.or_true]

theorem carries_attrs_attached {blocks : List Block} {hid : Str} {bare : HypothesisRecord}
    (isBare : Bare bare) {block : Block} (member : block ∈ blocks)
    (kind : Projector.blockKind block = .hypSub hid .parentAttrs) :
    CarriesAttrs blocks hid block (attachAll (attachments blocks hid) bare) := by
  intro key found
  have declared : (attrsFor hid block).contains key = true := by
    unfold attrsFor
    rw [kind]
    simpa using (Dict.contains_iff _ key).mpr found
  rcases Option.isSome_iff_exists.mp (declared_attrs_contains member declared) with ⟨value, same⟩
  refine ⟨value, same, ?_⟩
  rw [attach_all_attrs, isBare.parentAttributes, attachments_attrs]
  exact same

theorem bare_carries_no_attrs {blocks : List Block} {hid : Str} {block : Block}
    {bare : HypothesisRecord} (isBare : Bare bare) (rows : (parentAttrs block).keys ≠ []) :
    ¬ CarriesAttrs blocks hid block bare := by
  intro carries
  rcases List.exists_mem_of_ne_nil _ rows with ⟨key, found⟩
  rcases carries key found with ⟨value, _, held⟩
  rw [isBare.parentAttributes] at held
  contradiction

end ParentAttrs

section Reading

variable [UnicodeDatabase]

def SubBlockCarried (blocks : List Block) (hid : Str) (block : Block) (sub : HypSub)
    (record : HypothesisRecord) : Prop :=
  match sub with
  | .preds => predsTable.Carries blocks hid block record
  | .attrPreds => attrPredsTable.Carries blocks hid block record
  | .refuts => refutsTable.Carries blocks hid block record
  | .authz => authzTable.Carries blocks hid block record
  | .parentAttrs => CarriesAttrs blocks hid block record

theorem carried_attached {blocks : List Block} {hid : Str} {bare : HypothesisRecord}
    (isBare : Bare bare) {block : Block} {sub : HypSub} (member : block ∈ blocks)
    (kind : Projector.blockKind block = .hypSub hid sub) :
    SubBlockCarried blocks hid block sub (attachAll (attachments blocks hid) bare) := by
  cases sub with
  | preds => exact carries_attached predsTable isBare member kind
  | attrPreds => exact carries_attached attrPredsTable isBare member kind
  | refuts => exact carries_attached refutsTable isBare member kind
  | authz => exact carries_attached authzTable isBare member kind
  | parentAttrs => exact carries_attrs_attached isBare member kind

omit [UnicodeDatabase] in
theorem rows_of_attached {α : Type} {rows : List α} {attachment : List α → Attachment}
    (attached : (attachment?.rowsAttached rows attachment).isSome) : rows ≠ [] := by
  rintro rfl
  contradiction

theorem bare_not_carried {blocks : List Block} {hid : Str} {block : Block} {sub : HypSub}
    {bare : HypothesisRecord} (isBare : Bare bare) (attached : (attachment? block sub).isSome) :
    ¬ SubBlockCarried blocks hid block sub bare := by
  cases sub with
  | preds => exact bare_carries_nothing predsTable isBare (rows_of_attached attached)
  | attrPreds => exact bare_carries_nothing attrPredsTable isBare (rows_of_attached attached)
  | refuts => exact bare_carries_nothing refutsTable isBare (rows_of_attached attached)
  | authz => exact bare_carries_nothing authzTable isBare (rows_of_attached attached)
  | parentAttrs =>
      apply bare_carries_no_attrs isBare
      intro empty
      have none : attachment? block .parentAttrs = none := by
        have entries : (parentAttrs block).isEmpty = true :=
          List.isEmpty_iff.mpr (List.map_eq_nil_iff.mp empty)
        unfold attachment?
        dsimp only
        rw [if_pos entries]
      rw [none] at attached
      contradiction

omit [UnicodeDatabase] in
theorem all_hypotheses_get (companion : CompanionBody) (hid : Str) :
    (allHypotheses companion).get? hid =
      (declaredHypotheses companion).find? fun hyp => hyp.id == hid := by
  unfold allHypotheses
  have entered := Dict.get_foldl_set_default HypothesisRecord.id (fun hyp => hyp)
    (declaredHypotheses companion) Dict.empty hid
  rw [entered, Dict.get_empty, Option.none_or, Option.map_id']
  congr 1
  funext hyp
  by_cases here : hyp.id = hid
  · simp [here]
  · simp [here]

omit [UnicodeDatabase] in
theorem all_hypotheses_record (state : Projector) (hid : Str) :
    (allHypotheses state.companion).get? hid =
      (recordAt state .table hid).or
        (state.findings.keys.findSome? fun id => recordAt state (.lead id) hid) := by
  rw [all_hypotheses_get]
  unfold declaredHypotheses
  rw [List.find?_append]
  congr 1
  change (state.findings.values.flatMap FindingRecord.newHypotheses).find? _ = _
  rw [Dict.values_by_keys]
  induction state.findings.keys with
  | nil => rfl
  | cons id rest ih =>
      rw [List.filterMap_cons, List.findSome?_cons, ← ih]
      unfold recordAt
      dsimp only
      cases state.findings.get? id with
      | none => rfl
      | some lead =>
          rw [List.flatMap_cons, List.find?_append, Option.map_some, Option.getD_some]
          cases lead.newHypotheses.find? fun hyp => hyp.id == hid with
          | none => rfl
          | some hyp => rfl

theorem not_attached_carried {blocks : List Block} {hid : Str} {block : Block} {sub : HypSub}
    (none : attachment? block sub = none) (record : HypothesisRecord) :
    SubBlockCarried blocks hid block sub record := by
  have rows : ∀ {α : Type} (rows : List α) (attachment : List α → Attachment),
      attachment?.rowsAttached rows attachment = Option.none → rows = [] := by
    intro α rows attachment none
    unfold attachment?.rowsAttached at none
    split at none
    · rename_i empty
      exact List.isEmpty_iff.mp empty
    · contradiction
  cases sub with
  | preds =>
      intro row found
      rw [predsTable, rows _ _ none] at found
      contradiction
  | attrPreds =>
      intro row found
      rw [attrPredsTable, rows _ _ none] at found
      contradiction
  | refuts =>
      intro row found
      rw [refutsTable, rows _ _ none] at found
      contradiction
  | authz =>
      intro row found
      rw [authzTable, rows _ _ none] at found
      contradiction
  | parentAttrs =>
      intro key found
      unfold attachment? at none
      dsimp only at none
      split at none
      · rename_i empty
        rw [Dict.keys, List.isEmpty_iff.mp empty] at found
        contradiction
      · contradiction

end Reading

section Landing

variable [UnicodeDatabase]

def declaredByLead (blocks : List Block) (hid id : Str) : Bool :=
  decide (HypSite.lead id ∈ declarers blocks hid)

def FirstDeclarerMentionedFirst (blocks : List Block) (hid : Str) : Prop :=
  ∀ lead, (declarers blocks hid).head? = some (.lead lead) →
    (leadMentions blocks).find? (declaredByLead blocks hid) = some lead

def SubBlocksCarried (blocks : List Block) : Prop :=
  ∀ block ∈ blocks, ∀ hid sub, Projector.blockKind block = .hypSub hid sub →
    ∃ record, (allHypotheses (companionFromBlocks blocks).1).get? hid = some record ∧
      SubBlockCarried blocks hid block sub record

omit [UnicodeDatabase] in
theorem find_enroll (accepts : Str → Bool) (ids known : List Str) :
    (ids.foldl enroll known).find? accepts = (known.find? accepts).or (ids.find? accepts) := by
  induction ids generalizing known with
  | nil => simp
  | cons id rest ih =>
      rw [List.foldl_cons, ih, List.find?_cons]
      unfold enroll
      by_cases met : id ∈ known
      · rw [if_pos met]
        by_cases here : accepts id = true
        · have some : (known.find? accepts).isSome := List.find?_isSome.mpr ⟨id, met, here⟩
          rw [Option.or_of_isSome some, Option.or_of_isSome some]
        · rw [Bool.not_eq_true] at here
          rw [here]
      · rw [if_neg met, List.find?_append]
        by_cases here : accepts id = true
        · simp [here]
        · simp [here]

omit [UnicodeDatabase] in
theorem find_some_first {α : Type*} (read : Str → Option α) (ids : List Str) :
    ids.findSome? read = (ids.find? fun id => (read id).isSome).bind read := by
  induction ids with
  | nil => rfl
  | cons id rest ih =>
      rw [List.findSome?_cons, List.find?_cons, ih]
      cases found : read id with
      | none => rfl
      | some value => simp [found]

variable {blocks : List Block}

theorem lead_record_found (landed : Landed (projectBlocks blocks) blocks) (hid : Str) :
    ((projectBlocks blocks).findings.keys.findSome? fun id =>
      recordAt (projectBlocks blocks) (.lead id) hid) =
        ((leadMentions blocks).find? (declaredByLead blocks hid)).bind fun id =>
          recordAt (projectBlocks blocks) (.lead id) hid := by
  have same : (fun id => (recordAt (projectBlocks blocks) (.lead id) hid).isSome) =
      declaredByLead blocks hid := by
    funext id
    rw [declaredByLead, Bool.eq_iff_iff, decide_eq_true_iff]
    exact landed.stands (.lead id) hid
  rw [find_some_first, same, findings_keys_mentions, dedup, find_enroll]
  rfl

theorem declaring_lead_mentioned (landed : Landed (projectBlocks blocks) blocks) {hid lead : Str}
    (declares : HypSite.lead lead ∈ declarers blocks hid) :
    ((leadMentions blocks).find? (declaredByLead blocks hid)).isSome := by
  have stands := (landed.stands (.lead lead) hid).mpr declares
  have met : lead ∈ (projectBlocks blocks).findings.keys := by
    rw [← Dict.contains_iff]
    unfold recordAt at stands
    dsimp only at stands
    cases found : (projectBlocks blocks).findings.get? lead with
    | none =>
        rw [found] at stands
        contradiction
    | some record =>
        rw [Dict.contains, found]
        rfl
  have mentioned : ((dedup (leadMentions blocks)).find? (declaredByLead blocks hid)).isSome := by
    rw [← findings_keys_mentions, List.find?_isSome]
    exact ⟨lead, met, decide_eq_true declares⟩
  rw [dedup, find_enroll] at mentioned
  exact mentioned

theorem sub_block_declared (silent : (projectBlocks blocks).warnings = []) {block : Block}
    (member : block ∈ blocks) {hid : Str} {sub : HypSub}
    (kind : Projector.blockKind block = .hypSub hid sub) : declarers blocks hid ≠ [] := by
  rcases List.append_of_mem member with ⟨early, late, rfl⟩
  have before : ((projectBlocks early).projectBlock block).warnings = [] := by
    have split : projectBlocks (early ++ block :: late) =
        late.foldl Projector.projectBlock ((projectBlocks early).projectBlock block) :=
      List.foldl_append
    rw [split] at silent
    exact List.prefix_nil.mp (silent ▸ blocks_warnings_grow _ late)
  have start : (projectBlocks early).warnings = [] :=
    List.prefix_nil.mp (before ▸ block_warnings_grow (projectBlocks early) block)
  have first := (landed_blocks early start).registry.first hid
  intro none
  have unmet : declarers early hid = [] := by
    unfold declarers at none ⊢
    rw [List.flatMap_append] at none
    exact (List.append_eq_nil_iff.mp none).1
  rw [unmet] at first
  rw [project_block_edits, blockEdits, kindEdits, kind] at before
  dsimp only at before
  rw [first] at before
  exact absurd before (by simp [applyEdits, Edit.apply, blockWarn, Projector.addWarnings])

theorem silent_projection (silent : (companionFromBlocks blocks).2 = []) :
    (projectBlocks blocks).warnings = [] := by
  unfold companionFromBlocks Projector.flushDeferredWarnings Projector.addWarnings at silent
  exact (List.append_eq_nil_iff.mp silent).1

theorem registered_record_carries (landed : Landed (projectBlocks blocks) blocks) {hid : Str}
    {site : HypSite} (first : (declarers blocks hid).head? = some site) :
    ∃ record, recordAt (projectBlocks blocks) site hid = some record ∧
      ∀ block ∈ blocks, ∀ sub, Projector.blockKind block = .hypSub hid sub →
        SubBlockCarried blocks hid block sub record := by
  have stands := (landed.stands site hid).mpr (List.mem_of_head? first)
  rcases Option.isSome_iff_exists.mp stands with ⟨record, found⟩
  rcases landed.carried site hid record found with ⟨bare, isBare, rfl⟩
  refine ⟨_, found, ?_⟩
  intro block member sub kind
  rw [attachedAt, if_pos first]
  exact carried_attached isBare member kind

/-- Without a warning, the sub-blocks of every hypothesis are carried exactly when the
first lead to declare it, if one does, is the first mentioned. -/
theorem sub_blocks_carried_iff (blocks : List Block)
    (silent : (companionFromBlocks blocks).2 = []) :
    SubBlocksCarried blocks ↔
      ∀ block ∈ blocks, ∀ hid sub, Projector.blockKind block = .hypSub hid sub →
        (attachment? block sub).isSome → FirstDeclarerMentionedFirst blocks hid := by
  have quiet := silent_projection silent
  have landed := landed_blocks blocks quiet
  have looked : ∀ hid, (allHypotheses (companionFromBlocks blocks).1).get? hid =
      (recordAt (projectBlocks blocks) .table hid).or
        (((leadMentions blocks).find? (declaredByLead blocks hid)).bind fun id =>
          recordAt (projectBlocks blocks) (.lead id) hid) := by
    intro hid
    rw [← lead_record_found landed]
    exact all_hypotheses_record (projectBlocks blocks) hid
  -- a hypothesis that a lead declares first has no record in the table
  have noTable : ∀ {hid lead}, (declarers blocks hid).head? = some (.lead lead) →
      recordAt (projectBlocks blocks) .table hid = none := by
    intro hid lead first
    rw [← Option.not_isSome_iff_eq_none, landed.stands]
    intro table
    have same := landed.registry.alone hid table _ (List.mem_of_head? first)
    contradiction
  constructor
  · intro carried block member hid sub kind attached lead first
    rcases carried block member hid sub kind with ⟨record, found, carries⟩
    rw [looked, noTable first, Option.none_or] at found
    rcases Option.bind_eq_some_iff.mp found with ⟨other, mentioned, held⟩
    rw [mentioned]
    by_contra apart
    have elsewhere : (declarers blocks hid).head? ≠ some (.lead other) := by
      rw [first]
      intro same
      cases same
      exact apart rfl
    rcases landed.carried (.lead other) hid record held with ⟨bare, isBare, rfl⟩
    rw [attachedAt, if_neg elsewhere] at carries
    exact bare_not_carried isBare attached carries
  · intro order block member hid sub kind
    have declared := sub_block_declared quiet member kind
    rcases List.exists_cons_of_ne_nil declared with ⟨site, others, sites⟩
    have first : (declarers blocks hid).head? = some site := by rw [sites]; rfl
    cases site with
    | table =>
        rcases registered_record_carries landed first with ⟨record, found, carries⟩
        exact ⟨record, by rw [looked, found]; rfl, carries block member sub kind⟩
    | lead lead =>
        cases attached : attachment? block sub with
        | some attachment =>
            have mentioned := order block member hid sub kind (by rw [attached]; rfl) lead first
            rcases registered_record_carries landed first with ⟨record, found, carries⟩
            refine ⟨record, ?_, carries block member sub kind⟩
            rw [looked, noTable first, mentioned]
            exact found
        | none =>
            have mentioned := declaring_lead_mentioned landed (List.mem_of_head? first)
            rcases Option.isSome_iff_exists.mp mentioned with ⟨other, earliest⟩
            have declares : declaredByLead blocks hid other = true := List.find?_some earliest
            have stands := (landed.stands (.lead other) hid).mpr (of_decide_eq_true declares)
            rcases Option.isSome_iff_exists.mp stands with ⟨record, found⟩
            refine ⟨record, ?_, not_attached_carried attached record⟩
            rw [looked, noTable first, earliest]
            exact found

end Landing

def leadsBlock : Block :=
  ⟨'L', "findings", some ["id", "name", "target"],
    ["l-001|logons|v-001", "l-002|processes|v-001"], 3⟩

def declaringBlock (lead : Str) : Block :=
  ⟨'H', lead ++ ".new_hypotheses", some hypHeaderCols,
    ["h-001|reuse|v-001|spawned|process|shell||+|active"], 9⟩

def predictionBlock : Block :=
  ⟨'H', "h-001.preds", some hypPredCols, ["p1|v-001|spawned by a shell"], 3⟩

/-- Two leads declare `h-001`; the one mentioned second declares it first. -/
def twiceDeclared : List Block :=
  [leadsBlock, declaringBlock "l-002", predictionBlock, declaringBlock "l-001"]

theorem twice_declared_silent : (@companionFromBlocks asciiDatabase twiceDeclared).2 = [] := by
  decide +kernel

theorem sub_blocks_carried_iff_twice :
    (@companionFromBlocks asciiDatabase twiceDeclared).2 = [] ∧
      (@SubBlocksCarried asciiDatabase twiceDeclared ↔
        ∀ block ∈ twiceDeclared, ∀ hid sub, Projector.blockKind block = .hypSub hid sub →
          (@attachment? asciiDatabase block sub).isSome →
          @FirstDeclarerMentionedFirst asciiDatabase twiceDeclared hid) :=
  ⟨twice_declared_silent, @sub_blocks_carried_iff asciiDatabase twiceDeclared twice_declared_silent⟩

/-- The prediction is attached to the second lead's record and readers see the first's. -/
theorem prediction_lands_on_shadowed_record :
    (@companionFromBlocks asciiDatabase twiceDeclared).2 = [] ∧
      ¬ @SubBlocksCarried asciiDatabase twiceDeclared := by
  refine ⟨twice_declared_silent, ?_⟩
  intro carried
  have bare : ((allHypotheses (@companionFromBlocks asciiDatabase twiceDeclared).1).get?
      "h-001").map HypothesisRecord.predictions = some [] := by
    decide +kernel
  have row : (⟨"p1", "v-001", "spawned by a shell"⟩ : PredictionRecord) ∈
      readRows predictionBlock (@hypSubPredRow asciiDatabase) := by
    decide +kernel
  have kind : Projector.blockKind predictionBlock = .hypSub "h-001" .preds := by
    decide +kernel
  rcases carried predictionBlock (by simp [twiceDeclared]) "h-001" .preds kind with
    ⟨record, found, carries⟩
  rcases carries _ row with ⟨held, member, _⟩
  rw [found] at bare
  have none : record.predictions = [] := Option.some_inj.mp bare
  change held ∈ record.predictions at member
  rw [none] at member
  contradiction

end Defender.Invlang
