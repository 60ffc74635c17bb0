import Defender.Invlang.LeadOrder
import Defender.Invlang.ProjectionGrowth

/-!
# Where sub-blocks land

A hypothesis sub-block is attached to the record at the site its hypothesis is
registered at, the first site to declare it. Readers take the table's record, or
the one of the first mentioned lead that declares it. Both agree exactly when the
first lead to declare the hypothesis is also the first mentioned.
-/

namespace Defender.Invlang

open Defender.Python Defender.Library.OrderedDict

theorem bind_read {α β : Type} {first : RowResult α} {next : α → RowResult β} {value : β}
    (read : first >>= next = .ok value) : ∃ held, first = .ok held ∧ next held = .ok value := by
  cases first with
  | error reason => contradiction
  | ok held => exact ⟨held, rfl, read⟩

theorem guarded_read {α : Type} {refused : Prop} [Decidable refused] {reason : Str} {held value : α}
    (read : (if refused then .error reason else .ok held : RowResult α) = .ok value) :
    held = value := by
  split at read
  · contradiction
  · exact Except.ok.inj read

theorem extend_by_id_find {α : Type*} (idOf : α → Str) (dest rows : List α) (id : Str) :
    (extendById idOf dest rows).find? (fun row => idOf row == id) =
      (dest.find? fun row => idOf row == id).or (rows.find? fun row => idOf row == id) := by
  induction rows generalizing dest with
  | nil => simp [extendById]
  | cons row rest ih =>
      change (extendById idOf (addById idOf dest row) rest).find? _ = _
      rw [ih, List.find?_cons]
      unfold addById
      by_cases known : idOf row ≠ [] ∧ idOf row ∈ dest.map idOf
      · rw [if_pos known]
        by_cases here : idOf row = id
        · have met : (dest.find? fun row => idOf row == id).isSome := by
            rcases List.mem_map.mp known.2 with ⟨held, member, same⟩
            rw [List.find?_isSome]
            exact ⟨held, member, beq_iff_eq.mpr (same.trans here)⟩
          rw [Option.or_of_isSome met, Option.or_of_isSome met]
        · have skipped : (idOf row == id) = false := beq_false_of_ne here
          rw [skipped]
      · rw [if_neg known, List.find?_append]
        by_cases here : idOf row = id
        · simp [here]
        · have skipped : (idOf row == id) = false := beq_false_of_ne here
          simp [skipped]

theorem change_first_find (hid other : Str) (change : HypothesisRecord → HypothesisRecord)
    (keeps : ∀ hyp, (change hyp).id = hyp.id) (hyps : List HypothesisRecord) :
    (changeFirst hid change hyps).find? (fun hyp => hyp.id == other) =
      if hid = other then (hyps.find? fun hyp => hyp.id == other).map change
      else hyps.find? fun hyp => hyp.id == other := by
  induction hyps with
  | nil => simp [changeFirst]
  | cons hyp rest ih =>
      unfold changeFirst
      by_cases own : hyp.id = hid
      · rw [if_pos own]
        by_cases here : hid = other
        · simp [here, own, keeps]
        · simp [here, own, keeps]
      · rw [if_neg own, List.find?_cons, List.find?_cons, ih]
        by_cases here : hid = other
        · subst here
          have skipped : (hyp.id == hid) = false := beq_false_of_ne own
          rw [skipped, if_pos rfl]
        · rw [if_neg here, if_neg here]

theorem attachment_keeps_id (attachment : Attachment) (hyp : HypothesisRecord) :
    (attachment.apply hyp).id = hyp.id := by
  cases attachment with
  | _ => rfl

def recordAt (state : Projector) (site : HypSite) (hid : Str) : Option HypothesisRecord :=
  match site with
  | .table => (state.hypothesize.getD []).find? fun hyp => hyp.id == hid
  | .lead id => (((state.findings.get? id).map FindingRecord.newHypotheses).getD []).find?
      fun hyp => hyp.id == hid

section Edits

variable [UnicodeDatabase] (state : Projector)

omit [UnicodeDatabase] in
theorem record_at_lead (id : Str) (change : FindingRecord → FindingRecord) (site : HypSite)
    (hid : Str) : recordAt (state.editLead id change) site hid =
      if site = .lead id then
        (change ((state.findings.get? id).getD (freshLead id))).newHypotheses.find?
          fun hyp => hyp.id == hid
      else recordAt state site hid := by
  cases site with
  | table => rfl
  | lead other =>
      unfold recordAt Projector.editLead
      dsimp only
      rw [Dict.get_modify]
      by_cases same : id = other
      · subst same
        simp
      · have apart : HypSite.lead other ≠ .lead id := by
          intro equal
          exact same (HypSite.lead.inj equal).symm
        rw [if_neg same, if_neg apart]

omit [UnicodeDatabase] in
theorem fresh_lead_hypotheses (id : Str) (hid : Str) :
    ((state.findings.get? id).getD (freshLead id)).newHypotheses.find? (fun hyp => hyp.id == hid) =
      recordAt state (.lead id) hid := by
  unfold recordAt
  dsimp only
  cases state.findings.get? id with
  | none => rfl
  | some lead => rfl

/-- The parts of the state that say where hypotheses stand. -/
structure SameSites (before after : Projector) : Prop where
  records : recordAt after = recordAt before
  registry : after.hypothesesById = before.hypothesesById
  tableIds : after.prologueHypothesisIds = before.prologueHypothesisIds

omit [UnicodeDatabase] in
theorem same_sites_trans {first second third : Projector} (early : SameSites first second)
    (late : SameSites second third) : SameSites first third :=
  ⟨late.records.trans early.records, late.registry.trans early.registry,
    late.tableIds.trans early.tableIds⟩

omit [UnicodeDatabase] in
theorem edit_lead_same_sites (id : Str) (change : FindingRecord → FindingRecord)
    (keeps : ∀ lead, (change lead).newHypotheses = lead.newHypotheses) :
    SameSites state (state.editLead id change) := by
  refine ⟨?_, rfl, rfl⟩
  funext site hid
  rw [record_at_lead, keeps, fresh_lead_hypotheses]
  split
  · rename_i here
    rw [here]
  · rfl

/-- Edits that leave every hypothesis where and as it is. -/
def siteQuiet : List EditKind := [.warn, .prologue, .lead, .amend, .refine, .close]

theorem edit_same_sites (edit : Edit) (quiet : siteQuiet.contains edit.kind = true) :
    SameSites state (edit.apply state) := by
  cases edit with
  | table hyps => contradiction
  | register block site hyp => contradiction
  | attach site hid attachment => contradiction
  | lead id change =>
      cases change with
      | declare hyps => contradiction
      | amend header => exact edit_lead_same_sites state id _ fun _ => rfl
      | _ => exact edit_lead_same_sites state id _ fun _ => rfl
  | _ => exact ⟨rfl, rfl, rfl⟩

theorem edits_same_sites (edits : List Edit) (quiet : Within siteQuiet edits) :
    SameSites state (applyEdits state edits) := by
  induction edits generalizing state with
  | nil => exact ⟨rfl, rfl, rfl⟩
  | cons edit rest ih =>
      rw [Within, List.forall_mem_cons] at quiet
      exact same_sites_trans (edit_same_sites state edit quiet.1) (ih _ quiet.2)

end Edits

section Declaring

variable [UnicodeDatabase] (block : Block)

def declaration? : Option (HypSite × List HypothesisRecord) :=
  if isCurrentHypHeader block.columns then
    match Projector.blockKind block with
    | .hypotheses => some (.table, readRows block hypothesisRecord)
    | .leadSub lead sub =>
        if declaresHypotheses block sub then some (.lead lead, readRows block hypothesisRecord)
        else none
    | _ => none
  else none

def declareEdit (site : HypSite) (hyps : List HypothesisRecord) : Edit :=
  match site with
  | .table => .table hyps
  | .lead id => .lead id (.declare hyps)

theorem declaring_edits {site : HypSite} {hyps : List HypothesisRecord}
    (declares : declaration? block = some (site, hyps)) (registered : Str → Option HypSite)
    (conclude : Conclude) : ∃ early, Within siteQuiet early ∧
      kindEdits block registered conclude =
        early ++ declareEdit site hyps :: hyps.map (.register block site) := by
  unfold declaration? at declares
  split at declares
  · rename_i current
    unfold kindEdits
    split at declares
    · rename_i kind
      cases declares
      rw [kind]
      refine ⟨[noteEdit block hypothesisRecord HypothesisRecord.id], within_one rfl, ?_⟩
      unfold hypothesizeEdits
      rw [current]
      rfl
    · rename_i lead sub kind
      split at declares
      · rename_i own
        cases declares
        rw [kind]
        refine ⟨[.lead lead .mention, noteEdit block hypothesisRecord HypothesisRecord.id],
          within_cons rfl (within_one rfl), ?_⟩
        dsimp only
        rw [lead_sub_declares block lead own]
        unfold newHypothesesEdits
        rw [current]
        rfl
      · contradiction
    · contradiction
  · contradiction

theorem other_edits_quiet (none : declaration? block = none)
    (other : ∀ hid sub, Projector.blockKind block ≠ .hypSub hid sub)
    (registered : Str → Option HypSite) (conclude : Conclude) :
    Within siteQuiet (kindEdits block registered conclude) := by
  have within := kind_edits_within block registered conclude
  unfold declaration? at none
  unfold kindEdits at within ⊢
  cases kind : Projector.blockKind block with
  | hypSub hid sub => exact absurd kind (other hid sub)
  | hypotheses =>
      rw [kind] at none
      dsimp only at none ⊢
      split at none
      · contradiction
      · rename_i stale
        unfold hypothesizeEdits
        rw [Bool.not_eq_true] at stale
        rw [stale]
        exact within_one rfl
  | leadSub lead sub =>
      rw [kind] at none
      dsimp only at none ⊢
      by_cases declares : declaresHypotheses block sub
      · rw [if_pos declares] at none
        split at none
        · contradiction
        · rename_i stale
          rw [Bool.not_eq_true] at stale
          rw [lead_sub_declares block lead declares]
          unfold newHypothesesEdits
          rw [stale]
          exact within_cons rfl (within_one rfl)
      · exact within_mono (lead_sub_within block lead declares) rfl
  | _ =>
      rw [kind] at within
      exact within_mono within rfl

def attachment? (sub : HypSub) : Option Attachment :=
  match sub with
  | .preds => rowsAttached (readRows block hypSubPredRow) .preds
  | .attrPreds => rowsAttached (readRows block hypSubAttrPredRow) .attrPreds
  | .refuts => rowsAttached (readRows block hypSubRefutRow) .refuts
  | .authz => rowsAttached (readRows block hypSubAuthzRow) .authz
  | .parentAttrs =>
      if (parentAttrs block).isEmpty then none else some (.parentAttrs (parentAttrs block))
where
  rowsAttached {α : Type} (rows : List α) (attachment : List α → Attachment) :
      Option Attachment :=
    if rows.isEmpty then none else some (attachment rows)

theorem attach_edits_split {α : Type} (site : HypSite) (hid : Str)
    (projectOne : Block → Str → RowResult α) (idOf : α → Str)
    (attachment : List α → Attachment) :
    attachEdits block site hid projectOne idOf attachment = noteEdit block projectOne idOf ::
      (attachment?.rowsAttached (readRows block projectOne) attachment).toList.map
        (.attach site hid) := by
  unfold attachEdits attachment?.rowsAttached
  cases readRows block projectOne with
  | nil => rfl
  | cons first others => rfl

theorem hyp_sub_edits_split (site : HypSite) (hid : Str) (sub : HypSub) :
    ∃ early, Within siteQuiet early ∧ hypSubEdits block site hid sub =
      early ++ (attachment? block sub).toList.map (.attach site hid) := by
  unfold hypSubEdits attachment?
  cases sub with
  | preds => exact ⟨[_], within_one rfl, attach_edits_split block site hid _ _ _⟩
  | attrPreds => exact ⟨[_], within_one rfl, attach_edits_split block site hid _ _ _⟩
  | refuts => exact ⟨[_], within_one rfl, attach_edits_split block site hid _ _ _⟩
  | authz => exact ⟨[_], within_one rfl, attach_edits_split block site hid _ _ _⟩
  | parentAttrs =>
      refine ⟨rowEdits block ["key", "value"] (parentAttrEdits block), ?_, ?_⟩
      · refine within_rows block _ _ rfl ?_
        intro entry cells
        unfold parentAttrEdits
        split
        · exact within_one rfl
        · exact within_nil _
      · dsimp only
        split
        · rfl
        · rfl

end Declaring

section Registering

variable [UnicodeDatabase]

theorem edit_warnings_grow (state : Projector) (edit : Edit) :
    state.warnings <+: (edit.apply state).warnings := by
  cases edit with
  | warn warnings => exact List.prefix_append _ _
  | register block site hyp =>
      change _ <+: (Projector.registerHypothesis block site state hyp).warnings
      unfold Projector.registerHypothesis
      cases site with
      | table =>
          dsimp only
          split
          · exact List.prefix_refl _
          · split
            · exact List.prefix_append _ _
            · exact List.prefix_refl _
      | lead id =>
          dsimp only
          split
          · exact List.prefix_append _ _
          · split
            · exact List.prefix_refl _
            · exact List.prefix_refl _
  | attach site hid attachment =>
      cases site with
      | table => exact List.prefix_refl _
      | lead id => exact List.prefix_refl _
  | _ => exact List.prefix_refl _

theorem edits_warnings_grow (state : Projector) (edits : List Edit) :
    state.warnings <+: (applyEdits state edits).warnings := by
  induction edits generalizing state with
  | nil => exact List.prefix_refl _
  | cons edit rest ih => exact (edit_warnings_grow state edit).trans (ih _)

/-- The registry against the sites that declared each hypothesis, in order: the first
one is registered, and the table shares a hypothesis with no lead. -/
structure Registry (state : Projector) (sites : Str → List HypSite) : Prop where
  first : ∀ hid, state.hypothesesById.get? hid = (sites hid).head?
  table : ∀ hid, hid ∈ state.prologueHypothesisIds ↔ .table ∈ sites hid
  alone : ∀ hid, .table ∈ sites hid → ∀ site ∈ sites hid, site = .table

/-- The sites with one more declaration. -/
def addSite (sites : Str → List HypSite) (site : HypSite) (hyp : HypothesisRecord) (hid : Str) :
    List HypSite :=
  if hyp.id = hid then sites hid ++ [site] else sites hid

omit [UnicodeDatabase] in
theorem registry_again {state : Projector} {sites : Str → List HypSite}
    (registry : Registry state sites) {site : HypSite} {hyp : HypothesisRecord}
    (met : sites hyp.id ≠ []) (same : site = .table ↔ .table ∈ sites hyp.id) :
    Registry state (addSite sites site hyp) where
  first := by
    intro hid
    rw [registry.first]
    unfold addSite
    split
    · rename_i here
      rw [here] at met
      rw [List.head?_append_of_ne_nil _ met]
    · rfl
  table := by
    intro hid
    rw [registry.table]
    unfold addSite
    split
    · rename_i here
      rw [here] at same
      rw [List.mem_append, List.mem_singleton, ← same]
      constructor
      · exact fun table => .inl table
      · exact fun either => either.elim id Eq.symm
    · rfl
  alone := by
    intro hid
    unfold addSite
    split
    · rename_i here
      rw [here] at same
      intro member other found
      have table : .table ∈ sites hid := by
        rcases List.mem_append.mp member with held | last
        · exact held
        · exact same.mp (List.mem_singleton.mp last).symm
      rcases List.mem_append.mp found with held | last
      · exact registry.alone hid table other held
      · rw [List.mem_singleton.mp last]
        exact same.mpr table
    · exact registry.alone hid

omit [UnicodeDatabase] in
theorem registry_fresh {state after : Projector} {sites : Str → List HypSite}
    (registry : Registry state sites) {site : HypSite} {hyp : HypothesisRecord}
    (unmet : sites hyp.id = []) (entered : after.hypothesesById = state.hypothesesById.set hyp.id site)
    (tableIds : ∀ hid, hid ∈ after.prologueHypothesisIds ↔
      hid ∈ state.prologueHypothesisIds ∨ site = .table ∧ hyp.id = hid) :
    Registry after (addSite sites site hyp) where
  first := by
    intro hid
    rw [entered, Dict.get_set]
    unfold addSite
    split
    · rename_i here
      rw [← here, unmet]
      rfl
    · exact registry.first hid
  table := by
    intro hid
    rw [tableIds, registry.table]
    unfold addSite
    split
    · rename_i here
      rw [← here, unmet]
      simp [eq_comm]
    · rename_i apart
      simp [apart]
  alone := by
    intro hid
    unfold addSite
    split
    · rename_i here
      rw [← here, unmet]
      intro member other found
      rw [List.nil_append, List.mem_singleton] at member found
      rw [found, ← member]
    · exact registry.alone hid

theorem register_registry {state : Projector} {sites : Str → List HypSite}
    (registry : Registry state sites) (block : Block) (site : HypSite) (hyp : HypothesisRecord)
    (silent : (Projector.registerHypothesis block site state hyp).warnings = []) :
    Registry (Projector.registerHypothesis block site state hyp) (addSite sites site hyp) := by
  have first := registry.first hyp.id
  have known := registry.table hyp.id
  unfold Projector.registerHypothesis at silent ⊢
  cases site with
  | table =>
      dsimp only at silent ⊢
      by_cases again : hyp.id ∈ state.prologueHypothesisIds
      · rw [if_pos again]
        have table := known.mp again
        exact registry_again registry (List.ne_nil_of_mem table) ⟨fun _ => table, fun _ => rfl⟩
      · rw [if_neg again] at silent ⊢
        cases held : state.hypothesesById.get? hyp.id with
        | none =>
            rw [held] at first
            refine registry_fresh registry (List.head?_eq_none_iff.mp first.symm) rfl ?_
            intro hid
            simp [eq_comm]
        | some other =>
            rw [Dict.contains, held, Option.isSome_some, if_pos rfl] at silent
            exact absurd silent (by simp [Projector.warn, Projector.addWarnings])
  | lead id =>
      dsimp only at silent ⊢
      by_cases owned : hyp.id ∈ state.prologueHypothesisIds
      · rw [if_pos owned] at silent
        exact absurd silent (by simp [Projector.warn, Projector.addWarnings])
      · rw [if_neg owned]
        cases held : state.hypothesesById.get? hyp.id with
        | none =>
            rw [held] at first
            rw [Dict.contains, held]
            refine registry_fresh registry (List.head?_eq_none_iff.mp first.symm) rfl ?_
            intro hid
            simp
        | some other =>
            rw [held] at first
            rw [Dict.contains, held]
            refine registry_again registry ?_ ⟨fun absurdly => by contradiction,
              fun table => absurd (known.mpr table) owned⟩
            intro empty
            rw [empty] at first
            contradiction

def addSites (sites : Str → List HypSite) (site : HypSite) (hyps : List HypothesisRecord)
    (hid : Str) : List HypSite :=
  sites hid ++ (hyps.filter fun hyp => hyp.id == hid).map fun _ => site

theorem registers_registry (block : Block) (site : HypSite) (hyps : List HypothesisRecord)
    {state : Projector} {sites : Str → List HypSite} (registry : Registry state sites)
    (silent : (applyEdits state (hyps.map (.register block site))).warnings = []) :
    Registry (applyEdits state (hyps.map (.register block site))) (addSites sites site hyps) := by
  induction hyps generalizing state sites with
  | nil =>
      unfold addSites
      simpa [applyEdits] using registry
  | cons hyp rest ih =>
      rw [List.map_cons, apply_edits_cons] at silent ⊢
      have early := List.prefix_nil.mp (silent ▸ edits_warnings_grow
        (Edit.apply state (.register block site hyp)) (rest.map (.register block site)))
      have later := ih (register_registry registry block site hyp early) silent
      have same : addSites (addSite sites site hyp) site rest =
          addSites sites site (hyp :: rest) := by
        funext hid
        unfold addSites addSite
        by_cases here : hyp.id = hid
        · simp [here]
        · simp [here]
      rw [same] at later
      exact later

end Registering

section Standing

variable [UnicodeDatabase] (state : Projector)

theorem declare_record_at (site other : HypSite) (hyps : List HypothesisRecord) (hid : Str) :
    recordAt ((declareEdit site hyps).apply state) other hid =
      if other = site then
        (recordAt state site hid).or (hyps.find? fun hyp => hyp.id == hid)
      else recordAt state other hid := by
  cases site with
  | table =>
      cases other with
      | table => exact extend_by_id_find HypothesisRecord.id _ hyps hid
      | lead id => rfl
  | lead id =>
      change recordAt (state.editLead id _) other hid = _
      rw [record_at_lead]
      split
      · rw [← fresh_lead_hypotheses]
        exact extend_by_id_find HypothesisRecord.id _ hyps hid
      · rfl

theorem register_hypothesize (block : Block) (site : HypSite) (hyp : HypothesisRecord) :
    (Projector.registerHypothesis block site state hyp).hypothesize = state.hypothesize := by
  unfold Projector.registerHypothesis
  cases site with
  | table =>
      dsimp only
      split
      · rfl
      · split
        · rfl
        · rfl
  | lead id =>
      dsimp only
      split
      · rfl
      · split
        · rfl
        · rfl

theorem registers_records (block : Block) (site : HypSite) (hyps : List HypothesisRecord) :
    recordAt (applyEdits state (hyps.map (.register block site))) = recordAt state := by
  induction hyps generalizing state with
  | nil => rfl
  | cons hyp rest ih =>
      rw [List.map_cons, apply_edits_cons, ih]
      funext other hid
      change recordAt (Projector.registerHypothesis block site state hyp) other hid = _
      unfold recordAt
      rw [register_hypothesize, register_findings]

theorem attach_record_at (site other : HypSite) (hid named : Str) (attachment : Attachment) :
    recordAt ((Edit.attach site hid attachment).apply state) other named =
      if other = site ∧ hid = named then (recordAt state site named).map attachment.apply
      else recordAt state other named := by
  cases site with
  | table =>
      cases other with
      | table =>
          change ((state.hypothesize.map (changeFirst hid attachment.apply)).getD []).find? _ = _
          cases held : state.hypothesize with
          | none => simp [recordAt, held]
          | some hyps =>
              rw [Option.map_some, Option.getD_some,
                change_first_find hid named _ (attachment_keeps_id attachment)]
              by_cases here : hid = named
              · simp [recordAt, held, here]
              · simp [recordAt, held, here]
      | lead id => rfl
  | lead id =>
      change recordAt (state.editLead id _) other named = _
      rw [record_at_lead]
      by_cases here : other = .lead id
      · rw [if_pos here, change_first_find hid named _ (attachment_keeps_id attachment),
          fresh_lead_hypotheses]
        by_cases same : hid = named
        · simp [here, same]
        · simp [here, same]
      · simp [here]

end Standing

section Landing

variable [UnicodeDatabase]

def declarers (blocks : List Block) (hid : Str) : List HypSite :=
  blocks.flatMap fun block =>
    match declaration? block with
    | none => []
    | some (site, hyps) => (hyps.filter fun hyp => hyp.id == hid).map fun _ => site

def attachments (blocks : List Block) (hid : Str) : List Attachment :=
  blocks.flatMap fun block =>
    match Projector.blockKind block with
    | .hypSub named sub => if named = hid then (attachment? block sub).toList else []
    | _ => []

/-- A record as its row declares it, with nothing attached. -/
structure Bare (hyp : HypothesisRecord) : Prop where
  predictions : hyp.predictions = []
  attributePredictions : hyp.attributePredictions = []
  refutationShape : hyp.refutationShape = []
  authorizationContract : hyp.authorizationContract = []
  parentAttributes : parentAttributes hyp.proposedEdge = Dict.empty

def attachAll (attached : List Attachment) (hyp : HypothesisRecord) : HypothesisRecord :=
  attached.foldl (fun held attachment => attachment.apply held) hyp

/-- What is attached to the record at a site: everything where the hypothesis is
registered, nothing elsewhere. -/
def attachedAt (blocks : List Block) (site : HypSite) (hid : Str) : List Attachment :=
  if (declarers blocks hid).head? = some site then attachments blocks hid else []

/-- The records against the blocks projected so far. -/
structure Landed (state : Projector) (blocks : List Block) : Prop where
  registry : Registry state (declarers blocks)
  stands : ∀ site hid, (recordAt state site hid).isSome ↔ site ∈ declarers blocks hid
  carried : ∀ site hid record, recordAt state site hid = some record →
    ∃ bare, Bare bare ∧ record = attachAll (attachedAt blocks site hid) bare
  unattached : ∀ hid, declarers blocks hid = [] → attachments blocks hid = []

omit [UnicodeDatabase] in
theorem built_edge_bare (cells : RowRecord) :
    parentAttributes (buildProposedEdge cells) = Dict.empty := by
  unfold buildProposedEdge
  generalize writtenCell cells "parent_type" = parentType
  generalize writtenCell cells "parent_class" = parentClass
  generalize writtenCell cells "rel" = relation
  cases parentType <;> cases parentClass <;> cases relation <;> rfl

theorem hypothesis_row_bare (block : Block) {row : Str} {hyp : HypothesisRecord}
    (read : hypothesisRecord block row = .ok hyp) : Bare hyp := by
  unfold hypothesisRecord at read
  rcases bind_read read with ⟨raw, _, checked⟩
  rcases bind_read checked with ⟨_, _, anchored⟩
  rw [← guarded_read anchored]
  constructor
  · rfl
  · rfl
  · rfl
  · rfl
  · dsimp only
    rw [built_edge_bare]

theorem declared_bare {block : Block} {site : HypSite} {hyps : List HypothesisRecord}
    (declares : declaration? block = some (site, hyps)) {hyp : HypothesisRecord}
    (member : hyp ∈ hyps) : Bare hyp := by
  have rows : hyps = readRows block hypothesisRecord := by
    unfold declaration? at declares
    split at declares
    · split at declares
      · cases declares
        rfl
      · split at declares
        · cases declares
          rfl
        · contradiction
      · contradiction
    · contradiction
  rw [rows] at member
  rcases List.mem_filterMap.mp member with ⟨row, _, read⟩
  cases result : hypothesisRecord block row with
  | error reason =>
      rw [result] at read
      contradiction
  | ok found =>
      rw [result] at read
      cases read
      exact hypothesis_row_bare block result

theorem declares_no_sub {block : Block} {site : HypSite} {hyps : List HypothesisRecord}
    (declares : declaration? block = some (site, hyps)) (hid : Str) (sub : HypSub) :
    Projector.blockKind block ≠ .hypSub hid sub := by
  intro kind
  unfold declaration? at declares
  rw [kind] at declares
  split at declares
  · contradiction
  · contradiction

theorem sub_declares_nothing {block : Block} {hid : Str} {sub : HypSub}
    (kind : Projector.blockKind block = .hypSub hid sub) : declaration? block = none := by
  unfold declaration?
  rw [kind]
  split
  · rfl
  · rfl

section Extending

variable (blocks : List Block) (block : Block)

theorem declarers_extend (hid : Str) : declarers (blocks ++ [block]) hid =
    declarers blocks hid ++ declarers [block] hid := by
  unfold declarers
  rw [List.flatMap_append]

theorem attachments_extend (hid : Str) : attachments (blocks ++ [block]) hid =
    attachments blocks hid ++ attachments [block] hid := by
  unfold attachments
  rw [List.flatMap_append]

theorem declarers_of_other (none : declaration? block = none) (hid : Str) :
    declarers [block] hid = [] := by
  simp [declarers, none]

theorem attachments_of_other (other : ∀ hid sub, Projector.blockKind block ≠ .hypSub hid sub)
    (hid : Str) : attachments [block] hid = [] := by
  unfold attachments
  rw [List.flatMap_singleton]
  split
  · rename_i named sub kind
    exact absurd kind (other named sub)
  · rfl

end Extending

omit [UnicodeDatabase] in
theorem registry_congr {before after : Projector} {sites : Str → List HypSite}
    (registry : Registry before sites)
    (byId : after.hypothesesById = before.hypothesesById)
    (tableIds : after.prologueHypothesisIds = before.prologueHypothesisIds) :
    Registry after sites :=
  ⟨fun hid => by rw [byId, registry.first], fun hid => by rw [tableIds, registry.table],
    registry.alone⟩

theorem landed_same {state after : Projector} {blocks : List Block} (landed : Landed state blocks)
    (same : SameSites state after) {block : Block}
    (noSite : ∀ hid, declarers [block] hid = [])
    (nothing : ∀ hid, attachments [block] hid = []) : Landed after (blocks ++ [block]) := by
  have sites : declarers (blocks ++ [block]) = declarers blocks := by
    funext hid
    rw [declarers_extend, noSite, List.append_nil]
  have attached : attachments (blocks ++ [block]) = attachments blocks := by
    funext hid
    rw [attachments_extend, nothing, List.append_nil]
  have held : attachedAt (blocks ++ [block]) = attachedAt blocks := by
    funext site hid
    rw [attachedAt, attachedAt, sites, attached]
  constructor
  · rw [sites]
    exact registry_congr landed.registry same.registry same.tableIds
  · rw [same.records, sites]
    exact landed.stands
  · rw [same.records, held]
    exact landed.carried
  · rw [sites, attached]
    exact landed.unattached

theorem declarers_declared {block : Block} {site : HypSite} {hyps : List HypothesisRecord}
    (declares : declaration? block = some (site, hyps)) (blocks : List Block) :
    declarers (blocks ++ [block]) = addSites (declarers blocks) site hyps := by
  funext hid
  rw [declarers_extend, addSites]
  simp [declarers, declares]

omit [UnicodeDatabase] in
theorem found_declares (site : HypSite) (hyps : List HypothesisRecord) (hid : Str) :
    (hyps.find? fun hyp => hyp.id == hid).isSome ↔
      site ∈ (hyps.filter fun hyp => hyp.id == hid).map fun _ => site := by
  rw [List.find?_isSome]
  simp

theorem landed_declare {state : Projector} {blocks : List Block} (landed : Landed state blocks)
    {block : Block} {site : HypSite} {hyps : List HypothesisRecord}
    (declares : declaration? block = some (site, hyps))
    (silent : (applyEdits state (declareEdit site hyps :: hyps.map (.register block site))).warnings
      = []) :
    Landed (applyEdits state (declareEdit site hyps :: hyps.map (.register block site)))
      (blocks ++ [block]) := by
  have sites := declarers_declared declares blocks
  have attached : attachments (blocks ++ [block]) = attachments blocks := by
    funext hid
    rw [attachments_extend, attachments_of_other block (declares_no_sub declares), List.append_nil]
  have records : ∀ other hid, recordAt (applyEdits state
      (declareEdit site hyps :: hyps.map (.register block site))) other hid =
        if other = site then (recordAt state site hid).or (hyps.find? fun hyp => hyp.id == hid)
        else recordAt state other hid := by
    intro other hid
    rw [apply_edits_cons, registers_records, declare_record_at]
  have before : Registry ((declareEdit site hyps).apply state) (declarers blocks) := by
    cases site with
    | table => exact registry_congr landed.registry rfl rfl
    | lead id => exact registry_congr landed.registry rfl rfl
  constructor
  · rw [sites]
    exact registers_registry block site hyps before silent
  · intro other hid
    rw [records, sites, addSites, List.mem_append]
    by_cases here : other = site
    · subst here
      rw [if_pos rfl, Option.isSome_or, Bool.or_eq_true, landed.stands, found_declares other]
    · rw [if_neg here, landed.stands]
      simp [here]
  · intro other hid record found
    rw [records] at found
    -- the first site of a hypothesis met before stays, and nothing was attached to one not met
    have kept : ∀ held, recordAt state other hid = some held →
        attachedAt (blocks ++ [block]) other hid = attachedAt blocks other hid := by
      intro held stood
      have met : declarers blocks hid ≠ [] := by
        have member := (landed.stands other hid).mp (by rw [stood]; rfl)
        exact List.ne_nil_of_mem member
      rw [attachedAt, attachedAt, attached, declarers_extend, List.head?_append_of_ne_nil _ met]
    split at found
    · rename_i here
      subst here
      cases stood : recordAt state other hid with
      | some held =>
          rw [stood, Option.some_or] at found
          rw [← Option.some_inj.mp found, kept held stood]
          exact landed.carried other hid held stood
      | none =>
          rw [stood, Option.none_or] at found
          refine ⟨record, declared_bare declares (List.mem_of_find?_eq_some found), ?_⟩
          have nothing : attachedAt (blocks ++ [block]) other hid = [] := by
            have absent : other ∉ declarers blocks hid := by
              rw [← landed.stands, stood]
              simp
            rw [attachedAt, attached, declarers_extend]
            cases met : declarers blocks hid with
            | nil =>
                rw [landed.unattached hid met]
                split
                · rfl
                · rfl
            | cons first others =>
                rw [met] at absent
                rw [if_neg]
                intro head
                exact absent (Option.some_inj.mp head ▸ List.mem_cons_self)
          rw [nothing]
          rfl
    · rw [kept record found]
      exact landed.carried other hid record found
  · intro hid none
    rw [attached]
    rw [declarers_extend] at none
    exact landed.unattached hid (List.append_eq_nil_iff.mp none).1

theorem landed_attach {state : Projector} {blocks : List Block} (landed : Landed state blocks)
    {block : Block} {hid : Str} {sub : HypSub} {site : HypSite}
    (kind : Projector.blockKind block = .hypSub hid sub)
    (registered : state.hypothesesById.get? hid = some site) :
    Landed (applyEdits state ((attachment? block sub).toList.map (.attach site hid)))
      (blocks ++ [block]) := by
  have sites : declarers (blocks ++ [block]) = declarers blocks := by
    funext named
    rw [declarers_extend, declarers_of_other block (sub_declares_nothing kind), List.append_nil]
  have attached : ∀ named, attachments (blocks ++ [block]) named = attachments blocks named ++
      if hid = named then (attachment? block sub).toList else [] := by
    intro named
    rw [attachments_extend]
    simp [attachments, kind]
  have first : (declarers blocks hid).head? = some site := by
    rw [← landed.registry.first, registered]
  have records : ∀ other named,
      recordAt (applyEdits state ((attachment? block sub).toList.map (.attach site hid))) other
        named = if other = site ∧ hid = named then
          (recordAt state site named).map (attachAll (attachment? block sub).toList)
        else recordAt state other named := by
    intro other named
    cases attachment? block sub with
    | none =>
        change recordAt state other named = _
        split
        · rename_i here
          rw [here.1]
          exact Option.map_id'.symm
        · rfl
    | some attachment => exact attach_record_at state site other hid named attachment
  have registry : Registry (applyEdits state
      ((attachment? block sub).toList.map (.attach site hid))) (declarers blocks) := by
    cases attachment? block sub with
    | none => exact landed.registry
    | some attachment =>
        cases site with
        | table => exact registry_congr landed.registry rfl rfl
        | lead id => exact registry_congr landed.registry rfl rfl
  constructor
  · rw [sites]
    exact registry
  · intro other named
    rw [records, sites, ← landed.stands]
    split
    · rename_i here
      rw [here.1, Option.isSome_map]
    · rfl
  · intro other named record found
    rw [records] at found
    split at found
    · rename_i here
      rcases here with ⟨rfl, rfl⟩
      rcases Option.map_eq_some_iff.mp found with ⟨held, stood, rfl⟩
      rcases landed.carried other hid held stood with ⟨bare, isBare, rfl⟩
      refine ⟨bare, isBare, ?_⟩
      rw [attachedAt, attachedAt, sites, if_pos first, if_pos first, attached, if_pos rfl]
      exact List.foldl_append.symm
    · rename_i apart
      have same : attachedAt (blocks ++ [block]) other named = attachedAt blocks other named := by
        rw [attachedAt, attachedAt, sites, attached]
        split
        · rename_i head
          by_cases here : hid = named
          · subst here
            rw [first] at head
            exact absurd ⟨(Option.some_inj.mp head).symm, rfl⟩ apart
          · rw [if_neg here, List.append_nil]
        · rfl
      rw [same]
      exact landed.carried other named record found
  · intro named none
    rw [sites] at none
    rw [attached, landed.unattached named none]
    by_cases here : hid = named
    · subst here
      rw [none] at first
      contradiction
    · rw [if_neg here]
      rfl

theorem landed_trans {state after : Projector} {blocks : List Block} (landed : Landed state blocks)
    (same : SameSites state after) : Landed after blocks :=
  ⟨registry_congr landed.registry same.registry same.tableIds,
    by rw [same.records]; exact landed.stands, by rw [same.records]; exact landed.carried,
    landed.unattached⟩

/-- A block that is projected without a warning lands as its kind says. -/
theorem landed_block {state : Projector} {blocks : List Block} (landed : Landed state blocks)
    (block : Block) (silent : (state.projectBlock block).warnings = []) :
    Landed (state.projectBlock block) (blocks ++ [block]) := by
  rw [project_block_edits] at silent ⊢
  unfold blockEdits at silent ⊢
  have quoted : SameSites state ((quoteEdit block).apply state) :=
    edit_same_sites state (quoteEdit block) rfl
  rw [apply_edits_cons] at silent ⊢
  cases declares : declaration? block with
  | some found =>
      rcases found with ⟨site, hyps⟩
      rcases declaring_edits block declares state.hypothesesById.get?
        (state.conclude.getD .empty) with ⟨early, quiet, split⟩
      rw [split, apply_edits_append] at silent ⊢
      have early := edits_same_sites ((quoteEdit block).apply state) early quiet
      exact landed_declare (landed_trans landed (same_sites_trans quoted early)) declares silent
  | none =>
      by_cases sub : ∃ hid sub, Projector.blockKind block = .hypSub hid sub
      · rcases sub with ⟨hid, sub, kind⟩
        unfold kindEdits at silent ⊢
        rw [kind] at silent ⊢
        dsimp only at silent ⊢
        cases registered : state.hypothesesById.get? hid with
        | none =>
            rw [registered] at silent
            exact absurd silent (by simp [applyEdits, Edit.apply, blockWarn, Projector.addWarnings])
        | some site =>
            rcases hyp_sub_edits_split block site hid sub with ⟨early, quiet, split⟩
            rw [registered] at silent
            dsimp only at silent ⊢
            rw [split, apply_edits_append]
            have settled := same_sites_trans quoted
              (edits_same_sites ((quoteEdit block).apply state) early quiet)
            exact landed_attach (landed_trans landed settled) kind
              (by rw [settled.registry, registered])
      · have other : ∀ hid sub, Projector.blockKind block ≠ .hypSub hid sub :=
          fun hid found kind => sub ⟨hid, found, kind⟩
        have quiet := other_edits_quiet block declares other state.hypothesesById.get?
          (state.conclude.getD .empty)
        exact landed_same landed (same_sites_trans quoted (edits_same_sites _ _ quiet))
          (declarers_of_other block declares) (attachments_of_other block other)

theorem landed_start : Landed .start [] := by
  refine ⟨⟨fun _ => rfl, by simp [declarers, Projector.start], by simp [declarers]⟩, ?_, ?_, ?_⟩
  · intro site hid
    cases site <;> simp [recordAt, Projector.start, declarers]
  · intro site hid record found
    cases site <;> simp [recordAt, Projector.start] at found
  · exact fun _ _ => rfl

theorem block_warnings_grow (state : Projector) (block : Block) :
    state.warnings <+: (state.projectBlock block).warnings := by
  rw [project_block_edits]
  exact edits_warnings_grow state _

theorem blocks_warnings_grow (state : Projector) (blocks : List Block) :
    state.warnings <+: (blocks.foldl Projector.projectBlock state).warnings := by
  induction blocks generalizing state with
  | nil => exact List.prefix_refl _
  | cons block rest ih => exact (block_warnings_grow state block).trans (ih _)

theorem landed_blocks (blocks : List Block) (silent : (projectBlocks blocks).warnings = []) :
    Landed (projectBlocks blocks) blocks := by
  induction blocks using List.reverseRecOn with
  | nil => exact landed_start
  | append_singleton early block ih =>
      have split : projectBlocks (early ++ [block]) = (projectBlocks early).projectBlock block :=
        List.foldl_append
      rw [split] at silent ⊢
      have before : (projectBlocks early).warnings = [] :=
        List.prefix_nil.mp (silent ▸ block_warnings_grow (projectBlocks early) block)
      exact landed_block (ih before) block silent

end Landing

end Defender.Invlang
