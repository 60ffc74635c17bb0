import Defender.Invlang.HypothesisSites

/-!
# What is declared where

Vertices are declared at the prologue or at a lead. At each site the rows of the declaring blocks
are entered in order, the first row of an id standing. Nothing else enters a row, so parts of a
document that declare nothing leave every site as it is.
-/

namespace Defender.Invlang

open Defender.Python Defender.Library.OrderedDict

def workOn (lead : Str) (held : Option FindingRecord) (work : FindingRecord → FindingRecord) :
    Option FindingRecord :=
  some (work (held.getD (freshLead lead)))

theorem edit_lead_record (state : Projector) (id lead : Str)
    (change : FindingRecord → FindingRecord) :
    (state.editLead id change).findings.get? lead =
      if id = lead then workOn lead (state.findings.get? lead) change
      else state.findings.get? lead := by
  unfold Projector.editLead workOn
  rw [Dict.get_modify]
  by_cases same : id = lead
  · subst same
    rfl
  · rw [if_neg same, if_neg same]

theorem project_blocks_snoc [UnicodeDatabase] (blocks : List Block) (block : Block) :
    projectBlocks (blocks ++ [block]) = (projectBlocks blocks).projectBlock block := by
  unfold projectBlocks
  rw [List.foldl_append]
  rfl

section Tables

variable {Item : Type*}

def enterRows (idOf : Item → Str) (table : HypSite → List Item) (entry : HypSite × List Item) :
    HypSite → List Item :=
  fun site => if entry.1 = site then extendById idOf (table site) entry.2 else table site

theorem enter_nothing (idOf : Item → Str) (table : HypSite → List Item) (site : HypSite) :
    enterRows idOf table (site, []) = table := by
  funext other
  unfold enterRows
  split
  · rfl
  · rfl

end Tables

def siteTable {Item : Type*} (table : Projector → List Item) (own : FindingRecord → List Item)
    (state : Projector) : HypSite → List Item
  | .table => table state
  | .lead id => ((state.findings.get? id).map own).getD []

def vertexTable : Projector → HypSite → List VertexRecord :=
  siteTable (fun state => prologueVertices state.companion) leadVertices

def Edit.vertices? : Edit → Option (HypSite × List VertexRecord)
  | .vertices rows => some (.table, rows)
  | .lead id (.vertices rows) => some (.lead id, rows)
  | _ => none

section Leads

variable {Item : Type*} {idOf : Item → Str} {table : Projector → List Item}
variable {own : FindingRecord → List Item} (state : Projector) (id : Str)
variable (change : FindingRecord → FindingRecord)

theorem edit_lead_table (rows : List Item)
    (outside : table (state.editLead id change) = table state) (fresh : own (freshLead id) = [])
    (entered : ∀ held, own (change held) = extendById idOf (own held) rows) :
    siteTable table own (state.editLead id change) =
      enterRows idOf (siteTable table own state) (.lead id, rows) := by
  funext site
  cases site with
  | table => exact outside
  | lead other =>
      unfold siteTable enterRows
      dsimp only
      rw [edit_lead_record]
      by_cases same : id = other
      · subst same
        rw [if_pos rfl, if_pos rfl, workOn, Option.map_some, Option.getD_some, entered]
        cases state.findings.get? id with
        | none => rw [Option.getD_none, fresh, Option.map_none, Option.getD_none]
        | some held => rfl
      · rw [if_neg same, if_neg (fun lead => same (HypSite.lead.inj lead))]

theorem edit_lead_untouched (outside : table (state.editLead id change) = table state)
    (fresh : own (freshLead id) = []) (kept : ∀ held, own (change held) = own held) :
    siteTable table own (state.editLead id change) = siteTable table own state := by
  have entered : siteTable table own (state.editLead id change) =
      enterRows (fun _ => []) (siteTable table own state) (.lead id, []) :=
    edit_lead_table state id change [] outside fresh kept
  rw [entered, enter_nothing]

theorem site_table_congr {before after : Projector} (tables : table after = table before)
    (leads : after.findings = before.findings) :
    siteTable table own after = siteTable table own before := by
  funext site
  cases site with
  | table => exact tables
  | lead id => rw [siteTable, siteTable, leads]

end Leads

theorem within_no_vertices {allowed : List EditKind} {edits : List Edit}
    (within : Within allowed edits) (noPrologue : allowed.contains .prologue = false)
    (noLead : allowed.contains .lead = false) : edits.filterMap Edit.vertices? = [] := by
  apply List.filterMap_eq_nil_iff.mpr
  intro edit member
  have kind := within edit member
  cases edit with
  | vertices rows => exact absurd (noPrologue.symm.trans kind) (by decide)
  | lead id change =>
      cases change with
      | vertices rows => exact absurd (noLead.symm.trans kind) (by decide)
      | _ => rfl
  | _ => rfl

section Edits

variable [UnicodeDatabase] (state : Projector)

theorem register_prologue (block : Block) (site : HypSite) (hyp : HypothesisRecord) :
    (Projector.registerHypothesis block site state hyp).prologue = state.prologue := by
  unfold Projector.registerHypothesis
  cases site with
  | table =>
      dsimp only
      split
      · rfl
      · split
        · rfl
        · rfl
  | lead id =>
      dsimp only
      split
      · rfl
      · split
        · rfl
        · rfl

theorem edit_vertex_table (edit : Edit) :
    vertexTable (edit.apply state) =
      edit.vertices?.toList.foldl (enterRows VertexRecord.id) (vertexTable state) := by
  cases edit with
  | vertices rows =>
      funext site
      cases site with
      | table =>
          change extendById _ (state.prologue.getD ⟨[], []⟩).vertices rows =
            extendById _ ((state.prologue.map Prologue.vertices).getD []) rows
          cases state.prologue <;> rfl
      | lead id => rfl
  | edges rows =>
      funext site
      cases site with
      | table =>
          change (state.prologue.getD ⟨[], []⟩).vertices =
            (state.prologue.map Prologue.vertices).getD []
          cases state.prologue <;> rfl
      | lead id => rfl
  | register block site hyp =>
      refine site_table_congr ?_ (register_findings block site state hyp)
      exact congrArg (fun held => (held.map Prologue.vertices).getD [])
        (register_prologue state block site hyp)
  | attach site hid attachment =>
      cases site with
      | table => rfl
      | lead id => exact edit_lead_untouched state id _ rfl rfl fun _ => rfl
  | lead id change =>
      cases change with
      | vertices rows =>
          refine edit_lead_table state id _ rows rfl rfl ?_
          intro held
          change extendById _ (held.outcome.observations.getD ⟨[], []⟩).vertices rows =
            extendById _ ((held.outcome.observations.map Observations.vertices).getD []) rows
          cases held.outcome.observations <;> rfl
      | edges rows =>
          refine edit_lead_untouched state id _ rfl rfl ?_
          intro held
          change (held.outcome.observations.getD ⟨[], []⟩).vertices =
            (held.outcome.observations.map Observations.vertices).getD []
          cases held.outcome.observations <;> rfl
      | ground bucket row =>
          refine edit_lead_untouched state id _ rfl rfl ?_
          intro held
          cases bucket <;> rfl
      | _ => exact edit_lead_untouched state id _ rfl rfl fun _ => rfl
  | _ => rfl

theorem edits_vertex_table (edits : List Edit) :
    vertexTable (applyEdits state edits) =
      (edits.filterMap Edit.vertices?).foldl (enterRows VertexRecord.id) (vertexTable state) := by
  induction edits generalizing state with
  | nil => rfl
  | cons edit rest ih =>
      rw [apply_edits_cons, ih, edit_vertex_table, List.filterMap_cons]
      cases edit.vertices? with
      | none => rfl
      | some entry => rfl

end Edits

section Blocks

variable [UnicodeDatabase] (block : Block) (registered : Str → Option HypSite) (conclude : Conclude)

def observation? : Option (HypSite × List VertexRecord) :=
  match Projector.blockKind block with
  | .prologueVertices => some (.table, readRows block vertexRecord)
  | .leadSub lead sub =>
      if block.tag = 'V' ∧ sub = ("observations.vertices" : Str) then
        some (.lead lead, readRows block vertexRecord)
      else none
  | _ => none

theorem lead_sub_observation (lead sub : Str) :
    (leadSubEdits block lead sub).filterMap Edit.vertices? =
      (if block.tag = 'V' ∧ sub = ("observations.vertices" : Str) then
        some (HypSite.lead lead, readRows block vertexRecord) else none).toList := by
  unfold leadSubEdits
  rw [List.filterMap_cons]
  dsimp only [Edit.vertices?]
  split
  · rfl
  · split
    · rfl
    · split
      · exact within_no_vertices (new_hypotheses_within block lead) rfl rfl
      · have plans : ∀ {α : Type} (cols : List Str) (projectOne : Block → Str → RowResult α)
            (idOf : α → Str) (change : List α → LeadChange),
            (∀ rows, (Edit.lead lead (change rows)).vertices? = none) →
              (planEdits block lead cols projectOne idOf change).filterMap Edit.vertices? = [] := by
          intro α cols projectOne idOf change plain
          unfold planEdits
          split
          · rfl
          · simp only [List.filterMap_cons, plain]
            rfl
        split
        · exact plans _ _ _ _ fun _ => rfl
        · split
          · exact plans _ _ _ _ fun _ => rfl
          · split
            · rfl
            · split
              · rfl
              · split
                · rfl
                · rfl

theorem kind_edits_observation :
    (kindEdits block registered conclude).filterMap Edit.vertices? =
      (observation? block).toList := by
  unfold kindEdits observation?
  cases Projector.blockKind block with
  | prologueVertices => rfl
  | prologueEdges => rfl
  | hypotheses => exact within_no_vertices (hypothesize_within block) rfl rfl
  | hypSub hid sub =>
      dsimp only
      cases registered hid with
      | none => rfl
      | some site => exact within_no_vertices (hyp_sub_within block site hid sub) rfl rfl
  | findings =>
      change (findingsEdits block).filterMap Edit.vertices? = []
      unfold findingsEdits
      rw [List.filterMap_append, List.filterMap_append,
        within_no_vertices (findings_rows_within block) rfl rfl, List.filterMap_map]
      exact List.filterMap_eq_nil_iff.mpr fun _ _ => rfl
  | leadSub lead sub => exact lead_sub_observation block lead sub
  | resolution bucket =>
      change (rowEdits block [] (resolutionRowEdits bucket block)).filterMap Edit.vertices? = []
      rw [row_edits_view _ block [] _ (fun _ => none)]
      · simp
      · intro entry
        unfold readRowEdits resolutionRowEdits
        cases rowDict block entry.1 [] with
        | error reason => rfl
        | ok cells =>
            dsimp only
            split
            · rfl
            · cases bucket with
              | attrUpdates =>
                  dsimp only
                  split
                  · rfl
                  · rfl
              | _ => rfl
  | tBlock =>
      by_cases named : block.name = ("resolutions" : Str)
      · change (tBlockEdits block conclude).filterMap Edit.vertices? = []
        rw [t_block_resolutions block conclude named]
        apply List.filterMap_eq_nil_iff.mpr
        intro edit member
        obtain ⟨entry, _, found⟩ := List.mem_flatMap.mp member
        split at found
        · rw [List.mem_singleton.mp found]
          rfl
        · split at found
          · rw [List.mem_singleton.mp found]
            rfl
          · rw [List.mem_singleton.mp found]
            rfl
      · exact within_no_vertices (t_block_within block conclude named) rfl rfl
  | unknown => rfl

end Blocks

section Documents

variable [UnicodeDatabase]

theorem blocks_vertex_table (done rest : List Block) :
    vertexTable (projectBlocks (done ++ rest)) =
      (rest.filterMap observation?).foldl (enterRows VertexRecord.id)
        (vertexTable (projectBlocks done)) := by
  induction rest generalizing done with
  | nil => rw [List.append_nil]; rfl
  | cons block rest ih =>
      have here : vertexTable (projectBlocks (done ++ [block])) =
          (observation? block).toList.foldl (enterRows VertexRecord.id)
            (vertexTable (projectBlocks done)) := by
        rw [project_blocks_snoc, project_block_edits, edits_vertex_table,
          ← kind_edits_observation block (projectBlocks done).hypothesesById.get?
            ((projectBlocks done).conclude.getD .empty)]
        rfl
      have next := ih (done ++ [block])
      rw [List.append_assoc, List.singleton_append] at next
      rw [next, here, List.filterMap_cons]
      cases observation? block with
      | none => rfl
      | some entry => rfl

end Documents

end Defender.Invlang
