import Defender.Invlang.Edits

/-!
# What each kind of block can reach

The edits of a block sorted by the part of the state they reach, with the kinds
that a block of each name can have.
-/

namespace Defender.Invlang

open Defender.Python Defender.Library.OrderedDict

/-- What part of the state an edit reaches. -/
inductive EditKind where
  | warn
  | prologue
  | table
  | register
  | attach
  | lead
  | amend
  | refine
  | declare
  | close
deriving DecidableEq

def Edit.kind : Edit → EditKind
  | .warn _ => .warn
  | .vertices _ => .prologue
  | .edges _ => .prologue
  | .table _ => .table
  | .register _ _ _ => .register
  | .attach _ _ _ => .attach
  | .lead _ (.amend _) => .amend
  | .lead _ (.refine _ _ _) => .refine
  | .lead _ (.declare _) => .declare
  | .lead _ _ => .lead
  | .conclude _ => .close
  | .silentClose _ => .close
  | .closeLoop _ => .close

section Kinds

variable [UnicodeDatabase] (block : Block)

def Within (allowed : List EditKind) (edits : List Edit) : Prop :=
  ∀ edit ∈ edits, allowed.contains edit.kind = true

omit [UnicodeDatabase] in
theorem within_nil (allowed : List EditKind) : Within allowed [] := fun _ member => nomatch member

omit [UnicodeDatabase] in
theorem within_cons {allowed : List EditKind} {edit : Edit} {edits : List Edit}
    (first : allowed.contains edit.kind = true) (rest : Within allowed edits) :
    Within allowed (edit :: edits) :=
  List.forall_mem_cons.mpr ⟨first, rest⟩

omit [UnicodeDatabase] in
theorem within_one {allowed : List EditKind} {edit : Edit}
    (only : allowed.contains edit.kind = true) : Within allowed [edit] :=
  within_cons only (within_nil allowed)

omit [UnicodeDatabase] in
theorem within_append {allowed : List EditKind} {early late : List Edit}
    (first : Within allowed early) (rest : Within allowed late) :
    Within allowed (early ++ late) :=
  List.forall_mem_append.mpr ⟨first, rest⟩

omit [UnicodeDatabase] in
theorem within_map {α : Type*} {allowed : List EditKind} (rows : List α) (edit : α → Edit)
    (each : ∀ row, allowed.contains (edit row).kind = true) : Within allowed (rows.map edit) := by
  intro found member
  rcases List.mem_map.mp member with ⟨row, _, rfl⟩
  exact each row

omit [UnicodeDatabase] in
theorem within_mono {few many : List EditKind} {edits : List Edit} (within : Within few edits)
    (more : few.all many.contains = true) : Within many edits := by
  intro edit member
  have kind := within edit member
  rw [List.contains_iff_mem] at kind
  exact List.all_eq_true.mp more _ kind

theorem within_rows {allowed : List EditKind} (defaultCols : List Str)
    (edits : Str × Nat → RowRecord → List Edit) (warns : allowed.contains .warn = true)
    (each : ∀ entry cells, Within allowed (edits entry cells)) :
    Within allowed (rowEdits block defaultCols edits) := by
  intro edit member
  rcases List.mem_flatMap.mp member with ⟨entry, _, found⟩
  unfold readRowEdits at found
  split at found
  · rw [List.mem_singleton.mp found]
    exact warns
  · exact each entry _ edit found

theorem hypothesize_within : Within [.warn, .table, .register] (hypothesizeEdits block) := by
  unfold hypothesizeEdits
  split
  · exact within_one rfl
  · exact within_append (within_cons rfl (within_one rfl)) (within_map _ _ fun _ => rfl)

theorem attach_within {α : Type*} (site : HypSite) (hid : Str)
    (projectOne : Block → Str → RowResult α) (idOf : α → Str)
    (attachment : List α → Attachment) :
    Within [.warn, .attach] (attachEdits block site hid projectOne idOf attachment) := by
  unfold attachEdits
  refine within_cons rfl ?_
  split
  · exact within_nil _
  · exact within_one rfl

theorem hyp_sub_within (site : HypSite) (hid : Str) (sub : HypSub) :
    Within [.warn, .attach] (hypSubEdits block site hid sub) := by
  unfold hypSubEdits
  cases sub with
  | preds => exact attach_within block site hid _ _ _
  | attrPreds => exact attach_within block site hid _ _ _
  | refuts => exact attach_within block site hid _ _ _
  | authz => exact attach_within block site hid _ _ _
  | parentAttrs =>
      refine within_append (within_rows block _ _ rfl ?_) ?_
      · intro entry cells
        unfold parentAttrEdits
        split
        · exact within_one rfl
        · exact within_nil _
      · split
        · exact within_nil _
        · exact within_one rfl

theorem findings_rows_within : Within [.warn] (rowEdits block [] (findingsRowEdits block)) := by
  refine within_rows block _ _ rfl ?_
  intro entry cells
  unfold findingsRowEdits
  split
  · exact within_one rfl
  · exact within_nil _

theorem findings_within : Within [.warn, .amend] (findingsEdits block) := by
  unfold findingsEdits
  exact within_append
    (within_append (within_mono (findings_rows_within block) rfl) (within_one rfl))
    (within_map _ _ fun _ => rfl)

theorem plan_within {α : Type*} (lead : Str) (cols : List Str)
    (projectOne : Block → Str → RowResult α) (idOf : α → Str) (change : List α → LeadChange)
    (plain : ∀ rows, (Edit.lead lead (change rows)).kind = .lead) :
    Within [.warn, .lead] (planEdits block lead cols projectOne idOf change) := by
  unfold planEdits
  split
  · exact within_one rfl
  · refine within_cons rfl (within_cons rfl (within_one ?_))
    rw [plain]
    rfl

theorem new_hypotheses_within (lead : Str) :
    Within [.warn, .declare, .register] (newHypothesesEdits block lead) := by
  unfold newHypothesesEdits
  split
  · exact within_one rfl
  · exact within_append (within_cons rfl (within_one rfl)) (within_map _ _ fun _ => rfl)

def declaresHypotheses (sub : Str) : Prop := block.tag = 'H' ∧ sub = ("new_hypotheses" : Str)

instance (sub : Str) : Decidable (declaresHypotheses block sub) :=
  inferInstanceAs (Decidable (_ ∧ _))

theorem lead_sub_declares (lead : Str) {sub : Str} (declares : declaresHypotheses block sub) :
    leadSubEdits block lead sub = .lead lead .mention :: newHypothesesEdits block lead := by
  unfold declaresHypotheses at declares
  unfold leadSubEdits
  rw [if_neg (by rw [declares.1]; simp), if_neg (by rw [declares.1]; simp), if_pos declares]

theorem lead_sub_within (lead : Str) {sub : Str} (other : ¬ declaresHypotheses block sub) :
    Within [.warn, .lead] (leadSubEdits block lead sub) := by
  unfold declaresHypotheses at other
  unfold leadSubEdits
  rw [if_neg other]
  refine within_cons rfl ?_
  split
  · exact within_cons rfl (within_one rfl)
  · split
    · exact within_cons rfl (within_one rfl)
    · split
      · exact plan_within block lead _ _ _ _ fun _ => rfl
      · split
        · exact plan_within block lead _ _ _ _ fun _ => rfl
        · split
          · exact within_nil _
          · split
            · exact within_one rfl
            · split
              · exact within_one rfl
              · exact within_one rfl

omit [UnicodeDatabase] in
theorem resolution_row_within (bucket : ResolutionBucket) (entry : Str × Nat)
    (cells : RowRecord) :
    Within [.warn, .lead, .refine] (resolutionRowEdits bucket block entry cells) := by
  unfold resolutionRowEdits
  dsimp only
  split
  · exact within_one rfl
  · cases bucket with
    | attrUpdates =>
        dsimp only
        split
        · exact within_cons rfl (within_one rfl)
        · exact within_one rfl
    | _ => exact within_one rfl

theorem resolutions_within : Within [.warn, .lead] (resolutionsEdits block) := by
  intro edit member
  rcases List.mem_flatMap.mp member with ⟨entry, _, found⟩
  split at found
  · exact within_one rfl edit found
  · split at found
    · exact within_one rfl edit found
    · exact within_one rfl edit found

theorem surviving_within : Within [.warn, .close] (survivingEdits block) := by
  unfold survivingEdits
  refine within_cons rfl (within_rows block _ _ rfl ?_)
  intro entry cells
  dsimp only
  split
  · exact within_nil _
  · split
    · exact within_one rfl
    · exact within_one rfl

theorem deferral_within (table : DeferralTable) :
    Within [.warn, .close] (deferralEdits block table) := by
  unfold deferralEdits
  split
  · exact within_one rfl
  · refine within_rows block _ _ rfl ?_
    intro entry cells
    dsimp only
    split
    · exact within_nil _
    · split
      · exact within_one rfl
      · exact within_one rfl

theorem conclude_within (conclude : Conclude) :
    Within [.warn, .close] (concludeEdits block conclude) := by
  unfold concludeEdits
  refine within_append (within_cons rfl (within_one rfl)) ?_
  split
  · exact within_nil _
  · exact within_one rfl

theorem close_within : Within [.warn, .close] (closeEdits block) := by
  unfold closeEdits
  split
  · exact within_one rfl
  · exact within_one rfl

/-- Of the `:T` blocks only `resolutions` reaches leads. -/
theorem t_block_within (conclude : Conclude) (other : block.name ≠ ("resolutions" : Str)) :
    Within [.warn, .close] (tBlockEdits block conclude) := by
  unfold tBlockEdits
  split
  · exact conclude_within block conclude
  · split
    · exact surviving_within block
    · split
      · exact deferral_within block _
      · split
        · split
          · exact within_nil _
          · exact within_one rfl
        · split
          · exact close_within block
          · split
            · exact within_one rfl
            · exact within_one rfl

theorem t_block_resolutions (conclude : Conclude) (named : block.name = ("resolutions" : Str)) :
    tBlockEdits block conclude = resolutionsEdits block := by
  have noDeferral : deferralBlock? block.name = none := by
    rw [named]
    decide
  unfold tBlockEdits
  rw [if_neg (by rw [named]; decide), if_neg (by rw [named]; decide), noDeferral]
  dsimp only
  rw [if_neg (by rw [named]; decide), if_neg (by rw [named]; decide), if_pos named]

def kindsOf : Projector.BlockKind → List EditKind
  | .prologueVertices => [.warn, .prologue]
  | .prologueEdges => [.warn, .prologue]
  | .hypotheses => [.warn, .table, .register]
  | .hypSub _ _ => [.warn, .attach]
  | .findings => [.warn, .amend]
  | .leadSub _ _ => [.warn, .lead, .declare, .register]
  | .resolution _ => [.warn, .lead, .refine]
  | .tBlock => [.warn, .lead, .close]
  | .unknown => [.warn]

/-- What a block of each kind can reach. -/
theorem kind_edits_within (registered : Str → Option HypSite) (conclude : Conclude) :
    Within (kindsOf (Projector.blockKind block)) (kindEdits block registered conclude) := by
  unfold kindEdits
  cases Projector.blockKind block with
  | prologueVertices => exact within_cons rfl (within_one rfl)
  | prologueEdges => exact within_cons rfl (within_one rfl)
  | hypotheses => exact hypothesize_within block
  | hypSub hid sub =>
      dsimp only
      cases registered hid with
      | none => exact within_one rfl
      | some site => exact hyp_sub_within block site hid sub
  | findings => exact findings_within block
  | leadSub lead sub =>
      by_cases declares : declaresHypotheses block sub
      · change Within _ (leadSubEdits block lead sub)
        rw [lead_sub_declares block lead declares]
        exact within_cons rfl (within_mono (new_hypotheses_within block lead) rfl)
      · exact within_mono (lead_sub_within block lead declares) rfl
  | resolution bucket => exact within_rows block _ _ rfl (resolution_row_within block bucket)
  | tBlock =>
      by_cases named : block.name = ("resolutions" : Str)
      · change Within _ (tBlockEdits block conclude)
        rw [t_block_resolutions block conclude named]
        exact within_mono (resolutions_within block) rfl
      · exact within_mono (t_block_within block conclude named) rfl
  | unknown => exact within_one rfl

theorem hypothesize_registers_table {declaring : Block} {site : HypSite} {hyp : HypothesisRecord}
    (member : Edit.register declaring site hyp ∈ hypothesizeEdits block) : site = .table := by
  unfold hypothesizeEdits at member
  split at member
  · simp [staleHeaderEdit] at member
  · simp only [List.mem_append, List.mem_cons, List.mem_map, noteEdit, Edit.register.injEq] at member
    simp_all

end Kinds

end Defender.Invlang
