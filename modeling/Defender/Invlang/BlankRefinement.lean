import Defender.Invlang.DeclaredTables
import Defender.Invlang.RefinementReplay

/-!
# Blank refinements

A refinement row with a blank value is not replayed, and it still acts twice before the replay. It
takes the place of the value its lead entered for the slot before, and it mentions its lead, which
may put the lead ahead of others. The state is the same with and without the row exactly where
neither shows.
-/

namespace Defender.Invlang

open Defender.Python Defender.Library.OrderedDict

/-- Two folds of a document hold the same vertices with the same cells. -/
def SameStates (left right : StateMap) : Prop :=
  (∀ target, left.contains target = right.contains target) ∧
    ∀ (name : SlotName) (target : Str),
      slotValue name.slot left target = slotValue name.slot right target

def lastLeft (rows : List Refinement) (target key : Str) (leads : List Str) : Option Str :=
  (leads.filterMap (leftBy rows target key)).getLast?

def declaredIn (table : HypSite → List VertexRecord) (leads : List Str) : List VertexRecord :=
  table .table ++ leads.flatMap fun id => table (.lead id)

def seedOf (table : HypSite → List VertexRecord) (leads : List Str) : StateMap :=
  (declaredIn table leads).foldl seedVertex Dict.empty

section Reading

variable [UnicodeDatabase]

theorem all_vertices_declared (blocks : List Block) :
    allVertices (projectBlocks blocks).companion =
      declaredIn (vertexTable (projectBlocks blocks)) (dedup (leadMentions blocks)) := by
  unfold allVertices declaredIn
  rw [← findings_keys_mentions]
  congr 1
  change (projectBlocks blocks).findings.values.flatMap leadVertices = _
  rw [Dict.values_by_keys]
  induction (projectBlocks blocks).findings.keys with
  | nil => rfl
  | cons key rest ih =>
      rw [List.filterMap_cons, List.flatMap_cons, ← ih]
      change _ = (((projectBlocks blocks).findings.get? key).map leadVertices).getD [] ++ _
      cases (projectBlocks blocks).findings.get? key with
      | none => rfl
      | some lead => rfl

theorem mem_all_vertices_iff (blocks : List Block) (vertex : VertexRecord) :
    vertex ∈ allVertices (projectBlocks blocks).companion ↔
      ∃ site, vertex ∈ vertexTable (projectBlocks blocks) site := by
  rw [all_vertices_declared, declaredIn, List.mem_append, List.mem_flatMap]
  constructor
  · rintro (table | ⟨id, _, own⟩)
    · exact ⟨.table, table⟩
    · exact ⟨.lead id, own⟩
  · rintro ⟨site, declared⟩
    cases site with
    | table => exact .inl declared
    | lead id =>
        refine .inr ⟨id, ?_, declared⟩
        rw [← findings_keys_mentions, ← Dict.contains_iff, Dict.contains]
        change vertex ∈ (((projectBlocks blocks).findings.get? id).map leadVertices).getD []
          at declared
        cases found : (projectBlocks blocks).findings.get? id with
        | none =>
            rw [found] at declared
            exact absurd declared List.not_mem_nil
        | some lead => rfl

theorem effective_value_by_leads (blocks : List Block) (slot : Slot) (target : Str) :
    slotValue slot (effectiveVertexState (projectBlocks blocks).companion) target =
      (lastLeft (refinementRows blocks) target slot.key (dedup (leadMentions blocks))).or
        (slotValue slot (seedOf (vertexTable (projectBlocks blocks))
          (dedup (leadMentions blocks))) target) := by
  rw [effective_value_left, seedVertexState, all_vertices_declared]
  rfl

end Reading

section Holding

theorem contains_seed (vertices : List VertexRecord) (state : StateMap) (target : Str) :
    (vertices.foldl seedVertex state).contains target = true ↔
      state.contains target = true ∨ ∃ vertex ∈ vertices, vertex.id = target := by
  induction vertices generalizing state with
  | nil => simp
  | cons vertex rest ih =>
      have entered : (seedVertex state vertex).contains target = true ↔
          state.contains target = true ∨ vertex.id = target := by
        unfold seedVertex Dict.contains
        rw [Dict.get_modify]
        by_cases own : vertex.id = target
        · simp [own]
        · simp [own]
      rw [List.foldl_cons, ih, entered, List.exists_mem_cons_iff, or_assoc]

theorem contains_updates (updates : List AttributeUpdate) (state : StateMap) (target : Str) :
    (updates.foldl applyAttrUpdateTo state).contains target = true ↔
      state.contains target = true ∨ ∃ update ∈ updates, update.target = target := by
  induction updates generalizing state with
  | nil => simp
  | cons update rest ih =>
      have entered : (applyAttrUpdateTo state update).contains target = true ↔
          state.contains target = true ∨ update.target = target := by
        unfold applyAttrUpdateTo Dict.contains
        rw [Dict.get_modify]
        by_cases own : update.target = target
        · simp [own]
        · simp [own]
      rw [List.foldl_cons, ih, entered, List.exists_mem_cons_iff, or_assoc]

theorem entered_targets (id target : Str) (rows : List Refinement) (held : List AttributeUpdate) :
    (∃ update ∈ rows.foldl (enterRefinement id) held, update.target = target) ↔
      (∃ update ∈ held, update.target = target) ∨
        ∃ row ∈ rows, row.lead = id ∧ row.target = target := by
  induction rows generalizing held with
  | nil => simp
  | cons row rest ih =>
      have entered : (∃ update ∈ enterRefinement id held row, update.target = target) ↔
          (∃ update ∈ held, update.target = target) ∨ row.lead = id ∧ row.target = target := by
        have listed : ∀ updates : List AttributeUpdate,
            (∃ update ∈ updates, update.target = target) ↔
              target ∈ updates.map AttributeUpdate.target := fun updates => by simp
        unfold enterRefinement
        by_cases own : row.lead = id
        · rw [if_pos own, listed, targets_add, mem_enroll_iff, ← listed]
          simp [own, eq_comm]
        · rw [if_neg own]
          simp [own]
      rw [List.foldl_cons, ih, entered, List.exists_mem_cons_iff, or_assoc]

variable [UnicodeDatabase]

theorem refinement_attributed {block : Block} {row : Str} {read : Refinement}
    (reads : refinement block row = some read) : attributedLead block row = some read.lead := by
  unfold refinement at reads
  unfold attributedLead
  cases parsed : rowDict block row [] with
  | error reason =>
      rw [parsed] at reads
      contradiction
  | ok cells =>
      rw [parsed] at reads
      dsimp only at reads ⊢
      split at reads
      · contradiction
      · rename_i named
        split at reads
        · contradiction
        · cases reads
          rw [if_neg named]

theorem refinement_lead_mentioned {blocks : List Block} {read : Refinement}
    (member : read ∈ refinementRows blocks) : read.lead ∈ leadMentions blocks := by
  obtain ⟨block, among, inside⟩ := List.mem_flatMap.mp member
  refine List.mem_flatMap.mpr ⟨block, among, ?_⟩
  unfold blockRefinements at inside
  unfold blockMentions
  cases kind : Projector.blockKind block with
  | resolution bucket =>
      rw [kind] at inside
      cases bucket with
      | attrUpdates =>
          obtain ⟨row, listed, reads⟩ := List.mem_filterMap.mp inside
          exact List.mem_filterMap.mpr ⟨row, listed, refinement_attributed reads⟩
      | _ => contradiction
  | _ =>
      rw [kind] at inside
      contradiction

theorem effective_known (blocks : List Block) (target : Str) :
    (effectiveVertexState (projectBlocks blocks).companion).contains target = true ↔
      (∃ vertex ∈ allVertices (projectBlocks blocks).companion, vertex.id = target) ∨
        ∃ row ∈ refinementRows blocks, row.target = target := by
  have updated : (∃ update ∈ iterAttrUpdates (projectBlocks blocks).companion,
      update.target = target) ↔ ∃ row ∈ refinementRows blocks, row.target = target := by
    rw [iter_attr_updates_keys, findings_keys_mentions]
    simp only [List.mem_flatMap, lead_updates_entered]
    constructor
    · rintro ⟨update, ⟨id, _, entered⟩, same⟩
      rcases (entered_targets id target _ []).mp ⟨update, entered, same⟩ with held | found
      · simp at held
      · obtain ⟨row, member, _, targets⟩ := found
        exact ⟨row, member, targets⟩
    · rintro ⟨row, member, targets⟩
      obtain ⟨update, entered, same⟩ :=
        (entered_targets row.lead target (refinementRows blocks) []).mpr
          (.inr ⟨row, member, rfl, targets⟩)
      exact ⟨update, ⟨row.lead, (mem_enrolled_iff _ [] _).mpr
        (.inr (refinement_lead_mentioned member)),
        entered⟩, same⟩
  unfold effectiveVertexState applyAttrUpdates seedVertexState
  rw [contains_updates, contains_seed, updated]
  simp [Dict.contains]

end Holding

section Enrolling

variable {α : Type*} [DecidableEq α]

theorem dedup_again {known : List α} {item : α} (met : item ∈ known) (more : List α) :
    dedup (known ++ item :: more) = dedup (known ++ more) := by
  have enrolled : item ∈ dedup known := (mem_enrolled_iff known [] item).mpr (.inr met)
  unfold dedup at enrolled ⊢
  rw [List.foldl_append, List.foldl_append, List.foldl_cons, enroll, if_pos enrolled]

theorem dedup_ahead_step (known : List α) (first : α) (tail : List α) (item : α) :
    ∃ met, enroll (known ++ tail) item = known ++ met ∧
      enroll (known ++ first :: tail.filter (· ≠ first)) item =
        known ++ first :: met.filter (· ≠ first) := by
  unfold enroll
  by_cases held : item ∈ known ++ tail
  · have stays : item ∈ known ++ first :: tail.filter (· ≠ first) := by
      rcases List.mem_append.mp held with early | late
      · exact List.mem_append_left _ early
      · by_cases own : item = first
        · simp [own]
        · simp [own, late]
    exact ⟨tail, by rw [if_pos held], by rw [if_pos stays]⟩
  · refine ⟨tail ++ [item], by rw [if_neg held, List.append_assoc], ?_⟩
    rw [List.mem_append, not_or] at held
    by_cases own : item = first
    · have stays : item ∈ known ++ first :: tail.filter (· ≠ first) := by simp [own]
      rw [if_pos stays, List.filter_append]
      simp [own]
    · have enters : item ∉ known ++ first :: tail.filter (· ≠ first) := by
        simp [own, held.1, held.2]
      rw [if_neg enters, List.filter_append]
      simp [own]

/-- An item put behind what is known stands ahead of everything met later. -/
theorem dedup_ahead (known : List α) {first : α} (fresh : first ∉ known) (more : List α) :
    ∃ met, dedup (known ++ more) = dedup known ++ met ∧
      dedup (known ++ first :: more) = dedup known ++ first :: met.filter (· ≠ first) := by
  have unknown : first ∉ dedup known := by
    unfold dedup
    rw [mem_enrolled_iff]
    simpa using fresh
  have general : ∀ items tail : List α, ∃ met,
      items.foldl enroll (dedup known ++ tail) = dedup known ++ met ∧
        items.foldl enroll (dedup known ++ first :: tail.filter (· ≠ first)) =
          dedup known ++ first :: met.filter (· ≠ first) := by
    intro items
    induction items with
    | nil => exact fun tail => ⟨tail, rfl, rfl⟩
    | cons item rest ih =>
        intro tail
        obtain ⟨met, kept, moved⟩ := dedup_ahead_step (dedup known) first tail item
        obtain ⟨all, whole, ahead⟩ := ih met
        exact ⟨all, by rw [List.foldl_cons, kept, whole], by rw [List.foldl_cons, moved, ahead]⟩
  obtain ⟨met, kept, moved⟩ := general more []
  refine ⟨met, ?_, ?_⟩
  · rw [List.append_nil] at kept
    rw [dedup, List.foldl_append]
    exact kept
  · have entered : enroll (dedup known) first = dedup known ++ [first] := if_neg unknown
    rw [dedup, List.foldl_append, List.foldl_cons]
    change more.foldl enroll (enroll (dedup known) first) = _
    rw [entered]
    exact moved

theorem split_first {item : α} {items : List α} (met : item ∈ items) :
    items = items.takeWhile (· ≠ item) ++ item :: (items.dropWhile (· ≠ item)).tail := by
  induction items with
  | nil => exact absurd met List.not_mem_nil
  | cons first rest ih =>
      by_cases own : first = item
      · simp [own]
      · have later := ih ((List.mem_cons.mp met).resolve_left (Ne.symm own))
        rw [List.takeWhile_cons_of_pos (by simpa using own),
          List.dropWhile_cons_of_pos (by simpa using own), List.cons_append, ← later]

theorem filter_first {item : α} {items : List α} (distinct : items.Nodup) (met : item ∈ items) :
    items.filter (· ≠ item) =
      items.takeWhile (· ≠ item) ++ (items.dropWhile (· ≠ item)).tail := by
  have split := split_first met
  rw [split, List.nodup_append, List.nodup_cons] at distinct
  have early : ∀ other ∈ items.takeWhile (· ≠ item), decide (other ≠ item) = true :=
    fun other member => by simpa using distinct.2.2 other member item List.mem_cons_self
  have late : ∀ other ∈ (items.dropWhile (· ≠ item)).tail, decide (other ≠ item) = true :=
    fun other member => by
      simpa using fun same : other = item => distinct.2.1.1 (same ▸ member)
  nth_rewrite 1 [split]
  rw [List.filter_append, List.filter_cons_of_neg (by simp), List.filter_eq_self.mpr early,
    List.filter_eq_self.mpr late]

end Enrolling

section Leaving

theorem last_left_append (rows : List Refinement) (target key : Str) (early late : List Str) :
    lastLeft rows target key (early ++ late) =
      (lastLeft rows target key late).or (lastLeft rows target key early) := by
  unfold lastLeft
  rw [List.filterMap_append, List.getLast?_append]

theorem last_left_one (rows : List Refinement) (target key lead : Str) :
    lastLeft rows target key [lead] = leftBy rows target key lead := by
  unfold lastLeft
  rw [List.filterMap_cons]
  cases leftBy rows target key lead with
  | none => rfl
  | some value => rfl

theorem last_left_cons (rows : List Refinement) (target key lead : Str) (late : List Str) :
    lastLeft rows target key (lead :: late) =
      (lastLeft rows target key late).or (leftBy rows target key lead) := by
  rw [← List.singleton_append, last_left_append, last_left_one]

theorem last_left_congr {rows others : List Refinement} {target key : Str} {leads : List Str}
    (same : ∀ lead ∈ leads, leftBy rows target key lead = leftBy others target key lead) :
    lastLeft rows target key leads = lastLeft others target key leads := by
  unfold lastLeft
  rw [List.filterMap_congr same]

theorem last_row_append (early late : List Refinement) (target key lead : Str) :
    lastRowOf (early ++ late) target key lead =
      (lastRowOf late target key lead).or (lastRowOf early target key lead) := by
  unfold lastRowOf
  rw [List.filter_append, List.getLast?_append]

theorem last_row_cons (row : Refinement) (late : List Refinement) (target key lead : Str) :
    lastRowOf (row :: late) target key lead =
      (lastRowOf late target key lead).or
        (if row.lead = lead ∧ row.target = target ∧ row.key = key then some row else none) := by
  rw [← List.singleton_append, last_row_append]
  congr 1
  unfold lastRowOf
  by_cases own : row.lead = lead ∧ row.target = target ∧ row.key = key
  · simp [Refinement.refines, own]
  · rw [if_neg own]
    simp only [List.filter_cons, Refinement.refines, Bool.and_eq_true, beq_iff_eq]
    rw [if_neg own]
    rfl

theorem left_with_blank {row : Refinement} (blank : isBlank row.value = true)
    (early late : List Refinement) (target key lead : Str) :
    leftBy (early ++ row :: late) target key lead =
      if row.lead = lead ∧ row.target = target ∧ row.key = key then
        leftBy late target key lead
      else leftBy (early ++ late) target key lead := by
  unfold leftBy
  rw [last_row_append, last_row_cons, last_row_append]
  by_cases own : row.lead = lead ∧ row.target = target ∧ row.key = key
  · rw [if_pos own, if_pos own]
    cases lastRowOf late target key lead with
    | none => simp [blank]
    | some last => rfl
  · rw [if_neg own, if_neg own, Option.or_none]

theorem left_unmentioned {rows : List Refinement} {lead : Str}
    (absent : ∀ row ∈ rows, row.lead ≠ lead) (target key : Str) :
    leftBy rows target key lead = none := by
  have nothing : lastRowOf rows target key lead = none := by
    unfold lastRowOf
    rw [List.getLast?_eq_none_iff, List.filter_eq_nil_iff]
    intro row member
    simp [absent row member]
  rw [leftBy, nothing]
  rfl

theorem beneath_iff {α : Type*} (behind ahead declared : Option α) (value : α) :
    (behind.or (Option.none.or ahead)).or declared =
        (behind.or ((some value).or ahead)).or declared ↔
      behind ≠ none ∨ ahead.or declared = some value := by
  cases behind with
  | none => simp
  | some left => simp

theorem swapped_iff {α : Type*} (behind passed left earlier moved declared : Option α) :
    (behind.or (passed.or (left.or earlier))).or moved =
        (behind.or (left.or (passed.or earlier))).or declared ↔
      (behind = none →
        (∀ value other, left = some value → passed = some other → value = other) ∧
          (left = none → passed = none → earlier = none → moved = declared)) := by
  cases behind with
  | some value => simp
  | none =>
      cases passed with
      | none =>
          cases left with
          | none =>
              cases earlier with
              | none => simp
              | some value => simp
          | some value => simp
      | some other =>
          cases left with
          | none => simp
          | some value => simp [eq_comm]

end Leaving

/-- A row of a block, and everything around it. -/
structure RowPlace where
  early : List Block
  header : Block
  front : List Str
  row : Str
  back : List Str
  late : List Block

namespace RowPlace

variable [UnicodeDatabase] (place : RowPlace)

def kept : List Block :=
  place.early ++ { place.header with rows := place.front ++ place.row :: place.back } :: place.late

/-- The document without it. -/
def dropped : List Block :=
  place.early ++ { place.header with rows := place.front ++ place.back } :: place.late

def mentionsBefore : List Str :=
  leadMentions place.early ++ place.front.filterMap (attributedLead place.header)

def mentionsAfter : List Str :=
  place.back.filterMap (attributedLead place.header) ++ leadMentions place.late

def rowsBefore : List Refinement :=
  refinementRows place.early ++ place.front.filterMap (refinement place.header)

def rowsAfter : List Refinement :=
  place.back.filterMap (refinement place.header) ++ refinementRows place.late

def rows : List Refinement := place.rowsBefore ++ place.rowsAfter

/-- The leads of the document without the row, in their order. -/
def leads : List Str := dedup (place.mentionsBefore ++ place.mentionsAfter)

def table : HypSite → List VertexRecord := vertexTable (projectBlocks place.dropped)

def ahead (lead : Str) : List Str := place.leads.takeWhile (· ≠ lead)

def behind (lead : Str) : List Str := (place.leads.dropWhile (· ≠ lead)).tail

def passed (lead : Str) : List Str :=
  (place.ahead lead).drop (dedup place.mentionsBefore).length

def leadsMoved (lead : Str) : List Str :=
  dedup place.mentionsBefore ++ lead :: (place.passed lead ++ place.behind lead)

/-- Where the row takes the place of a value its lead had entered, a lead behind leaves another
value in the slot anyway, or the value shows from beneath. -/
def OverwritesNothing (read : Refinement) : Prop :=
  ∀ (name : SlotName) (value : Str), name.slot.key = read.key →
    leftBy place.rowsBefore read.target read.key read.lead = some value →
    lastRowOf place.rowsAfter read.target read.key read.lead = none →
    lastLeft place.rows read.target read.key (place.behind read.lead) ≠ none ∨
      (lastLeft place.rows read.target read.key (place.ahead read.lead)).or
        (slotValue name.slot (seedOf place.table place.leads) read.target) = some value

/-- Where the row puts its lead ahead of others, no slot reads otherwise for it: what the lead
leaves and what they leave is the same, and so is what all of them declare. -/
def PassesNothing (read : Refinement) : Prop :=
  ∀ (name : SlotName) (target : Str),
    lastLeft place.rows target name.slot.key (place.behind read.lead) = none →
    (∀ left other, leftBy place.rows target name.slot.key read.lead = some left →
      lastLeft place.rows target name.slot.key (place.passed read.lead) = some other →
        left = other) ∧
    (leftBy place.rows target name.slot.key read.lead = none →
      lastLeft place.rows target name.slot.key (place.passed read.lead) = none →
      lastLeft place.rows target name.slot.key (dedup place.mentionsBefore) = none →
        slotValue name.slot (seedOf place.table (place.leadsMoved read.lead)) target =
          slotValue name.slot (seedOf place.table place.leads) target)

/-- The row shows nowhere before the replay. -/
def Idle (read : Refinement) : Prop :=
  if read.lead ∈ place.mentionsBefore then place.OverwritesNothing read
  else place.PassesNothing read

section Reading

theorem block_mentions_rows (kind : Projector.blockKind place.header = .resolution .attrUpdates)
    (rows : List Str) : blockMentions { place.header with rows := rows } =
      rows.filterMap (attributedLead place.header) := by
  unfold blockMentions
  have same : Projector.blockKind { place.header with rows := rows } =
      .resolution .attrUpdates := kind
  rw [same]
  rfl

theorem block_refinements_rows (kind : Projector.blockKind place.header = .resolution .attrUpdates)
    (rows : List Str) : blockRefinements { place.header with rows := rows } =
      rows.filterMap (refinement place.header) := by
  unfold blockRefinements
  have same : Projector.blockKind { place.header with rows := rows } =
      .resolution .attrUpdates := kind
  rw [same]
  rfl

variable {place} {read : Refinement}
variable (kind : Projector.blockKind place.header = .resolution .attrUpdates)
variable (reads : refinement place.header place.row = some read)

include kind in
theorem mentions_dropped :
    leadMentions place.dropped = place.mentionsBefore ++ place.mentionsAfter := by
  unfold leadMentions dropped mentionsBefore mentionsAfter
  rw [List.flatMap_append, List.flatMap_cons, block_mentions_rows place kind]
  simp [leadMentions]

include kind in
theorem rows_dropped : refinementRows place.dropped = place.rows := by
  unfold refinementRows dropped rows rowsBefore rowsAfter
  rw [List.flatMap_append, List.flatMap_cons, block_refinements_rows place kind]
  simp [refinementRows]

include kind reads in
theorem mentions_kept :
    leadMentions place.kept = place.mentionsBefore ++ read.lead :: place.mentionsAfter := by
  unfold leadMentions kept mentionsBefore mentionsAfter
  rw [List.flatMap_append, List.flatMap_cons, block_mentions_rows place kind]
  simp [leadMentions, refinement_attributed reads]

include kind reads in
theorem rows_kept :
    refinementRows place.kept = place.rowsBefore ++ read :: place.rowsAfter := by
  unfold refinementRows kept rowsBefore rowsAfter
  rw [List.flatMap_append, List.flatMap_cons, block_refinements_rows place kind]
  simp [refinementRows, reads]

include kind in
theorem table_kept : vertexTable (projectBlocks place.kept) = place.table := by
  have silent : ∀ rows : List Str,
      observation? { place.header with rows := rows } = none := by
    intro rows
    unfold observation?
    have same : Projector.blockKind { place.header with rows := rows } =
        .resolution .attrUpdates := kind
    rw [same]
  have read : ∀ blocks : List Block, vertexTable (projectBlocks blocks) =
      (blocks.filterMap observation?).foldl (enterRows VertexRecord.id)
        (vertexTable (projectBlocks [])) := fun blocks => blocks_vertex_table [] blocks
  rw [table, read place.kept, read place.dropped, kept, dropped]
  simp [silent]

include kind in
theorem value_dropped (slot : Slot) (target : Str) :
    slotValue slot (effectiveVertexState (projectBlocks place.dropped).companion) target =
      (lastLeft place.rows target slot.key place.leads).or
        (slotValue slot (seedOf place.table place.leads) target) := by
  rw [effective_value_by_leads, rows_dropped kind, mentions_dropped kind]
  rfl

include kind reads in
theorem value_kept (slot : Slot) (target : Str) :
    slotValue slot (effectiveVertexState (projectBlocks place.kept).companion) target =
      (lastLeft (place.rowsBefore ++ read :: place.rowsAfter) target slot.key
          (dedup (place.mentionsBefore ++ read.lead :: place.mentionsAfter))).or
        (slotValue slot (seedOf place.table
          (dedup (place.mentionsBefore ++ read.lead :: place.mentionsAfter))) target) := by
  rw [effective_value_by_leads, rows_kept kind reads, mentions_kept kind reads, table_kept kind]

end Reading

section Overwriting

variable {place} {read : Refinement}

theorem leads_split {lead : Str} (met : lead ∈ place.leads) :
    place.leads = place.ahead lead ++ lead :: place.behind lead :=
  split_first met

theorem behind_apart {lead : Str} (met : lead ∈ place.leads) :
    (∀ id ∈ place.ahead lead, id ≠ lead) ∧ ∀ id ∈ place.behind lead, id ≠ lead := by
  have distinct := dedup_nodup (place.mentionsBefore ++ place.mentionsAfter)
  change place.leads.Nodup at distinct
  rw [leads_split met, List.nodup_append, List.nodup_cons] at distinct
  constructor
  · intro id member same
    exact distinct.2.2 id member lead List.mem_cons_self same
  · intro id member same
    exact distinct.2.1.1 (same ▸ member)

theorem overwrite_elsewhere (blank : isBlank read.value = true) {target key : Str}
    (other : ¬ (read.target = target ∧ read.key = key)) (leads : List Str) :
    lastLeft (place.rowsBefore ++ read :: place.rowsAfter) target key leads =
      lastLeft place.rows target key leads := by
  apply last_left_congr
  intro lead _
  rw [left_with_blank blank, if_neg fun both => other both.2]
  rfl

theorem overwrite_here (blank : isBlank read.value = true) (met : read.lead ∈ place.leads) :
    lastLeft (place.rowsBefore ++ read :: place.rowsAfter) read.target read.key place.leads =
      (lastLeft place.rows read.target read.key (place.behind read.lead)).or
        ((leftBy place.rowsAfter read.target read.key read.lead).or
          (lastLeft place.rows read.target read.key (place.ahead read.lead))) := by
  have away : ∀ leads : List Str, (∀ id ∈ leads, id ≠ read.lead) →
      lastLeft (place.rowsBefore ++ read :: place.rowsAfter) read.target read.key leads =
        lastLeft place.rows read.target read.key leads := by
    intro leads apart
    apply last_left_congr
    intro lead member
    rw [left_with_blank blank, if_neg fun both => apart lead member both.1.symm]
    rfl
  obtain ⟨early, late⟩ := behind_apart met
  nth_rewrite 1 [leads_split met]
  rw [last_left_append, last_left_cons, away _ early, away _ late, left_with_blank blank,
    if_pos ⟨rfl, rfl, rfl⟩, Option.or_assoc]

theorem dropped_here (read : Refinement) (met : read.lead ∈ place.leads) :
    lastLeft place.rows read.target read.key place.leads =
      (lastLeft place.rows read.target read.key (place.behind read.lead)).or
        ((leftBy place.rows read.target read.key read.lead).or
          (lastLeft place.rows read.target read.key (place.ahead read.lead))) := by
  nth_rewrite 1 [leads_split met]
  rw [last_left_append, last_left_cons, Option.or_assoc]

theorem left_by_rows (target key lead : Str) :
    leftBy place.rows target key lead =
      if lastRowOf place.rowsAfter target key lead = none then
        leftBy place.rowsBefore target key lead
      else leftBy place.rowsAfter target key lead := by
  unfold leftBy rows
  rw [last_row_append]
  cases lastRowOf place.rowsAfter target key lead with
  | none => simp
  | some last => simp

theorem overwrites_nothing_iff
    (kind : Projector.blockKind place.header = .resolution .attrUpdates)
    (reads : refinement place.header place.row = some read) (blank : isBlank read.value = true)
    (met : read.lead ∈ place.mentionsBefore) :
    (∀ (name : SlotName) (target : Str),
      slotValue name.slot (effectiveVertexState (projectBlocks place.kept).companion) target =
        slotValue name.slot (effectiveVertexState (projectBlocks place.dropped).companion) target) ↔
      place.OverwritesNothing read := by
  have order : dedup (place.mentionsBefore ++ read.lead :: place.mentionsAfter) = place.leads :=
    dedup_again met place.mentionsAfter
  have among : read.lead ∈ place.leads := by
    rw [leads, dedup, mem_enrolled_iff]
    exact .inr (List.mem_append_left _ met)
  simp only [value_kept kind reads, value_dropped kind, order]
  constructor
  · intro same name value addressed wrote unrepeated
    have here := same name read.target
    have left : leftBy place.rowsAfter read.target read.key read.lead = none := by
      rw [leftBy, unrepeated]
      rfl
    rw [addressed, overwrite_here blank among, dropped_here read among, left_by_rows,
      if_pos unrepeated, wrote, left] at here
    exact (beneath_iff _ _ _ _).mp here
  · intro idle name target
    by_cases addressed : read.target = target ∧ read.key = name.slot.key
    · obtain ⟨rfl, addressed⟩ := addressed
      rw [← addressed, overwrite_here blank among, dropped_here read among, left_by_rows]
      by_cases unrepeated : lastRowOf place.rowsAfter read.target read.key read.lead = none
      · have left : leftBy place.rowsAfter read.target read.key read.lead = none := by
          rw [leftBy, unrepeated]
          rfl
        rw [if_pos unrepeated, left]
        cases wrote : leftBy place.rowsBefore read.target read.key read.lead with
        | none => rfl
        | some value =>
            exact (beneath_iff _ _ _ _).mpr (idle name value addressed.symm wrote unrepeated)
      · rw [if_neg unrepeated]
    · rw [overwrite_elsewhere blank addressed]

end Overwriting

section Passing

variable {place} {read : Refinement}

/-- The order of the leads where the row is the first to mention its own. -/
theorem leads_moved {lead : Str} (unmet : lead ∉ place.mentionsBefore) :
    dedup (place.mentionsBefore ++ lead :: place.mentionsAfter) = place.leadsMoved lead ∧
      (place.leads = dedup place.mentionsBefore ++
          (place.passed lead ++ lead :: place.behind lead) ∨
        place.leads = dedup place.mentionsBefore ++ place.passed lead ∧
          place.behind lead = [] ∧ lead ∉ place.leads) := by
  obtain ⟨met, whole, moved⟩ := dedup_ahead place.mentionsBefore unmet place.mentionsAfter
  have known : ∀ id ∈ dedup place.mentionsBefore, decide (id ≠ lead) = true := by
    intro id member
    rw [dedup, mem_enrolled_iff] at member
    have earlier := member.resolve_left List.not_mem_nil
    simpa using fun same : id = lead => unmet (same ▸ earlier)
  have distinct := dedup_nodup (place.mentionsBefore ++ place.mentionsAfter)
  have order : place.leads = dedup place.mentionsBefore ++ met := whole
  have ahead : place.ahead lead = dedup place.mentionsBefore ++ met.takeWhile (· ≠ lead) := by
    rw [RowPlace.ahead, order, List.takeWhile_append_of_pos known]
  have passed : place.passed lead = met.takeWhile (· ≠ lead) := by
    rw [RowPlace.passed, ahead, List.drop_left]
  have behind : place.behind lead = (met.dropWhile (· ≠ lead)).tail := by
    rw [RowPlace.behind, order, List.dropWhile_append_of_pos known]
  change place.leads.Nodup at distinct
  rw [order, List.nodup_append] at distinct
  unfold leadsMoved
  rw [moved, order, passed, behind]
  by_cases among : lead ∈ met
  · refine ⟨by rw [filter_first distinct.2.1 among], .inl ?_⟩
    nth_rewrite 1 [split_first among]
    rfl
  · have others : ∀ id ∈ met, decide (id ≠ lead) = true := fun id member => by
      simpa using fun same : id = lead => among (same ▸ member)
    have all : met.takeWhile (· ≠ lead) = met := List.takeWhile_eq_self_iff.mpr others
    have past : met.dropWhile (· ≠ lead) = [] := List.dropWhile_eq_nil_iff.mpr others
    have absent : lead ∉ dedup place.mentionsBefore ++ met := by
      rw [List.mem_append, not_or]
      exact ⟨fun early => by simpa using known lead early, among⟩
    rw [all, past, List.filter_eq_self.mpr others, List.tail_nil, List.append_nil]
    exact ⟨rfl, .inr ⟨rfl, rfl, absent⟩⟩

theorem before_mentioned {row : Refinement} (member : row ∈ place.rowsBefore) :
    row.lead ∈ place.mentionsBefore := by
  rcases List.mem_append.mp member with early | front
  · exact List.mem_append_left _ (refinement_lead_mentioned early)
  · obtain ⟨text, listed, reads⟩ := List.mem_filterMap.mp front
    exact List.mem_append_right _ (List.mem_filterMap.mpr
      ⟨text, listed, refinement_attributed reads⟩)

theorem rows_mentioned {row : Refinement} (member : row ∈ place.rows) :
    row.lead ∈ place.mentionsBefore ++ place.mentionsAfter := by
  rcases List.mem_append.mp member with before | after
  · exact List.mem_append_left _ (before_mentioned before)
  · apply List.mem_append_right
    rcases List.mem_append.mp after with back | late
    · obtain ⟨text, listed, reads⟩ := List.mem_filterMap.mp back
      exact List.mem_append_left _ (List.mem_filterMap.mpr
        ⟨text, listed, refinement_attributed reads⟩)
    · exact List.mem_append_right _ (refinement_lead_mentioned late)

theorem first_row_overwrites_nothing (blank : isBlank read.value = true)
    (unmet : read.lead ∉ place.mentionsBefore) (target key : Str) (leads : List Str) :
    lastLeft (place.rowsBefore ++ read :: place.rowsAfter) target key leads =
      lastLeft place.rows target key leads := by
  apply last_left_congr
  intro lead _
  rw [left_with_blank blank]
  split
  · rename_i own
    have nothing : lastRowOf place.rowsBefore target key lead = none := by
      unfold lastRowOf
      rw [List.getLast?_eq_none_iff, List.filter_eq_nil_iff]
      intro row member
      have apart : row.lead ≠ lead := by
        rintro rfl
        exact unmet (own.1 ▸ before_mentioned member)
      simp [apart]
    unfold leftBy rows
    rw [last_row_append, nothing, Option.or_none]
  · rfl

theorem moved_left (target key lead : Str) :
    lastLeft place.rows target key (place.leadsMoved lead) =
      (lastLeft place.rows target key (place.behind lead)).or
        ((lastLeft place.rows target key (place.passed lead)).or
          ((leftBy place.rows target key lead).or
            (lastLeft place.rows target key (dedup place.mentionsBefore)))) := by
  rw [leadsMoved, last_left_append, last_left_cons, last_left_append]
  simp only [Option.or_assoc]

theorem unmoved_left {lead : Str} (unmet : lead ∉ place.mentionsBefore) (target key : Str) :
    lastLeft place.rows target key place.leads =
      (lastLeft place.rows target key (place.behind lead)).or
        ((leftBy place.rows target key lead).or
          ((lastLeft place.rows target key (place.passed lead)).or
            (lastLeft place.rows target key (dedup place.mentionsBefore)))) := by
  rcases (leads_moved unmet).2 with later | ⟨never, last, absent⟩
  · rw [later, last_left_append, last_left_append, last_left_cons]
    simp only [Option.or_assoc]
  · have leaves : leftBy place.rows target key lead = none := by
      apply left_unmentioned
      rintro row member rfl
      apply absent
      rw [leads, dedup, mem_enrolled_iff]
      exact .inr (rows_mentioned member)
    rw [never, last, leaves, last_left_append]
    rfl

theorem passes_nothing_iff
    (kind : Projector.blockKind place.header = .resolution .attrUpdates)
    (reads : refinement place.header place.row = some read) (blank : isBlank read.value = true)
    (unmet : read.lead ∉ place.mentionsBefore) :
    (∀ (name : SlotName) (target : Str),
      slotValue name.slot (effectiveVertexState (projectBlocks place.kept).companion) target =
        slotValue name.slot (effectiveVertexState (projectBlocks place.dropped).companion) target) ↔
      place.PassesNothing read := by
  unfold PassesNothing
  simp only [value_kept kind reads, value_dropped kind, (leads_moved unmet).1,
    first_row_overwrites_nothing blank unmet, moved_left, unmoved_left unmet, swapped_iff]

end Passing

section States

variable {place} {read : Refinement}

def KnownElsewhere (place : RowPlace) (target : Str) : Prop :=
  (∃ vertex ∈ allVertices (projectBlocks place.dropped).companion, vertex.id = target) ∨
    ∃ row ∈ refinementRows place.dropped, row.target = target

theorem known_same
    (kind : Projector.blockKind place.header = .resolution .attrUpdates)
    (reads : refinement place.header place.row = some read)
    (known : place.KnownElsewhere read.target) (target : Str) :
    (effectiveVertexState (projectBlocks place.kept).companion).contains target =
      (effectiveVertexState (projectBlocks place.dropped).companion).contains target := by
  rw [Bool.eq_iff_iff, effective_known, effective_known, rows_kept kind reads, rows_dropped kind]
  simp only [mem_all_vertices_iff, table_kept kind]
  change _ ↔ (∃ vertex, (∃ site, vertex ∈ place.table site) ∧ vertex.id = target) ∨ _
  rw [KnownElsewhere, rows_dropped kind] at known
  simp only [mem_all_vertices_iff] at known
  change (∃ vertex, (∃ site, vertex ∈ place.table site) ∧ vertex.id = read.target) ∨ _ at known
  have split : (∃ row ∈ place.rowsBefore ++ read :: place.rowsAfter, row.target = target) ↔
      read.target = target ∨ ∃ row ∈ place.rows, row.target = target := by
    simp only [rows, List.mem_append, List.mem_cons]
    constructor
    · rintro ⟨row, before | rfl | after, same⟩
      · exact .inr ⟨row, .inl before, same⟩
      · exact .inl same
      · exact .inr ⟨row, .inr after, same⟩
    · rintro (same | ⟨row, before | after, same⟩)
      · exact ⟨read, .inr (.inl rfl), same⟩
      · exact ⟨row, .inl before, same⟩
      · exact ⟨row, .inr (.inr after), same⟩
  rw [split]
  constructor
  · rintro (declared | rfl | refined)
    · exact .inl declared
    · exact known
    · exact .inr refined
  · rintro (declared | refined)
    · exact .inl declared
    · exact .inr (.inr refined)

end States

end RowPlace

/-- The document is another with one row more. -/
structure HasRow [UnicodeDatabase] (text shorter : Str) (place : RowPlace) : Prop where
  kept : iterBlocks text = place.kept
  dropped : iterBlocks shorter = place.dropped

section Documents

variable [UnicodeDatabase] {text shorter : Str} {place : RowPlace} {read : Refinement}

/-- A blank refinement of a vertex that another row declares or refines changes nothing exactly
where it takes the place of nothing and passes nothing. -/
theorem blank_refinement_changes_nothing_iff (taken : HasRow text shorter place)
    (kind : Projector.blockKind place.header = .resolution .attrUpdates)
    (reads : refinement place.header place.row = some read) (blank : isBlank read.value = true)
    (known : place.KnownElsewhere read.target) :
    SameStates (effectiveVertexState (companionOf text))
        (effectiveVertexState (companionOf shorter)) ↔ place.Idle read := by
  rw [companion_of_blocks, companion_of_blocks, taken.kept, taken.dropped]
  unfold SameStates RowPlace.Idle
  rw [and_iff_right (RowPlace.known_same kind reads known)]
  split
  · rename_i met
    exact RowPlace.overwrites_nothing_iff kind reads blank met
  · rename_i unmet
    exact RowPlace.passes_nothing_iff kind reads blank unmet

end Documents

def openClassText (rows : List Str) : Str :=
  message ["# t\n```invlang\n:V prologue.vertices [id|type|class|ident]\n",
    "v-001|compute|??|web\n:R attr_updates [resolved_by|target|key|value]\n", message rows, "```\n"]

def secondRow (row : Str) : RowPlace where
  early := [⟨'V', "prologue.vertices", some ["id", "type", "class", "ident"],
    ["v-001|compute|??|web"], 4⟩]
  header := ⟨'R', "attr_updates", some ["resolved_by", "target", "key", "value"], [], 4⟩
  front := ["l-001|v-001|class|bastion"]
  row := row
  back := []
  late := []

theorem row_of_other_lead_changes_nothing_iff :
    SameStates
        (effectiveVertexState (@companionOf asciiDatabase
          (openClassText ["l-001|v-001|class|bastion\n", "l-002|v-001|class|\n"])))
        (effectiveVertexState (@companionOf asciiDatabase
          (openClassText ["l-001|v-001|class|bastion\n"]))) ↔
      @RowPlace.Idle asciiDatabase (secondRow "l-002|v-001|class|")
        ⟨"l-002", "v-001", "class", []⟩ := by
  have taken : @HasRow asciiDatabase
      (openClassText ["l-001|v-001|class|bastion\n", "l-002|v-001|class|\n"])
      (openClassText ["l-001|v-001|class|bastion\n"]) (secondRow "l-002|v-001|class|") :=
    @HasRow.mk asciiDatabase _ _ _ (by decide +kernel) (by decide +kernel)
  have refined : (⟨"l-001", "v-001", "class", "bastion"⟩ : Refinement) ∈
      @refinementRows asciiDatabase
        (@RowPlace.dropped (secondRow "l-002|v-001|class|")) := by
    decide +kernel
  exact @blank_refinement_changes_nothing_iff asciiDatabase _ _ _ _ taken (by decide +kernel)
    (by decide +kernel) (by decide) (.inr ⟨_, refined, rfl⟩)

/-- The lead refines the class and then leaves a blank: the class it had settled is open. -/
theorem blank_row_takes_refinement :
    @HasRow asciiDatabase
        (openClassText ["l-001|v-001|class|bastion\n", "l-001|v-001|class|\n"])
        (openClassText ["l-001|v-001|class|bastion\n"]) (secondRow "l-001|v-001|class|") ∧
      @refinement asciiDatabase (secondRow "l-001|v-001|class|").header "l-001|v-001|class|" =
        some ⟨"l-001", "v-001", "class", []⟩ ∧
      @RowPlace.KnownElsewhere asciiDatabase (secondRow "l-001|v-001|class|") "v-001" ∧
      ¬ SameStates
        (effectiveVertexState (@companionOf asciiDatabase
          (openClassText ["l-001|v-001|class|bastion\n", "l-001|v-001|class|\n"])))
        (effectiveVertexState (@companionOf asciiDatabase
          (openClassText ["l-001|v-001|class|bastion\n"]))) := by
  have refined : (⟨"l-001", "v-001", "class", "bastion"⟩ : Refinement) ∈
      @refinementRows asciiDatabase
        (@RowPlace.dropped (secondRow "l-001|v-001|class|")) := by
    decide +kernel
  have taken : @HasRow asciiDatabase
      (openClassText ["l-001|v-001|class|bastion\n", "l-001|v-001|class|\n"])
      (openClassText ["l-001|v-001|class|bastion\n"]) (secondRow "l-001|v-001|class|") :=
    @HasRow.mk asciiDatabase _ _ _ (by decide +kernel) (by decide +kernel)
  refine ⟨taken, by decide +kernel, .inr ⟨_, refined, rfl⟩, ?_⟩
  intro same
  exact absurd (same.2 .classification "v-001") (by decide +kernel)

end Defender.Invlang
