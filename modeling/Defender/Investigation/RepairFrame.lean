import Mathlib.Algebra.Order.BigOperators.Group.List
import Mathlib.Algebra.Order.Ring.Nat
import Defender.Investigation.UnsealedFence

/-!
# What a repair rewrites

A repair is meant to touch the flagged rows and nothing else. It does exactly
when every line of the old row is a refinement row and the new row reads as a
row, or a deletion puts no fence mark behind another separator. The last is not
guarded: a row ended by one of the other separators may stand in front of a line
that starts with the mark.
-/

namespace Defender.Investigation

open Defender.Python Defender.Library.Regex Defender.Library.Delimited
open Defender.Library.Reassembly Defender.Invlang

theorem sums_agree {α : Type*} {low high : α → Nat} {items : List α}
    (bounded : ∀ item ∈ items, low item ≤ high item)
    (total : (items.map high).sum ≤ (items.map low).sum) :
    ∀ item ∈ items, low item = high item := by
  have sums : (items.map low).sum ≤ (items.map high).sum := List.sum_le_sum bounded
  induction items with
  | nil => simp
  | cons first rest ih =>
      have here := bounded first (by simp)
      have later : ∀ item ∈ rest, low item ≤ high item := fun item member =>
        bounded item (List.mem_cons_of_mem _ member)
      have restSums : (rest.map low).sum ≤ (rest.map high).sum := List.sum_le_sum later
      simp only [List.map_cons, List.sum_cons] at total
      intro item member
      rcases List.mem_cons.mp member with rfl | inside
      · omega
      · exact ih later (by omega) restSums item inside

section Guards

theorem splitlines_flatten (text line : Str) (afterReturn : Bool)
    (fresh : afterReturn = true → line = []) :
    (splitlinesFrom line afterReturn text).flatten =
      line ++ text.filter fun char => !isLineBreak char := by
  induction text generalizing line afterReturn with
  | nil =>
      rw [splitlinesFrom]
      split
      · rename_i empty
        rw [empty]
        rfl
      · simp
  | cons char rest ih =>
      rw [splitlinesFrom]
      split
      · rename_i joined
        simp only [Bool.and_eq_true, beq_iff_eq] at joined
        rw [ih [] false (by simp), fresh joined.1, joined.2]
        rfl
      · split
        · rename_i breaks
          rw [List.flatten_cons, ih [] _ (fun _ => rfl), List.filter_cons, breaks]
          simp
        · rename_i inside
          rw [ih (line ++ [char]) false (by simp), List.filter_cons]
          simp [inside]

theorem splitlines_whole {text : Str} (whole : splitlines text = [text]) :
    ∀ char ∈ text, isLineBreak char = false := by
  have kept := splitlines_flatten text [] false (by simp)
  rw [splitlines] at whole
  rw [whole, List.flatten_singleton, List.nil_append] at kept
  intro char member
  rw [kept, List.mem_filter] at member
  simpa using member.2

theorem shape_allows {newRow : Str} {cells : Option Nat}
    (allowed : newRowShapeReason newRow cells = none) :
    (∀ char ∈ newRow, isLineBreak char = false) ∧ ¬ fenceMark <+: newRow ∧
      headerRe.matchPrefix (strip newRow) = none := by
  unfold newRowShapeReason at allowed
  split at allowed
  · exact absurd allowed (by simp)
  · rename_i whole
    split at allowed
    · exact absurd allowed (by simp)
    · rename_i unmarked
      split at allowed
      · exact absurd allowed (by simp)
      · rename_i header
        refine ⟨splitlines_whole (not_not.mp whole), ?_, by simpa [Pattern.matches] using header⟩
        exact fun starts => unmarked ((contains_infix_iff fenceMark newRow).mpr starts.isInfix)

variable [UnicodeDatabase]

/-- A text the tokenizer reads as a row of the open block. -/
def WritesRow (newRow : Str) : Prop :=
  strip newRow ≠ [] ∧ storyHeaderRe.matches (strip newRow) = false

variable [Deployment] {text oldRow newRow repaired : Str}

/-- What the guards of a repair leave. -/
theorem fix_row_ok (done : fixRow text oldRow newRow = .ok repaired) :
    repaired = rewriteText oldRow newRow text ∧ oldRow ∈ flaggedRows text ∧
      hitCount oldRow text = (flaggedRows text).count oldRow ∧
      (newRow = [] ∨ (∀ char ∈ newRow, isLineBreak char = false) ∧ ¬ fenceMark <+: newRow ∧
        headerRe.matchPrefix (strip newRow) = none) := by
  unfold fixRow at done
  dsimp only at done
  split at done
  · contradiction
  · split at done
    · contradiction
    · rename_i flagged
      split at done
      · contradiction
      · split at done
        · contradiction
        · rename_i counted
          refine ⟨?_, not_not.mp flagged, not_not.mp counted, ?_⟩
          · split at done
            · exact (Except.ok.inj done).symm
            · split at done
              · contradiction
              · exact (Except.ok.inj done).symm
          · split at done
            · rename_i empty
              exact .inl empty
            · split at done
              · contradiction
              · rename_i allowed
                exact .inr (shape_allows allowed)

end Guards

section Counting

variable {text oldRow : Str}

theorem hit_count_split (read : '\r' ∉ text) (written : oldRow ≠ []) :
    hitCount oldRow text =
      (outsideLines [] (regions fenceOpener fenceCloser text) (fenceRemainder text)).countP
          (isHit oldRow) +
        ((scanFences text).bodies.map fun body => (contentLines body).count oldRow).sum := by
  obtain ⟨whole, _⟩ := fence_text_reads text
  have split := count_lines (isHit oldRow) (regions fenceOpener fenceCloser text) []
    (fenceRemainder text)
  rw [List.nil_append, whole] at split
  unfold hitCount
  rw [split, fence_bodies, List.map_map]
  congr 2
  apply List.map_congr_left
  intro region member
  refine (count_content ?_ written).symm
  apply body_read read
  rw [fence_bodies]
  exact List.mem_map_of_mem member

variable [UnicodeDatabase]

def HitsAreRows (oldRow text : Str) : Prop :=
  hitCount oldRow text = (attrRows (iterBlocks text)).count oldRow

instance : Decidable (HitsAreRows oldRow text) := by
  unfold HitsAreRows
  infer_instance

theorem count_refinement_rows (oldRow text : Str) :
    (attrRows (iterBlocks text)).count oldRow =
      ((scanFences text).bodies.map fun body =>
        (attrRows (tokenizeFence body).1).count oldRow).sum := by
  unfold iterBlocks iterFenceBlocks
  rw [attr_rows_flatten, List.flatMap_map, List.count_flatMap]
  rfl

theorem hits_are_rows_iff (read : '\r' ∉ text) (written : oldRow ≠ []) :
    HitsAreRows oldRow text ↔ HitsStandAsRows oldRow text := by
  unfold HitsAreRows
  rw [hit_count_split read written, count_refinement_rows]
  constructor
  · intro rows
    have bounded : ∀ body ∈ (scanFences text).bodies,
        (attrRows (tokenizeFence body).1).count oldRow ≤ (contentLines body).count oldRow :=
      fun body _ => count_tokenized oldRow (contentLines body)
    have sums := List.sum_le_sum bounded
    refine ⟨?_, sums_agree bounded (by omega)⟩
    have none : (outsideLines [] (regions fenceOpener fenceCloser text)
        (fenceRemainder text)).countP (isHit oldRow) = 0 := by omega
    intro line member
    have missed := List.countP_eq_zero.mp none line member
    simpa using missed
  · intro rows
    have missed : (outsideLines [] (regions fenceOpener fenceCloser text)
        (fenceRemainder text)).countP (isHit oldRow) = 0 :=
      List.countP_eq_zero.mpr fun line member => by simp [rows.outside line member]
    rw [missed, Nat.zero_add]
    exact congrArg List.sum (List.map_congr_left rows.inside).symm

end Counting

section Rows

theorem rewritten_rows (old : Str) (replacement : Option Str) (blocks : List Block) :
    attrRows (blocks.map (Block.rewriteRows old replacement)) =
      (attrRows blocks).filterMap (rewriteRow old replacement) := by
  induction blocks with
  | nil => rfl
  | cons block rest ih =>
      have apart : attrRows (block :: rest) = attrRows [block] ++ attrRows rest :=
        attr_rows_append [block] rest
      have apartToo : ∀ first : Block, ∀ others : List Block,
          attrRows (first :: others) = attrRows [first] ++ attrRows others :=
        fun first others => attr_rows_append [first] others
      rw [List.map_cons, apartToo, ih, apart, List.filterMap_append, attr_rows_single,
        attr_rows_single, rewrite_rows_name]
      by_cases refines : block.name = attrUpdatesName
      · rw [if_pos refines, if_pos refines, rewrite_rows_refining old replacement refines]
      · rw [if_neg refines, if_neg refines]
        rfl

variable [UnicodeDatabase]

/-- What the tokenizer puts into a block. -/
def ReadsAsRow (row : Str) : Prop := row ≠ [] ∧ Tokenizer.IsRowLine row

theorem step_rows_read {state : Tokenizer} {line : Str} (written : line ≠ [])
    (held : ∀ row ∈ attrRows state.held, ReadsAsRow row) :
    ∀ row ∈ attrRows (state.step line).held, ReadsAsRow row := by
  intro row member
  rcases Tokenizer.step_rows state line with ⟨plain, _, block, opened, stepped⟩ | same
  · rw [stepped, Tokenizer.attr_rows_added state opened] at member
    rcases List.mem_append.mp member with early | last
    · exact held row early
    · split at last
      · rw [List.mem_singleton.mp last]
        exact ⟨written, plain⟩
      · exact absurd last (by simp)
  · rw [same] at member
    exact held row member

theorem tokenized_rows_read (body : Str) :
    ∀ row ∈ attrRows (tokenizeFence body).1, ReadsAsRow row := by
  have run : ∀ (lines : List Str) (state : Tokenizer), (∀ line ∈ lines, line ≠ []) →
      (∀ row ∈ attrRows state.held, ReadsAsRow row) →
      ∀ row ∈ attrRows (lines.foldl Tokenizer.step state).held, ReadsAsRow row := by
    intro lines
    induction lines with
    | nil => exact fun _ _ held => held
    | cons line rest ih =>
        intro state written held
        apply ih
        · exact fun other member => written other (List.mem_cons_of_mem _ member)
        · exact step_rows_read (written line (by simp)) held
  have blocks : (tokenizeFence body).1 =
      ((contentLines body).foldl Tokenizer.step .start).held := finish_blocks _
  rw [blocks]
  apply run
  · intro line member
    simpa using (List.mem_filter.mp member).2
  · simp [Tokenizer.start, Tokenizer.held, attrRows]

theorem document_rows_read (text : Str) :
    ∀ row ∈ attrRows (iterBlocks text), ReadsAsRow row := by
  intro row member
  unfold iterBlocks iterFenceBlocks at member
  rw [attr_rows_flatten, List.flatMap_map] at member
  obtain ⟨body, _, inBody⟩ := List.mem_flatMap.mp member
  exact tokenized_rows_read body row inBody

end Rows

section Frame

variable [UnicodeDatabase] [Deployment] {text oldRow newRow repaired : Str}

/-- What a repair is for: it touches refinement rows alone, and the blocks change in them alone. -/
structure TouchesFlagged (text oldRow newRow repaired : Str) : Prop where
  lines : HitsStandAsRows oldRow text
  blocks : RewritesRows text oldRow newRow repaired

omit [Deployment] in
theorem repaired_rows (read : '\r' ∉ text) (written : oldRow ≠ [])
    (rows : HitsStandAsRows oldRow text)
    (closes : ∀ region ∈ regions fenceOpener fenceCloser text,
      ClosesAtMark oldRow newRow region.2) (oneLine : OneLine newRow)
    (plain : ∀ new ∈ replacementOf newRow, Tokenizer.IsRowLine new) :
    RewritesRows text oldRow newRow (rewriteText oldRow newRow text) := by
  unfold RewritesRows iterBlocks iterFenceBlocks
  rw [repaired_bodies rows.outside closes, List.map_flatten, List.map_map, List.map_map]
  congr 1
  apply List.map_congr_left
  intro body member
  obtain ⟨region, inside, rfl⟩ := List.mem_map.mp (fence_bodies text ▸ member)
  exact repaired_fence written (body_read read member) (rows.inside _ member)
    (closes region inside) oneLine plain

theorem flagged_written {row : Str} (flagged : row ∈ flaggedRows text) : row ≠ [] := by
  unfold flaggedRows at flagged
  split at flagged
  · exact absurd flagged (by simp)
  · obtain ⟨found, _, shown⟩ := List.mem_filterMap.mp flagged
    obtain ⟨locus, _, same⟩ := Option.bind_eq_some_iff.mp shown
    split at same
    · rename_i addressed
      rw [← Option.some.inj same]
      exact addressed.1
    · contradiction

/-- A repair touches the flagged rows and nothing else exactly when every line of the old row is
one, and the new row reads as a row or a deletion leaves every fence mark behind the separator it
stands behind. -/
theorem fix_row_rewrites_rows (read : '\r' ∉ text)
    (done : fixRow text oldRow newRow = .ok repaired) :
    TouchesFlagged text oldRow newRow repaired ↔
      HitsAreRows oldRow text ∧ (newRow = [] ∧ SealsAlike oldRow text ∨ WritesRow newRow) := by
  obtain ⟨rfl, flagged, counted, shape⟩ := fix_row_ok done
  have written := flagged_written flagged
  have back := (fence_text_reads text).2
  rw [hits_are_rows_iff read written]
  constructor
  · intro touched
    refine ⟨touched.lines, ?_⟩
    by_cases empty : newRow = []
    · subst empty
      refine .inl ⟨rfl, ?_⟩
      by_contra unsealed
      exact unsealed_apart read written touched.lines unsealed touched.blocks
    · right
      have stands : oldRow ∈ attrRows (iterBlocks text) := by
        rw [← List.count_pos_iff, ← (hits_are_rows_iff read written).mpr touched.lines, counted,
          List.count_pos_iff]
        exact flagged
      have new : strip newRow ∈ attrRows (iterBlocks (rewriteText oldRow newRow text)) := by
        rw [touched.blocks, rewritten_rows]
        refine List.mem_filterMap.mpr ⟨oldRow, stands, ?_⟩
        rw [rewriteRow, if_pos rfl, replacementOf, if_neg empty]
      obtain ⟨shown, plain⟩ := document_rows_read _ _ new
      exact ⟨shown, plain.1⟩
  · rintro ⟨rows, ⟨rfl, sealed⟩ | writes⟩
    · refine ⟨rows, repaired_rows read written rows ?_ one_line_empty deletion_plain⟩
      intro region member
      apply deletion_closes (back region member)
      apply sealed
      rw [fence_bodies]
      exact List.mem_map_of_mem member
    · have filled : newRow ≠ [] := by
        rintro rfl
        exact writes.1 rfl
      obtain ⟨whole, unmarked, header⟩ := shape.resolve_left filled
      refine ⟨rows, repaired_rows read written rows ?_ ⟨whole, fun _ => writes.1⟩ ?_⟩
      · exact fun region member => replacement_closes (back region member) filled whole unmarked
      · intro new replaces
        rw [replacementOf, if_neg filled] at replaces
        cases replaces
        exact ⟨writes.2, header⟩

end Frame

/-- A deployment without adapters. -/
@[reducible] def emptyDeployment : Deployment := ⟨fun _ => none, fun _ => none, fun _ => []⟩

def bareKeyRow : Str := "l-001|v-001|kind|vm"

def bareKeyText : Str :=
  message ["```invlang\n", ":R attr_updates [lead|target|key|value]\n", bareKeyRow, "\n", "```\n"]

def attrKeyRow : Str := "l-001|v-001|attrs.kind|vm"

theorem fix_row_rewrites_bare_key :
    @TouchesFlagged asciiDatabase bareKeyText bareKeyRow attrKeyRow
      (rewriteText bareKeyRow attrKeyRow bareKeyText) :=
  (@fix_row_rewrites_rows asciiDatabase emptyDeployment _ _ _ _ (by decide +kernel)
    (by decide +kernel)).mpr ⟨by decide +kernel, .inr ⟨by decide +kernel, by decide +kernel⟩⟩

def verticalTabRow : Str := "vm|v-001|kind|l-001"

/-- The flagged row ends at a vertical tab, and the next row's value starts with the
fence mark. -/
def verticalTabText : Str :=
  message ["# t\n", "```invlang\n", ":V prologue.vertices [id|type|class|ident|attrs?]\n",
    "v-001|compute|??/??/??|h|\n", ":L findings [id|name|target|loop?]\n",
    "l-001|probe|v-001|1\n", ":R attr_updates [value|target|key|lead]\n", verticalTabRow, "\x0b",
    "```x|v-001|attrs.note|l-001\n", "```\n"]

/-- Deleting the flagged row of an accepted document is accepted and loses the row
behind it: the mark now follows a newline and closes the fence. -/
theorem fix_row_closes_fence_early :
    @accepted asciiDatabase emptyDeployment verticalTabText (some verticalTabText) = true ∧
      @fixRow asciiDatabase emptyDeployment verticalTabText verticalTabRow [] =
        .ok (rewriteText verticalTabRow [] verticalTabText) ∧
      @accepted asciiDatabase emptyDeployment (rewriteText verticalTabRow [] verticalTabText)
        (some verticalTabText) = true ∧
      ¬ @RewritesRows asciiDatabase verticalTabText verticalTabRow []
        (rewriteText verticalTabRow [] verticalTabText) := by
  decide +kernel

end Defender.Investigation
