import Defender.Invlang.Validate.AttrUpdateKeys

/-!
# Rewriting a row of the refinement blocks

A row that stands in refinement blocks as often as its text is a line can be
dropped or replaced line by line: the lines that remain are tokenized to the same
blocks with the row dropped or replaced in them, and to the same warnings.
-/

namespace Defender.Invlang

open Defender.Python Defender.Library.Regex

def rewriteRow (old : Str) (replacement : Option Str) (line : Str) : Option Str :=
  if line = old then replacement else some line

def Block.rewriteRows (old : Str) (replacement : Option Str) (block : Block) : Block :=
  if block.name = attrUpdatesName then
    { block with rows := block.rows.filterMap (rewriteRow old replacement) }
  else block

def attrRows (blocks : List Block) : List Str :=
  (blocks.filter fun block => block.name == attrUpdatesName).flatMap Block.rows

theorem attr_rows_append (early late : List Block) :
    attrRows (early ++ late) = attrRows early ++ attrRows late := by
  simp [attrRows]

theorem attr_rows_flatten (fences : List (List Block)) :
    attrRows fences.flatten = fences.flatMap attrRows := by
  induction fences with
  | nil => rfl
  | cons first rest ih => rw [List.flatten_cons, attr_rows_append, ih, List.flatMap_cons]

theorem attr_rows_single (block : Block) :
    attrRows [block] = if block.name = attrUpdatesName then block.rows else [] := by
  by_cases refines : block.name = attrUpdatesName
  · simp [attrRows, refines]
  · simp [attrRows, refines]

section Fields

variable (old : Str) (replacement : Option Str) (block : Block)

@[simp] theorem rewrite_rows_name : (block.rewriteRows old replacement).name = block.name := by
  unfold Block.rewriteRows
  split
  · rfl
  · rfl

variable {block}

theorem rewrite_rows_refining (refines : block.name = attrUpdatesName) :
    (block.rewriteRows old replacement).rows =
      block.rows.filterMap (rewriteRow old replacement) := by
  rw [Block.rewriteRows, if_pos refines]

theorem rewrite_row_other {line : Str} (other : line ≠ old) :
    rewriteRow old replacement line = some line := by
  rw [rewriteRow, if_neg other]

theorem rewrite_add_other {line : Str} (other : line ≠ old) :
    (block.addRow line).rewriteRows old replacement =
      (block.rewriteRows old replacement).addRow line := by
  unfold Block.rewriteRows Block.addRow
  dsimp only
  split
  · rw [List.filterMap_append, List.filterMap_cons_some (rewrite_row_other old replacement other),
      List.filterMap_nil]
  · rfl

theorem rewrite_add_old (refines : block.name = attrUpdatesName) :
    (block.addRow old).rewriteRows old replacement =
      replacement.toList.foldl Block.addRow (block.rewriteRows old replacement) := by
  have here : rewriteRow old replacement old = replacement := by rw [rewriteRow, if_pos rfl]
  unfold Block.rewriteRows Block.addRow
  dsimp only
  rw [if_pos refines, if_pos refines, List.filterMap_append]
  cases replacement with
  | none => simp [rewriteRow]
  | some new => simp [rewriteRow]

end Fields

namespace Tokenizer

def rewriteRows (old : Str) (replacement : Option Str) (state : Tokenizer) : Tokenizer :=
  { state with
    blocks := state.blocks.map (Block.rewriteRows old replacement)
    cur := state.cur.map (Block.rewriteRows old replacement) }

variable (old : Str) (replacement : Option Str) (state : Tokenizer)

theorem flush_close_rewrite :
    (state.rewriteRows old replacement).flushOrphans.closeBlock =
      state.flushOrphans.closeBlock.rewriteRows old replacement := by
  rcases state with ⟨blocks, cur, inStory, orphans, warnings⟩
  cases orphans with
  | nil => cases cur <;> simp [rewriteRows, flushOrphans, closeBlock]
  | cons head rest => cases cur <;> simp [rewriteRows, flushOrphans, closeBlock]

theorem flush_rewrite :
    (state.rewriteRows old replacement).flushOrphans =
      state.flushOrphans.rewriteRows old replacement := by
  rcases state with ⟨blocks, cur, inStory, orphans, warnings⟩
  cases orphans with
  | nil => rfl
  | cons head rest => rfl

theorem rewrite_header (header : Cursor) :
    (headerBlock header).rewriteRows old replacement = headerBlock header := by
  unfold Block.rewriteRows
  split
  · rfl
  · rfl

theorem attr_rows_added {block : Block} (opened : state.cur = some block) (line : Str) :
    attrRows ({ state with cur := some (block.addRow line) } : Tokenizer).held =
      attrRows state.held ++ if block.name = attrUpdatesName then [line] else [] := by
  unfold held
  rw [opened]
  simp only [Option.toList_some, attr_rows_append, attr_rows_single, Block.addRow,
    List.append_assoc]
  split
  · rfl
  · rfl

theorem finish_rewrite :
    (state.rewriteRows old replacement).finish =
      (state.finish.1.map (Block.rewriteRows old replacement), state.finish.2) := by
  unfold finish
  rw [flush_close_rewrite]
  rfl

variable [UnicodeDatabase]

def IsRowLine (line : Str) : Prop :=
  storyHeaderRe.matches line = false ∧ headerRe.matchPrefix line = none

/-- Every other line does the same to the rewritten state. -/
theorem step_rewrite_other {line : Str} (other : line ≠ old) :
    (state.rewriteRows old replacement).step line =
      (state.step line).rewriteRows old replacement := by
  have blocked : (state.rewriteRows old replacement).cur =
      state.cur.map (Block.rewriteRows old replacement) := rfl
  have story : (state.rewriteRows old replacement).inStory = state.inStory := rfl
  unfold step
  split
  · rw [flush_close_rewrite]
    rfl
  · split
    · rename_i header _
      rw [flush_close_rewrite]
      simp only [rewriteRows, Option.map_some, rewrite_header]
    · rw [story]
      split
      · rfl
      · rw [blocked]
        cases told : state.inStory with
        | true =>
            dsimp only
            split
            · rw [flush_rewrite]
              rfl
            · rfl
        | false =>
            cases opened : state.cur with
            | none =>
                dsimp only [Option.map_none]
                split
                · rw [flush_rewrite]
                  simp only [rewriteRows]
                · rfl
            | some block =>
                simp only [Option.map_some, rewriteRows, rewrite_add_other old replacement other]

/-- A line is added to the open block or leaves the rows as they are. -/
theorem step_rows (line : Str) :
    (IsRowLine line ∧ state.inStory = false ∧
      ∃ block, state.cur = some block ∧
        state.step line = { state with cur := some (block.addRow line) }) ∨
    attrRows (state.step line).held = attrRows state.held := by
  unfold step
  split
  · right
    change attrRows (state.flushOrphans.closeBlock.blocks ++ []) = _
    rw [List.append_nil, flush_close_held]
  · rename_i heading
    split
    · rename_i header _
      right
      change attrRows (state.flushOrphans.closeBlock.blocks ++ [headerBlock header]) = _
      rw [flush_close_held, attr_rows_append, attr_rows_single]
      split
      · exact List.append_nil _
      · exact List.append_nil _
    · rename_i plain
      split
      · exact .inr rfl
      · cases told : state.inStory with
        | true =>
            right
            dsimp only
            split
            · exact congrArg attrRows (flush_held state)
            · rfl
        | false =>
            cases opened : state.cur with
            | none =>
                right
                dsimp only
                split
                · exact congrArg attrRows (flush_held state)
                · rfl
            | some block =>
                left
                exact ⟨⟨by simpa using heading, plain⟩, rfl, block, rfl, rfl⟩

theorem count_step (line : Str) :
    (attrRows (state.step line).held).count old ≤
      (attrRows state.held).count old + [line].count old := by
  rcases step_rows state line with ⟨_, _, block, opened, stepped⟩ | same
  · rw [stepped, attr_rows_added state opened, List.count_append]
    split
    · exact Nat.le_refl _
    · simp
  · rw [same]
    exact Nat.le_add_right _ _

theorem step_rewrite_old (plain : ∀ new ∈ replacement, IsRowLine new)
    (counted : (attrRows (state.step old).held).count old =
      (attrRows state.held).count old + 1) :
    replacement.toList.foldl step (state.rewriteRows old replacement) =
      (state.step old).rewriteRows old replacement := by
  rcases step_rows state old with ⟨_, told, block, opened, stepped⟩ | same
  · rw [stepped, attr_rows_added state opened, List.count_append] at counted
    have refines : block.name = attrUpdatesName := by
      by_contra other
      rw [if_neg other] at counted
      simp at counted
    rw [stepped]
    unfold rewriteRows
    dsimp only
    rw [Option.map_some, rewrite_add_old old replacement refines, opened, Option.map_some]
    cases replacement with
    | none => rfl
    | some new =>
        obtain ⟨heading, header⟩ := plain new rfl
        simp only [Option.toList_some, List.foldl_cons, List.foldl_nil]
        unfold step
        simp [heading, header, told]
  · rw [same] at counted
    omega

theorem count_run (lines : List Str) :
    (attrRows (lines.foldl step state).held).count old ≤
      (attrRows state.held).count old + lines.count old := by
  induction lines generalizing state with
  | nil => exact Nat.le_refl _
  | cons line rest ih =>
      have first := count_step old state line
      have later := ih (state.step line)
      rw [List.foldl_cons, List.count_cons]
      rw [List.count_singleton] at first
      omega

/-- When every line of the old row is a refinement row, the rewritten lines lead to
the rewritten state. -/
theorem run_rewrite (plain : ∀ new ∈ replacement, IsRowLine new) (lines : List Str)
    (counted : (attrRows (lines.foldl step state).held).count old =
      (attrRows state.held).count old + lines.count old) :
    (lines.filterMap (rewriteRow old replacement)).foldl step (state.rewriteRows old replacement) =
      (lines.foldl step state).rewriteRows old replacement := by
  induction lines generalizing state with
  | nil => rfl
  | cons line rest ih =>
      have first := count_step old state line
      have later := count_run old (state.step line) rest
      rw [List.foldl_cons, List.count_cons] at counted
      rw [List.count_singleton] at first
      have further := ih (state.step line) (by omega)
      rw [List.foldl_cons, ← further, List.filterMap_cons]
      by_cases here : line = old
      · subst here
        have own : (attrRows (state.step line).held).count line =
            (attrRows state.held).count line + 1 := by
          rw [if_pos (beq_self_eq_true line)] at counted first
          omega
        rw [← step_rewrite_old line replacement state plain own, ← List.foldl_append, rewriteRow,
          if_pos rfl]
        cases replacement with
        | none => rfl
        | some new => rfl
      · rw [rewrite_row_other old replacement here, List.foldl_cons,
          step_rewrite_other old replacement state here]

/-- A prefix of lines all of whose old rows count has all of its own count. -/
theorem counted_early (early late : List Str)
    (counted : (attrRows ((early ++ late).foldl step state).held).count old =
      (attrRows state.held).count old + (early ++ late).count old) :
    (attrRows (early.foldl step state).held).count old =
      (attrRows state.held).count old + early.count old := by
  have first := count_run old state early
  have later := count_run old (early.foldl step state) late
  rw [List.foldl_append, List.count_append] at counted
  omega

/-- Behind a counted old row its block is open. -/
theorem counted_last (early : List Str)
    (counted : (attrRows ((early ++ [old]).foldl step state).held).count old =
      (attrRows state.held).count old + (early ++ [old]).count old) :
    ((early ++ [old]).foldl step state).inStory = false ∧
      ((early ++ [old]).foldl step state).cur ≠ none := by
  have first := counted_early old state early [old] counted
  rw [List.foldl_append, List.foldl_cons, List.foldl_nil] at counted ⊢
  rcases step_rows (early.foldl step state) old with ⟨_, told, block, opened, stepped⟩ | same
  · rw [stepped]
    exact ⟨told, nofun⟩
  · rw [same, first, List.count_append] at counted
    simp at counted

/-- A line files the open block, leaves it or gives it a row. -/
theorem step_open (line : Str) : (state.step line).blocks = state.held ∨
    (state.step line).blocks = state.blocks ∧ ((state.step line).cur = state.cur ∨
      ∃ block, state.cur = some block ∧ (state.step line).cur = some (block.addRow line)) := by
  have flushed : state.flushOrphans.blocks = state.blocks ∧ state.flushOrphans.cur = state.cur := by
    unfold flushOrphans
    split
    · exact ⟨rfl, rfl⟩
    · exact ⟨rfl, rfl⟩
  unfold step
  split
  · exact .inl (flush_close_held state)
  · split
    · exact .inl (flush_close_held state)
    · right
      split
      · exact ⟨rfl, .inl rfl⟩
      · split
        · rename_i block _ opened
          exact ⟨rfl, .inr ⟨block, opened, rfl⟩⟩
        · split
          · exact ⟨flushed.1, .inl flushed.2⟩
          · exact ⟨rfl, .inl rfl⟩

/-- An open block keeps its place and its rows. -/
theorem run_open {block : Block} (opened : state.cur = some block) (lines : List Str) :
    ∃ extra more, (lines.foldl step state).held =
      state.blocks ++ { block with rows := block.rows ++ extra } :: more := by
  have filed : ∀ (lines : List Str) (next : Tokenizer) {blocks : List Block},
      blocks <+: next.blocks → blocks <+: (lines.foldl step next).held := by
    intro lines
    induction lines with
    | nil => exact fun next _ started => started.trans (List.prefix_append _ _)
    | cons line rest ih =>
        intro next blocks started
        apply ih
        rcases step_open next line with closed | ⟨same, _⟩
        · rw [closed]
          exact started.trans (List.prefix_append _ _)
        · rwa [same]
  induction lines generalizing state block with
  | nil => exact ⟨[], [], by simp [held, opened]⟩
  | cons line rest ih =>
      rw [List.foldl_cons]
      rcases step_open state line with closed | ⟨same, kept | ⟨own, here, added⟩⟩
      · obtain ⟨more, whole⟩ := filed rest (state.step line) (List.prefix_refl _)
        refine ⟨[], more, ?_⟩
        rw [← whole, closed, held, opened]
        simp
      · obtain ⟨extra, more, whole⟩ := ih (state.step line) (kept.trans opened)
        exact ⟨extra, more, by rw [whole, same]⟩
      · rw [opened, Option.some.injEq] at here
        obtain ⟨extra, more, whole⟩ := ih (state.step line) added
        refine ⟨line :: extra, more, ?_⟩
        rw [whole, same, ← here]
        simp [Block.addRow]

/-- One line more in the open block is seen in what is read. -/
theorem told_apart {block : Block} (opened : state.cur = some block) (told : state.inStory = false)
    {line : Str} (plain : IsRowLine line) (lines : List Str) (early late : List Block) :
    state.held ++ early ≠ ((line :: lines).foldl step state).held ++ late := by
  have stepped : state.step line = { state with cur := some (block.addRow line) } := by
    unfold step
    simp [plain.1, plain.2, told, opened]
  obtain ⟨extra, more, whole⟩ := run_open (state.step line) (by rw [stepped]) lines
  intro same
  rw [List.foldl_cons, whole, stepped, held, opened] at same
  simp only [Option.toList_some, List.append_assoc, List.append_cancel_left_eq,
    List.cons_append, List.cons.injEq] at same
  have rows := congrArg (fun block => block.rows.length) same.1
  simp only [Block.addRow, List.length_append, List.length_singleton] at rows
  omega

end Tokenizer

section Fences

variable [UnicodeDatabase] (old : Str) (replacement : Option Str)

def tokenizeLines (lines : List Str) : List Block × List ParseWarning :=
  (lines.foldl Tokenizer.step .start).finish

theorem tokenize_fence_lines (body : Str) :
    tokenizeFence body = tokenizeLines (contentLines body) := rfl

theorem count_tokenized (lines : List Str) :
    (attrRows (tokenizeLines lines).1).count old ≤ lines.count old := by
  have bound := Tokenizer.count_run old .start lines
  unfold tokenizeLines
  rw [finish_blocks]
  simpa [Tokenizer.start, Tokenizer.held, attrRows] using bound

theorem tokenize_rewrite (plain : ∀ new ∈ replacement, Tokenizer.IsRowLine new)
    (lines : List Str)
    (counted : (attrRows (tokenizeLines lines).1).count old = lines.count old) :
    tokenizeLines (lines.filterMap (rewriteRow old replacement)) =
      ((tokenizeLines lines).1.map (Block.rewriteRows old replacement),
        (tokenizeLines lines).2) := by
  unfold tokenizeLines at counted ⊢
  rw [finish_blocks] at counted
  have fresh : Tokenizer.start = Tokenizer.start.rewriteRows old replacement := rfl
  have none : (attrRows Tokenizer.start.held).count old = 0 := rfl
  have rewritten := Tokenizer.run_rewrite old replacement .start plain lines (by omega)
  rw [fresh, rewritten, Tokenizer.finish_rewrite, ← fresh]

end Fences

end Defender.Invlang
