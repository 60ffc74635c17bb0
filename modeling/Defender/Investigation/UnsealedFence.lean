import Defender.Investigation.RewrittenSurface

/-!
# A deletion that moves a fence mark

Where a deletion is not sealed the repaired text reads differently. A mark that now stands behind a
newline closes its fence early and takes the line it starts from the open block; a closing mark
that now stands behind another separator is a row of that block, or the fence is never closed.
-/

namespace Defender.Investigation

open Defender.Python Defender.Library.Regex Defender.Library.Delimited
open Defender.Library.Pieces Defender.Library.Reassembly Defender.Invlang

variable {text oldRow newRow : Str}

theorem body_read (read : '\r' ∉ text) {body : Str} (member : body ∈ (scanFences text).bodies) :
    '\r' ∉ body := by
  intro inBody
  obtain ⟨whole, _⟩ := fence_text_reads text
  rw [fence_bodies] at member
  obtain ⟨region, inside, rfl⟩ := List.mem_map.mp member
  apply read
  rw [← whole]
  refine List.mem_append_left _ (List.mem_flatMap.mpr ⟨region, inside, ?_⟩)
  simp [Defender.Library.Reassembly.regionText, inBody]

variable [UnicodeDatabase]

/-- Every line that a repair rewrites stands in a fence and is a refinement row there. -/
structure HitsStandAsRows (oldRow text : Str) : Prop where
  outside : MissedOutside oldRow text
  inside : ∀ body ∈ (scanFences text).bodies,
    (attrRows (tokenizeFence body).1).count oldRow = (contentLines body).count oldRow

def RewritesRows (text oldRow newRow repaired : Str) : Prop :=
  iterBlocks repaired =
    (iterBlocks text).map (Block.rewriteRows oldRow (replacementOf newRow))

instance (repaired : Str) : Decidable (RewritesRows text oldRow newRow repaired) := by
  unfold RewritesRows
  infer_instance

theorem deletion_plain : ∀ new ∈ replacementOf [], Tokenizer.IsRowLine new := by
  intro new replaces
  cases replaces

theorem repaired_fence (written : oldRow ≠ []) {body : Str} (read : '\r' ∉ body)
    (counted : (attrRows (tokenizeFence body).1).count oldRow = (contentLines body).count oldRow)
    (closes : ClosesAtMark oldRow newRow body) (oneLine : OneLine newRow)
    (plain : ∀ new ∈ replacementOf newRow, Tokenizer.IsRowLine new) :
    (tokenizeFence (rewrittenBody oldRow newRow body)).1 =
      (tokenizeFence body).1.map (Block.rewriteRows oldRow (replacementOf newRow)) := by
  rw [tokenize_fence_lines, tokenize_fence_lines,
    content_lines_rewritten oneLine written read closes,
    tokenize_rewrite oldRow (replacementOf newRow) plain _ counted]

theorem iter_blocks_text {read : List (Str × Str)}
    (back : ∀ region ∈ read, ReadsBack fenceOpener fenceCloser region) (left : Str) :
    iterBlocks (fenceText read left) =
      (read.map fun region => (tokenizeFence region.2).1).flatten ++ iterBlocks left := by
  unfold iterBlocks iterFenceBlocks
  rw [fence_text_bodies back, List.map_append, List.flatten_append, List.map_map]
  rfl

/-- The blocks read from inside an opened fence. -/
def openBlocks (inner : Str) : List Block :=
  match findWord fenceCloser inner with
  | none => []
  | some (body, behind) => (tokenizeFence body).1 ++ iterBlocks behind

theorem iter_blocks_open {before : Str}
    (opens : findWord fenceOpener (before ++ fenceOpener) = some (before, [])) (inner : Str) :
    iterBlocks (before ++ fenceOpener ++ inner) = openBlocks inner := by
  have opened := find_word_grown inner opens
  unfold openBlocks iterBlocks iterFenceBlocks
  rw [fence_bodies]
  cases closed : findWord fenceCloser inner with
  | none =>
      rw [(regions_unclosed opened closed).1]
      rfl
  | some cut =>
      rw [regions_step fence_opener_visible opened closed, List.map_cons, List.map_cons,
        List.flatten_cons, ← fence_bodies cut.2]

omit [UnicodeDatabase] in
theorem outside_later (read : List (Str × Str)) (region : Str × Str) (others : List (Str × Str))
    (lead left : Str) : ∀ line ∈ outsideLines fenceMark others left,
      line ∈ outsideLines lead (read ++ region :: others) left := by
  intro line member
  induction read generalizing lead with
  | nil => exact List.mem_append_right _ member
  | cons first more ih => exact List.mem_append_right _ (ih fenceMark)

omit [UnicodeDatabase] in
/-- What is kept behind a deletion starts with the mark where the mark comes next. -/
theorem kept_behind (rest : List (Str × Str)) (next : markNext oldRow rest = true)
    (others : List (Str × Str)) (left : Str)
    (missed : ∀ line ∈ outsideLines fenceMark others left, isHit oldRow line = false) :
    ∃ behind, rebuild (rewriteLines oldRow [] rest) ++
      rebuild (rewriteLines oldRow [] (splitLines (fenceMark ++ fenceText others left))) =
        fenceMark ++ behind := by
  cases rest with
  | cons line more =>
      simp only [markNext, Bool.and_eq_true, Bool.not_eq_true'] at next
      obtain ⟨behind, starts⟩ := List.isPrefixOf_iff_prefix.mp next.2
      rw [kept_lines, List.filter_cons_of_pos (by simp [next.1]), rebuild_cons, ← starts]
      simp only [List.append_assoc]
      exact ⟨_, rfl⟩
  | nil =>
      cases others with
      | nil =>
          rw [outsideLines] at missed
          change ∃ behind, _ ++ rebuild (rewriteLines oldRow [] (splitLines (fenceMark ++ left))) = _
          rw [rewrite_lines_untouched missed]
          exact ⟨left, by rw [kept_lines]; exact rebuild_pieces _⟩
      | cons region others =>
          rcases region with ⟨before, body⟩
          rw [outsideLines] at missed
          rw [split_lines_fence, rewrite_lines_append, rebuild_append, rewrite_lines_untouched
            fun line member => missed line (List.mem_append_left _ member), rebuild_close_last,
            kept_lines]
          simp only [List.append_assoc]
          exact ⟨_, rfl⟩

omit [UnicodeDatabase] in
theorem deleted_text {read others early rest : List (Str × Str)} {before body : Str}
    (whole : regions fenceOpener fenceCloser text = read ++ (before, body) :: others)
    (missed : MissedOutside oldRow text)
    (closes : ∀ region ∈ read, ClosesAtMark oldRow [] region.2)
    (cut : bodyLines body = early ++ rest) (next : markNext oldRow rest = true) :
    ∃ behind, rewriteText oldRow [] text = fenceText (read.map (rewrittenRegion oldRow []))
      (before ++ fenceOpener ++
        (rebuild (rewriteLines oldRow [] early) ++ (fenceMark ++ behind))) := by
  unfold MissedOutside at missed
  rw [whole] at missed
  obtain ⟨behind, kept⟩ := kept_behind rest next others (fenceRemainder text) fun line member =>
    missed line (outside_later read (before, body) others [] _ line member)
  refine ⟨behind, ?_⟩
  have text_eq := (fence_text_reads text).1
  rw [whole] at text_eq
  have rebuilt := rebuild_around read ((before, body) :: others) [] (fenceRemainder text)
    (before ++ fenceOpener ++ (rebuild (rewriteLines oldRow [] early) ++ (fenceMark ++ behind)))
    missed closes ?_
  · rw [List.nil_append, List.nil_append, text_eq] at rebuilt
    exact rebuilt
  · intro lead around
    rw [outsideLines] at around
    have inner : rebuild (rewriteLines oldRow [] (bodyLines body ++
        splitLines (fenceMark ++ fenceText others (fenceRemainder text)))) =
        rebuild (rewriteLines oldRow [] early) ++ (fenceMark ++ behind) := by
      rw [cut, rewrite_lines_append, rewrite_lines_append, rebuild_append, rebuild_append,
        List.append_assoc, kept]
    rw [split_lines_fence, rewrite_lines_append, rebuild_append, inner,
      rewrite_lines_untouched fun line member => around line (List.mem_append_left _ member),
      rebuild_close_last, fence_opener_eq]
    simp only [List.append_assoc]

omit [UnicodeDatabase] in
theorem marked_row {line : Str} (starts : fenceMark <+: line) : fenceMark <+: strip line := by
  obtain ⟨more, rfl⟩ := starts
  change fenceMark <+: (fenceMark ++ more).rdropWhile isSpace
  rw [List.rdropWhile, List.reverse_append, List.dropWhile_append]
  split
  · exact List.prefix_rfl
  · rw [List.reverse_append, List.reverse_reverse]
    exact List.prefix_append fenceMark _

theorem marked_plain {line : Str} (starts : fenceMark <+: line) :
    line ≠ [] ∧ Tokenizer.IsRowLine line := by
  obtain ⟨more, rfl⟩ := starts
  exact ⟨nofun, rfl, rfl⟩

omit [UnicodeDatabase] in
theorem marked_past (text : Str) : findWord fenceCloser (fenceMark ++ text) =
    (findWord fenceCloser text).map fun cut => (fenceMark ++ cut.1, cut.2) := by
  have other : ∀ rest, ¬ fenceCloser <+: '`' :: rest := by
    intro rest starts
    exact absurd (List.cons_prefix_cons.mp starts).1 (by decide)
  change findWord fenceCloser ('`' :: '`' :: '`' :: text) = _
  rw [find_word_cons (other _), find_word_cons (other _), find_word_cons (other _), Option.map_map,
    Option.map_map]
  rfl

omit [UnicodeDatabase] in
/-- Lines that end at another separator end at a character the closer does not hold. -/
theorem unended_apart {lines : List (Str × Str)}
    (ended : ∀ line ∈ lines, Terminated isRowBreak line) (other : ¬ endsAt '\n' lines = true) :
    rebuild lines = [] ∨
      ∃ start last, rebuild lines = start ++ [last] ∧ last ∉ fenceCloser := by
  rcases List.eq_nil_or_concat lines with rfl | ⟨first, line, rfl⟩
  · exact .inl rfl
  · obtain ⟨_, separator, breaks, shut⟩ := ended line (by simp)
    refine .inr ⟨rebuild first ++ line.1, separator, ?_, ?_⟩
    · simp [rebuild, shut]
    · rw [fence_closer_eq, List.mem_cons]
      rintro (rfl | inside)
      · apply other
        simp [endsAt, shut]
      · rw [mark_breaks.1 separator inside] at breaks
        cases breaks

omit [UnicodeDatabase] in
theorem deletion_read (read : '\r' ∉ text) : '\r' ∉ rewriteText oldRow [] text := by
  intro inside
  rw [rewriteText, kept_lines] at inside
  obtain ⟨line, member, here⟩ := List.mem_flatMap.mp inside
  apply read
  rw [← show rebuild (splitLines text) = text from rebuild_pieces text]
  exact List.mem_flatMap.mpr ⟨line, List.mem_of_mem_filter member, here⟩

omit [UnicodeDatabase] in
theorem inner_read {inner body behind : Str} (read : '\r' ∉ inner)
    (found : findWord fenceCloser inner = some (body, behind)) : '\r' ∉ body := by
  intro inside
  apply read
  rw [(find_word_sound found).1]
  simp [inside]

/-- Behind a newline the mark closes the fence. -/
theorem mark_closes {lines : List (Str × Str)} (ended : ∀ line ∈ lines, Terminated isRowBreak line)
    (seamless : ¬ fenceCloser <:+: rebuild lines) (ends : endsAt '\n' lines = true) {behind : Str}
    (read : '\r' ∉ rebuild lines ++ (fenceMark ++ behind)) :
    openBlocks (rebuild lines ++ (fenceMark ++ behind)) =
      ((shownLines lines).foldl Tokenizer.step .start).held ++ iterBlocks behind := by
  have filled : lines ≠ [] := by
    rintro rfl
    cases ends
  have last := (ends_last ended filled).mpr ends
  have found : findWord fenceCloser (rebuild lines ++ (fenceMark ++ behind)) =
      some ((rebuild lines).dropLast, behind) := by
    rw [fence_closer_eq] at seamless ⊢
    rw [← List.append_assoc]
    exact find_word_seam (by decide) seamless last
  have same : rebuild lines = (rebuild lines).dropLast ++ ['\n'] := by
    obtain ⟨start, whole⟩ := List.getLast?_eq_some_iff.mp last
    rw [whole, List.dropLast_concat]
  rw [openBlocks, found]
  dsimp only
  rw [tokenize_fence_lines, content_lines_body (inner_read read found),
    body_lines_back ended same, tokenizeLines, finish_blocks]

/-- Behind another separator the mark starts a line of the fence, where the fence is closed at
all. -/
theorem mark_stands {lines : List (Str × Str)} (ended : ∀ line ∈ lines, Terminated isRowBreak line)
    (seamless : ¬ fenceCloser <:+: rebuild lines) (other : ¬ endsAt '\n' lines = true)
    {behind : Str} (read : '\r' ∉ rebuild lines ++ (fenceMark ++ behind)) :
    openBlocks (rebuild lines ++ (fenceMark ++ behind)) = [] ∨
      ∃ line more later, Tokenizer.IsRowLine line ∧
        openBlocks (rebuild lines ++ (fenceMark ++ behind)) =
          ((line :: more).foldl Tokenizer.step
            ((shownLines lines).foldl Tokenizer.step .start)).held ++ later := by
  unfold openBlocks
  cases found : findWord fenceCloser (rebuild lines ++ (fenceMark ++ behind)) with
  | none => exact .inl rfl
  | some cut =>
      obtain ⟨body, after⟩ := cut
      right
      have readBody := inner_read read found
      rw [find_word_past seamless (unended_apart ended other), marked_past, Option.map_map] at found
      obtain ⟨⟨word, later⟩, -, same⟩ := Option.map_eq_some_iff.mp found
      obtain ⟨rfl, rfl⟩ := Prod.mk.inj same
      obtain ⟨piece, separator, others, cut⟩ := pieces_start mark_breaks.1 word
      obtain ⟨shown, plain⟩ := marked_plain (marked_row (List.prefix_append fenceMark piece))
      refine ⟨strip (fenceMark ++ piece), shownLines others, iterBlocks later, plain, ?_⟩
      have longer : contentLines (rebuild lines ++ (fenceMark ++ word)) =
          shownLines lines ++ strip (fenceMark ++ piece) :: shownLines others := by
        rw [content_lines_body readBody, bodyLines, shown_close_last, splitLines,
          pieces_rebuild_append ended, cut, shown_append]
        simp [shownLines, shown]
      dsimp only
      rw [tokenize_fence_lines, longer, tokenizeLines, finish_blocks, List.foldl_append]

/-- In front of a place that is not sealed stands a deleted row, so its block is still open when the
lines kept have been read. -/
theorem unsealed_open (written : oldRow ≠ []) {early rest : List (Str × Str)}
    (counted : (attrRows (tokenizeLines (shownLines (early ++ rest))).1).count oldRow =
      (shownLines (early ++ rest)).count oldRow)
    (apart : endsAt '\n' (rewriteLines oldRow [] early) ≠ endsAt '\n' early) :
    ((shownLines (rewriteLines oldRow [] early)).foldl Tokenizer.step .start).inStory = false ∧
      ((shownLines (rewriteLines oldRow [] early)).foldl Tokenizer.step .start).cur ≠ none := by
  obtain ⟨first, last, rfl⟩ : ∃ first last, early = first ++ [last] := by
    rcases List.eq_nil_or_concat early with rfl | split
    · rw [kept_lines] at apart
      exact absurd rfl apart
    · simpa using split
  have hit : strip last.1 = oldRow := by
    by_contra other
    apply apart
    have passed : isHit oldRow last = false := beq_false_of_ne other
    rw [kept_lines, List.filter_append, List.filter_cons_of_pos (by simp [passed])]
    simp [endsAt]
  have shown : shownLines (first ++ [last]) = shownLines first ++ [oldRow] := by
    rw [shown_append]
    simp [shownLines, hit, written]
  unfold tokenizeLines at counted
  rw [finish_blocks, shown_append] at counted
  have none : (attrRows Tokenizer.start.held).count oldRow = 0 := rfl
  have counts := Tokenizer.counted_early oldRow .start _ _ (by rw [counted, none, Nat.zero_add])
  have ran : (shownLines (rewriteLines oldRow [] (first ++ [last]))).foldl Tokenizer.step .start =
      ((shownLines (first ++ [last])).foldl Tokenizer.step .start).rewriteRows oldRow
        Option.none := by
    rw [content_rewritten one_line_empty written]
    exact Tokenizer.run_rewrite oldRow Option.none .start deletion_plain _ counts
  rw [shown] at counts
  obtain ⟨told, opened⟩ := Tokenizer.counted_last oldRow .start _ counts
  rw [ran, shown]
  exact ⟨told, by simpa [Tokenizer.rewriteRows] using opened⟩

/-- The blocks of a fence without the deleted row, read in two runs of its lines. -/
theorem deleted_blocks (written : oldRow ≠ []) {body : Str} (read : '\r' ∉ body)
    (counted : (attrRows (tokenizeFence body).1).count oldRow = (contentLines body).count oldRow)
    {front rest : List (Str × Str)} (cut : bodyLines body = front ++ rest) :
    (tokenizeFence body).1.map (Block.rewriteRows oldRow (replacementOf [])) =
      ((shownLines (rewriteLines oldRow [] rest)).foldl Tokenizer.step
        ((shownLines (rewriteLines oldRow [] front)).foldl Tokenizer.step .start)).held := by
  rw [tokenize_fence_lines] at counted ⊢
  have rewritten := tokenize_rewrite oldRow (replacementOf []) deletion_plain _ counted
  rw [content_lines_body read, cut, ← content_rewritten one_line_empty written,
    rewrite_lines_append, shown_append] at rewritten
  have blocks := congrArg Prod.fst rewritten
  dsimp only at blocks
  rw [content_lines_body read, cut, ← blocks, tokenizeLines, finish_blocks, List.foldl_append]

/-- A deletion that is not sealed closes a fence early, and the line with the mark is lost, or keeps
one open, and the mark becomes a row. -/
theorem unsealed_apart (read : '\r' ∉ text) (written : oldRow ≠ [])
    (rows : HitsStandAsRows oldRow text) (unsealed : ¬ SealsAlike oldRow text) :
    ¬ RewritesRows text oldRow [] (rewriteText oldRow [] text) := by
  obtain ⟨early, before, body, others, front, rest, whole, sealed, cut, next, apart, seamless⟩ :=
    first_unsealed unsealed
  obtain ⟨-, back⟩ := fence_text_reads text
  rw [whole] at back
  have own : ReadsBack fenceOpener fenceCloser (before, body) := back _ (by simp)
  have earlyBack : ∀ region ∈ early, ReadsBack fenceOpener fenceCloser region :=
    fun region member => back region (List.mem_append_left _ member)
  have closes : ∀ region ∈ early, ClosesAtMark oldRow [] region.2 :=
    fun region member => deletion_closes (earlyBack region member) (sealed region member)
  have among : ∀ region ∈ early ++ (before, body) :: others, region.2 ∈ (scanFences text).bodies := by
    intro region member
    rw [fence_bodies, whole]
    exact List.mem_map_of_mem member
  have bodyIn := among (before, body) (by simp)
  have content := content_lines_body (body_read read bodyIn)
  rw [cut] at content
  have counted := rows.inside body bodyIn
  -- the blocks the repaired text should have, from the broken fence on
  have meant := deleted_blocks written (body_read read bodyIn) counted cut
  rw [tokenize_fence_lines, content] at counted
  obtain ⟨told, opened⟩ := unsealed_open written counted apart
  obtain ⟨block, opened⟩ := Option.ne_none_iff_exists'.mp opened
  obtain ⟨behind, repairedText⟩ := deleted_text whole rows.outside closes cut next
  generalize kept : rewriteLines oldRow [] front = lines at *
  generalize ran : (shownLines lines).foldl Tokenizer.step .start = state at *
  have earlyBlocks : ((early.map (rewrittenRegion oldRow [])).map fun region =>
      (tokenizeFence region.2).1) = early.map fun region =>
        (tokenizeFence region.2).1.map (Block.rewriteRows oldRow (replacementOf [])) := by
    rw [List.map_map]
    apply List.map_congr_left
    intro region member
    have inside := among region (List.mem_append_left _ member)
    exact repaired_fence written (body_read read inside) (rows.inside _ inside)
      (closes region member) one_line_empty deletion_plain
  intro rewrites
  obtain ⟨more, tail⟩ : ∃ more, iterBlocks (before ++ fenceOpener ++
      (rebuild lines ++ (fenceMark ++ behind))) =
        ((shownLines (rewriteLines oldRow [] rest)).foldl Tokenizer.step state).held ++ more := by
    have expected := iter_blocks_text back (fenceRemainder text)
    rw [← whole, (fence_text_reads text).1, whole] at expected
    unfold RewritesRows at rewrites
    rw [repairedText, iter_blocks_text (rewritten_reads earlyBack closes), earlyBlocks, expected,
      List.map_append, List.map_append, List.flatten_append, List.map_append, List.map_flatten,
      List.map_map, List.map_cons, List.flatten_cons, List.map_append, meant] at rewrites
    simp only [List.append_assoc] at rewrites ⊢
    exact ⟨_, List.append_cancel_left rewrites⟩
  rw [iter_blocks_open own.1] at tail
  have linesEnded : ∀ line ∈ lines, Terminated isRowBreak line := by
    rw [← kept]
    apply rewrite_lines_terminated one_line_empty
    intro line member
    apply body_lines_terminated body
    rw [cut]
    exact List.mem_append_left _ member
  have innerRead : '\r' ∉ rebuild lines ++ (fenceMark ++ behind) := by
    intro inside
    apply (deletion_read read : '\r' ∉ rewriteText oldRow [] text)
    rw [repairedText, fenceText, assemble]
    exact List.mem_append_right _ (List.mem_append_right _ inside)
  by_cases ends : endsAt '\n' lines = true
  · rw [mark_closes linesEnded seamless ends innerRead, ran] at tail
    cases rest with
    | nil =>
        rw [List.append_nil] at cut
        rw [ends, ← cut, (body_lines_end body).2] at apart
        contradiction
    | cons line late =>
        simp only [markNext, Bool.and_eq_true, Bool.not_eq_true'] at next
        obtain ⟨shown, plain⟩ := marked_plain (marked_row (List.isPrefixOf_iff_prefix.mp next.2))
        have first : shownLines (rewriteLines oldRow [] (line :: late)) =
            strip line.1 :: shownLines (rewriteLines oldRow [] late) := by
          rw [kept_lines, kept_lines, List.filter_cons_of_pos (by simp [next.1])]
          simp [shownLines, shown]
        rw [first] at tail
        exact Tokenizer.told_apart state opened told plain _ _ _ tail
  · cases rest with
    | cons line late =>
        simp only [markNext, Bool.and_eq_true] at next
        have fresh : endsAt '\n' front = true := by
          rw [Bool.not_eq_true] at ends
          rw [ends] at apart
          simpa using apart.symm
        exact body_seamless own ((closer_in_lines (body_lines_terminated body)).mpr
          ⟨front, line, late, cut, List.isPrefixOf_iff_prefix.mp next.2, fresh⟩)
    | nil =>
        rw [kept_lines] at tail
        change _ = state.held ++ more at tail
        rcases mark_stands linesEnded seamless ends innerRead with none | ⟨line, others, later,
          plain, stands⟩
        · rw [none, Tokenizer.held, opened] at tail
          simp at tail
        · rw [stands, ran] at tail
          exact Tokenizer.told_apart state opened told plain _ _ _ tail.symm

end Defender.Investigation
