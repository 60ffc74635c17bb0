import Defender.Invlang.FenceExchange
import Defender.Invlang.RewrittenRows
import Defender.Library.Pieces
import Defender.Invlang.Validate.Diagnose

/-!
# The text a repair writes

The lines of a text are those around its fences and those of the fence bodies.
When no line around the fences is a hit, the repair exchanges fence bodies and
nothing else, and a rewritten body reads as the rewritten lines.

`fix_row` rewrites or deletes the flagged rows of one text. It addresses whole
lines, split as the tokenizer splits them, and refuses a text that also stands on
a line no finding flagged.
-/

namespace Defender.Investigation

open Defender.Python Defender.Library.Regex Defender.Library.Pieces Defender.Invlang

/-- The line ends of the repair: those of the tokenizer, less the carriage
return that reading already turned into a newline. -/
def isRowBreak (char : Char) : Bool := isLineBreak char && char != '\r'

/-- The lines of a text, each with the separator after it; the last has none. -/
def splitLines (text : Str) : List (Str × Str) := pieces isRowBreak text

/-- Whether a line is one the repair of `oldRow` rewrites. -/
def isHit (oldRow : Str) (line : Str × Str) : Bool := strip line.1 == oldRow

/-- The rewritten lines; an empty `newRow` drops them. -/
def rewriteLines (oldRow newRow : Str) (lines : List (Str × Str)) : List (Str × Str) :=
  if newRow = [] then lines.filter fun line => !isHit oldRow line
  else lines.map fun line => if isHit oldRow line then (newRow, line.2) else line

def rewriteText (oldRow newRow text : Str) : Str :=
  rebuild (rewriteLines oldRow newRow (splitLines text))

def hitCount (oldRow text : Str) : Nat := (splitLines text).countP (isHit oldRow)

def unchangedNotice : Str :=
  "No changes were made — the file on disk is unchanged and does not contain your text."

section Tool

variable [UnicodeDatabase] [Deployment]

/-- The rows `fix_row` may address: those of refinement findings of any severity. -/
def flaggedRows (text : Str) : List Str :=
  if text = [] then []
  else (diagnose text (some text)).filterMap fun found =>
    found.locus.bind fun locus =>
      if locus.rowText ≠ [] ∧ locus.block = attrUpdatesLocus then some locus.rowText else none

/-- How many cells the block that carries the row declares. -/
def attrBlockColumns (text row : Str) : Option Nat :=
  ((iterBlocks text).find? fun block =>
    block.name == attrUpdatesName && (block.columns.getD []) ≠ [] && block.rows.contains row).map
      fun block => (block.columns.getD []).length

def newRowShapeReason (newRow : Str) (cells : Option Nat) : Option Str :=
  if splitlines newRow ≠ [newRow] then some "it spans more than one line"
  else if contains ['`', '`', '`'] newRow then
    some "it carries a fence delimiter (```), which would close the block early"
  else if headerRe.matches (strip newRow) then some "it is a block header, not a row"
  else
    match cells with
    | none => none
    | some declared =>
        let got := (splitCells newRow).length
        if got = declared then none
        else some (message ["it has ", decimalText got, " cells but the block declares ",
          decimalText declared])

def notFlaggedRefusal (flagged : List Str) : Str :=
  message [unchangedNotice, " `old_row` must be one of the rows currently flagged in ",
    "investigation.md, quoted exactly as the warning printed it.",
    "\n\nCurrently flagged:\n", join ['\n'] (flagged.map fun row => message ["  ", row])]

def unflaggedLineRefusal (lines occurrences : Nat) : Str :=
  message [unchangedNotice, " That row's text also stands as a whole line the repair ",
    "window did not flag (", decimalText lines, " line(s) match, ", decimalText occurrences,
    " flagged), and ", "`fix_row` will not rewrite a line it never flagged."]

def shapeRefusal (reason : Str) : Str :=
  message [unchangedNotice, " `new_row` must be a single row of the same ",
    ":R attr_updates block: ", reason, ". Send one row with the same columns, or ",
    "an empty `new_row` to delete the line instead."]

/-- The text a repair proposes, or the refusal; the proposed text then faces the
validator like every other write. -/
def fixRow (text oldRow newRow : Str) : Except Str Str :=
  let flagged := flaggedRows text
  let lines := hitCount oldRow text
  if flagged = [] then
    .error (message [unchangedNotice,
      " Nothing is currently flagged in investigation.md, so there ", "is no row to repair."])
  else if oldRow ∉ flagged then .error (notFlaggedRefusal flagged)
  else if lines = 0 then
    .error (message [unchangedNotice, " `old_row` matches no line in investigation.md."])
  else if lines ≠ flagged.count oldRow then
    .error (unflaggedLineRefusal lines (flagged.count oldRow))
  else if newRow = [] then .ok (rewriteText oldRow newRow text)
  else
    match newRowShapeReason newRow (attrBlockColumns text oldRow) with
    | some reason => .error (shapeRefusal reason)
    | none => .ok (rewriteText oldRow newRow text)

/-- Whether the validator reports no error. -/
def accepted (proposedText : Str) (currentText : Option Str) : Bool :=
  (diagnose proposedText currentText).all fun found => !found.isError

end Tool

end Defender.Investigation

namespace Defender.Investigation

open Defender.Python Defender.Library.Delimited Defender.Library.Pieces
open Defender.Library.Reassembly Defender.Invlang

theorem newline_breaks : isRowBreak '\n' = true := by decide

/-- The lines of a fence body, the last one ended by the newline before the mark. -/
def bodyLines (body : Str) : List (Str × Str) := closeLast ['\n'] (splitLines body)

/-- The lines around the fences of a text that starts with `lead`. -/
def outsideLines : Str → List (Str × Str) → Str → List (Str × Str)
  | lead, [], left => splitLines (lead ++ left)
  | lead, (before, _) :: read, left =>
      closeLast ['\n'] (splitLines (lead ++ before ++ fenceOpenLine)) ++
        outsideLines fenceMark read left

theorem split_lines_fence (lead before body : Str) (read : List (Str × Str)) (left : Str) :
    splitLines (lead ++ fenceText ((before, body) :: read) left) =
      closeLast ['\n'] (splitLines (lead ++ before ++ fenceOpenLine)) ++
        (bodyLines body ++ splitLines (fenceMark ++ fenceText read left)) := by
  have exchanged := fence_text_exchange [] read before body left
  rw [List.nil_append, List.flatMap_nil, List.nil_append] at exchanged
  unfold splitLines bodyLines
  rw [exchanged, ← List.append_assoc, ← List.append_assoc, pieces_append newline_breaks,
    pieces_append newline_breaks]
  rfl

theorem count_lines (hit : Str × Str → Bool) (read : List (Str × Str)) (lead left : Str) :
    (splitLines (lead ++ fenceText read left)).countP hit =
      (outsideLines lead read left).countP hit +
        (read.map fun region => (bodyLines region.2).countP hit).sum := by
  induction read generalizing lead with
  | nil => simp [outsideLines, fenceText, assemble]
  | cons region others ih =>
      rcases region with ⟨before, body⟩
      rw [split_lines_fence, outsideLines, List.countP_append, List.countP_append,
        List.countP_append, ih, List.map_cons, List.sum_cons]
      dsimp only
      omega

section Rewriting

variable {oldRow newRow : Str}

theorem rewrite_lines_append (early late : List (Str × Str)) :
    rewriteLines oldRow newRow (early ++ late) =
      rewriteLines oldRow newRow early ++ rewriteLines oldRow newRow late := by
  unfold rewriteLines
  split
  · exact List.filter_append _ _
  · exact List.map_append

theorem rewrite_lines_untouched {lines : List (Str × Str)}
    (missed : ∀ line ∈ lines, isHit oldRow line = false) :
    rewriteLines oldRow newRow lines = lines := by
  unfold rewriteLines
  split
  · apply List.filter_eq_self.mpr
    intro line member
    rw [missed line member]
    rfl
  · nth_rewrite 2 [← List.map_id lines]
    apply List.map_congr_left
    intro line member
    rw [missed line member]
    rfl

theorem rebuild_close_last (text : Str) :
    rebuild (closeLast ['\n'] (splitLines text)) = text ++ ['\n'] := by
  have cut := pieces_append newline_breaks text []
  have whole : rebuild (pieces isRowBreak (text ++ ['\n'])) = text ++ ['\n'] := rebuild_pieces _
  rw [cut, rebuild_append, rebuild_pieces, List.append_nil] at whole
  exact whole

/-- The lines a body keeps, as they stand in front of the closing mark. -/
def rewrittenLines (oldRow newRow body : Str) : Str :=
  rebuild (rewriteLines oldRow newRow (bodyLines body))

def rewrittenBody (oldRow newRow body : Str) : Str := (rewrittenLines oldRow newRow body).dropLast

def rewrittenRegion (oldRow newRow : Str) (region : Str × Str) : Str × Str :=
  (region.1, rewrittenBody oldRow newRow region.2)

def ClosesAtMark (oldRow newRow body : Str) : Prop :=
  findWord fenceCloser (rewrittenLines oldRow newRow body ++ fenceMark) =
    some (rewrittenBody oldRow newRow body, [])

theorem rewritten_lines_eq {body : Str} (closes : ClosesAtMark oldRow newRow body) :
    rewrittenLines oldRow newRow body = rewrittenBody oldRow newRow body ++ ['\n'] := by
  have split := (find_word_sound closes).1
  rw [fence_closer_eq] at split
  have same : rewrittenLines oldRow newRow body ++ fenceMark =
      (rewrittenBody oldRow newRow body ++ ['\n']) ++ fenceMark := by
    simpa using split
  exact List.append_cancel_right same

theorem rewritten_body_reads {body : Str} (closes : ClosesAtMark oldRow newRow body) :
    findWord fenceCloser (rewrittenBody oldRow newRow body ++ fenceCloser) =
      some (rewrittenBody oldRow newRow body, []) := by
  have found := closes
  unfold ClosesAtMark at found
  rw [rewritten_lines_eq closes, List.append_assoc] at found
  rw [fence_closer_eq]
  exact found

/-- With no hit around the fences, only bodies change as far as every fence closes at its mark. -/
theorem rebuild_around (read others : List (Str × Str)) (lead left rest : Str)
    (missed : ∀ line ∈ outsideLines lead (read ++ others) left, isHit oldRow line = false)
    (closes : ∀ region ∈ read, ClosesAtMark oldRow newRow region.2)
    (behind : ∀ lead, (∀ line ∈ outsideLines lead others left, isHit oldRow line = false) →
      rebuild (rewriteLines oldRow newRow (splitLines (lead ++ fenceText others left))) =
        lead ++ rest) :
    rebuild (rewriteLines oldRow newRow (splitLines (lead ++ fenceText (read ++ others) left))) =
      lead ++ fenceText (read.map (rewrittenRegion oldRow newRow)) rest := by
  induction read generalizing lead with
  | nil => exact behind lead missed
  | cons region more ih =>
      rcases region with ⟨before, body⟩
      rw [List.cons_append, outsideLines] at missed
      have outside : ∀ line ∈ closeLast ['\n'] (splitLines (lead ++ before ++ fenceOpenLine)),
          isHit oldRow line = false := fun line member =>
        missed line (List.mem_append_left _ member)
      have further := ih fenceMark (fun line member => missed line (List.mem_append_right _ member))
        fun region member => closes region (List.mem_cons_of_mem _ member)
      have own : rebuild (rewriteLines oldRow newRow (bodyLines body)) =
          rewrittenBody oldRow newRow body ++ ['\n'] :=
        rewritten_lines_eq (closes (before, body) (by simp))
      have exchanged := fence_text_exchange [] (more.map (rewrittenRegion oldRow newRow)) before
        (rewrittenBody oldRow newRow body) rest
      rw [List.nil_append, List.flatMap_nil, List.nil_append] at exchanged
      rw [List.cons_append, split_lines_fence, rewrite_lines_append, rewrite_lines_append,
        rebuild_append, rebuild_append, rewrite_lines_untouched outside, rebuild_close_last, own,
        further, List.map_cons, rewrittenRegion, exchanged]
      simp

theorem rewritten_reads {read : List (Str × Str)}
    (back : ∀ region ∈ read, ReadsBack fenceOpener fenceCloser region)
    (closes : ∀ region ∈ read, ClosesAtMark oldRow newRow region.2) :
    ∀ region ∈ read.map (rewrittenRegion oldRow newRow),
      ReadsBack fenceOpener fenceCloser region := by
  intro region member
  obtain ⟨original, own, rfl⟩ := List.mem_map.mp member
  exact ⟨(back original own).1, rewritten_body_reads (closes original own)⟩

end Rewriting

section Content

/-- The lines a body's loop looks at, read off the lines of the repair. -/
def shownLines (lines : List (Str × Str)) : List Str :=
  (lines.map fun line => strip line.1).filter (· ≠ [])

theorem shown_append (early late : List (Str × Str)) :
    shownLines (early ++ late) = shownLines early ++ shownLines late := by
  rw [shownLines, List.map_append, List.filter_append]
  rfl

theorem content_lines_from (text : Str) (line : Str) (read : '\r' ∉ text)
    (plain : ∀ char ∈ line, isRowBreak char = false) :
    ((splitlinesFrom line false text).map strip).filter (· ≠ []) =
      shownLines (splitLines (line ++ text)) := by
  unfold splitLines shownLines
  induction text generalizing line with
  | nil =>
      rw [List.append_nil, pieces_plain plain, splitlinesFrom]
      split
      · rename_i empty
        rw [empty]
        rfl
      · rfl
  | cons char rest ih =>
      rw [List.mem_cons, not_or] at read
      rw [splitlinesFrom, Bool.false_and, if_neg Bool.false_ne_true]
      by_cases breaks : isLineBreak char = true
      · have ends : isRowBreak char = true := by
          rw [isRowBreak, breaks, Bool.true_and, bne_iff_ne]
          exact Ne.symm read.1
        have returned : (char == '\r') = false := beq_false_of_ne (Ne.symm read.1)
        rw [if_pos breaks, returned, pieces_append ends, pieces_plain plain]
        have later := ih [] read.2 (by simp)
        rw [List.nil_append] at later
        simp only [closeLast, List.singleton_append, List.map_cons, List.filter_cons, later]
      · have inside : isRowBreak char = false := by simp [isRowBreak, breaks]
        have grown : ∀ item ∈ line ++ [char], isRowBreak item = false := by
          intro item member
          rcases List.mem_append.mp member with early | last
          · exact plain item early
          · rw [List.mem_singleton.mp last]
            exact inside
        rw [if_neg breaks, ih (line ++ [char]) read.2 grown, List.append_assoc]
        rfl

theorem close_last_pieces {α : Type*} (separator : List α) (list : List (List α × List α)) :
    (closeLast separator list).map Prod.fst = list.map Prod.fst := by
  induction list with
  | nil => rfl
  | cons piece others ih =>
      cases others with
      | nil => rfl
      | cons next rest =>
          rw [closeLast, List.map_cons, ih]
          rfl

theorem shown_close_last (separator : Str) (lines : List (Str × Str)) :
    shownLines (closeLast separator lines) = shownLines lines := by
  have stripped := congrArg (List.map strip) (close_last_pieces separator lines)
  rw [List.map_map, List.map_map] at stripped
  exact congrArg (List.filter (· ≠ [])) stripped

theorem content_lines_body {body : Str} (read : '\r' ∉ body) :
    contentLines body = shownLines (bodyLines body) := by
  rw [bodyLines, shown_close_last]
  exact content_lines_from body [] read (by simp)

theorem count_content {oldRow body : Str} (read : '\r' ∉ body) (written : oldRow ≠ []) :
    (contentLines body).count oldRow = (bodyLines body).countP (isHit oldRow) := by
  rw [content_lines_body read, shownLines, List.count, List.countP_filter, List.countP_map]
  apply List.countP_congr
  intro line _
  simp only [Function.comp_apply, isHit, Bool.and_eq_true, beq_iff_eq, decide_eq_true_iff]
  constructor
  · intro both
    exact both.1
  · intro same
    exact ⟨same, same ▸ written⟩

theorem body_lines_terminated (body : Str) :
    ∀ line ∈ bodyLines body, Terminated isRowBreak line :=
  pieces_close_terminated newline_breaks body

/-- What a hit is replaced by, as the tokenizer sees it. -/
def replacementOf (newRow : Str) : Option Str :=
  if newRow = [] then none else some (strip newRow)

/-- A new row that stays on one line and is not blank. -/
structure OneLine (newRow : Str) : Prop where
  plain : ∀ char ∈ newRow, isLineBreak char = false
  shown : newRow ≠ [] → strip newRow ≠ []

theorem one_line_empty : OneLine [] := ⟨by simp, fun filled => absurd rfl filled⟩

variable {oldRow newRow : Str}

theorem rewrite_lines_terminated (oneLine : OneLine newRow) {lines : List (Str × Str)}
    (ended : ∀ line ∈ lines, Terminated isRowBreak line) :
    ∀ line ∈ rewriteLines oldRow newRow lines, Terminated isRowBreak line := by
  intro line member
  unfold rewriteLines at member
  split at member
  · exact ended line (List.mem_of_mem_filter member)
  · obtain ⟨original, inside, rfl⟩ := List.mem_map.mp member
    split
    · refine ⟨?_, (ended original inside).2⟩
      intro char inRow
      rw [isRowBreak, oneLine.plain char inRow, Bool.false_and]
    · exact ended original inside

/-- Lines ended by a newline are those of the body they make. -/
theorem body_lines_back {lines : List (Str × Str)}
    (ended : ∀ line ∈ lines, Terminated isRowBreak line) {body : Str}
    (whole : rebuild lines = body ++ ['\n']) : bodyLines body = lines := by
  have found := pieces_rebuild ended
  rw [whole, pieces_append newline_breaks] at found
  exact List.append_cancel_right found

theorem body_lines_rewritten (oneLine : OneLine newRow) {body : Str}
    (closes : ClosesAtMark oldRow newRow body) :
    bodyLines (rewrittenBody oldRow newRow body) = rewriteLines oldRow newRow (bodyLines body) :=
  body_lines_back (rewrite_lines_terminated oneLine (body_lines_terminated body))
    (rewritten_lines_eq closes)

theorem rewritten_body_read (oneLine : OneLine newRow) {body : Str} (read : '\r' ∉ body)
    (closes : ClosesAtMark oldRow newRow body) : '\r' ∉ rewrittenBody oldRow newRow body := by
  intro member
  have kept : '\r' ∈ rewrittenLines oldRow newRow body := by
    rw [rewritten_lines_eq closes]
    exact List.mem_append_left _ member
  have absent : ∀ line ∈ bodyLines body, '\r' ∉ line.1 ++ line.2 := by
    intro line inLines inLine
    have present : '\r' ∈ rebuild (bodyLines body) := List.mem_flatMap.mpr ⟨line, inLines, inLine⟩
    unfold bodyLines at present
    rw [rebuild_close_last] at present
    rcases List.mem_append.mp present with early | last
    · exact read early
    · exact absurd last (by decide)
  have fresh : '\r' ∉ newRow := by
    intro inRow
    exact absurd (oneLine.plain '\r' inRow) (by decide)
  obtain ⟨line, inLines, inLine⟩ := List.mem_flatMap.mp kept
  unfold rewriteLines at inLines
  split at inLines
  · exact absent line (List.mem_of_mem_filter inLines) inLine
  · obtain ⟨original, inside, rfl⟩ := List.mem_map.mp inLines
    split at inLine
    · rcases List.mem_append.mp inLine with first | last
      · exact fresh first
      · exact absent original inside (List.mem_append_right _ last)
    · exact absent original inside inLine

/-- The content lines of lines whose hits are rewritten. -/
theorem content_rewritten (oneLine : OneLine newRow) (written : oldRow ≠ [])
    (lines : List (Str × Str)) :
    shownLines (rewriteLines oldRow newRow lines) =
      (shownLines lines).filterMap (rewriteRow oldRow (replacementOf newRow)) := by
  unfold shownLines
  induction lines with
  | nil =>
      unfold rewriteLines
      split
      · rfl
      · rfl
  | cons line rest ih =>
      have apart : rewriteLines oldRow newRow (line :: rest) =
          rewriteLines oldRow newRow [line] ++ rewriteLines oldRow newRow rest :=
        rewrite_lines_append [line] rest
      rw [apart, List.map_append, List.filter_append, ih, List.map_cons, List.filter_cons]
      by_cases hit : strip line.1 = oldRow
      · have caught : isHit oldRow line = true := beq_iff_eq.mpr hit
        rw [hit, if_pos (by simpa using written), List.filterMap_cons]
        by_cases dropped : newRow = []
        · simp [rewriteLines, caught, dropped, rewriteRow, replacementOf]
        · simp [rewriteLines, caught, dropped, rewriteRow, replacementOf, oneLine.shown dropped]
      · have passed : isHit oldRow line = false := beq_false_of_ne hit
        rw [rewrite_lines_untouched (by simpa using passed)]
        by_cases blank : strip line.1 = []
        · simp [blank]
        · simp [blank, rewriteRow, hit]

theorem content_lines_rewritten (oneLine : OneLine newRow) (written : oldRow ≠ []) {body : Str}
    (read : '\r' ∉ body) (closes : ClosesAtMark oldRow newRow body) :
    contentLines (rewrittenBody oldRow newRow body) =
      (contentLines body).filterMap (rewriteRow oldRow (replacementOf newRow)) := by
  rw [content_lines_body (rewritten_body_read oneLine read closes),
    body_lines_rewritten oneLine closes, content_rewritten oneLine written, content_lines_body read]

end Content

end Defender.Investigation
