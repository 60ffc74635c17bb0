import Mathlib.Data.List.Chain
import Defender.Invlang.Tokenize

/-!
# The tokenizer partitions the lines

A fence body reads as a list of segments: a story heading with its prose, a
block header with its rows, a run of orphan lines. The segments in order are the
lines in order, the blocks are the block segments and every orphan run is one
warning.
-/

namespace Defender.Invlang

open Defender.Python Defender.Library.Regex

inductive Segment where
  | story (heading : Str) (prose : List Str)
  | block (header : Str) (opened : Block)
  | orphans (head : Str) (rest : List Str)

namespace Segment

def lines : Segment → List Str
  | .story heading prose => heading :: prose
  | .block header opened => header :: opened.rows
  | .orphans head rest => head :: rest

def block? : Segment → Option Block
  | .block _ opened => some opened
  | _ => none

def run? : Segment → Option (Str × List Str)
  | .orphans head rest => some (head, rest)
  | _ => none

end Segment

/-- The state the loop is in after the segments `closed` and `current`. -/
def tokenizerAt (closed : List Segment) (current : Segment) : Tokenizer where
  blocks := closed.filterMap Segment.block?
  cur := current.block?
  inStory := match current with
    | .story _ _ => true
    | _ => false
  orphans := match current with
    | .orphans head rest => head :: rest
    | _ => []
  warnings := (closed.filterMap Segment.run?).map fun run => orphanWarning run.1 run.2

theorem tokenizer_at_flush_close (closed : List Segment) (current : Segment) :
    (tokenizerAt closed current).flushOrphans.closeBlock =
      { blocks := (closed ++ [current]).filterMap Segment.block?
        cur := none
        inStory := (tokenizerAt closed current).inStory
        orphans := []
        warnings := ((closed ++ [current]).filterMap Segment.run?).map
          fun run => orphanWarning run.1 run.2 } := by
  cases current <;>
    simp [tokenizerAt, Tokenizer.flushOrphans, Tokenizer.closeBlock, Segment.block?,
      Segment.run?]

theorem forall_append_singleton {property : Str → Prop} {earlier : List Str} {line : Str}
    (held : ∀ member ∈ earlier, property member) (last : property line) :
    ∀ member ∈ earlier ++ [line], property member := by
  intro member inside
  rcases List.mem_append.mp inside with before | here
  · exact held member before
  · rw [List.mem_singleton.mp here]
    exact last

section Lines

variable [UnicodeDatabase]

def IsStoryHeading (line : Str) : Prop := storyHeaderRe.matches line = true

def IsHeader (line : Str) : Prop := (headerRe.matchPrefix line).isSome = true

def IsHeaderAttempt (line : Str) : Prop := headerAttemptRe.matches line = true

def IsPlain (line : Str) : Prop :=
  ¬ IsStoryHeading line ∧ ¬ IsHeader line ∧ ¬ IsHeaderAttempt line

namespace Segment

def Valid : Segment → Prop
  | .story heading prose => IsStoryHeading heading ∧ ∀ line ∈ prose, IsPlain line
  | .block header opened =>
      ¬ IsStoryHeading header ∧
        (∃ found, headerRe.matchPrefix header = some found ∧
          opened = { headerBlock found with rows := opened.rows }) ∧
        ∀ row ∈ opened.rows, ¬ IsStoryHeading row ∧ ¬ IsHeader row
  | .orphans head rest =>
      ¬ IsStoryHeading head ∧ ¬ IsHeader head ∧ ∀ line ∈ rest, IsPlain line

/-- An orphan run never follows a block, and it starts behind another segment
only where a rejected header starts it. -/
def MayFollow (previous : Segment) : Segment → Prop
  | .orphans head _ => previous.block? = none ∧ IsHeaderAttempt head
  | _ => True

end Segment

/-- The segments a list of lines reads as. -/
structure Reads (segments : List Segment) (content : List Str) : Prop where
  covers : segments.flatMap Segment.lines = content
  valid : ∀ segment ∈ segments, segment.Valid
  chained : segments.IsChain Segment.MayFollow

theorem Reads.opened {closed : List Segment} {current next : Segment} {content : List Str}
    {line : Str} (reads : Reads (closed ++ [current]) content) (single : next.lines = [line])
    (valid : next.Valid) (follows : current.MayFollow next) :
    Reads (closed ++ [current] ++ [next]) (content ++ [line]) where
  covers := by
    rw [List.flatMap_append, reads.covers]
    simp [single]
  valid := by
    intro segment member
    rcases List.mem_append.mp member with earlier | last
    · exact reads.valid segment earlier
    · rw [List.mem_singleton.mp last]
      exact valid
  chained := by
    rw [List.isChain_append]
    refine ⟨reads.chained, by simp, ?_⟩
    simpa using follows

theorem Reads.extended {closed : List Segment} {current grown : Segment} {content : List Str}
    {line : Str} (reads : Reads (closed ++ [current]) content)
    (longer : grown.lines = current.lines ++ [line]) (valid : grown.Valid)
    (follows : ∀ previous : Segment, previous.MayFollow current → previous.MayFollow grown) :
    Reads (closed ++ [grown]) (content ++ [line]) where
  covers := by
    rw [← reads.covers]
    simp [longer]
  valid := by
    intro segment member
    rcases List.mem_append.mp member with earlier | last
    · exact reads.valid segment (List.mem_append_left _ earlier)
    · rw [List.mem_singleton.mp last]
      exact valid
  chained := by
    have chained := reads.chained
    rw [List.isChain_append] at chained ⊢
    refine ⟨chained.1, by simp, ?_⟩
    intro previous last next first
    have next : grown = next := by simpa using first
    rw [← next]
    exact follows previous (chained.2.2 previous last current (by simp))

theorem plain_of {line : Str} (heading : ¬ storyHeaderRe.matches line = true)
    (header : headerRe.matchPrefix line = none)
    (attempt : ¬ headerAttemptRe.matches line = true) : IsPlain line :=
  ⟨heading, by simp [IsHeader, header], attempt⟩

/-- One line extends the last segment or opens the next one. -/
theorem tokenizer_step_reads {closed : List Segment} {current : Segment} {content : List Str}
    (reads : Reads (closed ++ [current]) content) (line : Str) :
    ∃ earlier last, Reads (earlier ++ [last]) (content ++ [line]) ∧
      (tokenizerAt closed current).step line = tokenizerAt earlier last := by
  have valid : current.Valid := reads.valid current (by simp)
  by_cases heading : storyHeaderRe.matches line = true
  · refine ⟨closed ++ [current], .story line [], ?_, ?_⟩
    · exact reads.opened rfl ⟨heading, by simp⟩ trivial
    · rw [Tokenizer.step, if_pos heading, tokenizer_at_flush_close]
      rfl
  · cases header : headerRe.matchPrefix line with
    | some found =>
        refine ⟨closed ++ [current], .block line (headerBlock found), ?_, ?_⟩
        · exact reads.opened rfl ⟨heading, ⟨found, header, rfl⟩, by simp [headerBlock]⟩ trivial
        · rw [Tokenizer.step, if_neg heading, header, tokenizer_at_flush_close]
          rfl
    | none =>
        have orphaned : IsHeaderAttempt line → (Segment.orphans line []).Valid := fun _ =>
          ⟨heading, by simp [IsHeader, header], by simp⟩
        cases current with
        | story name prose =>
            by_cases attempt : headerAttemptRe.matches line = true
            · refine ⟨closed ++ [.story name prose], .orphans line [], ?_, ?_⟩
              · exact reads.opened rfl (orphaned attempt) ⟨rfl, attempt⟩
              · simp [Tokenizer.step, heading, header, attempt, tokenizerAt,
                  Tokenizer.flushOrphans, Segment.block?, Segment.run?]
            · refine ⟨closed, .story name (prose ++ [line]), ?_, ?_⟩
              · exact reads.extended rfl ⟨valid.1, forall_append_singleton valid.2
                  (plain_of heading header attempt)⟩ (fun _ follows => follows)
              · simp [Tokenizer.step, heading, header, attempt, tokenizerAt, Segment.block?]
        | block name opened =>
            refine ⟨closed, .block name (opened.addRow line), ?_, ?_⟩
            · rcases valid with ⟨notStory, ⟨found, matched, same⟩, rows⟩
              refine reads.extended rfl ⟨notStory, ⟨found, matched, ?_⟩,
                forall_append_singleton rows ⟨heading, by simp [IsHeader, header]⟩⟩
                (fun _ follows => follows)
              rw [same]
              rfl
            · simp [Tokenizer.step, heading, header, tokenizerAt, Segment.block?]
        | orphans head rest =>
            by_cases attempt : headerAttemptRe.matches line = true
            · refine ⟨closed ++ [.orphans head rest], .orphans line [], ?_, ?_⟩
              · exact reads.opened rfl (orphaned attempt) ⟨rfl, attempt⟩
              · simp [Tokenizer.step, heading, header, attempt, tokenizerAt,
                  Tokenizer.flushOrphans, Segment.block?, Segment.run?]
            · refine ⟨closed, .orphans head (rest ++ [line]), ?_, ?_⟩
              · exact reads.extended rfl ⟨valid.1, valid.2.1, forall_append_singleton valid.2.2
                  (plain_of heading header attempt)⟩ (fun _ follows => follows)
              · simp [Tokenizer.step, heading, header, attempt, tokenizerAt, Segment.block?]

theorem tokenizer_run_reads {closed : List Segment} {current : Segment} {content : List Str}
    (reads : Reads (closed ++ [current]) content) (more : List Str) :
    ∃ earlier last, Reads (earlier ++ [last]) (content ++ more) ∧
      more.foldl Tokenizer.step (tokenizerAt closed current) = tokenizerAt earlier last := by
  induction more generalizing closed current content with
  | nil => exact ⟨closed, current, by simpa using reads, rfl⟩
  | cons line others ih =>
      rcases tokenizer_step_reads reads line with ⟨earlier, last, next, stepped⟩
      rcases ih next with ⟨earlier, last, final, ran⟩
      refine ⟨earlier, last, by simpa using final, ?_⟩
      rw [List.foldl_cons, stepped, ran]

theorem reads_single {segment : Segment} {line : Str} (single : segment.lines = [line])
    (valid : segment.Valid) : Reads ([] ++ [segment]) [line] where
  covers := by simp [single]
  valid := by simpa using valid
  chained := by simp

theorem tokenizer_start_reads (line : Str) :
    ∃ segment, Reads ([] ++ [segment]) [line] ∧
      Tokenizer.start.step line = tokenizerAt [] segment := by
  by_cases heading : storyHeaderRe.matches line = true
  · refine ⟨.story line [], reads_single rfl ⟨heading, by simp⟩, ?_⟩
    rw [Tokenizer.step, if_pos heading]
    rfl
  · cases header : headerRe.matchPrefix line with
    | some found =>
        refine ⟨.block line (headerBlock found), reads_single rfl
          ⟨heading, ⟨found, header, rfl⟩, by simp [headerBlock]⟩, ?_⟩
        rw [Tokenizer.step, if_neg heading, header]
        rfl
    | none =>
        refine ⟨.orphans line [], reads_single rfl
          ⟨heading, by simp [IsHeader, header], by simp⟩, ?_⟩
        by_cases attempt : headerAttemptRe.matches line = true <;>
          simp [Tokenizer.step, Tokenizer.start, heading, header, attempt, tokenizerAt,
            Tokenizer.flushOrphans, Segment.block?]

/-- Every content line is in exactly one segment, in order; the blocks are the
block segments and the warnings are the orphan runs, one each. -/
theorem tokenize_fence_partitions (body : Str) :
    ∃ segments : List Segment,
      segments.flatMap Segment.lines = contentLines body ∧
        (∀ segment ∈ segments, segment.Valid) ∧
        segments.IsChain Segment.MayFollow ∧
        (tokenizeFence body).1 = segments.filterMap Segment.block? ∧
        (tokenizeFence body).2 = (segments.filterMap Segment.run?).map
          fun run => orphanWarning run.1 run.2 := by
  rw [tokenizeFence]
  cases contentLines body with
  | nil => exact ⟨[], rfl, by simp, List.isChain_nil, rfl, rfl⟩
  | cons line others =>
      rcases tokenizer_start_reads line with ⟨segment, first, stepped⟩
      rcases tokenizer_run_reads first others with ⟨earlier, last, reads, ran⟩
      refine ⟨earlier ++ [last], by simpa using reads.covers, reads.valid, reads.chained, ?_⟩
      rw [List.foldl_cons, stepped, ran, Tokenizer.finish, tokenizer_at_flush_close]
      exact ⟨rfl, rfl⟩

end Lines

end Defender.Invlang
