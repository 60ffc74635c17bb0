import Defender.Investigation.RewrittenText

/-!
# The surface of a repaired text

A repaired text has the fences of the old one with rewritten bodies and the same text around
them, as long as every fence still closes at its own mark. A new row puts no newline in front of
another line. A deletion does: what stands behind the deleted line then stands behind the line
before it, which may have ended at another separator.
-/

namespace Defender.Investigation

open Defender.Python Defender.Library.Regex Defender.Library.Delimited
open Defender.Library.DelimitedPattern Defender.Library.Pieces Defender.Library.Reassembly
open Defender.Invlang

/-- Whether a line that is kept and starts with the fence mark comes next; behind the last line
stands the mark itself. -/
def markNext (oldRow : Str) : List (Str × Str) → Bool
  | [] => true
  | line :: _ => !isHit oldRow line && startsWith fenceMark line.1

/-- Where the mark comes next, the last line kept ends at a newline exactly if the last line does. -/
def SealedAt (oldRow : Str) (lines : List (Str × Str)) (index : Nat) : Prop :=
  markNext oldRow (lines.drop index) = true →
    endsAt '\n' ((lines.take index).filter fun line => !isHit oldRow line) =
      endsAt '\n' (lines.take index)

def Sealed (oldRow : Str) (lines : List (Str × Str)) : Prop :=
  ∀ index ≤ lines.length, SealedAt oldRow lines index

/-- Without its lines that read `oldRow`, the text has the fence marks behind a newline that it has
with them. -/
def SealsAlike (oldRow text : Str) : Prop :=
  ∀ body ∈ (scanFences text).bodies, Sealed oldRow (bodyLines body)

instance (oldRow : Str) (lines : List (Str × Str)) (index : Nat) :
    Decidable (SealedAt oldRow lines index) := by
  unfold SealedAt
  infer_instance

instance (oldRow : Str) (lines : List (Str × Str)) : Decidable (Sealed oldRow lines) := by
  unfold Sealed
  infer_instance

instance (oldRow text : Str) : Decidable (SealsAlike oldRow text) := by
  unfold SealsAlike
  infer_instance

section Lines

variable {oldRow newRow : Str} {lines : List (Str × Str)}

theorem mark_breaks : (∀ char ∈ fenceMark, isRowBreak char = false) ∧ fenceMark ≠ [] := by decide

theorem closer_in_lines (ended : ∀ line ∈ lines, Terminated isRowBreak line) :
    fenceCloser <:+: rebuild lines ↔ ∃ early next late, lines = early ++ next :: late ∧
      fenceMark <+: next.1 ∧ endsAt '\n' early = true := by
  rw [fence_closer_eq]
  exact infix_rebuild_iff ended newline_breaks mark_breaks.1 mark_breaks.2

theorem closes_of_lines {body : Str}
    (absent : ¬ fenceCloser <:+: rebuild (rewriteLines oldRow newRow (bodyLines body)))
    (last : (rebuild (rewriteLines oldRow newRow (bodyLines body))).getLast? = some '\n') :
    ClosesAtMark oldRow newRow body := by
  rw [fence_closer_eq] at absent
  have seam := @find_word_seam Char _ '\n' fenceMark _ [] (by decide) absent last
  rwa [List.append_nil, ← fence_closer_eq] at seam

theorem ends_last {last : Char} (ended : ∀ line ∈ lines, Terminated isRowBreak line)
    (filled : lines ≠ []) : (rebuild lines).getLast? = some last ↔ endsAt last lines = true := by
  obtain ⟨start, line, rfl⟩ := (List.eq_nil_or_concat lines).resolve_left filled
  obtain ⟨_, separator, _, shut⟩ := ended line (by simp)
  simp [rebuild, endsAt, shut]

theorem body_lines_end (body : Str) :
    bodyLines body ≠ [] ∧ endsAt '\n' (bodyLines body) = true := by
  have filled : bodyLines body ≠ [] := by
    intro empty
    have whole := rebuild_close_last body
    unfold bodyLines at empty
    rw [empty] at whole
    simp [rebuild] at whole
  refine ⟨filled, (ends_last (body_lines_terminated body) filled).mp ?_⟩
  rw [bodyLines, rebuild_close_last]
  simp

/-- The lines kept in front of a place have no mark behind a newline when they are sealed so far. -/
theorem kept_seamless (ended : ∀ line ∈ lines, Terminated isRowBreak line)
    (absent : ¬ fenceCloser <:+: rebuild lines) {index : Nat}
    (sealed : ∀ earlier < index, SealedAt oldRow lines earlier) :
    ¬ fenceCloser <:+: rebuild ((lines.take index).filter fun line => !isHit oldRow line) := by
  have keptEnded : ∀ line ∈ (lines.take index).filter fun line => !isHit oldRow line,
      Terminated isRowBreak line := fun line member =>
    ended line (List.mem_of_mem_take (List.mem_of_mem_filter member))
  rw [closer_in_lines keptEnded]
  rintro ⟨early, next, late, split, starts, ends⟩
  obtain ⟨first, others, whole, kept, more⟩ := List.filter_eq_append_iff.mp split
  obtain ⟨hits, rest, cut, dropped, passed, -⟩ := List.filter_eq_cons_iff.mp more
  have apart : lines = (first ++ hits) ++ next :: (rest ++ lines.drop index) := by
    nth_rewrite 1 [← List.take_append_drop index lines]
    rw [whole, cut]
    simp
  have short : (first ++ hits).length < index := by
    have size := congrArg List.length whole
    rw [cut] at size
    have bound := List.length_take_le index lines
    simp only [List.length_append, List.length_cons] at size ⊢
    omega
  have here := sealed _ short
  unfold SealedAt at here
  rw [apart, List.drop_left, List.take_left, List.filter_append, kept,
    List.filter_eq_nil_iff.mpr dropped, List.append_nil] at here
  apply absent
  rw [closer_in_lines ended]
  refine ⟨first ++ hits, next, _, apart, starts, ?_⟩
  rw [← here (by simpa [markNext, startsWith] using ⟨by simpa using passed, starts⟩)]
  exact ends

theorem kept_lines (lines : List (Str × Str)) :
    rewriteLines oldRow [] lines = lines.filter fun line => !isHit oldRow line := if_pos rfl

theorem body_seamless {before body : Str}
    (reads : ReadsBack fenceOpener fenceCloser (before, body)) :
    ¬ fenceCloser <:+: rebuild (bodyLines body) := by
  rw [bodyLines, rebuild_close_last]
  apply no_closer_before_newline
  rintro ⟨left, right, split⟩
  have leftmost := (find_word_sound reads.2).2 left (right ++ fenceCloser) (by simp [← split])
  have size := congrArg List.length split
  have wide : fenceCloser.length = 4 := rfl
  simp only [List.length_append] at size leftmost
  omega

theorem deletion_closes {before body : Str}
    (reads : ReadsBack fenceOpener fenceCloser (before, body))
    (sealed : Sealed oldRow (bodyLines body)) : ClosesAtMark oldRow [] body := by
  have ended := body_lines_terminated body
  have absent := kept_seamless ended (body_seamless reads)
    fun earlier (short : earlier < (bodyLines body).length) => sealed earlier short.le
  have last := sealed _ (Nat.le_refl _) (by rw [List.drop_length]; rfl)
  rw [List.take_length] at absent last
  rw [(body_lines_end body).2] at last
  apply closes_of_lines
  · rwa [kept_lines]
  · rw [kept_lines, ends_last fun line member => ended line (List.mem_of_mem_filter member)]
    · exact last
    · intro empty
      rw [empty] at last
      cases last

theorem replacement_closes {before body : Str}
    (reads : ReadsBack fenceOpener fenceCloser (before, body)) (filled : newRow ≠ [])
    (plain : ∀ char ∈ newRow, isLineBreak char = false) (unmarked : ¬ fenceMark <+: newRow) :
    ClosesAtMark oldRow newRow body := by
  have mapped : rewriteLines oldRow newRow (bodyLines body) = (bodyLines body).map fun line =>
      if isHit oldRow line then (newRow, line.2) else line := if_neg filled
  have separators : ∀ lines : List (Str × Str), endsAt '\n' (lines.map fun line =>
      if isHit oldRow line then (newRow, line.2) else line) = endsAt '\n' lines := by
    intro lines
    rw [endsAt, endsAt, List.getLast?_map, Option.any_map]
    congr 1
    funext line
    split
    · rfl
    · rfl
  have ended : ∀ line ∈ rewriteLines oldRow newRow (bodyLines body),
      Terminated isRowBreak line := by
    rw [mapped]
    intro line member
    obtain ⟨original, inside, rfl⟩ := List.mem_map.mp member
    have own := body_lines_terminated body original inside
    split
    · exact ⟨fun char inRow => by rw [isRowBreak, plain char inRow, Bool.false_and], own.2⟩
    · exact own
  obtain ⟨some, ends⟩ := body_lines_end body
  apply closes_of_lines
  · rw [closer_in_lines ended, mapped]
    rintro ⟨early, next, late, split, starts, fresh⟩
    obtain ⟨first, others, whole, rfl, more⟩ := List.map_eq_append_iff.mp split
    obtain ⟨line, rest, rfl, rfl, -⟩ := List.map_eq_cons_iff.mp more
    rw [separators] at fresh
    split at starts
    · exact unmarked starts
    · exact body_seamless reads ((closer_in_lines (body_lines_terminated body)).mpr
        ⟨first, line, rest, whole, starts, fresh⟩)
  · rw [ends_last ended, mapped, separators]
    · exact ends
    · rw [mapped]
      simpa using some

end Lines

section Repaired

variable {text oldRow newRow : Str}

def MissedOutside (oldRow text : Str) : Prop :=
  ∀ line ∈ outsideLines [] (regions fenceOpener fenceCloser text) (fenceRemainder text),
    isHit oldRow line = false

theorem repaired_bodies (missed : MissedOutside oldRow text)
    (closes : ∀ region ∈ regions fenceOpener fenceCloser text,
      ClosesAtMark oldRow newRow region.2) :
    (scanFences (rewriteText oldRow newRow text)).bodies =
      (scanFences text).bodies.map (rewrittenBody oldRow newRow) := by
  obtain ⟨whole, back⟩ := fence_text_reads text
  have rebuilt := rebuild_around (regions fenceOpener fenceCloser text) [] [] _
    (fenceRemainder text) (by rw [List.append_nil]; exact missed) closes ?_
  · rw [List.append_nil, List.nil_append, List.nil_append, whole] at rebuilt
    rw [rewriteText, rebuilt, fence_text_bodies (rewritten_reads back closes), remainder_bodies,
      List.append_nil, fence_bodies, List.map_map, List.map_map]
    rfl
  · intro lead around
    rw [outsideLines] at around
    change rebuild (rewriteLines oldRow newRow (splitLines (lead ++ fenceRemainder text))) = _
    rw [rewrite_lines_untouched around]
    exact rebuild_pieces _

/-- The first fence that is not sealed, and the first place in it: the deleted lines stand right in
front of a mark, and what is kept in front of them has none behind a newline. -/
theorem first_unsealed (unsealed : ¬ SealsAlike oldRow text) :
    ∃ read before body others early rest,
      regions fenceOpener fenceCloser text = read ++ (before, body) :: others ∧
        (∀ region ∈ read, Sealed oldRow (bodyLines region.2)) ∧
        bodyLines body = early ++ rest ∧ markNext oldRow rest = true ∧
        endsAt '\n' (rewriteLines oldRow [] early) ≠ endsAt '\n' early ∧
        ¬ fenceCloser <:+: rebuild (rewriteLines oldRow [] early) := by
  have some : ∃ region, (regions fenceOpener fenceCloser text).find?
      (fun region => !decide (Sealed oldRow (bodyLines region.2))) = some region := by
    rw [← Option.isSome_iff_exists, List.find?_isSome]
    by_contra none
    apply unsealed
    rw [SealsAlike, fence_bodies]
    intro body member
    obtain ⟨region, inside, rfl⟩ := List.mem_map.mp member
    by_contra open'
    exact none ⟨region, inside, by simpa using open'⟩
  obtain ⟨⟨before, body⟩, found⟩ := some
  obtain ⟨own, read, others, whole, good⟩ := List.find?_eq_some_iff_append.mp found
  have broken : ∃ index, ¬ SealedAt oldRow (bodyLines body) index := by
    by_contra all
    push Not at all
    simp [Sealed, all] at own
  obtain ⟨index, place, earlier⟩ : ∃ index, ¬ SealedAt oldRow (bodyLines body) index ∧
      ∀ earlier < index, SealedAt oldRow (bodyLines body) earlier :=
    ⟨Nat.find broken, Nat.find_spec broken,
      fun _ short => not_not.mp (Nat.find_min broken short)⟩
  unfold SealedAt at place
  push Not at place
  have reads := (fence_text_reads text).2 (before, body) (by rw [whole]; simp)
  refine ⟨read, before, body, others, (bodyLines body).take index, (bodyLines body).drop index,
    whole, fun region member => ?_, (List.take_append_drop _ _).symm, place.1, ?_, ?_⟩
  · simpa using good region member
  · rw [kept_lines]
    exact place.2
  · rw [kept_lines]
    exact kept_seamless (body_lines_terminated body) (body_seamless reads) earlier

end Repaired

end Defender.Investigation
