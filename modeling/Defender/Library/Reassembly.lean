import Defender.Library.DelimitedPattern

/-!
# Regions put together again

A text is its regions and what follows the last one. Bodies may be exchanged for
others that close at their own closer: the exchanged text reads as the exchanged
regions.
-/

namespace Defender.Library.Reassembly

open Defender.Library.Delimited Defender.Library.DelimitedPattern Defender.Library.Regex

variable {α : Type*} {opener closer text : List α}

def regionText (opener closer : List α) (region : List α × List α) : List α :=
  region.1 ++ opener ++ region.2 ++ closer

def assemble (opener closer : List α) (read : List (List α × List α)) (left : List α) : List α :=
  read.flatMap (regionText opener closer) ++ left

theorem assemble_cons (region : List α × List α) (read : List (List α × List α))
    (left : List α) :
    assemble opener closer (region :: read) left =
      region.1 ++ opener ++ (region.2 ++ closer ++ assemble opener closer read left) := by
  simp [assemble, regionText]

theorem assemble_append (early late : List (List α × List α)) (left : List α) :
    assemble opener closer (early ++ late) left =
      assemble opener closer early (assemble opener closer late left) := by
  simp [assemble]

variable [DecidableEq α]

/-- The skipped part ends at its opener and the body at its closer. -/
def ReadsBack (opener closer : List α) (region : List α × List α) : Prop :=
  findWord opener (region.1 ++ opener) = some (region.1, []) ∧
    findWord closer (region.2 ++ closer) = some (region.2, [])

theorem find_word_cut {word before after : List α}
    (found : findWord word text = some (before, after)) :
    findWord word (before ++ word) = some (before, []) := by
  obtain ⟨split, leftmost⟩ := find_word_sound found
  apply find_word_eq
  · simp
  · intro left right other
    apply leftmost left (right ++ after)
    rw [split, other]
    simp

theorem find_word_grown {word before : List α} (more : List α)
    (found : findWord word (before ++ word) = some (before, [])) :
    findWord word (before ++ word ++ more) = some (before, more) := by
  simpa using find_word_append more found

/-- A text is its regions and its remainder, and every region reads back. -/
theorem assemble_regions (visible : opener ≠ []) (text : List α) :
    assemble opener closer (regions opener closer text) (remainder opener closer text) = text ∧
      ∀ region ∈ regions opener closer text, ReadsBack opener closer region := by
  induction size : text.length using Nat.strong_induction_on generalizing text with
  | _ size ih =>
      cases opened : findWord opener text with
      | none =>
          obtain ⟨noRegion, whole⟩ := regions_unopened closer opened
          simp [noRegion, whole, assemble]
      | some cut =>
          obtain ⟨before, inner⟩ := cut
          cases closed : findWord closer inner with
          | none =>
              obtain ⟨noRegion, whole⟩ := regions_unclosed opened closed
              simp [noRegion, whole, assemble]
          | some innerCut =>
              obtain ⟨body, rest⟩ := innerCut
              have shorter := region_shrinks visible opened closed
              obtain ⟨whole, back⟩ := ih rest.length (by omega) rest rfl
              rw [regions_step visible opened closed, remainder_step visible opened closed]
              refine ⟨?_, ?_⟩
              · rw [assemble_cons, whole, ← (find_word_sound closed).1,
                  ← (find_word_sound opened).1]
              · intro region member
                rcases List.mem_cons.mp member with rfl | later
                · exact ⟨find_word_cut opened, find_word_cut closed⟩
                · exact back region later

theorem regions_assemble (visible : opener ≠ []) {read : List (List α × List α)}
    (back : ∀ region ∈ read, ReadsBack opener closer region) (left : List α) :
    regions opener closer (assemble opener closer read left) =
      read ++ regions opener closer left := by
  induction read with
  | nil => rfl
  | cons region others ih =>
      obtain ⟨opens, closes⟩ := back region (by simp)
      rw [assemble_cons, regions_step visible (find_word_grown _ opens) (find_word_grown _ closes),
        ih fun other member => back other (List.mem_cons_of_mem _ member)]
      rfl

end Defender.Library.Reassembly
