import Defender.Library.Reassembly
import Defender.Invlang.Fences

/-!
# Exchanging fence bodies

A text is put together again from its fences and what stands around them, so the body of one can
be exchanged for another.
-/

namespace Defender.Invlang

open Defender.Python Defender.Library.Delimited Defender.Library.DelimitedPattern
open Defender.Library.Reassembly

def fenceText (read : List (Str × Str)) (left : Str) : Str :=
  assemble fenceOpener fenceCloser read left

theorem fence_text_reads (text : Str) :
    fenceText (regions fenceOpener fenceCloser text) (fenceRemainder text) = text ∧
      ∀ region ∈ regions fenceOpener fenceCloser text, ReadsBack fenceOpener fenceCloser region :=
  assemble_regions fence_opener_visible text

section Exchange

theorem fence_text_bodies {read : List (Str × Str)}
    (back : ∀ region ∈ read, ReadsBack fenceOpener fenceCloser region) (left : Str) :
    (scanFences (fenceText read left)).bodies =
      read.map Prod.snd ++ (scanFences left).bodies := by
  rw [fence_bodies, fence_bodies, fenceText, regions_assemble fence_opener_visible back,
    List.map_append]

theorem remainder_bodies (text : Str) : (scanFences (fenceRemainder text)).bodies = [] := by
  rw [fence_bodies, fenceRemainder, remainder_has_no_region fence_opener_visible, List.map_nil]

theorem fence_text_exchange (early late : List (Str × Str)) (before body left : Str) :
    fenceText (early ++ (before, body) :: late) left =
      early.flatMap (regionText fenceOpener fenceCloser) ++ before ++ fenceOpenLine ++
        '\n' :: (body ++ '\n' :: (fenceMark ++ fenceText late left)) := by
  unfold fenceText
  rw [assemble_append, assemble_cons, fence_opener_eq, fence_closer_eq]
  simp [assemble]

end Exchange

end Defender.Invlang
