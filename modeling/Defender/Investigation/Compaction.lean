import Defender.Invlang.AppendedDocument

/-!
# Folding settled loops

The boundary is read from the parsed record: the last of the loops 1, 2, … that
are all below the highest planned loop, closed, and resolved.
-/

namespace Defender.Investigation

open Defender.Python Defender.Invlang

def leadResolved (finding : FindingRecord) : Bool :=
  !finding.resolutions.isEmpty || finding.outcome ≠ LeadOutcome.empty

def loopNumber (finding : FindingRecord) : Option Int :=
  match finding.loop with
  | some (.number loop) => some loop
  | _ => none

def loopSettled (companion : CompanionBody) (loop : Int) : Bool :=
  companion.closedLoops.contains loop &&
    companion.findings.any fun finding => loopNumber finding == some loop && leadResolved finding

/-- The rounds of the source's loop; `fold` is the last loop gone over. -/
def foldFrom (companion : CompanionBody) : Nat → Int → Int → Int
  | 0, _, fold => fold
  | rounds + 1, loop, fold =>
      if loopSettled companion loop then foldFrom companion rounds (loop + 1) loop else fold

section Folding

variable [UnicodeDatabase]

def foldBoundary (investigation : Str) : Int :=
  let companion := companionOf investigation
  match (companion.findings.filterMap loopNumber).max? with
  | none => 0
  | some active => foldFrom companion (active - 1).toNat 1 0

end Folding

end Defender.Investigation
