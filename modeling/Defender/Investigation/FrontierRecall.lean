import Defender.Investigation.Compaction
import Defender.Invlang.Validate.Gating

/-!
# Recalling lessons after a write

The frontier is what the record has not settled yet, and what it holds. A write that adds no
fence delimiter is answered without deriving it: what is appended can neither open nor close a
fence, because a closer ends with a delimiter and no delimiter ends behind the old text.
-/

namespace Defender.Investigation

open Defender.Python Defender.Library.Delimited Defender.Library.OrderedDict Defender.Invlang

structure OpenSlot where
  vertexId : Str
  type : Str
  classTuple : Str
  slot : Str
  value : Str
deriving DecidableEq

structure HeldFact where
  vertexId : Str
  type : Str
  classTuple : Str
  slot : Str
  value : Str
deriving DecidableEq

structure OpenContract where
  contractId : Str
  hypothesisId : Str
  anchorKind : Str
  edgeRef : Str
  rel : Option Str
  authKind : Option Str
deriving DecidableEq

structure Frontier where
  slots : List OpenSlot
  contracts : List OpenContract
  held : List HeldFact
deriving DecidableEq

def Frontier.isEmpty (frontier : Frontier) : Bool :=
  frontier.slots.isEmpty && frontier.contracts.isEmpty && frontier.held.isEmpty

def orText (first second : Option Str) : Option Str :=
  match first with
  | some (char :: rest) => some (char :: rest)
  | _ => second

def edgeIndex (companion : CompanionBody) : Dict Str (Option Str × Option Str) :=
  (allEdges companion).foldl (fun index edge =>
    let first := (index.get? edge.id).getD (none, none)
    index.set edge.id (orText first.1 (some edge.relation), orText first.2 (authKindOf edge)))
    Dict.empty

def nodeState (companion : CompanionBody) : List OpenSlot × List HeldFact :=
  let types := vertexTypes companion
  let cells := iterVertexCells companion true
  (cells.filterMap fun cell =>
      if cell.state = .openCell then
        (types.get? cell.vertexId).map fun type =>
          ⟨cell.vertexId, type, cell.classification, cell.slot, cell.value⟩
      else none,
    cells.filterMap fun cell =>
      if cell.state = .heldCell then
        (types.get? cell.vertexId).map fun type =>
          ⟨cell.vertexId, type, cell.classification, cell.slot, cell.value⟩
      else none)

def exhaustedContractIds (companion : CompanionBody) : List Str :=
  ((iterAuthzResolutions companion).filter fun row =>
    rowCell row "basis" = basisExhausted && rowCell row "verdict" = authzIndeterminate &&
      fulfilledContract row ≠ []).map fulfilledContract

section Derive

variable [UnicodeDatabase]

def openContracts (companion : CompanionBody) : List OpenContract :=
  let edges := edgeIndex companion
  let exhausted := exhaustedContractIds companion
  (outstandingAuthzContracts companion).filterMap fun outstanding =>
    let contract := outstanding.contract
    if contract.id = [] ∨ exhausted.contains (contractId contract) then none
    else
      let edgeRef := if contract.edgeRef = [] then unobservedEdgeRef else contract.edgeRef
      let edge := (edges.get? edgeRef).getD (none, none)
      some ⟨contract.id, outstanding.hypothesis, strip contract.anchorKind, edgeRef, edge.1, edge.2⟩

def deriveFrontier (companion : CompanionBody) : Frontier :=
  let (slots, held) := nodeState companion
  ⟨slots, openContracts companion, held⟩

def frontierFromText (text : Str) : Frontier := deriveFrontier (companionOf text)

/-- What the lessons make of a moved frontier: the text pushed and the lessons recorded as
pushed, `none` where nothing new matches or the matching raises. -/
abbrev LessonMatch (Corpus Hit : Type*) := Corpus → Frontier → Frontier → Option (Str × List Hit)

/-- Whether an append added no fence delimiter, two characters before the seam included. -/
def addsNoDelimiter (before after : Str) : Bool :=
  !before.isEmpty && startsWith before after &&
    !contains fenceMark (after.drop (before.length - 2))

variable {Corpus Hit : Type*}

/-- The part of `_frontier_recall` behind its fast path. -/
def derivedRecall (compacting : Bool) (lessons : LessonMatch Corpus Hit) (corpus : Corpus)
    (before after : Str) : Str × List Hit :=
  let nowFrontier := frontierFromText after
  let wasFrontier := frontierFromText before
  if nowFrontier = wasFrontier then ([], [])
  else if nowFrontier.isEmpty then ([], [])
  else if compacting && foldBoundary before < foldBoundary after then ([], [])
  else
    match lessons corpus nowFrontier wasFrontier with
    | none => ([], [])
    | some (now, hits) => ("\n\n" ++ now, hits)

/-- The text appended to the return of a write, and the lessons recorded as pushed. -/
def frontierRecall (compacting : Bool) (lessons : LessonMatch Corpus Hit) (corpus : Option Corpus)
    (before after : Str) : Str × List Hit :=
  match corpus with
  | none => ([], [])
  | some corpus =>
      if addsNoDelimiter before after then ([], [])
      else derivedRecall compacting lessons corpus before after

/-- The recall without its fast path. -/
def recallDerived (compacting : Bool) (lessons : LessonMatch Corpus Hit) (corpus : Option Corpus)
    (before after : Str) : Str × List Hit :=
  match corpus with
  | none => ([], [])
  | some corpus => derivedRecall compacting lessons corpus before after

end Derive

section Seam

/-- A closer that starts behind what is left of the old text would put a delimiter where none
was added. -/
theorem no_region_added {before more : Str}
    (absent : ¬ fenceMark <:+: (before ++ more).drop (before.length - 2)) :
    regions fenceOpener fenceCloser (fenceRemainder before ++ more) = [] := by
  by_contra read
  obtain ⟨early, body, late, split⟩ := regions_occur read
  have suffix : fenceRemainder before <:+ before := remainder_suffix
  obtain ⟨front, whole⟩ := suffix
  let head := front ++ (early ++ fenceOpener ++ body ++ ['\n'])
  have laid : before ++ more = head ++ (fenceMark ++ late) := by
    rw [← whole, List.append_assoc, split, fence_closer_eq]
    simp [head]
  by_cases reaches : before.length - 2 ≤ head.length
  · apply absent
    rw [laid, List.drop_append_of_le_length reaches]
    exact ⟨head.drop (before.length - 2), late, by rw [List.append_assoc]⟩
  · have opened : head ++ fenceMark <+: before ++ more := by
      rw [laid, ← List.append_assoc]
      exact List.prefix_append _ _
    have inside : head ++ fenceMark <+: before := by
      apply List.prefix_of_prefix_length_le opened
      · exact List.prefix_append _ _
      · rw [List.length_append]
        change head.length + 3 ≤ before.length
        omega
    have region : early ++ fenceOpener ++ body ++ fenceCloser <+: fenceRemainder before := by
      rw [← whole] at inside
      apply (List.prefix_append_right_inj front).mp
      rw [fence_closer_eq]
      simpa [head] using inside
    obtain ⟨rest, same⟩ := region
    exact regions_ne_nil same.symm (remainder_has_no_region fence_opener_visible)

theorem bodies_unchanged {before more : Str}
    (absent : ¬ fenceMark <:+: (before ++ more).drop (before.length - 2)) :
    (scanFences (before ++ more)).bodies = (scanFences before).bodies := by
  have none := no_region_added absent
  rw [fence_bodies, fence_bodies, regions_append fence_opener_visible]
  change (_ ++ regions fenceOpener fenceCloser (fenceRemainder before ++ more)).map _ = _
  rw [none, List.append_nil]

variable [UnicodeDatabase]

/-- A write without a delimiter leaves the record, the frontier and the recall as they were. -/
theorem fast_path_exact (before after : Str) (quick : addsNoDelimiter before after = true) :
    parseDenseCompanion after = parseDenseCompanion before ∧
      frontierFromText after = frontierFromText before ∧
      ∀ (Corpus Hit : Type) (compacting : Bool) (lessons : LessonMatch Corpus Hit)
        (corpus : Option Corpus), frontierRecall compacting lessons corpus before after =
          recallDerived compacting lessons corpus before after := by
  simp only [addsNoDelimiter, Bool.and_eq_true, Bool.not_eq_true', ← Bool.not_eq_true,
    contains_infix_iff] at quick
  obtain ⟨⟨_, begun⟩, absent⟩ := quick
  rw [startsWith, List.isPrefixOf_iff_prefix] at begun
  obtain ⟨more, rfl⟩ := begun
  have parsed : parseDenseCompanion (before ++ more) = parseDenseCompanion before := by
    unfold parseDenseCompanion
    rw [bodies_unchanged absent]
  have frontier : frontierFromText (before ++ more) = frontierFromText before := by
    unfold frontierFromText companionOf
    rw [parsed]
  refine ⟨parsed, frontier, ?_⟩
  intro Corpus Hit compacting lessons corpus
  cases corpus with
  | none => rfl
  | some corpus =>
      have same : derivedRecall compacting lessons corpus before (before ++ more) = ([], []) := by
        rw [derivedRecall, frontier]
        simp
      rw [frontierRecall, recallDerived, same, ite_self]

end Seam

/-- An opener left at the end of the old text, and prose behind it. -/
theorem prose_append_fast :
    addsNoDelimiter "# t\n```invlang" "# t\n```invlang\nprose" = true ∧
      @parseDenseCompanion asciiDatabase "# t\n```invlang\nprose" =
        @parseDenseCompanion asciiDatabase "# t\n```invlang" :=
  have quick : addsNoDelimiter "# t\n```invlang" "# t\n```invlang\nprose" = true := by
    decide +kernel
  ⟨quick, (@fast_path_exact asciiDatabase _ _ quick).1⟩

end Defender.Investigation
