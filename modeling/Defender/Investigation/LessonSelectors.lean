import Defender.Invlang.Validate.VertexState
import Defender.Invlang.Vocab
import Mathlib.Logic.Relation

/-!
# What a lesson selects

A node selector speaks to the cells of a vertex type under a class pattern. The pattern is held
against the class cell slot by slot: it is refused only where the record has settled a slot
otherwise, and a slot the cell does not spell out counts as open. So what is recorded later about
an open slot can exclude a lesson, but it can never bring one back.
-/

namespace Defender.Investigation.LessonLane

open Defender.Python Defender.Invlang

def wildcard : Str := ['*']

def typeWeight : Nat := 1

def universalSlotWeight : Nat := 1

def attrSlotWeight : Nat := 2

def classPinWeight : Nat := 1

structure NodeSelector where
  type : Str
  classPattern : Str
  slot : Str
deriving DecidableEq

def NodeSelector.slotWeight (selector : NodeSelector) : Nat :=
  if selector.slot = [] then 0
  else if startsWith attrPrefix selector.slot then attrSlotWeight else universalSlotWeight

def NodeSelector.fixedSpecificity (selector : NodeSelector) : Nat :=
  (if selector.type = [] then 0 else typeWeight) + selector.slotWeight

def candidateMembers (slot : Str) : List Str :=
  let value := strip slot
  if startsWith ['{'] value && endsWith ['}'] value then
    ((splitOn ',' (value.drop 1).dropLast).map strip).filter (· ≠ [])
  else []

/-- One slot of a pattern against one of the cell: how many are pinned so far, and whether one of
them agreed with the record. An open slot of a pattern pins nothing. -/
def pinSlot (state : Nat × Bool) (pair : Str × Str) : Option (Nat × Bool) :=
  let (pinned, anchored) := state
  let (wanted, held) := pair
  if wanted = [] ∨ wanted = wildcard then some (pinned, anchored)
  else if isOpenSlot wanted then
    if candidateMembers wanted ≠ [] ∧ ¬isOpenSlot held ∧ held ∉ candidateMembers wanted then none
    else some (pinned, anchored)
  else if wanted = held then some (pinned + 1, true)
  else if isOpenSlot held then some (pinned + 1, anchored)
  else none

/-- How many slots a pattern pins on a cell, `none` where they do not match. -/
def classPins (selectorClass cellClass vertexType : Str) : Option Nat :=
  let selected := classSlots selectorClass
  let cell := classSlots cellClass
  let arity := max (Vocab.classArity vertexType) cell.length
  if arity < selected.length then none
  else
    let padded := cell ++ List.replicate (arity - cell.length) openMarker
    ((selected.zip padded).foldlM pinSlot (0, false)).map fun (pinned, anchored) =>
      if anchored then pinned else 0

/-- How precisely a selector speaks to a cell of a vertex, `none` where it does not match. -/
def nodeMatchScore (selector : NodeSelector) (type classTuple slot : Str) : Option Nat :=
  if selector.type ≠ [] ∧ selector.type ≠ type then none
  else if selector.slot ≠ [] ∧ selector.slot ≠ slot then none
  else (classPins selector.classPattern classTuple type).map fun pinned =>
    selector.fixedSpecificity + pinned * classPinWeight

section Slots

def pins (wanted : Str) : Bool := wanted ≠ [] && wanted ≠ wildcard && !isOpenSlot wanted

/-- Whether a pinned slot agrees with what the record has settled. -/
def agrees (pair : Str × Str) : Bool := pins pair.1 && pair.1 == pair.2

/-- A settled value that a slot of a pattern does not allow: another one is pinned, or a candidate
set does not list it. -/
def Excludes (wanted held : Str) : Prop :=
  isOpenSlot held = false ∧ (pins wanted = true ∧ wanted ≠ held ∨
    candidateMembers wanted ≠ [] ∧ held ∉ candidateMembers wanted)

instance (wanted held : Str) : Decidable (Excludes wanted held) :=
  inferInstanceAs (Decidable (_ ∧ _))

theorem open_of_members {slot : Str} (listed : candidateMembers slot ≠ []) :
    isOpenSlot slot = true := by
  unfold candidateMembers at listed
  dsimp only at listed
  split at listed
  · rename_i braced
    simp only [Bool.and_eq_true] at braced
    simp [isOpenSlot, isUnresolved, braced.1, braced.2]
  · exact absurd rfl listed

theorem pins_not_open {wanted : Str} (pinning : pins wanted = true) : isOpenSlot wanted = false := by
  simp only [pins, Bool.and_eq_true, Bool.not_eq_true'] at pinning
  exact pinning.2

theorem no_members_free {wanted : Str} (free : wanted = [] ∨ wanted = wildcard) :
    candidateMembers wanted = [] := by
  rcases free with rfl | rfl <;> rfl

theorem pin_slot_eq (pinned : Nat) (anchored : Bool) (wanted held : Str) :
    pinSlot (pinned, anchored) (wanted, held) =
      if Excludes wanted held then none
      else some (pinned + (if pins wanted then 1 else 0), anchored || agrees (wanted, held)) := by
  unfold pinSlot agrees
  by_cases free : wanted = [] ∨ wanted = wildcard
  · have unpinned : pins wanted = false := by
      rcases free with rfl | rfl <;> rfl
    have allowed : ¬Excludes wanted held := by
      simp [Excludes, unpinned, no_members_free free]
    simp [free, allowed, unpinned]
  · have named : wanted ≠ [] ∧ wanted ≠ wildcard := not_or.mp free
    cases opened : isOpenSlot wanted with
    | true =>
        have unpinned : pins wanted = false := by simp [pins, opened]
        have same : (candidateMembers wanted ≠ [] ∧ ¬isOpenSlot held = true ∧
            held ∉ candidateMembers wanted) ↔ Excludes wanted held := by
          simp only [Excludes, unpinned, Bool.false_eq_true, false_and, false_or,
            Bool.not_eq_true]
          exact and_left_comm
        simp only [free, if_false, opened, if_true, same, unpinned]
        simp
    | false =>
        have pinning : pins wanted = true := by simp [pins, named.1, named.2, opened]
        have unlisted : candidateMembers wanted = [] := by
          by_contra listed
          rw [open_of_members listed] at opened
          cases opened
        by_cases same : wanted = held
        · subst same
          have allowed : ¬Excludes wanted wanted := by simp [Excludes, unlisted]
          simp [free, opened, allowed, pinning]
        · cases heldOpen : isOpenSlot held with
          | true =>
              have allowed : ¬Excludes wanted held := by simp [Excludes, heldOpen]
              simp [free, opened, same, heldOpen, allowed, pinning]
          | false =>
              have refused : Excludes wanted held := ⟨heldOpen, .inl ⟨pinning, same⟩⟩
              simp [free, opened, same, heldOpen, refused]

theorem pin_slots_eq (pairs : List (Str × Str)) (pinned : Nat) (anchored : Bool) :
    pairs.foldlM pinSlot (pinned, anchored) =
      if ∃ pair ∈ pairs, Excludes pair.1 pair.2 then none
      else some (pinned + (pairs.map Prod.fst).countP pins,
        anchored || pairs.any agrees) := by
  induction pairs generalizing pinned anchored with
  | nil => simp
  | cons pair pairs ih =>
      obtain ⟨wanted, held⟩ := pair
      rw [List.foldlM_cons, pin_slot_eq]
      by_cases refused : Excludes wanted held
      · simp [refused]
      · rw [if_neg refused, Option.bind_eq_bind, Option.bind_some, ih]
        simp only [List.mem_cons, exists_eq_or_imp, refused, false_or, List.map_cons,
          List.countP_cons, List.any_cons, Bool.or_assoc]
        congr 3
        omega

end Slots

def slotAt (cellClass : Str) (place : Nat) : Str := (classSlots cellClass).getD place openMarker

theorem zip_padded {selected cell : List Str} {arity : Nat} (narrow : selected.length ≤ arity)
    (fits : cell.length ≤ arity) :
    selected.zip (cell ++ List.replicate (arity - cell.length) openMarker) =
      selected.zipIdx.map fun (wanted, place) => (wanted, cell.getD place openMarker) := by
  apply List.ext_getElem
  · simp
    omega
  · intro place first second
    simp only [List.getElem_zip, List.getElem_map, List.getElem_zipIdx, Nat.zero_add,
      List.getElem_append, List.getElem_replicate, List.getD_eq_getElem?_getD]
    split
    · rename_i inside
      simp [inside]
    · rename_i outside
      simp [List.getElem?_eq_none (Nat.le_of_not_lt outside)]

def aligned (pattern cellClass : Str) : List (Str × Str) :=
  (classSlots pattern).zipIdx.map fun (wanted, place) => (wanted, slotAt cellClass place)

theorem mem_aligned_iff {pattern cellClass wanted held : Str} :
    (wanted, held) ∈ aligned pattern cellClass ↔
      ∃ place, (classSlots pattern)[place]? = some wanted ∧ slotAt cellClass place = held := by
  unfold aligned
  rw [List.mem_map]
  constructor
  · rintro ⟨⟨slot, place⟩, inside, same⟩
    obtain ⟨rfl, rfl⟩ := Prod.mk.inj same
    exact ⟨place, List.mk_mem_zipIdx_iff_getElem?.mp inside, rfl⟩
  · rintro ⟨place, found, rfl⟩
    exact ⟨(wanted, place), List.mk_mem_zipIdx_iff_getElem?.mpr found, rfl⟩

theorem aligned_selected (pattern cellClass : Str) :
    (aligned pattern cellClass).map Prod.fst = classSlots pattern := by
  unfold aligned
  rw [List.map_map]
  exact List.zipIdx_map_fst _ _

theorem class_pins_eq {pattern cellClass vertexType : Str}
    (fits : (classSlots cellClass).length ≤ Vocab.classArity vertexType) :
    classPins pattern cellClass vertexType =
      if Vocab.classArity vertexType < (classSlots pattern).length then none
      else if ∃ pair ∈ aligned pattern cellClass, Excludes pair.1 pair.2 then none
      else some (if (aligned pattern cellClass).any agrees then (classSlots pattern).countP pins
        else 0) := by
  unfold classPins
  dsimp only
  rw [Nat.max_eq_left fits]
  split
  · rfl
  · rename_i narrow
    have pairs := zip_padded (Nat.le_of_not_lt narrow) fits
    change _ = aligned pattern cellClass at pairs
    rw [pairs, pin_slots_eq, aligned_selected]
    split
    · rfl
    · simp

section Refinement

/-- What may be recorded over a slot: anything over an open one, a member or a part of a
candidate set over that set. -/
inductive SlotRefines : Str → Str → Prop
  | same (slot : Str) : SlotRefines slot slot
  | settled (after : Str) : SlotRefines openMarker after
  | member {before after : Str} (listed : after ∈ candidateMembers before) :
      SlotRefines before after
  | subset {before after : Str} (filled : candidateMembers after ≠ [])
      (listed : candidateMembers after ⊆ candidateMembers before) : SlotRefines before after

/-- A class cell recorded over another within the grammar of its vertex type. -/
structure CellRefines (vertexType before after : Str) : Prop where
  fits : (classSlots before).length ≤ Vocab.classArity vertexType
  fitsAfter : (classSlots after).length ≤ Vocab.classArity vertexType
  slots : ∀ place, SlotRefines (slotAt before place) (slotAt after place)

theorem SlotRefines.settled_or_same {before after : Str} (refines : SlotRefines before after) :
    isOpenSlot before = true ∨ after = before := by
  cases refines with
  | same => exact .inr rfl
  | settled => exact .inl (by decide)
  | member listed => exact .inl (open_of_members (List.ne_nil_of_mem listed))
  | subset filled listed =>
      obtain ⟨value, inside⟩ := List.exists_mem_of_ne_nil _ filled
      exact .inl (open_of_members (List.ne_nil_of_mem (listed inside)))

theorem excludes_refined {before after wanted : Str} (refines : SlotRefines before after)
    (excluded : Excludes wanted before) : Excludes wanted after := by
  rcases refines.settled_or_same with opened | same
  · rw [excluded.1] at opened
    cases opened
  · rwa [same]

theorem agrees_refined {before after wanted : Str} (refines : SlotRefines before after)
    (agreed : agrees (wanted, before) = true) : agrees (wanted, after) = true := by
  simp only [agrees, Bool.and_eq_true, beq_iff_eq] at agreed ⊢
  obtain ⟨pinning, same⟩ := agreed
  rcases refines.settled_or_same with opened | kept
  · rw [← same, pins_not_open pinning] at opened
    cases opened
  · exact ⟨pinning, same.trans kept.symm⟩

variable {vertexType before after : Str}

/-- What a finer cell pins, the coarser one pins or leaves open. -/
theorem class_pins_refined (refines : CellRefines vertexType before after) {pattern : Str}
    {pinned : Nat} (matched : classPins pattern after vertexType = some pinned) :
    ∃ fewer ≤ pinned, classPins pattern before vertexType = some fewer := by
  rw [class_pins_eq refines.fitsAfter] at matched
  split at matched
  · cases matched
  rename_i narrow
  split at matched
  · cases matched
  rename_i allowed
  have open' : ¬∃ pair ∈ aligned pattern before, Excludes pair.1 pair.2 := by
    rintro ⟨⟨wanted, held⟩, inside, excluded⟩
    obtain ⟨place, named, rfl⟩ := mem_aligned_iff.mp inside
    exact allowed ⟨_, mem_aligned_iff.mpr ⟨place, named, rfl⟩,
      excludes_refined (refines.slots place) excluded⟩
  have anchored : (aligned pattern before).any agrees = true →
      (aligned pattern after).any agrees = true := by
    intro some
    obtain ⟨⟨wanted, held⟩, inside, agreed⟩ := List.any_eq_true.mp some
    obtain ⟨place, named, rfl⟩ := mem_aligned_iff.mp inside
    exact List.any_eq_true.mpr ⟨_, mem_aligned_iff.mpr ⟨place, named, rfl⟩,
      agrees_refined (refines.slots place) agreed⟩
  rw [class_pins_eq refines.fits, if_neg narrow, if_neg open']
  refine ⟨_, ?_, rfl⟩
  rw [← Option.some.inj matched]
  split
  · rename_i some
    rw [if_pos (anchored some)]
  · exact Nat.zero_le _

theorem class_pins_lost (refines : CellRefines vertexType before after) {pattern : Str}
    {pinned : Nat} (matched : classPins pattern before vertexType = some pinned)
    (lost : classPins pattern after vertexType = none) :
    ∃ place wanted, (classSlots pattern)[place]? = some wanted ∧
      isOpenSlot (slotAt before place) = true ∧ Excludes wanted (slotAt after place) := by
  rw [class_pins_eq refines.fits] at matched
  split at matched
  · cases matched
  rename_i narrow
  split at matched
  · cases matched
  rename_i allowed
  rw [class_pins_eq refines.fitsAfter, if_neg narrow] at lost
  split at lost
  · rename_i refused
    obtain ⟨⟨wanted, held⟩, inside, excluded⟩ := refused
    obtain ⟨place, named, rfl⟩ := mem_aligned_iff.mp inside
    refine ⟨place, wanted, named, ?_, excluded⟩
    rcases (refines.slots place).settled_or_same with opened | same
    · exact opened
    · rw [same] at excluded
      exact absurd ⟨_, mem_aligned_iff.mpr ⟨place, named, rfl⟩, excluded⟩ allowed
  · cases lost

/-- Recording more about a vertex loses no selector that the record does not contradict. -/
theorem node_match_refined (selector : NodeSelector) (slot : Str)
    (refines : CellRefines vertexType before after) :
    (∀ score, nodeMatchScore selector vertexType after slot = some score →
      ∃ lower ≤ score, nodeMatchScore selector vertexType before slot = some lower) ∧
    (∀ score, nodeMatchScore selector vertexType before slot = some score →
      nodeMatchScore selector vertexType after slot = none →
      ∃ place wanted, (classSlots selector.classPattern)[place]? = some wanted ∧
        isOpenSlot (slotAt before place) = true ∧ Excludes wanted (slotAt after place)) := by
  by_cases typed : selector.type ≠ [] ∧ selector.type ≠ vertexType
  · simp [nodeMatchScore, typed]
  by_cases named : selector.slot ≠ [] ∧ selector.slot ≠ slot
  · simp [nodeMatchScore, typed, named]
  unfold nodeMatchScore
  rw [if_neg typed, if_neg typed, if_neg named, if_neg named]
  constructor
  · intro score matched
    obtain ⟨pinned, found, rfl⟩ := Option.map_eq_some_iff.mp matched
    obtain ⟨fewer, less, first⟩ := class_pins_refined refines found
    refine ⟨_, ?_, by rw [first]; rfl⟩
    exact Nat.add_le_add_left (Nat.mul_le_mul_right _ less) _
  · intro score matched lost
    obtain ⟨pinned, found, -⟩ := Option.map_eq_some_iff.mp matched
    exact class_pins_lost refines found (Option.map_eq_none_iff.mp lost)

/-- A pattern with one slot named, before and after that slot is settled. -/
theorem node_match_refined_zone :
    ∃ lower ≤ 4, nodeMatchScore ⟨"compute", "*/internal/known-corp", "class"⟩ "compute"
      "??/internal" "class" = some lower := by
  have refines : CellRefines "compute" "??/internal" "web-server/internal/known-corp" := by
    have before : classSlots "??/internal" = ["??".toList, "internal".toList] := by decide
    have after : classSlots "web-server/internal/known-corp" =
        ["web-server".toList, "internal".toList, "known-corp".toList] := by decide
    refine ⟨by decide, by decide, ?_⟩
    intro place
    unfold slotAt
    rw [before, after]
    match place with
    | 0 => exact .settled _
    | 1 => exact .same _
    | 2 => exact .settled _
    | _ + 3 => exact .same _
  exact (node_match_refined ⟨"compute", "*/internal/known-corp", "class"⟩ "class" refines).1 4
    (by decide)

end Refinement

end Defender.Investigation.LessonLane
