import Mathlib.Data.List.Perm.Basic
import Mathlib.Data.List.Sort
import Mathlib.Data.Multiset.AddSub

/-!
# Alignments of two lists

A sequence matcher lays two lists out side by side as blocks: a block is the same on both
sides, or one side's alone, or one run in another's place. Nothing here depends on which
alignment it picks.
-/

namespace Defender.Library.Alignment

inductive Tag where
  | equal
  | insert
  | delete
  | replace
  deriving DecidableEq, Repr

structure Opcode where
  tag : Tag
  leftFrom : Nat
  leftTo : Nat
  rightFrom : Nat
  rightTo : Nat

variable {α β : Type*}

/-- `items[start:stop]`. -/
def slice (items : List α) (start stop : Nat) : List α := (items.drop start).take (stop - start)

namespace Opcode

variable (op : Opcode)

def leftSlice (items : List α) : List α := slice items op.leftFrom op.leftTo

def rightSlice (items : List α) : List α := slice items op.rightFrom op.rightTo

/-- What a block's tag says of its two runs. -/
def Fits (left right : List α) : Prop :=
  match op.tag with
  | .equal => op.leftSlice left = op.rightSlice right
  | .insert => op.leftFrom = op.leftTo
  | .delete => op.rightFrom = op.rightTo
  | .replace => True

end Opcode

/-- The blocks lay out what is left of both lists from the given places on, end to end. -/
def Lays (left right : List α) : Nat → Nat → List Opcode → Prop
  | atLeft, atRight, [] => atLeft = left.length ∧ atRight = right.length
  | atLeft, atRight, op :: ops =>
      (op.leftFrom = atLeft ∧ op.rightFrom = atRight) ∧
      (atLeft ≤ op.leftTo ∧ atRight ≤ op.rightTo) ∧
      op.Fits left right ∧ Lays left right op.leftTo op.rightTo ops

/-- A sequence matcher, whichever alignment it picks. -/
structure Aligner (α : Type*) where
  opcodes : List α → List α → List Opcode
  lays : ∀ left right, Lays left right 0 0 (opcodes left right)

/-- How many items two lists begin with alike. -/
def commonStart [DecidableEq α] : List α → List α → Nat
  | left :: lefts, right :: rights => if left = right then commonStart lefts rights + 1 else 0
  | _, _ => 0

theorem common_start_within [DecidableEq α] (left right : List α) :
    commonStart left right ≤ left.length ∧ commonStart left right ≤ right.length ∧
      left.take (commonStart left right) = right.take (commonStart left right) := by
  induction left generalizing right with
  | nil => exact ⟨Nat.zero_le _, Nat.zero_le _, rfl⟩
  | cons first lefts ih =>
      cases right with
      | nil => exact ⟨Nat.zero_le _, Nat.zero_le _, rfl⟩
      | cons head rights =>
          rw [commonStart]
          split
          · rename_i same
            obtain ⟨inLeft, inRight, alike⟩ := ih rights
            exact ⟨Nat.succ_le_succ inLeft, Nat.succ_le_succ inRight,
              by rw [List.take_succ_cons, List.take_succ_cons, same, alike]⟩
          · exact ⟨Nat.zero_le _, Nat.zero_le _, rfl⟩

/-- A matcher that finds no more than what two lists begin with alike. -/
def Aligner.leading [DecidableEq α] : Aligner α where
  opcodes left right :=
    let shared := commonStart left right
    [⟨.equal, 0, shared, 0, shared⟩, ⟨.replace, shared, left.length, shared, right.length⟩]
  lays left right := by
    obtain ⟨inLeft, inRight, alike⟩ := common_start_within left right
    exact ⟨⟨rfl, rfl⟩, ⟨Nat.zero_le _, Nat.zero_le _⟩, alike, ⟨rfl, rfl⟩, ⟨inLeft, inRight⟩,
      trivial, rfl, rfl⟩

section Layout

variable {left right : List α} {atLeft atRight : Nat} {ops : List Opcode}

theorem slice_map (convert : α → β) (items : List α) (start stop : Nat) :
    slice (items.map convert) start stop = (slice items start stop).map convert := by
  rw [slice, slice, ← List.map_drop, ← List.map_take]

theorem slice_append_drop (items : List α) {start stop : Nat} (ordered : start ≤ stop) :
    slice items start stop ++ items.drop stop = items.drop start := by
  have further : items.drop stop = (items.drop start).drop (stop - start) := by
    rw [List.drop_drop, Nat.add_sub_cancel' ordered]
  rw [slice, further, List.take_append_drop]

theorem lays_within (laid : Lays left right atLeft atRight ops) :
    atLeft ≤ left.length ∧ atRight ≤ right.length := by
  induction ops generalizing atLeft atRight with
  | nil => exact ⟨laid.1.le, laid.2.le⟩
  | cons op ops ih =>
      obtain ⟨-, ⟨leftOrdered, rightOrdered⟩, -, rest⟩ := laid
      exact ⟨leftOrdered.trans (ih rest).1, rightOrdered.trans (ih rest).2⟩

theorem left_laid (laid : Lays left right atLeft atRight ops) {items : List β}
    (long : items.length = left.length) :
    ops.flatMap (·.leftSlice items) = items.drop atLeft := by
  induction ops generalizing atLeft atRight with
  | nil => rw [laid.1, ← long, List.drop_length, List.flatMap_nil]
  | cons op ops ih =>
      obtain ⟨⟨begins, -⟩, ⟨ordered, -⟩, -, rest⟩ := laid
      rw [List.flatMap_cons, ih rest, Opcode.leftSlice, begins, slice_append_drop items ordered]

theorem right_laid (laid : Lays left right atLeft atRight ops) {items : List β}
    (long : items.length = right.length) :
    ops.flatMap (·.rightSlice items) = items.drop atRight := by
  induction ops generalizing atLeft atRight with
  | nil => rw [laid.2, ← long, List.drop_length, List.flatMap_nil]
  | cons op ops ih =>
      obtain ⟨⟨-, begins⟩, ⟨-, ordered⟩, -, rest⟩ := laid
      rw [List.flatMap_cons, ih rest, Opcode.rightSlice, begins, slice_append_drop items ordered]

theorem lays_fits (laid : Lays left right atLeft atRight ops) {op : Opcode} (among : op ∈ ops) :
    op.Fits left right := by
  induction ops generalizing atLeft atRight with
  | nil => nomatch among
  | cons first ops ih =>
      obtain ⟨-, -, fits, rest⟩ := laid
      rcases List.mem_cons.mp among with rfl | among
      · exact fits
      · exact ih rest among

theorem lays_bounds (laid : Lays left right atLeft atRight ops) {op : Opcode} (among : op ∈ ops) :
    op.leftTo ≤ left.length ∧ op.rightTo ≤ right.length := by
  induction ops generalizing atLeft atRight with
  | nil => nomatch among
  | cons first ops ih =>
      obtain ⟨-, -, -, rest⟩ := laid
      rcases List.mem_cons.mp among with rfl | among
      · exact lays_within rest
      · exact ih rest among

theorem equal_laid (laid : Lays left right atLeft atRight ops) {op : Opcode} (among : op ∈ ops)
    (equal : op.tag = .equal) : op.leftSlice left = op.rightSlice right := by
  have fits := lays_fits laid among
  rw [Opcode.Fits, equal] at fits
  exact fits

theorem slice_get (items : List α) (start stop place : Nat) :
    (slice items start stop)[place]? =
      if start + place < stop then items[start + place]? else none := by
  rw [slice, List.getElem?_take, List.getElem?_drop]
  exact if_congr (by omega) rfl rfl

theorem mem_slice {items : List α} {start stop : Nat} {item : α}
    (among : item ∈ slice items start stop) :
    ∃ place, start ≤ place ∧ place < stop ∧ items[place]? = some item := by
  obtain ⟨offset, held⟩ := List.mem_iff_getElem?.mp among
  rw [slice_get] at held
  split at held
  · exact ⟨start + offset, Nat.le_add_right _ _, by assumption, held⟩
  · contradiction

/-- What is marked on both sides agrees, where no marked item stands in a block that one side
has alone and the equal blocks mark the same. -/
theorem marked_agree {leftItems rightItems : List β} {marked : β → Bool}
    (laid : Lays left right 0 0 ops) (leftLong : leftItems.length = left.length)
    (rightLong : rightItems.length = right.length)
    (removed : ∀ op ∈ ops, op.tag = .delete ∨ op.tag = .replace →
      ∀ item ∈ op.leftSlice leftItems, marked item = false)
    (added : ∀ op ∈ ops, op.tag = .insert ∨ op.tag = .replace →
      ∀ item ∈ op.rightSlice rightItems, marked item = false)
    (kept : ∀ op ∈ ops, op.tag = .equal →
      (op.leftSlice leftItems).filter marked = (op.rightSlice rightItems).filter marked) :
    leftItems.filter marked = rightItems.filter marked := by
  have unmarked : ∀ {items : List β}, (∀ item ∈ items, marked item = false) →
      items.filter marked = [] := by
    intro items none
    exact List.filter_eq_nil_iff.mpr fun item among => by rw [none item among]; nofun
  have alone : ∀ {start stop : Nat} {items : List β}, start = stop → slice items start stop = [] := by
    rintro start stop items rfl
    rw [slice, Nat.sub_self, List.take_zero]
  have blocks : ∀ op ∈ ops, (op.leftSlice leftItems).filter marked =
      (op.rightSlice rightItems).filter marked := by
    intro op among
    have fits := lays_fits laid among
    rw [Opcode.Fits] at fits
    cases tag : op.tag with
    | equal => exact kept op among tag
    | insert =>
        rw [tag] at fits
        rw [unmarked (added op among (.inl tag)), Opcode.leftSlice, alone fits, List.filter_nil]
    | delete =>
        rw [tag] at fits
        rw [unmarked (removed op among (.inl tag)), Opcode.rightSlice, alone fits,
          List.filter_nil]
    | replace =>
        rw [unmarked (removed op among (.inr tag)), unmarked (added op among (.inr tag))]
  have leftWhole := left_laid laid leftLong
  have rightWhole := right_laid laid rightLong
  rw [List.drop_zero] at leftWhole rightWhole
  rw [← leftWhole, ← rightWhole, List.filter_flatMap, List.filter_flatMap]
  exact List.flatMap_congr blocks

end Layout

section Cuts

/-- What a list holds outside the blocks that are equal. -/
def unequalLeft (ops : List Opcode) (items : List α) : List α :=
  ops.flatMap fun op => if op.tag = .equal then [] else op.leftSlice items

def unequalRight (ops : List Opcode) (items : List α) : List α :=
  ops.flatMap fun op => if op.tag = .equal then [] else op.rightSlice items

/-- `dropped` and `brought` are what two lists hold beside a part they share up to `spell`. -/
structure Cut (spell : α → β) (left right dropped brought : List α) : Prop where
  shares : ∃ keptLeft keptRight, left.Perm (keptLeft ++ dropped) ∧
    right.Perm (keptRight ++ brought) ∧ keptLeft.map spell = keptRight.map spell
  droppedOrder : dropped.Sublist left
  broughtOrder : brought.Sublist right

variable {spell : α → β}

theorem Cut.nil : Cut spell [] [] [] [] :=
  ⟨⟨[], [], .refl _, .refl _, rfl⟩, .refl _, .refl _⟩

theorem Cut.append {left right dropped brought otherLeft otherRight otherDropped otherBrought :
      List α} (first : Cut spell left right dropped brought)
    (second : Cut spell otherLeft otherRight otherDropped otherBrought) :
    Cut spell (left ++ otherLeft) (right ++ otherRight) (dropped ++ otherDropped)
      (brought ++ otherBrought) := by
  obtain ⟨keptLeft, keptRight, leftParts, rightParts, same⟩ := first.shares
  obtain ⟨moreLeft, moreRight, otherLeftParts, otherRightParts, otherSame⟩ := second.shares
  have regroup : ∀ kept cut more rest : List α,
      ((kept ++ cut) ++ (more ++ rest)).Perm ((kept ++ more) ++ (cut ++ rest)) := by
    intro kept cut more rest
    rw [List.append_assoc, List.append_assoc]
    refine List.Perm.append_left kept ?_
    rw [← List.append_assoc, ← List.append_assoc]
    exact List.perm_append_comm.append_right rest
  exact {
    shares := ⟨keptLeft ++ moreLeft, keptRight ++ moreRight,
      (leftParts.append otherLeftParts).trans (regroup ..),
      (rightParts.append otherRightParts).trans (regroup ..),
      by rw [List.map_append, List.map_append, same, otherSame]⟩
    droppedOrder := first.droppedOrder.append second.droppedOrder
    broughtOrder := first.broughtOrder.append second.broughtOrder }

theorem Cut.same {left right : List α} (alike : left.map spell = right.map spell) :
    Cut spell left right [] [] where
  shares := ⟨left, right, by rw [List.append_nil], by rw [List.append_nil], alike⟩
  droppedOrder := List.nil_sublist _
  broughtOrder := List.nil_sublist _

theorem Cut.all (left right : List α) : Cut spell left right left right where
  shares := ⟨[], [], .refl _, .refl _, rfl⟩
  droppedOrder := .refl _
  broughtOrder := .refl _

theorem Cut.flatMap {γ : Type*} (places : List γ) {left right dropped brought : γ → List α}
    (each : ∀ place ∈ places, Cut spell (left place) (right place) (dropped place)
      (brought place)) :
    Cut spell (places.flatMap left) (places.flatMap right) (places.flatMap dropped)
      (places.flatMap brought) := by
  induction places with
  | nil => exact .nil
  | cons place places ih =>
      rw [List.flatMap_cons, List.flatMap_cons, List.flatMap_cons, List.flatMap_cons]
      exact (each place List.mem_cons_self).append
        (ih fun other among => each other (List.mem_cons_of_mem _ among))

theorem unequal_cut {left right : List α} {ops : List Opcode}
    (laid : Lays (left.map spell) (right.map spell) 0 0 ops) :
    Cut spell left right (unequalLeft ops left) (unequalRight ops right) := by
  have blocks : ∀ op ∈ ops, Cut spell (op.leftSlice left) (op.rightSlice right)
      (if op.tag = .equal then [] else op.leftSlice left)
      (if op.tag = .equal then [] else op.rightSlice right) := by
    intro op among
    by_cases equal : op.tag = .equal
    · rw [if_pos equal, if_pos equal]
      have same := equal_laid laid among equal
      rw [Opcode.leftSlice, Opcode.rightSlice, slice_map, slice_map] at same
      exact .same same
    · rw [if_neg equal, if_neg equal]
      exact .all _ _
  have whole := Cut.flatMap ops blocks
  rw [left_laid laid (List.length_map spell).symm, right_laid laid (List.length_map spell).symm,
    List.drop_zero, List.drop_zero] at whole
  exact whole

theorem Cut.counts [BEq β] [LawfulBEq β] {left right dropped brought : List α}
    (cut : Cut spell left right dropped brought) (word : β) :
    ∃ shared, (left.map spell).count word = shared + (dropped.map spell).count word ∧
      (right.map spell).count word = shared + (brought.map spell).count word := by
  obtain ⟨keptLeft, keptRight, leftParts, rightParts, same⟩ := cut.shares
  refine ⟨(keptLeft.map spell).count word, ?_, ?_⟩
  · rw [(leftParts.map spell).count_eq, List.map_append, List.count_append]
  · rw [(rightParts.map spell).count_eq, List.map_append, List.count_append, same]

end Cuts

end Defender.Library.Alignment
