import Defender.Learning.AnswerDiff
import Defender.Library.FairShares
import Mathlib.Data.List.GetD

/-!
# What an oracle prompt shows of its values

The values of a prompt share its budget: the smallest is given its part first, so that a small
value is shown whole and the large ones split what remains. A value past its share is shown as
its head.
-/

namespace Defender.Learning.Estate

open Defender.Python Defender.Library.FairShares

/-- The most text of one answer a request carries. -/
def contextCap : Nat := 200000

section Shares

variable (sizes : List Nat) (cap : Nat)

/-- The positions of the sizes, the smallest first; of equal ones the earlier. -/
def bySize : List Nat :=
  (List.range sizes.length).insertionSort fun left right => sizes.getD left 0 ≤ sizes.getD right 0

/-- One round of the loop: the shares so far, and what remains. -/
def shareStep (state : List Nat × Nat) (turn : Nat × Nat) : List Nat × Nat :=
  let share := min (min (sizes.getD turn.1 0) (state.2 / (sizes.length - turn.2))) cap
  (state.1.set turn.1 share, state.2 - share)

/-- How much of each size fits in a total together. -/
def shares (total : Int) : List Nat :=
  ((bySize sizes).zipIdx.foldl (shareStep sizes cap)
    (List.replicate sizes.length 0, total.toNat)).1

/-- What a position could have at the most. -/
def want (position : Nat) : Nat := min (sizes.getD position 0) cap

theorem by_size_perm : (bySize sizes).Perm (List.range sizes.length) :=
  List.perm_insertionSort _ _

theorem wants_ordered : ((bySize sizes).map (want sizes cap)).Pairwise (· ≤ ·) := by
  let smaller := fun left right : Nat => sizes.getD left 0 ≤ sizes.getD right 0
  have : Std.Total smaller := ⟨fun left right => Nat.le_total _ _⟩
  have : IsTrans Nat smaller := ⟨fun _ _ _ below above => Nat.le_trans below above⟩
  have ordered : (bySize sizes).Pairwise smaller := List.pairwise_insertionSort smaller _
  rw [List.pairwise_map]
  apply ordered.imp
  intro left right below
  have within : sizes.getD left 0 ≤ sizes.getD right 0 := below
  unfold want
  omega

theorem share_step_other {state : List Nat × Nat} {turn : Nat × Nat} {position : Nat}
    (other : position ≠ turn.1) :
    (shareStep sizes cap state turn).1.getD position 0 = state.1.getD position 0 := by
  simp only [shareStep, List.getD_eq_getElem?_getD]
  rw [List.getElem?_set_ne (Ne.symm other)]

theorem share_steps_other {order : List Nat} {position : Nat} (absent : position ∉ order)
    (round : Nat) (state : List Nat × Nat) :
    ((order.zipIdx round).foldl (shareStep sizes cap) state).1.getD position 0 =
      state.1.getD position 0 := by
  induction order generalizing round state with
  | nil => rfl
  | cons next order ih =>
      rw [List.mem_cons, not_or] at absent
      rw [List.zipIdx_cons, List.foldl_cons, ih absent.2, share_step_other sizes cap absent.1]

theorem share_steps_length (order : List Nat) (round : Nat) (state : List Nat × Nat) :
    ((order.zipIdx round).foldl (shareStep sizes cap) state).1.length = state.1.length := by
  induction order generalizing round state with
  | nil => rfl
  | cons next order ih =>
      rw [List.zipIdx_cons, List.foldl_cons, ih]
      simp [shareStep]

theorem share_steps_hand_out {order : List Nat} (distinct : order.Nodup) {round : Nat}
    {state : List Nat × Nat} (turns : round + order.length = sizes.length)
    (known : ∀ position ∈ order, position < state.1.length) :
    order.map (((order.zipIdx round).foldl (shareStep sizes cap) state).1.getD · 0) =
      handOut state.2 (order.map (want sizes cap)) := by
  induction order generalizing round state with
  | nil => rfl
  | cons next order ih =>
      rw [List.nodup_cons] at distinct
      rw [List.length_cons] at turns
      have left : sizes.length - round = order.length + 1 := by omega
      have share : min (min (sizes.getD next 0) (state.2 / (sizes.length - round))) cap =
          min (want sizes cap next) (state.2 / (order.length + 1)) := by
        rw [left, want]
        omega
      have inside : next < state.1.length := known next List.mem_cons_self
      have further := @ih distinct.2 (round + 1) (shareStep sizes cap state (next, round))
        (by omega) (by
          intro position member
          simpa [shareStep] using known position (List.mem_cons_of_mem _ member))
      rw [List.zipIdx_cons, List.foldl_cons, List.map_cons, List.map_cons, handOut,
        List.length_map, further, share_steps_other sizes cap distinct.1]
      simp only [shareStep, share]
      rw [List.getD_eq_getElem?_getD, List.getElem?_set_self inside, Option.getD_some]

theorem shares_length (total : Int) : (shares sizes cap total).length = sizes.length := by
  unfold shares
  rw [share_steps_length, List.length_replicate]

theorem shares_handed_out (total : Int) :
    (bySize sizes).map ((shares sizes cap total).getD · 0) =
      handOut total.toNat ((bySize sizes).map (want sizes cap)) := by
  have same := by_size_perm sizes
  apply share_steps_hand_out sizes cap (same.nodup_iff.mpr List.nodup_range)
  · rw [Nat.zero_add, same.length_eq, List.length_range]
  · intro position member
    rw [List.length_replicate]
    exact List.mem_range.mp (same.mem_iff.mp member)

theorem shares_fair (total : Int) :
    MaxMinFair total.toNat ((List.range sizes.length).map fun position =>
      (want sizes cap position, (shares sizes cap total).getD position 0)) := by
  have fair := hand_out_fair total.toNat (wants_ordered sizes cap)
  rw [← shares_handed_out, List.zip_map'] at fair
  exact fair.perm ((by_size_perm sizes).symm.map _)

theorem shares_by_position (total : Int) :
    (List.range sizes.length).map ((shares sizes cap total).getD · 0) =
      shares sizes cap total := by
  apply List.ext_getElem
  · simp [shares_length]
  · intro position below inside
    simp only [List.getElem_map, List.getElem_range]
    exact List.getD_eq_getElem _ _ inside

/-- A budget is split max-min fairly, and nothing of it is kept back. -/
theorem shares_max_min_fair (total : Int) :
    (shares sizes cap total).length = sizes.length ∧
      ((shares sizes cap total).sum : Int) ≤ max total 0 ∧
      (∀ position < sizes.length,
        (shares sizes cap total).getD position 0 ≤ min (sizes.getD position 0) cap) ∧
      (∀ position < sizes.length, ∀ other < sizes.length,
        (shares sizes cap total).getD position 0 < min (sizes.getD position 0) cap →
          (shares sizes cap total).getD other 0 ≤ (shares sizes cap total).getD position 0 + 1) ∧
      (((sizes.map (min · cap)).sum : Int) ≤ total →
        ∀ position < sizes.length, (shares sizes cap total).getD position 0 =
          min (sizes.getD position 0) cap) := by
  have fair := shares_fair sizes cap total
  have entry : ∀ position < sizes.length,
      (want sizes cap position, (shares sizes cap total).getD position 0) ∈
        (List.range sizes.length).map fun position =>
          (want sizes cap position, (shares sizes cap total).getD position 0) :=
    fun position below => List.mem_map_of_mem (List.mem_range.mpr below)
  refine ⟨shares_length sizes cap total, ?_, ?_, ?_, ?_⟩
  · have within := fair.within
    rw [List.map_map] at within
    change ((List.range sizes.length).map ((shares sizes cap total).getD · 0)).sum ≤ _ at within
    rw [shares_by_position] at within
    omega
  · exact fun position below => fair.wanted _ (entry position below)
  · exact fun position below other among =>
      fair.even _ (entry position below) _ (entry other among)
  · intro fits position below
    apply fair.whole _ _ (entry position below)
    have wants : ((List.range sizes.length).map (want sizes cap)) = sizes.map (min · cap) := by
      apply List.ext_getElem
      · simp
      · intro position below inside
        simp only [List.length_map] at inside
        simp only [List.getElem_map, List.getElem_range]
        rw [want, List.getD_eq_getElem _ _ inside]
    rw [List.map_map]
    change ((List.range sizes.length).map (want sizes cap)).sum ≤ _
    rw [wants]
    omega

end Shares

example : shares [5, 300, 40, 300] contextCap 245 = [5, 100, 40, 100] := by decide

section Shown

/-- The heading of a value, and the body shown for it. -/
def headed (label text : Str) (cap : Nat) : Str × Str :=
  if text.length ≤ cap then (label ++ ":", text)
  else (message [label, " is ", decimalText text.length,
    " characters, past what one request carries; its head ", "follows:"], text.take cap)

def textOf : Json → Str
  | .string text => text
  | value => canonicalJson value

-- A frame around untrusted text is given: its salt is drawn at random.
variable (wrapFresh : Str → Str)

def framed (label text : Str) (cap : Nat) : Str :=
  let (heading, body) := headed label text cap
  heading ++ '\n' :: wrapFresh body

def fitted (items : List (Str × Json)) (budget : Int) : List Str :=
  let texts := items.map fun item => textOf item.2
  let caps := shares (texts.map List.length) contextCap budget
  (items.zip (texts.zip caps)).map fun shown => framed wrapFresh shown.1.1 shown.2.1 shown.2.2

theorem headed_body_length (label text : Str) (cap : Nat) :
    (headed label text cap).2.length = min text.length cap := by
  unfold headed
  split
  · rename_i short
    exact (Nat.min_eq_left short).symm
  · simp [Nat.min_comm]

theorem shown_length {texts : List Str} {caps : List Nat} (same : caps.length = texts.length) :
    ((texts.zip caps).map fun shown => (headed [] shown.1 shown.2).2.length).sum ≤ caps.sum := by
  induction texts generalizing caps with
  | nil => simp
  | cons text texts ih =>
      cases caps with
      | nil => cases same
      | cons cap caps =>
          have rest := ih (Nat.succ.inj same)
          have first := headed_body_length [] text cap
          simp only [List.zip_cons_cons, List.map_cons, List.sum_cons]
          omega

theorem shown_within (texts : List Str) (budget : Int) :
    ((((texts.zip (shares (texts.map List.length) contextCap budget)).map fun shown =>
      (headed [] shown.1 shown.2).2.length).sum : Nat) : Int) ≤ max budget 0 := by
  have fair := shares_fair (texts.map List.length) contextCap budget
  have within := fair.within
  rw [List.map_map] at within
  change (List.map ((shares (texts.map List.length) contextCap budget).getD · 0) _).sum ≤ _ at within
  rw [shares_by_position] at within
  have counted : (shares (texts.map List.length) contextCap budget).length = texts.length := by
    simp [shares_length]
  have shown := shown_length counted
  omega

end Shown

end Defender.Learning.Estate
