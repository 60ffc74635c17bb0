import Mathlib.Algebra.BigOperators.Group.List.Basic
import Mathlib.Algebra.Ring.Nat

/-!
# Max-min fair shares

An amount is handed out to a line of wants, each in its turn up to an equal part of what is left.
Where the smallest wants stand first nobody that goes short has less, up to one, than another, and
nothing is kept back that a want could have had.
-/

namespace Defender.Library.FairShares

/-- Each want in its turn: itself, or an equal part of what is left. -/
def handOut : Nat → List Nat → List Nat
  | _, [] => []
  | left, want :: wants =>
      let share := min want (left / (wants.length + 1))
      share :: handOut (left - share) wants

/-- Wants with their shares of a total, max-min fair up to one. -/
structure MaxMinFair (total : Nat) (shared : List (Nat × Nat)) : Prop where
  within : (shared.map Prod.snd).sum ≤ total
  wanted : ∀ entry ∈ shared, entry.2 ≤ entry.1
  even : ∀ entry ∈ shared, ∀ other ∈ shared, entry.2 < entry.1 → other.2 ≤ entry.2 + 1
  whole : (shared.map Prod.fst).sum ≤ total → ∀ entry ∈ shared, entry.2 = entry.1

theorem MaxMinFair.perm {total : Nat} {shared moved : List (Nat × Nat)}
    (fair : MaxMinFair total shared) (same : moved.Perm shared) : MaxMinFair total moved where
  within := by
    rw [(same.map Prod.snd).sum_eq]
    exact fair.within
  wanted := fun entry member => fair.wanted entry (same.mem_iff.mp member)
  even := fun entry member other among =>
    fair.even entry (same.mem_iff.mp member) other (same.mem_iff.mp among)
  whole := fun fits entry member => by
    rw [(same.map Prod.fst).sum_eq] at fits
    exact fair.whole fits entry (same.mem_iff.mp member)

@[simp] theorem hand_out_length (left : Nat) (wants : List Nat) :
    (handOut left wants).length = wants.length := by
  induction wants generalizing left with
  | nil => rfl
  | cons want wants ih => simp [handOut, ih]

theorem share_le_left (left want count : Nat) : min want (left / (count + 1)) ≤ left := by
  have part : left / (count + 1) ≤ left := Nat.div_le_self _ _
  omega

theorem part_after_share {left share count : Nat} (equal : share ≤ left / (count + 1)) :
    share * count ≤ left - share := by
  have all : share * (count + 1) ≤ left := (Nat.le_div_iff_mul_le (Nat.succ_pos count)).mp equal
  rw [Nat.mul_succ] at all
  omega

theorem hand_out_sum (left : Nat) (wants : List Nat) : (handOut left wants).sum ≤ left := by
  induction wants generalizing left with
  | nil => simp [handOut]
  | cons want wants ih =>
      have first := share_le_left left want wants.length
      have rest := ih (left - min want (left / (wants.length + 1)))
      simp only [handOut, List.sum_cons]
      omega

theorem hand_out_wanted (left : Nat) (wants : List Nat) :
    ∀ entry ∈ wants.zip (handOut left wants), entry.2 ≤ entry.1 := by
  induction wants generalizing left with
  | nil => simp
  | cons want wants ih =>
      rw [handOut, List.zip_cons_cons]
      intro entry member
      rcases List.mem_cons.mp member with rfl | later
      · exact Nat.min_le_left _ _
      · exact ih _ entry later

theorem hand_out_least {bound left : Nat} {wants : List Nat} (large : ∀ want ∈ wants, bound ≤ want)
    (enough : bound * wants.length ≤ left) : ∀ share ∈ handOut left wants, bound ≤ share := by
  induction wants generalizing left with
  | nil => simp [handOut]
  | cons want wants ih =>
      have part : bound ≤ left / (wants.length + 1) :=
        (Nat.le_div_iff_mul_le (Nat.succ_pos _)).mpr enough
      have first : bound ≤ min want (left / (wants.length + 1)) :=
        Nat.le_min.mpr ⟨large want List.mem_cons_self, part⟩
      have rest := part_after_share (Nat.min_le_right want (left / (wants.length + 1)))
      have further : bound * wants.length ≤
          left - min want (left / (wants.length + 1)) :=
        Nat.le_trans (Nat.mul_le_mul_right _ first) rest
      intro share member
      rcases List.mem_cons.mp member with rfl | later
      · exact first
      · exact ih (fun want member => large want (List.mem_cons_of_mem _ member)) further share later

theorem rest_after_part {left bound count : Nat} (little : left ≤ bound * (count + 1)) :
    left - left / (count + 1) ≤ bound * count := by
  have part : left / (count + 1) ≤ bound := by
    apply Nat.div_le_of_le_mul
    rw [Nat.mul_comm]
    exact little
  rcases Nat.eq_or_lt_of_le part with full | less
  · rw [full]
    rw [Nat.mul_succ] at little
    omega
  · have below : left < (count + 1) * (left / (count + 1) + 1) :=
      Nat.lt_mul_div_succ left (Nat.succ_pos count)
    have room : (left / (count + 1) + 1) * count ≤ bound * count := Nat.mul_le_mul_right _ less
    rw [Nat.succ_mul, Nat.mul_comm count] at below
    omega

theorem hand_out_most {bound left : Nat} {wants : List Nat} (large : ∀ want ∈ wants, bound ≤ want)
    (little : left ≤ bound * wants.length) : ∀ share ∈ handOut left wants, share ≤ bound := by
  induction wants generalizing left with
  | nil => simp [handOut]
  | cons want wants ih =>
      have part : left / (wants.length + 1) ≤ bound := by
        apply Nat.div_le_of_le_mul
        rw [Nat.mul_comm]
        exact little
      have equal : min want (left / (wants.length + 1)) = left / (wants.length + 1) :=
        Nat.min_eq_right (Nat.le_trans part (large want List.mem_cons_self))
      intro share member
      rw [handOut, List.mem_cons, equal] at member
      rcases member with rfl | later
      · exact part
      · exact ih (fun want member => large want (List.mem_cons_of_mem _ member))
          (rest_after_part little) share later

theorem hand_out_even (left : Nat) {wants : List Nat} (ordered : wants.Pairwise (· ≤ ·)) :
    ∀ entry ∈ wants.zip (handOut left wants), ∀ other ∈ handOut left wants,
      entry.2 < entry.1 → other ≤ entry.2 + 1 := by
  induction wants generalizing left with
  | nil => simp
  | cons want wants ih =>
      have larger : ∀ next ∈ wants, want ≤ next := (List.pairwise_cons.mp ordered).1
      rw [handOut, List.zip_cons_cons]
      intro entry member other among short
      rcases List.mem_cons.mp member with rfl | later
      · -- the first goes short: it took an equal part, and the rest is at most one more each
        rcases List.mem_cons.mp among with rfl | behind
        · exact Nat.le_succ _
        · have equal : min want (left / (wants.length + 1)) = left / (wants.length + 1) := by
            simp only at short
            omega
          simp only [equal] at short behind ⊢
          have below : left ≤ (left / (wants.length + 1) + 1) * (wants.length + 1) := by
            rw [Nat.mul_comm]
            exact Nat.le_of_lt (Nat.lt_mul_div_succ left (Nat.succ_pos _))
          exact hand_out_most (fun next member => Nat.le_trans short (larger next member))
            (rest_after_part below) other behind
      · rcases List.mem_cons.mp among with rfl | behind
        · -- the first took no more than any behind it
          have part := part_after_share (Nat.min_le_right want (left / (wants.length + 1)))
          have least := hand_out_least (fun next member =>
            Nat.le_trans (Nat.min_le_left want (left / (wants.length + 1))) (larger next member)) part
          have taken := least entry.2 (List.of_mem_zip later).2
          omega
        · exact ih _ (List.pairwise_cons.mp ordered).2 entry later other behind short

theorem least_sum {bound : Nat} {wants : List Nat} (large : ∀ want ∈ wants, bound ≤ want) :
    bound * wants.length ≤ wants.sum := by
  induction wants with
  | nil => simp
  | cons want wants ih =>
      have first := large want List.mem_cons_self
      have rest := ih fun next member => large next (List.mem_cons_of_mem _ member)
      rw [List.length_cons, List.sum_cons, Nat.mul_succ]
      omega

theorem hand_out_whole {left : Nat} {wants : List Nat} (ordered : wants.Pairwise (· ≤ ·))
    (fits : wants.sum ≤ left) : handOut left wants = wants := by
  induction wants generalizing left with
  | nil => rfl
  | cons want wants ih =>
      have larger : ∀ next ∈ want :: wants, want ≤ next :=
        List.forall_mem_cons.mpr ⟨Nat.le_refl want, (List.pairwise_cons.mp ordered).1⟩
      have equal : want * (wants.length + 1) ≤ left := Nat.le_trans (least_sum larger) fits
      have taken : min want (left / (wants.length + 1)) = want :=
        Nat.min_eq_left ((Nat.le_div_iff_mul_le (Nat.succ_pos _)).mpr equal)
      have rest : wants.sum ≤ left - want := by
        rw [List.sum_cons] at fits
        omega
      rw [handOut, taken, ih (List.pairwise_cons.mp ordered).2 rest]

theorem hand_out_fair (left : Nat) {wants : List Nat} (ordered : wants.Pairwise (· ≤ ·)) :
    MaxMinFair left (wants.zip (handOut left wants)) where
  within := by
    rw [List.map_snd_zip (by simp)]
    exact hand_out_sum left wants
  wanted := hand_out_wanted left wants
  even := fun entry member other among short =>
    hand_out_even left ordered entry member other.2 (List.of_mem_zip among).2 short
  whole := fun fits entry member => by
    rw [List.map_fst_zip (by simp)] at fits
    rw [hand_out_whole ordered fits, List.zip, List.zipWith_self] at member
    obtain ⟨want, -, rfl⟩ := List.mem_map.mp member
    rfl

end Defender.Library.FairShares
