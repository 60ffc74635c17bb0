import Mathlib.Data.List.Sort
import Mathlib.Logic.Function.Basic

/-!
# Covering before doubling up

Loads are put on spots one after another, each on a spot chosen by how many every spot has so far.
A load's pass is how many its spot had before it. Ordered by pass, every spot in use has a load
before any spot has a second one, however the spots were chosen.
-/

namespace Defender.Library.Coverage

variable {Load Other Spot : Type*}

structure Placed (Load Spot : Type*) where
  pass : Nat
  position : Nat
  load : Load
  spot : Spot

def Placed.mapLoad (change : Load → Other) (placed : Placed Load Spot) : Placed Other Spot :=
  { pass := placed.pass, position := placed.position, load := change placed.load,
    spot := placed.spot }

/-- The order of passes, and within a pass the order of placing. -/
def Placed.Before (left right : Placed Load Spot) : Prop :=
  left.pass < right.pass ∨ left.pass = right.pass ∧ left.position ≤ right.position

instance (left right : Placed Load Spot) : Decidable (left.Before right) :=
  inferInstanceAs (Decidable (_ ∨ _))

theorem before_total (left right : Placed Load Spot) : left.Before right ∨ right.Before left := by
  unfold Placed.Before
  omega

theorem before_trans {left middle right : Placed Load Spot} (first : left.Before middle)
    (second : middle.Before right) : left.Before right := by
  unfold Placed.Before at *
  omega

variable [DecidableEq Spot] (choose : (Spot → Nat) → Load → Spot)

def place : (Spot → Nat) → Nat → List Load → List (Placed Load Spot)
  | _, _, [] => []
  | used, position, load :: rest =>
      let spot := choose used load
      ⟨used spot, position, load, spot⟩ ::
        place (Function.update used spot (used spot + 1)) (position + 1) rest

def spread (loads : List Load) : List (Placed Load Spot) :=
  (place choose (fun _ => 0) 0 loads).insertionSort Placed.Before

theorem place_loads (loads : List Load) (used : Spot → Nat) (position : Nat) :
    (place choose used position loads).map Placed.load = loads := by
  induction loads generalizing used position with
  | nil => rfl
  | cons load rest ih => rw [place, List.map_cons, ih]

theorem place_chosen {loads : List Load} {used : Spot → Nat} {position : Nat}
    {placed : Placed Load Spot} (inside : placed ∈ place choose used position loads) :
    ∃ counts, placed.spot = choose counts placed.load := by
  induction loads generalizing used position with
  | nil => cases inside
  | cons load rest ih =>
      rw [place, List.mem_cons] at inside
      rcases inside with here | later
      · exact ⟨used, by rw [here]⟩
      · exact ih later

theorem place_pass {loads : List Load} {used : Spot → Nat} {position : Nat}
    {placed : Placed Load Spot} (inside : placed ∈ place choose used position loads) :
    used placed.spot ≤ placed.pass := by
  induction loads generalizing used position with
  | nil => cases inside
  | cons load rest ih =>
      rw [place, List.mem_cons] at inside
      rcases inside with here | later
      · rw [here]
      · have further := ih later
        rw [Function.update_apply] at further
        split at further
        · rename_i same
          rw [same]
          omega
        · exact further

theorem place_first {loads : List Load} {used : Spot → Nat} {position : Nat}
    {placed : Placed Load Spot} (inside : placed ∈ place choose used position loads) :
    ∃ first ∈ place choose used position loads,
      first.spot = placed.spot ∧ first.pass = used placed.spot := by
  induction loads generalizing used position with
  | nil => cases inside
  | cons load rest ih =>
      rw [place]
      by_cases same : placed.spot = choose used load
      · exact ⟨_, List.mem_cons_self, same.symm, by rw [same]⟩
      · rw [place, List.mem_cons] at inside
        rcases inside with here | later
        · exact absurd (by rw [here]) same
        · obtain ⟨first, found, spot, pass⟩ := ih later
          rw [Function.update_of_ne same] at pass
          exact ⟨first, List.mem_cons_of_mem _ found, spot, pass⟩

theorem place_distinct (loads : List Load) (used : Spot → Nat) (position : Nat) :
    (place choose used position loads).Pairwise fun left right =>
      left.spot = right.spot → left.pass ≠ right.pass := by
  induction loads generalizing used position with
  | nil => exact .nil
  | cons load rest ih =>
      rw [place]
      refine .cons ?_ (ih _ _)
      intro other later same
      have further := place_pass choose later
      rw [← same, Function.update_self] at further
      exact Nat.ne_of_lt further

theorem spread_perm (loads : List Load) :
    (spread choose loads).Perm (place choose (fun _ => 0) 0 loads) :=
  List.perm_insertionSort _ _

theorem spread_loads (loads : List Load) :
    ((spread choose loads).map Placed.load).Perm loads := by
  have whole := (spread_perm choose loads).map Placed.load
  rwa [place_loads] at whole

theorem spread_sorted (loads : List Load) :
    (spread choose loads).Pairwise fun left right => left.pass ≤ right.pass := by
  have : Std.Total (@Placed.Before Load Spot) := ⟨before_total⟩
  have : IsTrans (Placed Load Spot) Placed.Before := ⟨fun _ _ _ => before_trans⟩
  refine (List.pairwise_insertionSort Placed.Before _).imp ?_
  intro left right ordered
  unfold Placed.Before at ordered
  omega

/-- Behind a load whose spot had one before it, every spot in use is covered. -/
theorem covered_before_repeat {loads : List Load} {before after : List (Placed Load Spot)}
    {placed : Placed Load Spot} (cut : spread choose loads = before ++ placed :: after)
    (again : placed.spot ∈ before.map Placed.spot) {other : Placed Load Spot}
    (inside : other ∈ spread choose loads) : other.spot ∈ before.map Placed.spot := by
  have sorted := spread_sorted choose loads
  have distinct : (spread choose loads).Pairwise fun left right =>
      left.spot = right.spot → left.pass ≠ right.pass :=
    ((spread_perm choose loads).pairwise_iff fun differ same pass =>
      differ same.symm pass.symm).mpr (place_distinct choose loads _ _)
  rw [cut, List.pairwise_append] at sorted distinct
  obtain ⟨first, found, spot⟩ := List.mem_map.mp again
  have later : 0 < placed.pass := by
    have ordered := sorted.2.2 first found placed List.mem_cons_self
    have differ := distinct.2.2 first found placed List.mem_cons_self spot
    omega
  obtain ⟨opening, placedFirst, same, pass⟩ :=
    place_first choose ((spread_perm choose loads).mem_iff.mp inside)
  have opened := (spread_perm choose loads).mem_iff.mpr placedFirst
  rw [cut, List.mem_append, List.mem_cons] at opened
  rcases opened with early | here | behind
  · rw [← same]
    exact List.mem_map_of_mem early
  · rw [here] at pass
    omega
  · have ordered := (List.pairwise_cons.mp sorted.2.1).1 opening behind
    omega

theorem place_map (change : Load → Other) {chooseOther : (Spot → Nat) → Other → Spot}
    (same : ∀ used load, chooseOther used (change load) = choose used load) (loads : List Load)
    (used : Spot → Nat) (position : Nat) :
    place chooseOther used position (loads.map change) =
      (place choose used position loads).map (Placed.mapLoad change) := by
  induction loads generalizing used position with
  | nil => rfl
  | cons load rest ih =>
      rw [List.map_cons, place, place, List.map_cons, same, ih]
      rfl

theorem spread_map (change : Load → Other) {chooseOther : (Spot → Nat) → Other → Spot}
    (same : ∀ used load, chooseOther used (change load) = choose used load) (loads : List Load) :
    spread chooseOther (loads.map change) =
      (spread choose loads).map (Placed.mapLoad change) := by
  unfold spread
  rw [place_map choose change same]
  exact (List.map_insertionSort Placed.Before Placed.Before (Placed.mapLoad change)
    (place choose (fun _ => 0) 0 loads) fun _ _ _ _ => Iff.rfl).symm

end Defender.Library.Coverage
