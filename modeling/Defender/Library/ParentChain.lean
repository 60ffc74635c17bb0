import Mathlib.Logic.Relation
import Mathlib.Data.List.Basic

/-!
# Chains of parents

Nodes numbered in the order they were made, each with an older parent or none. The chain of a
node runs from it to a root; it is there for every node, and new nodes leave it as it was.
-/

namespace Defender.Library.ParentChain

section Chains

def Older (parent : Nat → Option Nat) : Prop :=
  ∀ child elder, parent child = some elder → elder < child

/-- The elder is reached from the node by following parents. -/
def Ancestor (parent : Nat → Option Nat) : Nat → Nat → Prop :=
  Relation.ReflTransGen fun child elder => parent child = some elder

/-- The nodes from the given one to its root. -/
inductive Lineage (parent : Nat → Option Nat) : Nat → List Nat → Prop where
  | root {node : Nat} (last : parent node = none) : Lineage parent node [node]
  | child {node elder : Nat} {rest : List Nat} (next : parent node = some elder)
      (further : Lineage parent elder rest) : Lineage parent node (node :: rest)

variable {parent later : Nat → Option Nat} {node elder : Nat} {chain : List Nat}

theorem Older.acyclic (older : Older parent) (node : Nat) :
    ¬Relation.TransGen (fun child elder => parent child = some elder) node node := by
  intro cycle
  have smaller : ∀ elder, Relation.TransGen (fun child elder => parent child = some elder)
      node elder → elder < node := by
    intro elder reached
    induction reached with
    | single step => exact older _ _ step
    | tail _ step ih => exact Nat.lt_trans (older _ _ step) ih
  exact Nat.lt_irrefl node (smaller node cycle)

theorem Older.lineage (older : Older parent) (node : Nat) : ∃ chain, Lineage parent node chain := by
  induction node using Nat.strongRecOn with
  | ind node ih =>
    cases next : parent node with
    | none => exact ⟨[node], .root next⟩
    | some elder =>
      obtain ⟨rest, further⟩ := ih elder (older node elder next)
      exact ⟨node :: rest, .child next further⟩

theorem Lineage.head (lineage : Lineage parent node chain) : chain.head? = some node := by
  cases lineage with
  | root => rfl
  | child => rfl

theorem Lineage.last_root (lineage : Lineage parent node chain) {root : Nat}
    (ends : chain.getLast? = some root) : parent root = none := by
  induction lineage with
  | root last =>
    obtain rfl := Option.some.inj ends
    exact last
  | @child node elder rest _ further ih =>
    apply ih
    obtain ⟨first, others, rfl⟩ : ∃ first others, rest = first :: others := by
      cases further with
      | root => exact ⟨_, _, rfl⟩
      | child => exact ⟨_, _, rfl⟩
    exact ends

theorem Lineage.mem_iff (lineage : Lineage parent node chain) :
    elder ∈ chain ↔ Ancestor parent node elder := by
  induction lineage with
  | root last =>
    rw [List.mem_singleton]
    constructor
    · rintro rfl
      exact Relation.ReflTransGen.refl
    · intro reached
      rcases Relation.ReflTransGen.cases_head reached with same | ⟨next, step, -⟩
      · exact same.symm
      · rw [last] at step
        cases step
  | child next further ih =>
    rw [List.mem_cons, ih]
    constructor
    · rintro (rfl | reached)
      · exact Relation.ReflTransGen.refl
      · exact Relation.ReflTransGen.head next reached
    · intro reached
      rcases Relation.ReflTransGen.cases_head reached with same | ⟨middle, step, rest⟩
      · exact Or.inl same.symm
      · obtain rfl := Option.some.inj (next.symm.trans step)
        exact Or.inr rest

end Chains

section Growth

variable {parent later : Nat → Option Nat} {node elder bound : Nat} {chain : List Nat}

def SameBelow (bound : Nat) (parent later : Nat → Option Nat) : Prop :=
  ∀ node, node ≤ bound → later node = parent node

theorem Lineage.grown (lineage : Lineage parent node chain) (older : Older parent)
    (same : SameBelow bound parent later) (below : node ≤ bound) : Lineage later node chain := by
  induction lineage with
  | root last => exact .root ((same _ below).trans last)
  | child next _ ih =>
    exact .child ((same _ below).trans next)
      (ih (Nat.le_trans (Nat.le_of_lt (older _ _ next)) below))

theorem Ancestor.grown (reached : Ancestor parent node elder) (older : Older parent)
    (same : SameBelow bound parent later) (below : node ≤ bound) :
    Ancestor later node elder := by
  obtain ⟨chain, lineage⟩ := older.lineage node
  exact (lineage.grown older same below).mem_iff.mp (lineage.mem_iff.mpr reached)

end Growth

end Defender.Library.ParentChain
