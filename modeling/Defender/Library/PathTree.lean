import Mathlib.Data.List.Nodup
import Mathlib.Data.List.Infix

/-!
# Trees of named entries

A folder is a list of named entries; an entry is a leaf or a folder. A tree is
listed under path texts, the names on the way joined by `/`. In a well-formed
tree the names of a folder are distinct and none holds the separator, so a path
is listed once and a leaf has nothing below it.
-/

namespace Defender.Library.PathTree

inductive Entry (Leaf : Type) where
  | leaf (leaf : Leaf)
  | folder (entries : List (List Char × Entry Leaf))

section

variable {Leaf : Type}

abbrev Folder (Leaf : Type) := List (List Char × Entry Leaf)

/-- A name that an entry of a folder can have. -/
def PlainName (name : List Char) : Prop := name ≠ [] ∧ '/' ∉ name

mutual

def Entry.WellFormed : Entry Leaf → Prop
  | .leaf _ => True
  | .folder entries => FolderWellFormed entries

def FolderWellFormed : List (List Char × Entry Leaf) → Prop
  | [] => True
  | (name, entry) :: rest =>
    PlainName name ∧ name ∉ rest.map Prod.fst ∧ entry.WellFormed ∧ FolderWellFormed rest

end

mutual

def Entry.listing (path : List Char) : Entry Leaf → List (List Char × Option Leaf)
  | .leaf leaf => [(path, some leaf)]
  | .folder entries => (path, none) :: listingBelow (path ++ ['/']) entries

def listingBelow (front : List Char) :
    List (List Char × Entry Leaf) → List (List Char × Option Leaf)
  | [] => []
  | (name, entry) :: rest => entry.listing (front ++ name) ++ listingBelow front rest

end

theorem folder_well_formed_iff (entries : Folder Leaf) :
    FolderWellFormed entries ↔
      (entries.map Prod.fst).Nodup ∧
        ∀ entry ∈ entries, PlainName entry.1 ∧ entry.2.WellFormed := by
  induction entries with
  | nil => simp [FolderWellFormed]
  | cons entry rest induction =>
    obtain ⟨name, tree⟩ := entry
    simp only [FolderWellFormed, induction, List.map_cons, List.nodup_cons, List.forall_mem_cons]
    tauto

theorem listing_below_flat (front : List Char) (entries : Folder Leaf) :
    listingBelow front entries =
      entries.flatMap fun entry => entry.2.listing (front ++ entry.1) := by
  induction entries with
  | nil => rfl
  | cons entry rest induction => rw [listingBelow, induction, List.flatMap_cons]

theorem mem_listing_below {front : List Char} {entries : Folder Leaf}
    {item : List Char × Option Leaf} :
    item ∈ listingBelow front entries ↔
      ∃ entry ∈ entries, item ∈ entry.2.listing (front ++ entry.1) := by
  rw [listing_below_flat, List.mem_flatMap]

mutual

theorem listing_length (entry : Entry Leaf) (path other : List Char) :
    (entry.listing path).length = (entry.listing other).length := by
  cases entry with
  | leaf leaf => rfl
  | folder entries =>
    rw [Entry.listing, Entry.listing, List.length_cons, List.length_cons,
      listing_below_length entries (path ++ ['/']) (other ++ ['/'])]

theorem listing_below_length (entries : List (List Char × Entry Leaf)) (front other : List Char) :
    (listingBelow front entries).length = (listingBelow other entries).length := by
  cases entries with
  | nil => rfl
  | cons entry rest =>
    obtain ⟨name, tree⟩ := entry
    rw [listingBelow, listingBelow, List.length_append, List.length_append,
      listing_length tree (front ++ name) (other ++ name), listing_below_length rest front other]

end

/-- A path at or below `path`. -/
def Within (path other : List Char) : Prop := other = path ∨ (path ++ ['/']) <+: other

mutual

theorem listing_within (entry : Entry Leaf) (path : List Char) {item : List Char × Option Leaf}
    (listed : item ∈ entry.listing path) : Within path item.1 := by
  cases entry with
  | leaf leaf =>
    rw [Entry.listing, List.mem_singleton] at listed
    exact Or.inl (by rw [listed])
  | folder entries =>
    rw [Entry.listing, List.mem_cons] at listed
    rcases listed with rfl | below
    · exact Or.inl rfl
    · exact Or.inr (listing_below_within entries (path ++ ['/']) below)

theorem listing_below_within (entries : List (List Char × Entry Leaf)) (front : List Char)
    {item : List Char × Option Leaf} (listed : item ∈ listingBelow front entries) :
    front <+: item.1 := by
  cases entries with
  | nil => cases listed
  | cons entry rest =>
    obtain ⟨name, tree⟩ := entry
    rw [listingBelow, List.mem_append] at listed
    rcases listed with here | later
    · rcases listing_within tree (front ++ name) here with same | below
      · rw [same]
        exact List.prefix_append _ _
      · rw [List.append_assoc] at below
        exact (List.prefix_append _ _).trans below
    · exact listing_below_within rest front later

end

theorem within_cut {path other : List Char} (within : Within path other) :
    ∃ rest, other = path ++ rest ∧ (rest = [] ∨ ['/'] <+: rest) := by
  rcases within with rfl | ⟨rest, rfl⟩
  · exact ⟨[], (List.append_nil _).symm, Or.inl rfl⟩
  · exact ⟨'/' :: rest, by simp, Or.inr ⟨rest, rfl⟩⟩

theorem takeWhile_name {name rest : List Char} (plain : '/' ∉ name)
    (ends : rest = [] ∨ ['/'] <+: rest) : (name ++ rest).takeWhile (· ≠ '/') = name := by
  have all : ∀ char ∈ name, decide (char ≠ '/') = true := by
    intro char member
    have differs : char ≠ '/' := fun same => plain (same ▸ member)
    simpa using differs
  rw [List.takeWhile_append_of_pos all]
  rcases ends with rfl | ⟨others, rfl⟩
  · simp
  · simp

/-- The name behind `front` is read off a path. -/
theorem within_name {front name other path : List Char} (plain : '/' ∉ name)
    (plainOther : '/' ∉ other) (within : Within (front ++ name) path)
    (withinOther : Within (front ++ other) path) : name = other := by
  obtain ⟨rest, same, ends⟩ := within_cut within
  obtain ⟨restOther, sameOther, endsOther⟩ := within_cut withinOther
  rw [same, List.append_assoc, List.append_assoc] at sameOther
  have tails : name ++ rest = other ++ restOther := List.append_cancel_left sameOther
  rw [← takeWhile_name plain ends, tails, takeWhile_name plainOther endsOther]

mutual

theorem listing_nodup (entry : Entry Leaf) (path : List Char) (wellFormed : entry.WellFormed) :
    ((entry.listing path).map Prod.fst).Nodup := by
  cases entry with
  | leaf leaf => simp [Entry.listing]
  | folder entries =>
    rw [Entry.WellFormed] at wellFormed
    rw [Entry.listing, List.map_cons, List.nodup_cons]
    refine ⟨?_, listing_below_nodup entries _ wellFormed⟩
    intro member
    obtain ⟨item, listed, same⟩ := List.mem_map.mp member
    have longer := (listing_below_within entries _ listed).length_le
    rw [same] at longer
    simp only [List.length_append, List.length_singleton] at longer
    omega

theorem listing_below_nodup (entries : List (List Char × Entry Leaf)) (front : List Char)
    (wellFormed : FolderWellFormed entries) :
    ((listingBelow front entries).map Prod.fst).Nodup := by
  cases entries with
  | nil => simp [listingBelow]
  | cons entry rest =>
    obtain ⟨name, tree⟩ := entry
    rw [FolderWellFormed] at wellFormed
    obtain ⟨plain, fresh, treeFine, restFine⟩ := wellFormed
    rw [listingBelow, List.map_append, List.nodup_append]
    refine ⟨listing_nodup tree _ treeFine, listing_below_nodup rest front restFine, ?_⟩
    intro path here other later same
    subst same
    obtain ⟨item, listed, rfl⟩ := List.mem_map.mp here
    obtain ⟨itemLater, listedLater, samePath⟩ := List.mem_map.mp later
    obtain ⟨sibling, inRest, below⟩ := mem_listing_below.mp listedLater
    have plainSibling := (((folder_well_formed_iff rest).mp restFine).2 sibling inRest).1
    have within := listing_within tree _ listed
    have withinSibling := listing_within sibling.2 _ below
    rw [samePath] at withinSibling
    have sameName := within_name plain.2 plainSibling.2 within withinSibling
    exact fresh (List.mem_map.mpr ⟨sibling, inRest, sameName.symm⟩)

end

mutual

theorem leaf_ends (entry : Entry Leaf) (path : List Char) (wellFormed : entry.WellFormed)
    {leaf : Leaf} {place other : List Char} {there : Option Leaf}
    (listed : (place, some leaf) ∈ entry.listing path)
    (otherListed : (other, there) ∈ entry.listing path) : ¬ (place ++ ['/']) <+: other := by
  cases entry with
  | leaf held =>
    simp only [Entry.listing, List.mem_singleton, Prod.mk.injEq] at listed otherListed
    rw [listed.1, otherListed.1]
    intro longer
    have sizes := longer.length_le
    simp only [List.length_append, List.length_singleton] at sizes
    omega
  | folder entries =>
    rw [Entry.WellFormed] at wellFormed
    simp only [Entry.listing, List.mem_cons, Prod.mk.injEq, reduceCtorEq, and_false, false_or]
      at listed otherListed
    rcases otherListed with ⟨rfl, -⟩ | below
    · intro longer
      have inside := listing_below_within entries _ listed
      have sizes := longer.length_le
      have sizesInside := inside.length_le
      simp only [List.length_append, List.length_singleton] at sizes sizesInside
      omega
    · exact leaf_ends_below entries _ wellFormed listed below

theorem leaf_ends_below (entries : List (List Char × Entry Leaf)) (front : List Char)
    (wellFormed : FolderWellFormed entries) {leaf : Leaf} {place other : List Char}
    {there : Option Leaf} (listed : (place, some leaf) ∈ listingBelow front entries)
    (otherListed : (other, there) ∈ listingBelow front entries) :
    ¬ (place ++ ['/']) <+: other := by
  cases entries with
  | nil => cases listed
  | cons entry rest =>
    obtain ⟨name, tree⟩ := entry
    have parts := (folder_well_formed_iff _).mp wellFormed
    rw [FolderWellFormed] at wellFormed
    obtain ⟨plain, fresh, treeFine, restFine⟩ := wellFormed
    -- A path below another keeps its first name, so both lie in one entry.
    intro longer
    have sameName : ∀ first ∈ (name, tree) :: rest, ∀ second ∈ (name, tree) :: rest,
        (place, some leaf) ∈ first.2.listing (front ++ first.1) →
        (other, there) ∈ second.2.listing (front ++ second.1) → first.1 = second.1 := by
      intro first inFirst second inSecond listedFirst listedSecond
      have within := listing_within first.2 _ listedFirst
      have withinSecond := listing_within second.2 _ listedSecond
      have deeper : Within (front ++ first.1) other := by
        rcases within with same | below
        · exact Or.inr (same ▸ longer)
        · exact Or.inr (below.trans ((List.prefix_append _ _).trans longer))
      exact within_name (parts.2 first inFirst).1.2 (parts.2 second inSecond).1.2 deeper
        withinSecond
    rw [listingBelow, List.mem_append] at listed otherListed
    rcases listed with here | later
    · rcases otherListed with hereOther | laterOther
      · exact leaf_ends tree _ treeFine here hereOther longer
      · obtain ⟨sibling, inRest, below⟩ := mem_listing_below.mp laterOther
        have same := sameName (name, tree) List.mem_cons_self sibling
          (List.mem_cons_of_mem _ inRest) here below
        exact fresh (List.mem_map.mpr ⟨sibling, inRest, same.symm⟩)
    · rcases otherListed with hereOther | laterOther
      · obtain ⟨sibling, inRest, below⟩ := mem_listing_below.mp later
        have same := sameName sibling (List.mem_cons_of_mem _ inRest) (name, tree)
          List.mem_cons_self below hereOther
        exact fresh (List.mem_map.mpr ⟨sibling, inRest, same⟩)
      · exact leaf_ends_below rest front restFine later laterOther longer

end

end

end Defender.Library.PathTree
