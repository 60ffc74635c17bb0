import Defender.Learning.DraftTree

/-!
# Reading a draft

The walk of a draft gives every regular file below it, in some order, or is
refused: it is accepted exactly when each entry listed is a folder or a plain
file within the read limit. What the claim then holds is the difference between
two maps from paths to bytes.
-/

namespace Defender.Learning.Draft

open Defender.Python Defender.Library.OrderedDict Defender.Library.PathTree
open Defender.Library.Wire

section Walk

variable {inodes : Inodes}

def fileOf (item : Str × Option DraftLeaf) : Option (Str × Bytes) :=
  match item.2 with
  | some (.file _ data) => some (item.1, data)
  | _ => none

def filesBelow (front : Str) (entries : Folder DraftLeaf) : List (Str × Bytes) :=
  (listingBelow front entries).filterMap fileOf

def Readable (inodes : Inodes) (item : Str × Option DraftLeaf) : Prop :=
  match item.2 with
  | none => True
  | some (.file inode data) => data.length ≤ readLimit ∧ inodes.links inode ≤ 1
  | some (.special _) => False

def frontOf (folder : Str) : Str := if folder = [] then [] else folder ++ ['/']

theorem below_eq (folder name : Str) : below folder name = frontOf folder ++ name := by
  unfold below frontOf
  split
  · rfl
  · simp

theorem front_of_below {folder name : Str} (plain : PlainName name) :
    frontOf (below folder name) = frontOf folder ++ name ++ ['/'] := by
  have filled : below folder name ≠ [] := by
    rw [below_eq]
    simp [plain.1]
  rw [frontOf, if_neg filled, below_eq]

def listingAt (waiting : Str × Folder DraftLeaf) : List (Str × Option DraftLeaf) :=
  listingBelow (frontOf waiting.1) waiting.2

theorem read_folder_spec {folder : Str} {entries : Folder DraftLeaf}
    (plain : ∀ entry ∈ entries, PlainName entry.1 ∧ entry.2.WellFormed) :
    match readFolder inodes folder entries with
    | .ok (pending, files) =>
      (files ++ pending.flatMap fun waiting => (listingAt waiting).filterMap fileOf).Perm
          (filesBelow (frontOf folder) entries) ∧
        (∀ waiting ∈ pending, FolderWellFormed waiting.2) ∧
        ((∀ item ∈ listingBelow (frontOf folder) entries, Readable inodes item) ↔
          ∀ waiting ∈ pending, ∀ item ∈ listingAt waiting, Readable inodes item)
    | .error _ => ∃ item ∈ listingBelow (frontOf folder) entries, ¬ Readable inodes item := by
  induction entries with
  | nil => simp [readFolder, filesBelow, listingBelow]
  | cons entry rest induction =>
    obtain ⟨name, entry⟩ := entry
    rw [List.forall_mem_cons] at plain
    have others := induction plain.2
    cases entry with
    | folder children =>
      have front : frontOf (below folder name) = frontOf folder ++ name ++ ['/'] :=
        front_of_below plain.1.1
      have formed := plain.1.2
      rw [Entry.WellFormed] at formed
      have listed : listingBelow (frontOf folder) ((name, .folder children) :: rest) =
          (below folder name, none) :: listingAt (below folder name, children) ++
            listingBelow (frontOf folder) rest := by
        rw [listingBelow, Entry.listing, listingAt, front, below_eq]
      rw [readFolder, filesBelow, listed]
      cases read : readFolder inodes folder rest with
      | error refused =>
        rw [read] at others
        obtain ⟨item, inside, refusedItem⟩ := others
        exact ⟨item, List.mem_append_right _ inside, refusedItem⟩
      | ok result =>
        obtain ⟨pending, files⟩ := result
        rw [read] at others
        obtain ⟨same, pendingFormed, readable⟩ := others
        dsimp only [bind, Except.bind, pure, Except.pure]
        refine ⟨?_, ?_, ?_⟩
        · rw [List.flatMap_cons, List.filterMap_append, List.filterMap_cons_none rfl]
          refine List.Perm.trans ?_ (same.append_left _)
          exact (List.perm_append_comm_assoc _ _ _)
        · rw [List.forall_mem_cons]
          exact ⟨formed, pendingFormed⟩
        · rw [List.forall_mem_cons, ← readable, List.cons_append, List.forall_mem_cons,
            List.forall_mem_append]
          exact and_iff_right trivial
    | leaf leaf =>
      have listed : listingBelow (frontOf folder) ((name, .leaf leaf) :: rest) =
          (below folder name, some leaf) :: listingBelow (frontOf folder) rest := by
        rw [listingBelow, Entry.listing, below_eq]
        rfl
      rw [filesBelow, listed]
      cases leaf with
      | special kind => exact ⟨_, List.mem_cons_self, fun readable => readable⟩
      | file inode data =>
        rw [readFolder]
        by_cases large : readLimit < data.length
        · rw [if_pos large]
          exact ⟨_, List.mem_cons_self, fun readable => absurd readable.1 (Nat.not_le.mpr large)⟩
        · rw [if_neg large]
          by_cases linked : 1 < inodes.links inode
          · rw [if_pos linked]
            exact ⟨_, List.mem_cons_self,
              fun readable => absurd readable.2 (Nat.not_le.mpr linked)⟩
          · rw [if_neg linked]
            cases read : readFolder inodes folder rest with
            | error refused =>
              rw [read] at others
              obtain ⟨item, inside, refusedItem⟩ := others
              exact ⟨item, List.mem_cons_of_mem _ inside, refusedItem⟩
            | ok result =>
              obtain ⟨pending, files⟩ := result
              rw [read] at others
              obtain ⟨same, pendingFormed, readable⟩ := others
              dsimp only [bind, Except.bind, pure, Except.pure]
              refine ⟨?_, pendingFormed, ?_⟩
              · rw [List.cons_append]
                exact same.cons _
              · rw [← readable, List.forall_mem_cons]
                exact and_iff_right ⟨Nat.not_lt.mp large, Nat.not_lt.mp linked⟩

theorem listing_sorted (front : Str) (entries : Folder DraftLeaf) :
    (listingBelow front (sortedItems entries)).Perm (listingBelow front entries) := by
  rw [listing_below_flat, listing_below_flat]
  exact (sorted_items_perm entries).flatMap_right _

/-- What the walk of a stack of folders gives: every file below them, or an
entry that it does not read. -/
theorem walk_folders_spec (stack : List (Str × Folder DraftLeaf))
    (formed : ∀ waiting ∈ stack, FolderWellFormed waiting.2) :
    match walkFolders inodes stack with
    | .ok found =>
      found.Perm (stack.flatMap fun waiting => (listingAt waiting).filterMap fileOf) ∧
        ∀ waiting ∈ stack, ∀ item ∈ listingAt waiting, Readable inodes item
    | .error _ => ∃ waiting ∈ stack, ∃ item ∈ listingAt waiting, ¬ Readable inodes item := by
  fun_induction walkFolders inodes stack with
  | case1 => simp
  | case2 folder entries rest refused read =>
    rw [List.forall_mem_cons] at formed
    have plain : ∀ entry ∈ sortedItems entries, PlainName entry.1 ∧ entry.2.WellFormed :=
      fun entry member => ((folder_well_formed_iff entries).mp formed.1).2 entry
        ((sorted_items_perm entries).mem_iff.mp member)
    have spec : ∃ item ∈ listingBelow (frontOf folder) (sortedItems entries),
        ¬ Readable inodes item := by
      have whole := @read_folder_spec inodes folder _ plain
      rw [read] at whole
      exact whole
    obtain ⟨item, inside, unread⟩ := spec
    exact ⟨_, List.mem_cons_self, item, (listing_sorted _ entries).mem_iff.mp inside, unread⟩
  | case3 folder entries rest pending files read induction =>
    rw [List.forall_mem_cons] at formed
    have plain : ∀ entry ∈ sortedItems entries, PlainName entry.1 ∧ entry.2.WellFormed :=
      fun entry member => ((folder_well_formed_iff entries).mp formed.1).2 entry
        ((sorted_items_perm entries).mem_iff.mp member)
    have whole := @read_folder_spec inodes folder _ plain
    rw [read] at whole
    obtain ⟨same, pendingFormed, readable⟩ := whole
    have here : (∀ item ∈ listingAt (folder, entries), Readable inodes item) ↔
        ∀ waiting ∈ pending, ∀ item ∈ listingAt waiting, Readable inodes item := by
      rw [← readable]
      constructor
      · exact fun all item inside => all item ((listing_sorted _ entries).mem_iff.mp inside)
      · exact fun all item inside => all item ((listing_sorted _ entries).mem_iff.mpr inside)
    have stackFormed : ∀ waiting ∈ pending.reverse ++ rest, FolderWellFormed waiting.2 := by
      intro waiting member
      rcases List.mem_append.mp member with isPending | isRest
      · exact pendingFormed waiting (List.mem_reverse.mp isPending)
      · exact formed.2 waiting isRest
    have onwards := induction stackFormed
    cases walked : walkFolders inodes (pending.reverse ++ rest) with
    | error refused =>
      rw [walked] at onwards
      obtain ⟨waiting, member, item, inside, unread⟩ := onwards
      rcases List.mem_append.mp member with isPending | isRest
      · have blocked : ¬ ∀ item ∈ listingAt (folder, entries), Readable inodes item := by
          rw [here]
          exact fun all => unread (all waiting (List.mem_reverse.mp isPending) item inside)
        simp only [not_forall] at blocked
        obtain ⟨item, inside, unread⟩ := blocked
        exact ⟨_, List.mem_cons_self, item, inside, unread⟩
      · exact ⟨waiting, List.mem_cons_of_mem _ isRest, item, inside, unread⟩
    | ok others =>
      rw [walked] at onwards
      obtain ⟨found, allReadable⟩ := onwards
      dsimp only [bind, Except.bind, pure, Except.pure]
      refine ⟨?_, ?_⟩
      · have own : ((listingAt (folder, entries)).filterMap fileOf).Perm
            (files ++ pending.flatMap fun waiting => (listingAt waiting).filterMap fileOf) :=
          (((listing_sorted _ entries).symm.filterMap fileOf).trans same.symm)
        rw [List.flatMap_cons]
        refine List.Perm.trans ?_ (own.symm.append_right _)
        rw [List.append_assoc]
        refine List.Perm.append_left files (found.trans ?_)
        rw [List.flatMap_append]
        exact ((List.reverse_perm pending).flatMap_right _).append_right _
      · rw [List.forall_mem_cons, here]
        exact ⟨fun waiting member =>
            allReadable waiting (List.mem_append_left _ (List.mem_reverse.mpr member)),
          fun waiting member => allReadable waiting (List.mem_append_right _ member)⟩

theorem regular_files_ok {tree : DraftTree} (formed : FolderWellFormed tree.agent)
    {found : List (Str × Bytes)} (read : regularFiles tree = .ok found) :
    found.Perm (filesBelow [] tree.agent) ∧
      ∀ item ∈ listingBelow [] tree.agent, Readable tree.inodes item := by
  have spec := @walk_folders_spec tree.inodes [([], tree.agent)] (by simpa using formed)
  rw [regularFiles] at read
  rw [read] at spec
  obtain ⟨same, readable⟩ := spec
  rw [List.flatMap_singleton] at same
  exact ⟨same, readable _ (List.mem_singleton.mpr rfl)⟩

theorem regular_files_readable {tree : DraftTree} (formed : FolderWellFormed tree.agent)
    (readable : ∀ item ∈ listingBelow [] tree.agent, Readable tree.inodes item) :
    ∃ found, regularFiles tree = .ok found := by
  have spec := @walk_folders_spec tree.inodes [([], tree.agent)] (by simpa using formed)
  unfold regularFiles
  cases walked : walkFolders tree.inodes [([], tree.agent)] with
  | ok found => exact ⟨found, rfl⟩
  | error refused =>
    rw [walked] at spec
    obtain ⟨waiting, member, item, inside, unread⟩ := spec
    rw [List.mem_singleton] at member
    subst member
    exact absurd (readable item inside) unread

theorem mem_files_below {front path : Str} {entries : Folder DraftLeaf} {data : Bytes} :
    (path, data) ∈ filesBelow front entries ↔
      ∃ inode, (path, some (.file inode data)) ∈ listingBelow front entries := by
  simp only [filesBelow, List.mem_filterMap]
  constructor
  · rintro ⟨⟨place, there⟩, listed, found⟩
    match there with
    | none => cases found
    | some (.special kind) => cases found
    | some (.file inode held) =>
      cases found
      exact ⟨inode, listed⟩
  · rintro ⟨inode, listed⟩
    exact ⟨_, listed, rfl⟩

theorem files_below_once {front : Str} {entries : Folder DraftLeaf}
    (formed : FolderWellFormed entries) : ((filesBelow front entries).map Prod.fst).Nodup := by
  have paths : ((filesBelow front entries).map Prod.fst).Sublist
      ((listingBelow front entries).map Prod.fst) := by
    have general : ∀ items : List (Str × Option DraftLeaf),
        ((items.filterMap fileOf).map Prod.fst).Sublist (items.map Prod.fst) := by
      intro items
      induction items with
      | nil => exact List.Sublist.refl _
      | cons item rest induction =>
        obtain ⟨path, there⟩ := item
        match there with
        | none => exact induction.cons _
        | some (.special kind) => exact induction.cons _
        | some (.file inode data) => exact induction.cons_cons _
    exact general _
  exact (listing_below_nodup entries front formed).sublist paths

end Walk

section Changes

variable (casefold : Str → Str)

theorem lookup_of_perm {first second : List (Str × Bytes)} (same : first.Perm second)
    (once : (second.map Prod.fst).Nodup) (path : Str) :
    Dict.lookup path first = Dict.lookup path second := by
  have firstOnce : (first.map Prod.fst).Nodup := (same.map Prod.fst).nodup_iff.mpr once
  apply Option.ext
  intro data
  rw [Dict.lookup_eq_some_iff firstOnce, Dict.lookup_eq_some_iff once, same.mem_iff]

theorem collect_nothing {lanes : List Str} {base draft : List (Str × Bytes)}
    (same : ∀ path, Dict.lookup path draft = Dict.lookup path base) (paths : List Str) :
    collectChanges casefold lanes base draft paths = .ok [] := by
  induction paths with
  | nil => rfl
  | cons path rest induction => rw [collectChanges, if_pos (same path), induction]

theorem collect_ok {lanes : List Str} {base draft : List (Str × Bytes)} {paths : List Str}
    {changes : List AgentChange}
    (collected : collectChanges casefold lanes base draft paths = .ok changes) :
    changes = (paths.filter fun path => Dict.lookup path draft ≠ Dict.lookup path base).map
      fun path => { path := "agent/" ++ path, content := Dict.lookup path draft } := by
  induction paths generalizing changes with
  | nil =>
    cases collected
    rfl
  | cons path rest induction =>
    rw [collectChanges] at collected
    by_cases same : Dict.lookup path draft = Dict.lookup path base
    · rw [if_pos same] at collected
      rw [List.filter_cons_of_neg (by simp [same])]
      exact induction collected
    · rw [if_neg same] at collected
      obtain ⟨_, -, checked⟩ := except_bind_ok.mp collected
      obtain ⟨_, -, inside⟩ := except_bind_ok.mp checked
      obtain ⟨others, ranOthers, whole⟩ := except_bind_ok.mp inside
      cases whole
      rw [List.filter_cons_of_pos (by simp [same]), List.map_cons, induction ranOthers]

end Changes

end Defender.Learning.Draft
