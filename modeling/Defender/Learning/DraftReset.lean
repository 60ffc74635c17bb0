import Defender.Learning.DraftClaim

/-!
# Resetting a draft

Whatever a box left below `agent/`, the sync gives back the batch's base: its
files with their bytes and the folders that hold them or a lane. One call of
`resyncAt` brings the entries below one folder to what the base has under that
folder's path; the induction is on the folders still to be entered.
-/

namespace Defender.Learning.Draft

open Defender.Python Defender.Library.OrderedDict Defender.Library.PathTree
open Defender.Library.Wire

section Paths

/-- A path none of whose components is empty or a dot segment. -/
def plainPath (path : Str) : Bool :=
  (splitOn '/' path).all fun part =>
    part != [] && part != ("." : Str) && part != (".." : Str)

theorem plain_path_cut (front rest : Str) :
    plainPath (front ++ '/' :: rest) = (plainPath front && plainPath rest) := by
  rw [plainPath, split_on_append, List.all_append]
  rfl

theorem plain_path_parts {path : Str} (plain : plainPath path = true) :
    (splitOn '/' path).filter (· ≠ []) = splitOn '/' path := by
  rw [List.filter_eq_self]
  intro part member
  have checked := List.all_eq_true.mp plain part member
  simp only [Bool.and_eq_true, bne_iff_ne] at checked
  simpa using checked.1.1

theorem mem_ancestors_iff {rel : Str} (plain : plainPath rel = true) (path : Str) :
    path ∈ ancestors rel ↔ Within path rel := by
  have whole := join_split_on '/' rel
  simp only [ancestors, plain_path_parts plain, List.mem_map, List.mem_range]
  constructor
  · rintro ⟨count, inside, rfl⟩
    by_cases last : (splitOn '/' rel).length ≤ count + 1
    · rw [List.take_of_length_le last, whole]
      exact Or.inl rfl
    · right
      have early : (splitOn '/' rel).take (count + 1) ≠ [] := by
        simp [split_on_ne_nil]
      have late : (splitOn '/' rel).drop (count + 1) ≠ [] := by
        rw [Ne, List.drop_eq_nil_iff]
        omega
      have cut := join_append ['/'] early late
      rw [List.take_append_drop, whole] at cut
      exact ⟨_, cut.symm⟩
  · intro within
    have filled : 0 < (splitOn '/' path).length :=
      List.length_pos_iff.mpr (split_on_ne_nil '/' path)
    refine ⟨(splitOn '/' path).length - 1, ?_, ?_⟩
    · rcases within with rfl | ⟨rest, rfl⟩
      · omega
      · rw [List.append_assoc, List.singleton_append, split_on_append, List.length_append]
        have more : 0 < (splitOn '/' rest).length :=
          List.length_pos_iff.mpr (split_on_ne_nil '/' rest)
        omega
    · rw [Nat.sub_add_cancel filled]
      rcases within with rfl | ⟨rest, rfl⟩
      · rw [List.take_length, whole]
      · rw [List.append_assoc, List.singleton_append, split_on_append, List.take_left,
          join_split_on]

/-- The folder of a file has the ancestors that the file's path goes through. -/
theorem mem_parent_ancestors {file : Str} (plain : plainPath file = true) (path : Str) :
    path ∈ ancestors (rpartition ['/'] file).1 ↔ (path ++ ['/']) <+: file := by
  rcases rpartition_char '/' file with ⟨unmarked, empty⟩ | ⟨name, cut, unmarked⟩
  · rw [empty]
    constructor
    · intro member
      cases member
    · rintro ⟨rest, rfl⟩
      simp at unmarked
  · generalize (rpartition ['/'] file).1 = folder at cut ⊢
    subst cut
    rw [plain_path_cut, Bool.and_eq_true] at plain
    rw [mem_ancestors_iff plain.1]
    constructor
    · rintro (rfl | longer)
      · exact ⟨name, by simp⟩
      · exact longer.trans (List.prefix_append _ _)
    · rintro ⟨rest, same⟩
      rw [List.append_assoc, List.singleton_append] at same
      rcases List.append_eq_append_iff.mp same with ⟨more, rfl, tail⟩ | ⟨more, rfl, tail⟩
      · cases more with
        | nil => exact Or.inl (List.append_nil _)
        | cons char more =>
          rw [List.cons_append, List.cons.injEq] at tail
          rw [← tail.1]
          exact Or.inr ⟨more, by simp⟩
      · cases more with
        | nil => exact Or.inl (List.append_nil _).symm
        | cons char more =>
          rw [List.cons_append, List.cons.injEq] at tail
          rw [tail.2] at unmarked
          simp at unmarked

theorem mem_folders_of {files lanes : List Str}
    (filesPlain : ∀ file ∈ files, plainPath file = true)
    (lanesPlain : ∀ lane ∈ lanes, plainPath lane = true) (path : Str) :
    path ∈ foldersOf files lanes ↔
      (∃ file ∈ files, (path ++ ['/']) <+: file) ∨ ∃ lane ∈ lanes, Within path lane := by
  have enrolled := mem_enrolled_iff
    ((files.map (fun file => (rpartition ['/'] file).1) ++ lanes).flatMap ancestors) [] path
  rw [foldersOf, dedup, enrolled]
  simp only [List.not_mem_nil, false_or, List.flatMap_append, List.flatMap_map, List.mem_append,
    List.mem_flatMap]
  constructor
  · rintro (⟨file, member, above⟩ | ⟨lane, member, above⟩)
    · exact Or.inl ⟨file, member, (mem_parent_ancestors (filesPlain file member) path).mp above⟩
    · exact Or.inr ⟨lane, member, (mem_ancestors_iff (lanesPlain lane member) path).mp above⟩
  · rintro (⟨file, member, above⟩ | ⟨lane, member, above⟩)
    · exact Or.inl ⟨file, member, (mem_parent_ancestors (filesPlain file member) path).mpr above⟩
    · exact Or.inr ⟨lane, member, (mem_ancestors_iff (lanesPlain lane member) path).mpr above⟩

theorem here_iff (front rel name : Str) :
    here front rel = some name ↔ rel = front ++ name ∧ '/' ∉ name := by
  unfold here startsWith
  constructor
  · intro found
    split at found
    case isTrue checked =>
      simp only [Bool.and_eq_true, List.isPrefixOf_iff_prefix, Bool.not_eq_true',
        List.contains_eq_mem, decide_eq_false_iff_not] at checked
      obtain ⟨⟨rest, rfl⟩, unmarked⟩ := checked
      rw [List.drop_left] at found unmarked
      cases found
      exact ⟨rfl, unmarked⟩
    case isFalse => cases found
  · rintro ⟨rfl, unmarked⟩
    simp [unmarked]

theorem cut_at_first (rest : Str) :
    '/' ∉ rest ∨ ∃ name more, rest = name ++ '/' :: more ∧ '/' ∉ name := by
  induction rest with
  | nil => exact Or.inl List.not_mem_nil
  | cons char rest induction =>
    by_cases mark : char = '/'
    · exact Or.inr ⟨[], rest, by rw [mark]; rfl, List.not_mem_nil⟩
    · rcases induction with unmarked | ⟨name, more, rfl, unmarked⟩
      · exact Or.inl (by simp [unmarked, Ne.symm mark])
      · exact Or.inr ⟨char :: name, more, rfl, by simp [unmarked, Ne.symm mark]⟩

/-- The path of a folder with its separator, or nothing for the top. -/
def FolderFront (front : Str) : Prop := front = [] ∨ ∃ folder, front = folder ++ ['/']

theorem plain_name_of_path {front name : Str} (isFront : FolderFront front)
    (plain : plainPath (front ++ name) = true) (unmarked : '/' ∉ name) : PlainName name := by
  refine ⟨?_, unmarked⟩
  rintro rfl
  rcases isFront with rfl | ⟨folder, rfl⟩
  · revert plain
    decide
  · rw [List.append_nil, plain_path_cut, Bool.and_eq_true] at plain
    exact absurd plain.2 (by decide)

end Paths

section Sync

variable {files : List (Str × Bytes)} {folders : List Str}

/-- What a base gives the sync: every path once, nothing both a file and a
folder, every folder on the way there. -/
structure Consistent (files : List (Str × Bytes)) (folders : List Str) : Prop where
  filesOnce : (files.map Prod.fst).Nodup
  foldersOnce : folders.Nodup
  apart : ∀ file ∈ files, file.1 ∉ folders
  filesPlain : ∀ file ∈ files, plainPath file.1 = true
  foldersPlain : ∀ folder ∈ folders, plainPath folder = true
  filesHeld : ∀ file ∈ files, ∀ path, (path ++ ['/']) <+: file.1 → path ∈ folders
  foldersHeld : ∀ folder ∈ folders, ∀ path, (path ++ ['/']) <+: folder → path ∈ folders

def Expected (files : List (Str × Bytes)) (folders : List Str) (inodes : Inodes)
    (item : Str × Option DraftLeaf) : Prop :=
  match item.2 with
  | none => item.1 ∈ folders
  | some (.file inode data) => (item.1, data) ∈ files ∧ inodes.links inode ≤ 1
  | some (.special _) => False

/-- The entries below `front` are the base's there. -/
structure Describes (files : List (Str × Bytes)) (folders : List Str) (inodes : Inodes)
    (front : Str) (entries : Folder DraftLeaf) : Prop where
  wellFormed : FolderWellFormed entries
  expected : ∀ item ∈ listingBelow front entries, Expected files folders inodes item
  foldersThere : ∀ folder ∈ folders, front <+: folder →
    (folder, none) ∈ listingBelow front entries
  filesThere : ∀ file ∈ files, front <+: file.1 →
    ∃ inode, (file.1, some (.file inode file.2)) ∈ listingBelow front entries

/-- No inode gains a name beyond its first. -/
def Fewer (before after : Inodes) : Prop :=
  ∀ inode, after.links inode ≤ max (before.links inode) 1

theorem fewer_refl (inodes : Inodes) : Fewer inodes inodes := fun _ => Nat.le_max_left _ _

theorem fewer_trans {before middle after : Inodes} (first : Fewer before middle)
    (second : Fewer middle after) : Fewer before after := by
  intro inode
  have one := first inode
  have two := second inode
  omega

theorem fewer_single {before after : Inodes} (fewer : Fewer before after) {inode : Nat}
    (single : before.links inode ≤ 1) : after.links inode ≤ 1 := by
  have bound := fewer inode
  omega

theorem fewer_create (inodes : Inodes) : Fewer inodes inodes.create := by
  intro inode
  simp only [Inodes.create]
  split <;> omega

theorem fewer_unlink (inodes : Inodes) (inode : Nat) : Fewer inodes (inodes.unlink inode) := by
  intro other
  simp only [Inodes.unlink]
  split <;> omega

theorem fewer_remove (inodes : Inodes) (entry : Entry DraftLeaf) :
    Fewer inodes (inodes.remove entry) := by
  unfold Inodes.remove
  generalize entry.listing [] = items
  induction items generalizing inodes with
  | nil => exact fewer_refl inodes
  | cons item rest induction =>
    rw [List.foldl_cons]
    split
    · exact fewer_trans (fewer_unlink inodes _) (induction _)
    · exact induction inodes

theorem expected_fewer {before after : Inodes} (fewer : Fewer before after)
    {item : Str × Option DraftLeaf} (expected : Expected files folders before item) :
    Expected files folders after item := by
  obtain ⟨path, there⟩ := item
  cases there with
  | none => exact expected
  | some leaf =>
    cases leaf with
    | special kind => exact expected
    | file inode data => exact ⟨expected.1, fewer_single fewer expected.2⟩

theorem describes_fewer {before after : Inodes} (fewer : Fewer before after) {front : Str}
    {entries : Folder DraftLeaf} (describes : Describes files folders before front entries) :
    Describes files folders after front entries where
  wellFormed := describes.wellFormed
  expected item listed := expected_fewer fewer (describes.expected item listed)
  foldersThere := describes.foldersThere
  filesThere := describes.filesThere

theorem mem_here_folders (front name : Str) :
    name ∈ hereFolders front folders ↔ front ++ name ∈ folders ∧ '/' ∉ name := by
  simp only [hereFolders, List.mem_filterMap, here_iff]
  constructor
  · rintro ⟨rel, member, rfl, unmarked⟩
    exact ⟨member, unmarked⟩
  · rintro ⟨member, unmarked⟩
    exact ⟨front ++ name, member, rfl, unmarked⟩

theorem mem_here_files (front name : Str) (data : Bytes) :
    (name, data) ∈ hereFiles front files ↔ (front ++ name, data) ∈ files ∧ '/' ∉ name := by
  simp only [hereFiles, List.mem_filterMap, Option.map_eq_some_iff, here_iff, Prod.mk.injEq]
  constructor
  · rintro ⟨⟨rel, held⟩, member, found, ⟨rfl, unmarked⟩, rfl, rfl⟩
    exact ⟨member, unmarked⟩
  · rintro ⟨member, unmarked⟩
    exact ⟨(front ++ name, data), member, name, ⟨rfl, unmarked⟩, rfl, rfl⟩

theorem here_injective (front first second name : Str) (isFirst : name ∈ here front first)
    (isSecond : name ∈ here front second) : first = second := by
  rw [((here_iff front first name).mp isFirst).1, ((here_iff front second name).mp isSecond).1]

theorem here_folders_once (consistent : Consistent files folders) (front : Str) :
    (hereFolders front folders).Nodup :=
  consistent.foldersOnce.filterMap (here_injective front)

theorem here_files_once (consistent : Consistent files folders) (front : Str) :
    ((hereFiles front files).map Prod.fst).Nodup := by
  have names : (hereFiles front files).map Prod.fst =
      (files.map Prod.fst).filterMap (here front) := by
    rw [hereFiles, List.map_filterMap, List.filterMap_map]
    congr 1
    funext file
    rw [Option.map_map, Function.comp_apply]
    exact Option.map_id'
  rw [names]
  exact consistent.filesOnce.filterMap (here_injective front)

theorem here_apart (consistent : Consistent files folders) {front name : Str} {data : Bytes}
    (file : (name, data) ∈ hereFiles front files) : name ∉ hereFolders front folders := by
  intro folder
  exact consistent.apart _ ((mem_here_files front name data).mp file).1
    ((mem_here_folders front name).mp folder).1

/-- A folder whose entries can be removed once it is entered, with a call fewer. -/
def OpenFolder (calls : Nat) (children : Folder DraftLeaf) : Prop :=
  ∀ entry ∈ children, opensWithin (calls - 1) entry.2 = true

theorem open_folder {calls : Nat} {children : Folder DraftLeaf}
    (opens : opensWithin calls (.folder children) = true) : OpenFolder calls children := by
  cases calls with
  | zero => cases opens
  | succ calls =>
    rw [opensWithin, List.all_eq_true] at opens
    exact opens

/-- An entry as the sync leaves it: a folder of the base, brought to the base
once it is done, or a file of the base. -/
def Fitting (files : List (Str × Bytes)) (folders : List Str) (calls : Nat) (front : Str)
    (done : List Str) (inodes : Inodes) (entry : Str × Entry DraftLeaf) : Prop :=
  (entry.1 ∈ hereFolders front folders ∧ ∃ children, entry.2 = .folder children ∧
    FolderWellFormed children ∧ (entry.1 ∉ done → OpenFolder calls children) ∧
    (entry.1 ∈ done → Describes files folders inodes (front ++ entry.1 ++ ['/']) children)) ∨
  ∃ inode data, (entry.1, data) ∈ hereFiles front files ∧
    entry.2 = .leaf (.file inode data) ∧ inodes.links inode ≤ 1

variable {calls : Nat}

theorem fitting_fewer {before after : Inodes} (fewer : Fewer before after) {front : Str}
    {done : List Str} {entry : Str × Entry DraftLeaf}
    (fitting : Fitting files folders calls front done before entry) :
    Fitting files folders calls front done after entry := by
  rcases fitting with
    ⟨isHere, children, same, wellFormed, opens, described⟩ | ⟨inode, data, isHere, same, single⟩
  · exact Or.inl ⟨isHere, children, same, wellFormed, opens,
      fun finished => describes_fewer fewer (described finished)⟩
  · exact Or.inr ⟨inode, data, isHere, same, fewer_single fewer single⟩

theorem holds_file {inodes : Inodes} {data : Bytes} {entry : Entry DraftLeaf}
    (held : holds inodes data entry = true) :
    ∃ inode, entry = .leaf (.file inode data) ∧ inodes.links inode ≤ 1 := by
  cases entry with
  | folder children => cases held
  | leaf leaf =>
    cases leaf with
    | special kind => cases held
    | file inode bytes =>
      simp only [holds, Bool.and_eq_true, Bool.not_eq_true', decide_eq_false_iff_not,
        Nat.not_lt, beq_iff_eq] at held
      have whole : bytes.take (data.length + 1) = bytes :=
        List.take_of_length_le (by omega)
      exact ⟨inode, by rw [← held.2, whole], held.1.1⟩

theorem sweep_fitting (consistent : Consistent files folders) (front : Str)
    (present : Folder DraftLeaf) (inodes : Inodes)
    (wellFormed : ∀ entry ∈ present, entry.2.WellFormed)
    (opens : ∀ entry ∈ present, opensWithin calls entry.2 = true) :
    ∃ held after,
      sweep (hereFiles front files) (hereFolders front folders) calls present inodes =
        .ok (held, after) ∧
      Fewer inodes after ∧ held.Sublist present ∧
      ∀ entry ∈ held, Fitting files folders calls front [] after entry := by
  induction present generalizing inodes with
  | nil => exact ⟨[], inodes, rfl, fewer_refl inodes, List.Sublist.refl _, by intros; contradiction⟩
  | cons entry rest induction =>
    obtain ⟨name, entry⟩ := entry
    have restFormed : ∀ other ∈ rest, other.2.WellFormed :=
      fun other member => wellFormed other (List.mem_cons_of_mem _ member)
    have restOpens : ∀ other ∈ rest, opensWithin calls other.2 = true :=
      fun other member => opens other (List.mem_cons_of_mem _ member)
    have entryOpens : opensWithin calls entry = true := opens (name, entry) List.mem_cons_self
    rw [sweep]
    split
    case isTrue kept =>
      obtain ⟨held, after, ran, fewer, sublist, fitting⟩ := induction inodes restFormed restOpens
      rw [ran]
      refine ⟨(name, entry) :: held, after, rfl, fewer, sublist.cons_cons _, ?_⟩
      rw [List.forall_mem_cons]
      refine ⟨fitting_fewer fewer ?_, fitting⟩
      simp only [keeps, Bool.or_eq_true, Bool.and_eq_true, List.contains_iff_mem] at kept
      rcases kept with ⟨isHere, folder⟩ | file
      · cases entry with
        | leaf leaf =>
          rw [isFolder, decide_eq_true_eq] at folder
          rw [opensWithin, folder] at entryOpens
          cases entryOpens
        | folder children =>
          have formed := wellFormed (name, .folder children) List.mem_cons_self
          rw [Entry.WellFormed] at formed
          exact Or.inl ⟨isHere, children, rfl, formed, fun _ => open_folder entryOpens,
            by intros; contradiction⟩
      · cases found : Dict.lookup name (hereFiles front files) with
        | none =>
          rw [found] at file
          cases file
        | some data =>
          rw [found] at file
          obtain ⟨inode, same, single⟩ := holds_file file
          have listed : (name, data) ∈ hereFiles front files :=
            (Dict.lookup_eq_some_iff (here_files_once consistent front)).mp found
          exact Or.inr ⟨inode, data, listed, same, single⟩
    case isFalse =>
      obtain ⟨held, after, ran, fewer, sublist, fitting⟩ :=
        induction (inodes.remove entry) restFormed restOpens
      exact ⟨held, after, ran, fewer_trans (fewer_remove inodes entry) fewer, sublist.cons _,
        fitting⟩

/-- The entries of a folder while its folders are entered in turn. -/
structure Partway (files : List (Str × Bytes)) (folders : List Str) (calls : Nat) (front : Str)
    (kept done : List Str) (entries : Folder DraftLeaf) (inodes : Inodes) : Prop where
  once : (entries.map Prod.fst).Nodup
  fitting : ∀ entry ∈ entries, Fitting files folders calls front done inodes entry
  named : ∀ name, name ∈ entries.map Prod.fst ↔ name ∈ kept ∨ name ∈ done

/-- The folder to enter is there, kept or made. -/
theorem folder_to_enter (consistent : Consistent files folders) {front name : Str}
    {kept done : List Str} {entries : Folder DraftLeaf} {inodes : Inodes}
    (partway : Partway files folders calls front kept done entries inodes)
    (isHere : name ∈ hereFolders front folders) (fresh : name ∉ done) :
    ∃ held children,
      makeMissing kept name entries = .ok held ∧
      (held.map Prod.fst).Nodup ∧ (name, .folder children) ∈ held ∧ FolderWellFormed children ∧
      OpenFolder calls children ∧
      (∀ entry ∈ held, entry.1 ≠ name → entry ∈ entries) ∧
      ∀ other, other ∈ held.map Prod.fst ↔ other ∈ kept ∨ other ∈ done ++ [name] := by
  rw [makeMissing, mkdir]
  by_cases isKept : name ∈ kept
  · rw [if_pos isKept]
    obtain ⟨⟨other, entry⟩, member, rfl⟩ :=
      List.mem_map.mp ((partway.named name).mpr (Or.inl isKept))
    rcases partway.fitting _ member with
      ⟨-, children, same, wellFormed, opens, -⟩ | ⟨inode, data, file, -, -⟩
    · dsimp only at same
      subst same
      refine ⟨entries, children, rfl, partway.once, member, wellFormed, opens fresh,
        fun _ inside _ => inside, fun name => ?_⟩
      rw [partway.named, List.mem_append, List.mem_singleton]
      constructor
      · rintro (known | known)
        · exact Or.inl known
        · exact Or.inr (Or.inl known)
      · rintro (known | known | rfl)
        · exact Or.inl known
        · exact Or.inr known
        · exact Or.inl isKept
    · exact absurd isHere (here_apart consistent file)
  · rw [if_neg isKept]
    have absent : name ∉ entries.map Prod.fst := by
      rw [partway.named]
      exact fun known => known.elim isKept fresh
    refine ⟨entries ++ [(name, .folder [])], [], if_neg absent, ?_, ?_, trivial, nofun, ?_, ?_⟩
    · rw [List.map_append, List.nodup_append]
      refine ⟨partway.once, List.nodup_singleton _, ?_⟩
      rintro known inside other added rfl
      rw [List.map_singleton, List.mem_singleton] at added
      rw [added] at inside
      exact absent inside
    · exact List.mem_append_right _ (List.mem_singleton.mpr rfl)
    · intro entry inside differs
      rcases List.mem_append.mp inside with known | added
      · exact known
      · rw [List.mem_singleton] at added
        exact absurd (congrArg Prod.fst added) differs
    · intro other
      rw [List.map_append, List.mem_append, partway.named, List.mem_append, List.map_singleton,
        or_assoc]

theorem enter_folders_partway (consistent : Consistent files folders) {front : Str}
    {below : Str → Folder DraftLeaf → Inodes → Except SyncFault (Folder DraftLeaf × Inodes)}
    (enters : ∀ name ∈ hereFolders front folders, ∀ children inodes, FolderWellFormed children →
      OpenFolder calls children → ∃ synced after, below name children inodes = .ok (synced, after) ∧
        Describes files folders after (front ++ name ++ ['/']) synced ∧ Fewer inodes after)
    (kept todo done : List Str) (entries : Folder DraftLeaf) (inodes : Inodes)
    (areHere : ∀ name ∈ todo, name ∈ hereFolders front folders) (once : (done ++ todo).Nodup)
    (partway : Partway files folders calls front kept done entries inodes) :
    ∃ entered after, enterFolders below kept todo entries inodes = .ok (entered, after) ∧
      Partway files folders calls front kept (done ++ todo) entered after ∧ Fewer inodes after := by
  induction todo generalizing done entries inodes with
  | nil => exact ⟨entries, inodes, rfl, by rwa [List.append_nil], fewer_refl inodes⟩
  | cons name rest induction =>
    have fresh : name ∉ done := by
      intro known
      have apart := (List.nodup_append.mp once).2.2 name known name List.mem_cons_self
      exact apart rfl
    obtain ⟨held, children, made, heldOnce, member, wellFormed, opens, others, named⟩ :=
      folder_to_enter consistent partway (areHere name List.mem_cons_self) fresh
    obtain ⟨synced, middle, ran, described, fewer⟩ :=
      enters name (areHere name List.mem_cons_self) children inodes wellFormed opens
    have next : Partway files folders calls front kept (done ++ [name])
        (Dict.setEntries name (.folder synced) held) middle := by
      refine ⟨Dict.nodup_set_entries heldOnce, ?_, ?_⟩
      · rintro ⟨other, entry⟩ inside
        rcases (Dict.mem_set_entries_iff heldOnce).mp inside with ⟨rfl, rfl⟩ | ⟨differs, known⟩
        · exact Or.inl ⟨areHere other List.mem_cons_self, synced, rfl, described.wellFormed,
            fun unfinished => absurd (List.mem_append_right _ List.mem_cons_self) unfinished,
            fun _ => described⟩
        · rcases fitting_fewer fewer (partway.fitting _ (others _ known differs)) with
            ⟨isHere, inner, same, formed, opens, finished⟩ | file
          · refine Or.inl ⟨isHere, inner, same, formed,
              fun unfinished => opens fun before => unfinished (List.mem_append_left _ before),
              fun isDone => finished ?_⟩
            rcases List.mem_append.mp isDone with before | now
            · exact before
            · exact absurd (List.mem_singleton.mp now) differs
          · exact Or.inr file
      · intro other
        have isHeld : name ∈ held.map Prod.fst := List.mem_map.mpr ⟨_, member, rfl⟩
        rw [Dict.keys_set_entries, if_pos isHeld, named]
    obtain ⟨entered, after, ranRest, partwayRest, fewerRest⟩ :=
      induction (done ++ [name]) _ middle
        (fun other inside => areHere other (List.mem_cons_of_mem _ inside)) (by simpa using once)
        next
    refine ⟨entered, after, ?_, by simpa using partwayRest, fewer_trans fewer fewerRest⟩
    rw [enterFolders, made]
    dsimp only [bind, Except.bind]
    rw [(Dict.lookup_eq_some_iff heldOnce).mpr member]
    dsimp only [bind, Except.bind]
    rw [ran]
    exact ranRest

theorem fitting_file_done (consistent : Consistent files folders) {front name : Str}
    {data : Bytes} {done : List Str} {inodes : Inodes} {entry : Str × Entry DraftLeaf}
    (file : (name, data) ∈ hereFiles front files)
    (fitting : Fitting files folders calls front done inodes entry) :
    Fitting files folders calls front (done ++ [name]) inodes entry := by
  rcases fitting with ⟨isHere, children, same, wellFormed, opens, described⟩ | isFile
  · refine Or.inl ⟨isHere, children, same, wellFormed,
      fun unfinished => opens fun before => unfinished (List.mem_append_left _ before),
      fun finished => described ?_⟩
    rcases List.mem_append.mp finished with before | now
    · exact before
    · rw [List.mem_singleton.mp now] at isHere
      exact absurd isHere (here_apart consistent file)
  · exact Or.inr isFile

theorem create_files_partway (consistent : Consistent files folders) {front : Str}
    (kept done : List Str) (todo : List (Str × Bytes)) (entries : Folder DraftLeaf)
    (inodes : Inodes) (areHere : ∀ file ∈ todo, file ∈ hereFiles front files)
    (once : (done ++ todo.map Prod.fst).Nodup)
    (partway : Partway files folders calls front kept done entries inodes) :
    ∃ created after, createFiles kept todo entries inodes = .ok (created, after) ∧
      Partway files folders calls front kept (done ++ todo.map Prod.fst) created after ∧
      Fewer inodes after := by
  induction todo generalizing done entries inodes with
  | nil => exact ⟨entries, inodes, rfl, by simpa using partway, fewer_refl inodes⟩
  | cons file rest induction =>
    obtain ⟨name, data⟩ := file
    have isHere := areHere (name, data) List.mem_cons_self
    have restHere : ∀ file ∈ rest, file ∈ hereFiles front files :=
      fun file inside => areHere file (List.mem_cons_of_mem _ inside)
    have restOnce : (done ++ [name] ++ rest.map Prod.fst).Nodup := by simpa using once
    have fresh : name ∉ done := by
      intro known
      have apart := (List.nodup_append.mp once).2.2 name known name List.mem_cons_self
      exact apart rfl
    rw [createFiles]
    by_cases isKept : name ∈ kept
    · have next : Partway files folders calls front kept (done ++ [name]) entries inodes := by
        refine ⟨partway.once, fun entry inside =>
          fitting_file_done consistent isHere (partway.fitting entry inside), fun other => ?_⟩
        rw [partway.named, List.mem_append, List.mem_singleton]
        constructor
        · rintro (known | known)
          · exact Or.inl known
          · exact Or.inr (Or.inl known)
        · rintro (known | known | rfl)
          · exact Or.inl known
          · exact Or.inr known
          · exact Or.inl isKept
      obtain ⟨created, after, ran, finished, fewer⟩ :=
        induction (done ++ [name]) entries inodes restHere restOnce next
      rw [if_pos isKept]
      exact ⟨created, after, ran, by simpa using finished, fewer⟩
    · have absent : name ∉ entries.map Prod.fst := by
        rw [partway.named]
        exact fun known => known.elim isKept fresh
      have single : inodes.create.links inodes.next ≤ 1 := by simp [Inodes.create]
      have next : Partway files folders calls front kept (done ++ [name])
          (entries ++ [(name, .leaf (.file inodes.next data))]) inodes.create := by
        refine ⟨?_, ?_, ?_⟩
        · rw [List.map_append, List.map_singleton, List.nodup_append]
          refine ⟨partway.once, List.nodup_singleton _, ?_⟩
          rintro known inside other added rfl
          rw [List.mem_singleton] at added
          rw [added] at inside
          exact absent inside
        · intro entry inside
          rcases List.mem_append.mp inside with known | added
          · exact fitting_file_done consistent isHere
              (fitting_fewer (fewer_create inodes) (partway.fitting entry known))
          · rw [List.mem_singleton] at added
            subst added
            exact Or.inr ⟨inodes.next, data, isHere, rfl, single⟩
        · intro other
          rw [List.map_append, List.mem_append, partway.named, List.mem_append,
            List.map_singleton, or_assoc]
      obtain ⟨created, after, ran, finished, fewer⟩ :=
        induction (done ++ [name]) _ inodes.create restHere restOnce next
      rw [if_neg isKept, if_neg absent]
      exact ⟨created, after, ran, by simpa using finished,
        fewer_trans (fewer_create inodes) fewer⟩

/-- Every name of the base in a folder entered or written: the entries are the
base's below it. -/
theorem describes_of_partway (consistent : Consistent files folders) {front : Str}
    (isFront : FolderFront front) {kept done : List Str} {entries : Folder DraftLeaf}
    {inodes : Inodes} (partway : Partway files folders calls front kept done entries inodes)
    (foldersDone : ∀ name ∈ hereFolders front folders, name ∈ done)
    (filesDone : ∀ file ∈ hereFiles front files, file.1 ∈ done) :
    Describes files folders inodes front entries := by
  have childOf : ∀ name ∈ hereFolders front folders, ∃ children,
      (name, Entry.folder children) ∈ entries ∧
        Describes files folders inodes (front ++ name ++ ['/']) children := by
    intro name isHere
    obtain ⟨⟨other, entry⟩, member, rfl⟩ :=
      List.mem_map.mp ((partway.named name).mpr (Or.inr (foldersDone name isHere)))
    rcases partway.fitting _ member with
      ⟨-, children, same, -, -, described⟩ | ⟨inode, data, file, -, -⟩
    · dsimp only at same
      subst same
      exact ⟨children, member, described (foldersDone _ isHere)⟩
    · exact absurd isHere (here_apart consistent file)
  refine ⟨?_, ?_, ?_, ?_⟩
  · rw [folder_well_formed_iff]
    refine ⟨partway.once, fun entry member => ?_⟩
    rcases partway.fitting entry member with
      ⟨isHere, children, same, wellFormed, -, -⟩ | ⟨inode, data, file, same, -⟩
    · obtain ⟨inFolders, unmarked⟩ := (mem_here_folders front entry.1).mp isHere
      rw [same, Entry.WellFormed]
      exact ⟨plain_name_of_path isFront (consistent.foldersPlain _ inFolders) unmarked, wellFormed⟩
    · obtain ⟨inFiles, unmarked⟩ := (mem_here_files front entry.1 data).mp file
      rw [same, Entry.WellFormed]
      exact ⟨plain_name_of_path isFront (consistent.filesPlain _ inFiles) unmarked, trivial⟩
  · intro item listed
    obtain ⟨entry, member, inside⟩ := mem_listing_below.mp listed
    rcases partway.fitting entry member with
      ⟨isHere, children, same, -, -, described⟩ | ⟨inode, data, file, same, single⟩
    · rw [same, Entry.listing, List.mem_cons] at inside
      rcases inside with rfl | deeper
      · exact ((mem_here_folders front entry.1).mp isHere).1
      · exact (described (foldersDone _ isHere)).expected item deeper
    · rw [same, Entry.listing, List.mem_singleton] at inside
      subst inside
      exact ⟨((mem_here_files front entry.1 data).mp file).1, single⟩
  · rintro folder inFolders ⟨rest, rfl⟩
    rcases cut_at_first rest with unmarked | ⟨name, more, rfl, unmarked⟩
    · obtain ⟨children, member, -⟩ :=
        childOf rest ((mem_here_folders front rest).mpr ⟨inFolders, unmarked⟩)
      exact mem_listing_below.mpr ⟨_, member, by rw [Entry.listing]; exact List.mem_cons_self⟩
    · have above : front ++ name ∈ folders :=
        consistent.foldersHeld _ inFolders _ ⟨more, by simp⟩
      obtain ⟨children, member, described⟩ :=
        childOf name ((mem_here_folders front name).mpr ⟨above, unmarked⟩)
      have deeper := described.foldersThere _ inFolders ⟨more, by simp⟩
      exact mem_listing_below.mpr
        ⟨_, member, by rw [Entry.listing]; exact List.mem_cons_of_mem _ deeper⟩
  · rintro ⟨path, data⟩ inFiles ⟨rest, same⟩
    dsimp only at same
    subst same
    rcases cut_at_first rest with unmarked | ⟨name, more, rfl, unmarked⟩
    · have file := (mem_here_files front rest data).mpr ⟨inFiles, unmarked⟩
      obtain ⟨⟨other, entry⟩, member, rfl⟩ :=
        List.mem_map.mp ((partway.named rest).mpr (Or.inr (filesDone _ file)))
      rcases partway.fitting _ member with ⟨isHere, -⟩ | ⟨inode, held, isFile, same, -⟩
      · exact absurd isHere (here_apart consistent file)
      · have sameData : held = data := by
          have first := (Dict.lookup_eq_some_iff (here_files_once consistent front)).mpr file
          have second := (Dict.lookup_eq_some_iff (here_files_once consistent front)).mpr isFile
          exact Option.some_inj.mp (second.symm.trans first)
        dsimp only at same
        subst same sameData
        exact ⟨inode, mem_listing_below.mpr ⟨_, member, by
          rw [Entry.listing]
          exact List.mem_singleton.mpr rfl⟩⟩
    · have above : front ++ name ∈ folders :=
        consistent.filesHeld _ inFiles _ ⟨more, by simp⟩
      obtain ⟨children, member, described⟩ :=
        childOf name ((mem_here_folders front name).mpr ⟨above, unmarked⟩)
      obtain ⟨inode, deeper⟩ := described.filesThere _ inFiles ⟨more, by simp⟩
      exact ⟨inode, mem_listing_below.mpr
        ⟨_, member, by rw [Entry.listing]; exact List.mem_cons_of_mem _ deeper⟩⟩

theorem resync_at_describes (consistent : Consistent files folders) (calls : Nat) (front : Str)
    (present : Folder DraftLeaf) (inodes : Inodes)
    (entered : front = [] ∧ 0 < calls ∨ ∃ folder ∈ folders, front = folder ++ ['/'])
    (wellFormed : FolderWellFormed present) (opens : OpenFolder calls present)
    (room : ∀ folder ∈ folders, folder.count '/' + 2 ≤ calls + front.count '/') :
    ∃ entries after, resyncAt files folders calls front present inodes = .ok (entries, after) ∧
      Describes files folders after front entries ∧ Fewer inodes after := by
  have isFront : FolderFront front := by
    rcases entered with ⟨root, -⟩ | ⟨folder, -, below⟩
    · exact Or.inl root
    · exact Or.inr ⟨folder, below⟩
  induction calls generalizing front present inodes with
  | zero =>
    rcases entered with ⟨-, some⟩ | ⟨folder, inFolders, rfl⟩
    · exact absurd some (Nat.lt_irrefl 0)
    · have deep := room folder inFolders
      rw [List.count_append, List.count_singleton_self] at deep
      omega
  | succ calls induction =>
    have formed := (folder_well_formed_iff present).mp wellFormed
    have removable : ∀ entry ∈ present, opensWithin calls entry.2 = true := opens
    obtain ⟨held, swept, ranSweep, fewerSwept, sublist, fitting⟩ :=
      sweep_fitting consistent front present inodes
        (fun entry member => (formed.2 entry member).2) removable
    rw [resyncAt, ranSweep]
    have start : Partway files folders calls front (held.map Prod.fst) [] held swept :=
      ⟨formed.1.sublist (sublist.map _), fitting, fun name => by simp⟩
    have orderFolders : (sorted (hereFolders front folders)).Perm (hereFolders front folders) :=
      List.perm_insertionSort _ _
    have orderFiles := sorted_items_perm (hereFiles front files)
    have foldersOnce : (sorted (hereFolders front folders)).Nodup :=
      orderFolders.nodup_iff.mpr (here_folders_once consistent front)
    have filesOnce : ((sortedItems (hereFiles front files)).map Prod.fst).Nodup :=
      (orderFiles.map Prod.fst).nodup_iff.mpr (here_files_once consistent front)
    have enters : ∀ name ∈ hereFolders front folders, ∀ children before,
        FolderWellFormed children → OpenFolder calls children → ∃ synced after,
          resyncAt files folders calls (front ++ name ++ ['/']) children before =
            .ok (synced, after) ∧
          Describes files folders after (front ++ name ++ ['/']) synced ∧ Fewer before after := by
      intro name isHere children before childrenFormed childrenOpen
      obtain ⟨inFolders, unmarked⟩ := (mem_here_folders front name).mp isHere
      refine induction (front ++ name ++ ['/']) children before (Or.inr ⟨_, inFolders, rfl⟩)
        childrenFormed childrenOpen (fun folder member => ?_) (Or.inr ⟨front ++ name, rfl⟩)
      have deep := room folder member
      rw [List.count_append, List.count_append, List.count_singleton_self,
        List.count_eq_zero.mpr unmarked]
      omega
    obtain ⟨entered, middle, ranFolders, partway, fewerEntered⟩ :=
      enter_folders_partway consistent enters (held.map Prod.fst)
        (sorted (hereFolders front folders)) [] held swept
        (fun name member => orderFolders.mem_iff.mp member) foldersOnce start
    have allOnce : (sorted (hereFolders front folders) ++
        (sortedItems (hereFiles front files)).map Prod.fst).Nodup := by
      rw [List.nodup_append]
      refine ⟨foldersOnce, filesOnce, ?_⟩
      rintro name isFolder other isFile rfl
      obtain ⟨⟨_, data⟩, member, rfl⟩ := List.mem_map.mp isFile
      exact here_apart consistent (orderFiles.mem_iff.mp member)
        (orderFolders.mem_iff.mp isFolder)
    obtain ⟨created, after, ranFiles, finished, fewerCreated⟩ :=
      create_files_partway consistent (held.map Prod.fst) _
        (sortedItems (hereFiles front files)) entered middle
        (fun file member => orderFiles.mem_iff.mp member) allOnce partway
    refine ⟨created, after, ?_, ?_, fewer_trans fewerSwept (fewer_trans fewerEntered fewerCreated)⟩
    · dsimp only [bind, Except.bind]
      rw [ranFolders]
      exact ranFiles
    · apply describes_of_partway consistent isFront finished
      · intro name isHere
        exact List.mem_append_left _ (orderFolders.mem_iff.mpr isHere)
      · intro file isHere
        exact List.mem_append_right _ (List.mem_map.mpr ⟨file, orderFiles.mem_iff.mpr isHere, rfl⟩)

end Sync

section Reset

/-- What a batch starts from: the blobs below `agent/` at its head and the lanes
its box may write. -/
structure BatchBase where
  files : Dict Str Bytes
  lanes : List Str
  filesPlain : ∀ path ∈ files.keys, plainPath path = true
  lanesPlain : ∀ lane ∈ lanes, plainPath lane = true
  apart : ∀ path ∈ files.keys, path ∉ foldersOf files.keys lanes

def BatchBase.folders (base : BatchBase) : List Str := foldersOf base.files.keys base.lanes

inductive Content where
  | folder
  | file (data : Bytes)
  | special (kind : SpecialKind)
deriving DecidableEq, Repr

def contentOf : Option DraftLeaf → Content
  | none => .folder
  | some (.file _ data) => .file data
  | some (.special kind) => .special kind

/-- Everything in the tree: each path with what stands there. -/
def DraftTree.contents (tree : DraftTree) : List (Str × Content) :=
  (listingBelow [] tree.agent).map fun item => (item.1, contentOf item.2)

def BatchBase.contents (base : BatchBase) : List (Str × Content) :=
  base.files.entries.map (fun file => (file.1, .file file.2)) ++
    base.folders.map fun folder => (folder, .folder)

theorem base_consistent (base : BatchBase) : Consistent base.files.entries base.folders := by
  have folderIff := mem_folders_of base.filesPlain base.lanesPlain
  have keyOf : ∀ file ∈ base.files.entries, file.1 ∈ base.files.keys :=
    fun file member => List.mem_map.mpr ⟨file, member, rfl⟩
  refine ⟨base.files.nodup, ?_, ?_, ?_, ?_, ?_, ?_⟩
  · exact dedup_nodup _
  · exact fun file member => base.apart _ (keyOf file member)
  · exact fun file member => base.filesPlain _ (keyOf file member)
  · intro folder member
    rcases (folderIff folder).mp member with ⟨file, isFile, ⟨rest, rfl⟩⟩ | ⟨lane, isLane, within⟩
    · have plain := base.filesPlain _ isFile
      rw [List.append_assoc, List.singleton_append, plain_path_cut, Bool.and_eq_true] at plain
      exact plain.1
    · have plain := base.lanesPlain _ isLane
      rcases within with rfl | ⟨rest, rfl⟩
      · exact plain
      · rw [List.append_assoc, List.singleton_append, plain_path_cut, Bool.and_eq_true] at plain
        exact plain.1
  · intro file member path above
    exact (folderIff path).mpr (Or.inl ⟨file.1, keyOf file member, above⟩)
  · intro folder member path above
    rcases (folderIff folder).mp member with ⟨file, isFile, deeper⟩ | ⟨lane, isLane, within⟩
    · exact (folderIff path).mpr (Or.inl ⟨file, isFile,
        above.trans ((List.prefix_append _ _).trans deeper)⟩)
    · refine (folderIff path).mpr (Or.inr ⟨lane, isLane, ?_⟩)
      rcases within with rfl | deeper
      · exact Or.inr above
      · exact Or.inr (above.trans ((List.prefix_append _ _).trans deeper))

/-- The box's folders open to their owner, and like the base's nest within the calls left. -/
structure WithinCalls (calls : Nat) (base : BatchBase) (tree : DraftTree) : Prop where
  opens : opensWithin calls (.folder tree.agent) = true
  room : ∀ folder ∈ base.folders, folder.count '/' + 2 ≤ calls

theorem resync_describes {calls : Nat} (base : BatchBase) {tree : DraftTree}
    (formed : FolderWellFormed tree.agent) (within : WithinCalls calls base tree) :
    ∃ after, resync calls tree base.files base.folders = .ok after ∧
      Describes base.files.entries base.folders after.inodes [] after.agent := by
  have some : 0 < calls := by
    rcases calls with _ | calls
    · exact absurd within.opens Bool.false_ne_true
    · exact Nat.succ_pos calls
  obtain ⟨agent, inodes, ran, describes, -⟩ :=
    resync_at_describes (base_consistent base) calls [] tree.agent tree.inodes
      (Or.inl ⟨rfl, some⟩) formed (open_folder within.opens) within.room
  refine ⟨{ agent := agent, inodes := inodes }, ?_, describes⟩
  rw [resync, ran]
  rfl

section

variable {base : BatchBase} {after : DraftTree}

theorem described_contents
    (describes : Describes base.files.entries base.folders after.inodes [] after.agent) :
    after.contents.Perm base.contents := by
  have consistent := base_consistent base
  have treeOnce : after.contents.Nodup := by
    apply List.Nodup.of_map Prod.fst
    rw [DraftTree.contents, List.map_map]
    exact listing_below_nodup after.agent [] describes.wellFormed
  have baseOnce : base.contents.Nodup := by
    apply List.Nodup.of_map Prod.fst
    rw [BatchBase.contents, List.map_append, List.map_map, List.map_map, List.nodup_append]
    refine ⟨consistent.filesOnce, ?_, ?_⟩
    · change (base.folders.map id).Nodup
      rw [List.map_id]
      exact consistent.foldersOnce
    · rintro path isFile other isFolder rfl
      obtain ⟨file, member, rfl⟩ := List.mem_map.mp isFile
      obtain ⟨folder, inFolders, same⟩ := List.mem_map.mp isFolder
      dsimp only [Function.comp_apply] at same
      rw [same] at inFolders
      exact consistent.apart file member inFolders
  rw [List.perm_ext_iff_of_nodup treeOnce baseOnce]
  rintro ⟨path, content⟩
  simp only [DraftTree.contents, BatchBase.contents, List.mem_append, List.mem_map,
    Prod.mk.injEq]
  constructor
  · rintro ⟨⟨place, there⟩, listed, rfl, rfl⟩
    have expected := describes.expected _ listed
    match there with
    | none => exact Or.inr ⟨place, expected, rfl, rfl⟩
    | some (.file inode data) => exact Or.inl ⟨(place, data), expected.1, rfl, rfl⟩
    | some (.special kind) => exact expected.elim
  · rintro (⟨file, member, rfl, rfl⟩ | ⟨folder, member, rfl, rfl⟩)
    · obtain ⟨inode, listed⟩ := describes.filesThere file member List.nil_prefix
      exact ⟨_, listed, rfl, rfl⟩
    · exact ⟨_, describes.foldersThere folder member List.nil_prefix, rfl, rfl⟩

theorem described_files
    (describes : Describes base.files.entries base.folders after.inodes [] after.agent) :
    (filesBelow [] after.agent).Perm base.files.entries := by
  have treeOnce : (filesBelow [] after.agent).Nodup :=
    List.Nodup.of_map Prod.fst (files_below_once describes.wellFormed)
  have baseOnce : base.files.entries.Nodup := List.Nodup.of_map Prod.fst base.files.nodup
  rw [List.perm_ext_iff_of_nodup treeOnce baseOnce]
  rintro ⟨path, data⟩
  rw [mem_files_below]
  constructor
  · rintro ⟨inode, listed⟩
    exact (describes.expected _ listed).1
  · exact fun member => describes.filesThere _ member List.nil_prefix

theorem described_change_set (casefold : Str → Str)
    (describes : Describes base.files.entries base.folders after.inodes [] after.agent) :
    changeSet casefold base.lanes base.files after = .ok [] ↔
      ∀ file ∈ base.files.entries, file.2.length ≤ readLimit := by
  constructor
  · intro empty file member
    obtain ⟨found, read, -⟩ := except_bind_ok.mp empty
    obtain ⟨inode, listed⟩ := describes.filesThere file member List.nil_prefix
    exact ((regular_files_ok describes.wellFormed read).2 _ listed).1
  · intro small
    have readable : ∀ item ∈ listingBelow [] after.agent, Readable after.inodes item := by
      rintro ⟨path, there⟩ listed
      have expected := describes.expected _ listed
      match there with
      | none => exact trivial
      | some (.file inode data) => exact ⟨small _ expected.1, expected.2⟩
      | some (.special kind) => exact expected
    obtain ⟨found, read⟩ := regular_files_readable describes.wellFormed readable
    have same := (regular_files_ok describes.wellFormed read).1.trans (described_files describes)
    have lookups := lookup_of_perm same base.files.nodup
    rw [changeSet, read]
    dsimp only [bind, Except.bind]
    rw [collect_nothing casefold lookups]
    rfl

end

/-- The sync gives the base back whatever the box left that it can remove; the claim read from
the draft is then empty exactly when the read takes every file of the base. -/
theorem reset_undoes_claim (casefold : Str → Str) (calls : Nat) (base : BatchBase)
    (tree : DraftTree) (formed : FolderWellFormed tree.agent)
    (within : WithinCalls calls base tree) :
    ∃ after, resync calls tree base.files (foldersOf base.files.keys base.lanes) = .ok after ∧
      after.contents.Perm base.contents ∧
      (changeSet casefold base.lanes base.files after = .ok [] ↔
        ∀ file ∈ base.files.entries, file.2.length ≤ readLimit) := by
  obtain ⟨after, ran, describes⟩ := resync_describes base formed within
  exact ⟨after, ran, described_contents describes, described_change_set casefold describes⟩

def lessonBase (data : Bytes) : BatchBase where
  files := ⟨[("lessons/a.md", data)], by simp⟩
  lanes := ["lessons", "skills"]
  filesPlain := by
    change ∀ path ∈ [("lessons/a.md" : Str)], plainPath path = true
    decide
  lanesPlain := by decide
  apart := by
    change ∀ path ∈ [("lessons/a.md" : Str)], path ∉ foldersOf ["lessons/a.md"] ["lessons", "skills"]
    decide

/-- A box that put a FIFO where a lane belongs, a folder where a file belongs and
a second name of one file beside it. -/
def upturnedTree : DraftTree where
  agent := [("skills", .leaf (.special .fifo)),
    ("lessons", .folder [("a.md", .folder [("deep", .leaf (.special .link))]),
      ("b.md", .leaf (.file 1 [9])), ("c.md", .leaf (.file 1 [9]))])]
  inodes := { links := fun _ => 2, next := 2 }

theorem upturned_tree_formed : FolderWellFormed upturnedTree.agent := by
  simp only [upturnedTree, FolderWellFormed, Entry.WellFormed, PlainName]
  decide

theorem upturned_within (data : Bytes) : WithinCalls 900 (lessonBase data) upturnedTree where
  opens := by decide
  room := by
    change ∀ folder ∈ foldersOf ["lessons/a.md"] ["lessons", "skills"], folder.count '/' + 2 ≤ 900
    decide

theorem reset_upturned :
    ∃ after, resync 900 upturnedTree (lessonBase [1, 2]).files
        (foldersOf (lessonBase [1, 2]).files.keys (lessonBase [1, 2]).lanes) = .ok after ∧
      after.contents.Perm (lessonBase [1, 2]).contents ∧
      (changeSet id (lessonBase [1, 2]).lanes (lessonBase [1, 2]).files after = .ok [] ↔
        ∀ file ∈ (lessonBase [1, 2]).files.entries, file.2.length ≤ readLimit) :=
  reset_undoes_claim id 900 (lessonBase [1, 2]) upturnedTree upturned_tree_formed
    (upturned_within [1, 2])

theorem large_base_claim_refused :
    ¬ ∃ after, resync 900 upturnedTree (lessonBase (List.replicate (readLimit + 1) 0)).files
        (foldersOf (lessonBase (List.replicate (readLimit + 1) 0)).files.keys
          (lessonBase (List.replicate (readLimit + 1) 0)).lanes) = .ok after ∧
      after.contents.Perm (lessonBase (List.replicate (readLimit + 1) 0)).contents ∧
      changeSet id (lessonBase (List.replicate (readLimit + 1) 0)).lanes
        (lessonBase (List.replicate (readLimit + 1) 0)).files after = .ok [] := by
  rintro ⟨after, ran, -, empty⟩
  obtain ⟨synced, ranSynced, describes⟩ :=
    resync_describes (lessonBase (List.replicate (readLimit + 1) 0)) upturned_tree_formed
      (upturned_within _)
  have same : synced = after := Except.ok.inj (ranSynced.symm.trans ran)
  rw [← same] at empty
  have small := (described_change_set id describes).mp empty _ (List.mem_singleton.mpr rfl)
  rw [List.length_replicate] at small
  exact absurd small (Nat.not_succ_le_self _)

end Reset

end Defender.Learning.Draft
