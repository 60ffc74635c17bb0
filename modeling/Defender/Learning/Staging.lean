import Defender.Learning.DraftClaim

/-!
# Committing a claim

The commit-maker reads the parent's tree into a private index and feeds it the
claim's rows, the deletions first. An index takes no path that is a folder of
another, so the order matters where a claim turns a file into a folder or the
reverse: once the deletions are in, every path below `agent/` is one of the
draft's, and the draft's paths stand beside each other.
-/

namespace Defender.Learning.Draft

open Defender.Python Defender.Library.OrderedDict Defender.Library.PathTree
open Defender.Library.Wire

section Index

/-- An index entry: the mode, and the blob as its bytes. -/
structure IndexEntry where
  mode : Str
  blob : Bytes
deriving DecidableEq, Repr

abbrev GitIndex := List (Str × IndexEntry)

structure IndexRow where
  mode : Str
  blob : Option Bytes
  path : Str
deriving DecidableEq, Repr

def conflicts (path other : Str) : Bool :=
  startsWith (path ++ ['/']) other || startsWith (other ++ ['/']) path

/-- One row of `update-index --index-info`: mode 0 takes the path out; any other
puts it in, unless it is a folder of a path there or a path there is one of its
folders. -/
def applyRow (index : GitIndex) (row : IndexRow) : Option GitIndex :=
  match row.blob with
  | none => some (index.filter fun held => held.1 != row.path)
  | some blob =>
    if index.any fun held => conflicts row.path held.1 then none
    else some (Dict.setEntries row.path { mode := row.mode, blob := blob } index)

def applyRows (rows : List IndexRow) (index : GitIndex) : Option GitIndex :=
  rows.foldlM applyRow index

def stageRow (change : AgentChange) : IndexRow :=
  match change.content with
  | none => { mode := "0", blob := none, path := change.path }
  | some data => { mode := "100644", blob := some data, path := change.path }

def stageRows (changes : List AgentChange) : List IndexRow :=
  (changes.insertionSort fun left right => left.content.isSome ≤ right.content.isSome).map stageRow

def sameTree (index other : GitIndex) : Bool :=
  (index.map Prod.fst ++ other.map Prod.fst).all fun path =>
    Dict.lookup path index == Dict.lookup path other

def makeCommit (parent : GitIndex) (changes : List AgentChange) :
    Except DeliveryRefused GitIndex :=
  match applyRows (stageRows changes) parent with
  | none => .error .gitFault
  | some tree => if sameTree tree parent then .error .changesNothing else .ok tree

def regularModes : List Str := ["100644", "100755"]

def heldAsFile (index : GitIndex) (path : Str) : Bool :=
  match Dict.lookup path index with
  | some entry => regularModes.contains entry.mode
  | none => false

def commitClaim (casefold : Str → Str) (lanes : List Str) (parent : GitIndex)
    (changes : List AgentChange) : Except DeliveryRefused GitIndex := do
  changes.forM fun change => agentPath casefold change.path
  if changes = [] then throw .emptyClaim
  changes.forM fun change => requireInLanes change.path lanes
  changes.forM fun change =>
    if change.content.isNone && !heldAsFile parent change.path then
      throw (.notHeld change.path)
    else pure ()
  makeCommit parent changes

def agentFront : Str := "agent/"

/-- What a recursive listing of `agent` names. -/
def agentEntries (index : GitIndex) : GitIndex :=
  index.filter fun held => held.1 == ("agent" : Str) || startsWith agentFront held.1

def removeFront (path : Str) : Str :=
  if startsWith agentFront path then path.drop agentFront.length else path

/-- The files below `agent/` at a commit, by path below it. -/
def agentBlobs (index : GitIndex) : Except DeliveryRefused (Dict Str Bytes) := do
  (agentEntries index).forM fun held =>
    if regularModes.contains held.2.mode then pure ()
    else throw (.notRegularBlob held.1 held.2.mode)
  pure (Dict.ofList ((agentEntries index).map fun held => (removeFront held.1, held.2.blob)))

end Index

/-- A stable sort by a flag puts the items without it first. -/
theorem sort_by_flag {Item : Type} (flag : Item → Bool) (items : List Item) :
    (items.insertionSort fun left right => flag left ≤ flag right) =
      items.filter (fun item => !flag item) ++ items.filter flag := by
  have insert : ∀ (item : Item) (early late : List Item), flag item = true →
      (∀ other ∈ early, flag other = false) → (∀ other ∈ late, flag other = true) →
      List.orderedInsert (fun left right => flag left ≤ flag right) item (early ++ late) =
        early ++ item :: late := by
    intro item early late flagged unmarked marked
    induction early with
    | nil =>
      cases late with
      | nil => rfl
      | cons other rest =>
        rw [List.nil_append, List.orderedInsert, if_pos]
        · rfl
        · rw [flagged, marked other List.mem_cons_self]
    | cons other rest induction =>
      rw [List.forall_mem_cons] at unmarked
      rw [List.cons_append, List.orderedInsert, if_neg, induction unmarked.2, List.cons_append]
      rw [flagged, unmarked.1]
      decide
  induction items with
  | nil => rfl
  | cons item rest induction =>
    rw [List.insertionSort_cons, induction]
    cases flagged : flag item with
    | true =>
      rw [insert item _ _ flagged (by simp) (by simp), List.filter_cons_of_neg (by simp [flagged]),
        List.filter_cons_of_pos flagged]
    | false =>
      rw [List.filter_cons_of_pos (by simp [flagged]), List.filter_cons_of_neg (by simp [flagged])]
      cases whole : rest.filter (fun item => !flag item) ++ rest.filter flag with
      | nil =>
        have parts := List.append_eq_nil_iff.mp whole
        rw [parts.1, parts.2]
        rfl
      | cons other others =>
        rw [List.orderedInsert, if_pos (by rw [flagged]; exact Bool.false_le _), List.cons_append,
          whole]

theorem apply_deletions (changes : List AgentChange)
    (deleted : ∀ change ∈ changes, change.content = none) (index : GitIndex) :
    applyRows (changes.map stageRow) index =
      some (index.filter fun held => !(changes.map AgentChange.path).contains held.1) := by
  induction changes generalizing index with
  | nil => simp [applyRows]
  | cons change rest induction =>
    rw [List.forall_mem_cons] at deleted
    have row : stageRow change = { mode := "0", blob := none, path := change.path } := by
      rw [stageRow, deleted.1]
    have others := induction deleted.2 (index.filter fun held => held.1 != change.path)
    unfold applyRows at others ⊢
    rw [List.map_cons, List.foldlM_cons, row]
    change List.foldlM applyRow (index.filter fun held => held.1 != change.path) _ = _
    rw [others, List.filter_filter]
    congr 1
    apply List.filter_congr
    intro held _
    rw [List.map_cons, List.contains_cons, Bool.not_or]
    exact Bool.and_comm _ _

def addition (data : Bytes) : IndexEntry := { mode := "100644", blob := data }

/-- Additions that stand beside one another and beside what is there. -/
theorem apply_additions (changes : List AgentChange) (index : GitIndex)
    (added : ∀ change ∈ changes, change.content.isSome = true)
    (once : (changes.map AgentChange.path).Nodup)
    (beside : ∀ change ∈ changes, ∀ path ∈ index.map Prod.fst ++ changes.map AgentChange.path,
      conflicts change.path path = false) :
    ∃ after, applyRows (changes.map stageRow) index = some after ∧
      (∀ change ∈ changes, Dict.lookup change.path after = change.content.map addition) ∧
      ∀ path, path ∉ changes.map AgentChange.path →
        Dict.lookup path after = Dict.lookup path index := by
  induction changes generalizing index with
  | nil => exact ⟨index, rfl, by simp, by simp⟩
  | cons change rest induction =>
    rw [List.forall_mem_cons] at added
    obtain ⟨data, content⟩ := Option.isSome_iff_exists.mp added.1
    rw [List.map_cons, List.nodup_cons] at once
    have row : stageRow change = { mode := "100644", blob := some data, path := change.path } := by
      rw [stageRow, content]
    have free : (index.any fun held => conflicts change.path held.1) = false := by
      rw [List.any_eq_false]
      intro held member
      have apart := beside change List.mem_cons_self held.1
        (List.mem_append_left _ (List.mem_map.mpr ⟨held, member, rfl⟩))
      rw [apart]
      exact Bool.false_ne_true
    have besideRest : ∀ other ∈ rest, ∀ path ∈
        (Dict.setEntries change.path (addition data) index).map Prod.fst ++
          rest.map AgentChange.path, conflicts other.path path = false := by
      intro other member path known
      apply beside other (List.mem_cons_of_mem _ member)
      rw [Dict.keys_set_entries] at known
      rw [List.map_cons, List.mem_append, List.mem_cons]
      split at known
      · rcases List.mem_append.mp known with held | later
        · exact Or.inl held
        · exact Or.inr (Or.inr later)
      · rw [List.append_assoc, List.mem_append, List.singleton_append, List.mem_cons] at known
        exact known
    obtain ⟨after, ran, inside, outside⟩ := induction _ added.2 once.2 besideRest
    refine ⟨after, ?_, ?_, ?_⟩
    · unfold applyRows at ran ⊢
      rw [List.map_cons, List.foldlM_cons, row, applyRow]
      dsimp only
      rw [if_neg (by rw [free]; exact Bool.false_ne_true)]
      exact ran
    · rw [List.forall_mem_cons]
      refine ⟨?_, inside⟩
      rw [outside _ once.1, Dict.lookup_set_entries, if_pos rfl, content]
      rfl
    · intro path absent
      rw [List.map_cons, List.mem_cons, not_or] at absent
      rw [outside path absent.2, Dict.lookup_set_entries, if_neg (Ne.symm absent.1)]

/-- The tree of a commit that was published: no path is a folder of another, and
the tenant's marker is there. -/
structure CommitTree where
  entries : GitIndex
  once : (entries.map Prod.fst).Nodup
  apart : ∀ path ∈ entries.map Prod.fst, ∀ other ∈ entries.map Prod.fst,
    ¬ (path ++ ['/']) <+: other
  marked : ("agent/.tenant-id" : Str) ∈ entries.map Prod.fst

theorem agent_is_folder (parent : CommitTree) :
    ("agent" : Str) ∉ parent.entries.map Prod.fst := by
  intro held
  exact parent.apart _ held _ parent.marked ⟨".tenant-id".toList, by decide⟩

theorem remove_front (rel : Str) : removeFront (agentFront ++ rel) = rel := by
  have starts : startsWith agentFront (agentFront ++ rel) = true :=
    List.isPrefixOf_iff_prefix.mpr (List.prefix_append _ _)
  rw [removeFront, if_pos starts, List.drop_left]

theorem mem_agent_entries (parent : CommitTree) (held : Str × IndexEntry) :
    held ∈ agentEntries parent.entries ↔
      held ∈ parent.entries ∧ ∃ rel, held.1 = agentFront ++ rel := by
  simp only [agentEntries, startsWith, List.mem_filter, Bool.or_eq_true, beq_iff_eq,
    List.isPrefixOf_iff_prefix]
  constructor
  · rintro ⟨member, same | ⟨rel, same⟩⟩
    · exact absurd (List.mem_map.mpr ⟨held, member, same⟩) (agent_is_folder parent)
    · exact ⟨member, rel, same.symm⟩
  · rintro ⟨member, rel, same⟩
    exact ⟨member, Or.inr ⟨rel, same.symm⟩⟩

theorem agent_blobs_lookup {parent : CommitTree} {base : Dict Str Bytes}
    (read : agentBlobs parent.entries = .ok base) (rel : Str) :
    base.get? rel = (Dict.lookup (agentFront ++ rel) parent.entries).map IndexEntry.blob := by
  obtain ⟨_, -, made⟩ := except_bind_ok.mp read
  cases made
  have once : (((agentEntries parent.entries).map fun held =>
      (removeFront held.1, held.2.blob)).map Prod.fst).Nodup := by
    rw [List.map_map]
    have entriesOnce : (agentEntries parent.entries).Nodup :=
      (List.Nodup.of_map Prod.fst parent.once).filter _
    apply entriesOnce.map_on
    intro first inFirst second inSecond same
    obtain ⟨heldFirst, relFirst, pathFirst⟩ := (mem_agent_entries parent first).mp inFirst
    obtain ⟨heldSecond, relSecond, pathSecond⟩ := (mem_agent_entries parent second).mp inSecond
    dsimp only [Function.comp_apply] at same
    rw [pathFirst, pathSecond, remove_front, remove_front] at same
    have samePath : first.1 = second.1 := by rw [pathFirst, pathSecond, same]
    exact List.inj_on_of_nodup_map parent.once heldFirst heldSecond samePath
  apply Option.ext
  intro data
  rw [Dict.get?, Dict.of_list_entries once, Dict.lookup_eq_some_iff once, Option.map_eq_some_iff,
    List.mem_map]
  constructor
  · rintro ⟨held, member, same⟩
    obtain ⟨inParent, other, path⟩ := (mem_agent_entries parent held).mp member
    rw [Prod.mk.injEq, path, remove_front] at same
    refine ⟨held.2, (Dict.lookup_eq_some_iff parent.once).mpr ?_, same.2⟩
    rw [← same.1, ← path]
    exact inParent
  · rintro ⟨entry, found, same⟩
    have inParent := (Dict.lookup_eq_some_iff parent.once).mp found
    refine ⟨(agentFront ++ rel, entry), (mem_agent_entries parent _).mpr ⟨inParent, rel, rfl⟩, ?_⟩
    rw [Prod.mk.injEq, remove_front]
    exact ⟨rfl, same⟩

section Commit

variable {casefold : Str → Str} {lanes : List Str} {base : Dict Str Bytes} {tree : DraftTree}
variable {changes : List AgentChange} {parent : CommitTree}

/-- What an accepted claim is: the bytes of the draft wherever they differ from
the base's. -/
structure ClaimOf (base : Dict Str Bytes) (draft : List (Str × Bytes))
    (changes : List AgentChange) : Prop where
  once : (changes.map AgentChange.path).Nodup
  differs : ∀ change, change ∈ changes ↔ ∃ rel, Dict.lookup rel draft ≠ base.get? rel ∧
    change = { path := agentFront ++ rel, content := Dict.lookup rel draft }

theorem change_set_claim (formed : FolderWellFormed tree.agent)
    (accepted : changeSet casefold lanes base tree = .ok changes) :
    ClaimOf base (filesBelow [] tree.agent) changes := by
  obtain ⟨found, read, collecting⟩ := except_bind_ok.mp accepted
  obtain ⟨collected, ran, checked⟩ := except_bind_ok.mp collecting
  split at checked
  case isFalse => cases checked
  case isTrue once =>
    cases checked
    have lookups := lookup_of_perm (regular_files_ok formed read).1 (files_below_once formed)
    refine ⟨once, fun change => ?_⟩
    rw [collect_ok casefold ran, List.mem_map]
    constructor
    · rintro ⟨rel, member, rfl⟩
      have differs := (List.mem_filter.mp member).2
      rw [decide_eq_true_eq, lookups] at differs
      exact ⟨rel, differs, by rw [lookups]; rfl⟩
    · rintro ⟨rel, differs, rfl⟩
      refine ⟨rel, List.mem_filter.mpr ⟨?_, ?_⟩, by rw [lookups]; rfl⟩
      · have listed : rel ∈ dedup (found.map Prod.fst ++ base.keys) := by
          have enrolled := mem_enrolled_iff (found.map Prod.fst ++ base.keys) [] rel
          rw [dedup, enrolled, List.mem_append]
          right
          by_contra absent
          rw [not_or] at absent
          have noDraft : Dict.lookup rel found = none := by
            rw [← Option.not_isSome_iff_eq_none, Dict.lookup_isSome_iff]
            exact absent.1
          have noBase : base.get? rel = none := by
            rw [← Option.not_isSome_iff_eq_none, Dict.get?, Dict.lookup_isSome_iff]
            exact absent.2
          rw [← lookups, noDraft, noBase] at differs
          exact differs rfl
        exact (List.perm_insertionSort _ _).mem_iff.mpr listed
      · rw [decide_eq_true_eq, lookups]
        exact differs

theorem draft_files_apart (formed : FolderWellFormed tree.agent) {rel other : Str}
    {data bytes : Bytes} (isFile : Dict.lookup rel (filesBelow [] tree.agent) = some data)
    (isOther : Dict.lookup other (filesBelow [] tree.agent) = some bytes) :
    conflicts (agentFront ++ rel) (agentFront ++ other) = false := by
  have once := @files_below_once [] _ formed
  obtain ⟨inode, listed⟩ := mem_files_below.mp ((Dict.lookup_eq_some_iff once).mp isFile)
  obtain ⟨inodeOther, listedOther⟩ :=
    mem_files_below.mp ((Dict.lookup_eq_some_iff once).mp isOther)
  have cut : ∀ first second : Str, ¬ (first ++ ['/']) <+: second →
      startsWith (agentFront ++ first ++ ['/']) (agentFront ++ second) = false := by
    intro first second apart
    rw [Bool.eq_false_iff]
    intro longer
    have prefixes := List.isPrefixOf_iff_prefix.mp longer
    rw [List.append_assoc, List.prefix_append_right_inj] at prefixes
    exact apart prefixes
  rw [conflicts, cut rel other (leaf_ends_below tree.agent [] formed listed listedOther),
    cut other rel (leaf_ends_below tree.agent [] formed listedOther listed)]
  rfl

/-- A path of the parent outside `agent/` is no folder of one below it, and none
below it is one of its folders. -/
theorem outside_apart {path : Str} (held : path ∈ parent.entries.map Prod.fst)
    (outside : ¬ agentFront <+: path) (rel : Str) :
    conflicts (agentFront ++ rel) path = false := by
  rw [conflicts, Bool.or_eq_false_iff]
  constructor
  · rw [Bool.eq_false_iff]
    intro longer
    have prefixes := List.isPrefixOf_iff_prefix.mp longer
    rw [List.append_assoc] at prefixes
    exact outside ((List.prefix_append _ _).trans prefixes)
  · rw [Bool.eq_false_iff]
    intro longer
    obtain ⟨rest, same⟩ := List.isPrefixOf_iff_prefix.mp longer
    rw [List.append_assoc, List.singleton_append] at same
    rcases List.append_eq_append_iff.mp same with ⟨more, front, tail⟩ | ⟨more, longer, tail⟩
    · -- `path/` ends inside `agent/`, whose only separator is its last character
      cases more with
      | nil => exact outside ⟨[], by rw [front]; simp⟩
      | cons char more =>
        rw [List.cons_append, List.cons.injEq] at tail
        rw [← tail.1] at front
        have marks := congrArg (List.count '/') front
        rw [List.count_append, List.count_cons_self] at marks
        have single : List.count '/' agentFront = 1 := by decide
        have unmarked : '/' ∉ path := List.count_eq_zero.mp (by omega)
        have ends : '/' :: more = [] ∨ ['/'] <+: '/' :: more := Or.inr ⟨more, rfl⟩
        have name := takeWhile_name unmarked ends
        have whole : agentFront.takeWhile (· ≠ '/') = ("agent" : Str) := by decide
        rw [← front, whole] at name
        rw [← name] at held
        exact agent_is_folder parent held
    · exact outside ⟨more, longer.symm⟩

theorem collect_checked {base draft : List (Str × Bytes)} {paths : List Str}
    (collected : collectChanges casefold lanes base draft paths = .ok changes) :
    ∀ change ∈ changes, agentPath casefold change.path = .ok () ∧
      requireInLanes change.path lanes = .ok () := by
  induction paths generalizing changes with
  | nil =>
    cases collected
    exact fun change member => nomatch member
  | cons path rest induction =>
    rw [collectChanges] at collected
    split at collected
    · exact induction collected
    · obtain ⟨_, pathFine, checked⟩ := except_bind_ok.mp collected
      obtain ⟨_, laneFine, inside⟩ := except_bind_ok.mp checked
      obtain ⟨others, ranOthers, whole⟩ := except_bind_ok.mp inside
      cases whole
      rw [List.forall_mem_cons]
      exact ⟨⟨pathFine, laneFine⟩, induction ranOthers⟩

def deletionsOf (changes : List AgentChange) : List AgentChange :=
  changes.filter fun change => !change.content.isSome

def additionsOf (changes : List AgentChange) : List AgentChange :=
  changes.filter fun change => change.content.isSome

def clearedOf (parent : CommitTree) (changes : List AgentChange) : GitIndex :=
  parent.entries.filter fun held =>
    !((deletionsOf changes).map AgentChange.path).contains held.1

theorem deletions_delete (changes : List AgentChange) :
    ∀ change ∈ deletionsOf changes, change.content = none := by
  intro change member
  simpa using (List.mem_filter.mp member).2

theorem additions_add (changes : List AgentChange) :
    ∀ change ∈ additionsOf changes, change.content.isSome = true :=
  fun _ member => (List.mem_filter.mp member).2

theorem stage_rows_split (changes : List AgentChange) :
    stageRows changes =
      (deletionsOf changes).map stageRow ++ (additionsOf changes).map stageRow := by
  rw [stageRows, sort_by_flag, List.map_append]
  rfl

theorem cleared_lookup (parent : CommitTree) (changes : List AgentChange) (path : Str) :
    Dict.lookup path (clearedOf parent changes) =
      if (!((deletionsOf changes).map AgentChange.path).contains path) = true then
        Dict.lookup path parent.entries
      else none :=
  Dict.lookup_filter_key
    (fun path => !((deletionsOf changes).map AgentChange.path).contains path) path parent.entries

section Claimed

variable {draft : List (Str × Bytes)}

theorem change_below_agent (claim : ClaimOf base draft changes) {change : AgentChange}
    (member : change ∈ changes) : ∃ rel, change.path = agentFront ++ rel ∧
      change.content = Dict.lookup rel draft ∧ Dict.lookup rel draft ≠ base.get? rel := by
  obtain ⟨rel, differs, rfl⟩ := (claim.differs change).mp member
  exact ⟨rel, rfl, rfl, differs⟩

theorem deleted_path_iff (claim : ClaimOf base draft changes) (rel : Str) :
    agentFront ++ rel ∈ (deletionsOf changes).map AgentChange.path ↔
      Dict.lookup rel draft = none ∧ base.get? rel ≠ none := by
  rw [List.mem_map]
  constructor
  · rintro ⟨change, member, same⟩
    obtain ⟨other, path, content, differs⟩ :=
      change_below_agent claim (List.mem_filter.mp member).1
    rw [path] at same
    obtain rfl := List.append_cancel_left same
    rw [deletions_delete changes change member] at content
    rw [← content] at differs
    exact ⟨content.symm, Ne.symm differs⟩
  · rintro ⟨gone, wasThere⟩
    refine ⟨{ path := agentFront ++ rel, content := none }, List.mem_filter.mpr ⟨?_, rfl⟩, rfl⟩
    exact (claim.differs _).mpr ⟨rel, by rw [gone]; exact Ne.symm wasThere, by rw [gone]⟩

theorem added_path_iff (claim : ClaimOf base draft changes) (rel : Str) :
    agentFront ++ rel ∈ (additionsOf changes).map AgentChange.path ↔
      ∃ data, Dict.lookup rel draft = some data ∧ base.get? rel ≠ some data := by
  rw [List.mem_map]
  constructor
  · rintro ⟨change, member, same⟩
    obtain ⟨other, path, content, differs⟩ :=
      change_below_agent claim (List.mem_filter.mp member).1
    rw [path] at same
    obtain rfl := List.append_cancel_left same
    have there := additions_add changes change member
    rw [content] at there
    obtain ⟨data, found⟩ := Option.isSome_iff_exists.mp there
    rw [found] at differs
    exact ⟨data, found, Ne.symm differs⟩
  · rintro ⟨data, there, differs⟩
    refine ⟨{ path := agentFront ++ rel, content := some data },
      List.mem_filter.mpr ⟨?_, rfl⟩, rfl⟩
    exact (claim.differs _).mpr ⟨rel, by rw [there]; exact Ne.symm differs, by rw [there]⟩

/-- With the deletions in, what is left below `agent/` are paths of the draft. -/
theorem cleared_paths (read : agentBlobs parent.entries = .ok base)
    (claim : ClaimOf base draft changes) {path : Str}
    (held : path ∈ (clearedOf parent changes).map Prod.fst) :
    (∃ rel data, path = agentFront ++ rel ∧ Dict.lookup rel draft = some data) ∨
      (path ∈ parent.entries.map Prod.fst ∧ ¬ agentFront <+: path) := by
  obtain ⟨entry, inCleared, rfl⟩ := List.mem_map.mp held
  obtain ⟨inParent, kept⟩ := List.mem_filter.mp inCleared
  by_cases inside : agentFront <+: entry.1
  · obtain ⟨rel, same⟩ := inside
    have wasThere : base.get? rel ≠ none := by
      have found : Dict.lookup (agentFront ++ rel) parent.entries = some entry.2 :=
        (Dict.lookup_eq_some_iff parent.once).mpr (by rw [same]; exact inParent)
      rw [agent_blobs_lookup read, found]
      exact Option.some_ne_none _
    cases there : Dict.lookup rel draft with
    | some data => exact Or.inl ⟨rel, data, same.symm, there⟩
    | none =>
      have gone := (deleted_path_iff claim rel).mpr ⟨there, wasThere⟩
      rw [same] at gone
      rw [List.contains_iff_mem.mpr gone] at kept
      cases kept
  · exact Or.inr ⟨List.mem_map.mpr ⟨entry, inParent, rfl⟩, inside⟩

end Claimed

theorem additions_beside (formed : FolderWellFormed tree.agent)
    (read : agentBlobs parent.entries = .ok base)
    (claim : ClaimOf base (filesBelow [] tree.agent) changes) :
    ∀ change ∈ additionsOf changes, ∀ path ∈
      (clearedOf parent changes).map Prod.fst ++ (additionsOf changes).map AgentChange.path,
      conflicts change.path path = false := by
  have fileOfDraft : ∀ change ∈ additionsOf changes, ∃ rel data,
      change.path = agentFront ++ rel ∧
        Dict.lookup rel (filesBelow [] tree.agent) = some data := by
    intro change member
    obtain ⟨rel, path, content, -⟩ := change_below_agent claim (List.mem_filter.mp member).1
    have there := additions_add changes change member
    rw [content] at there
    obtain ⟨data, found⟩ := Option.isSome_iff_exists.mp there
    exact ⟨rel, data, path, found⟩
  intro change member path known
  obtain ⟨rel, data, samePath, there⟩ := fileOfDraft change member
  rw [samePath]
  rcases List.mem_append.mp known with held | isAdded
  · rcases cleared_paths read claim held with ⟨other, bytes, rfl, isOther⟩ | ⟨inParent, outside⟩
    · exact draft_files_apart formed there isOther
    · exact outside_apart inParent outside rel
  · obtain ⟨another, inAdditions, rfl⟩ := List.mem_map.mp isAdded
    obtain ⟨other, bytes, sameOther, isOther⟩ := fileOfDraft another inAdditions
    rw [sameOther]
    exact draft_files_apart formed there isOther

/-- The rows go in, and the index then has the draft's files below `agent/` and
the parent's entries everywhere else. -/
theorem rows_apply (formed : FolderWellFormed tree.agent)
    (read : agentBlobs parent.entries = .ok base)
    (claim : ClaimOf base (filesBelow [] tree.agent) changes) :
    ∃ index, applyRows (stageRows changes) parent.entries = some index ∧
      (∀ rel, (Dict.lookup (agentFront ++ rel) index).map IndexEntry.blob =
        Dict.lookup rel (filesBelow [] tree.agent)) ∧
      ∀ path, ¬ agentFront <+: path → Dict.lookup path index = Dict.lookup path parent.entries := by
  have additionsOnce : ((additionsOf changes).map AgentChange.path).Nodup :=
    claim.once.sublist (List.filter_sublist.map _)
  obtain ⟨index, ran, inside, outside⟩ := apply_additions (additionsOf changes)
    (clearedOf parent changes) (additions_add changes) additionsOnce
    (additions_beside formed read claim)
  have baseLookup := agent_blobs_lookup read
  refine ⟨index, ?_, ?_, ?_⟩
  · have first := apply_deletions (deletionsOf changes) (deletions_delete changes) parent.entries
    unfold applyRows at first ran ⊢
    rw [stage_rows_split, List.foldlM_append, first]
    exact ran
  · intro rel
    by_cases isAdded : agentFront ++ rel ∈ (additionsOf changes).map AgentChange.path
    · obtain ⟨change, member, same⟩ := List.mem_map.mp isAdded
      obtain ⟨other, path, content, -⟩ := change_below_agent claim (List.mem_filter.mp member).1
      rw [path] at same
      obtain rfl := List.append_cancel_left same
      have put := inside change member
      rw [path, content] at put
      rw [put, Option.map_map]
      exact Option.map_id'
    · rw [outside _ isAdded, cleared_lookup]
      rw [added_path_iff claim] at isAdded
      by_cases isDeleted : agentFront ++ rel ∈ (deletionsOf changes).map AgentChange.path
      · rw [List.contains_iff_mem.mpr isDeleted]
        exact ((deleted_path_iff claim rel).mp isDeleted).1.symm
      · rw [if_pos (by simpa using isDeleted), ← baseLookup]
        rw [deleted_path_iff claim] at isDeleted
        cases there : Dict.lookup rel (filesBelow [] tree.agent) with
        | some data =>
          by_contra differs
          exact isAdded ⟨data, there, differs⟩
        | none =>
          by_contra wasThere
          exact isDeleted ⟨there, wasThere⟩
  · intro path notBelow
    have untouched : ∀ change ∈ changes, change.path ≠ path := by
      rintro change member rfl
      obtain ⟨rel, below, -⟩ := change_below_agent claim member
      exact notBelow ⟨rel, below.symm⟩
    have notIn : ∀ some : List AgentChange, some ⊆ changes →
        path ∉ some.map AgentChange.path := by
      intro some part member
      obtain ⟨change, inSome, same⟩ := List.mem_map.mp member
      exact untouched change (part inSome) same
    have kept : ((deletionsOf changes).map AgentChange.path).contains path = false :=
      Bool.eq_false_iff.mpr fun present =>
        notIn (deletionsOf changes) (List.filter_subset_self _) (List.contains_iff_mem.mp present)
    rw [outside path (notIn _ (List.filter_subset_self _)), cleared_lookup, kept]
    rfl

theorem for_all_ok {Item : Type} {check : Item → Except DeliveryRefused Unit}
    (items : List Item) :
    items.forM check = .ok () ↔ ∀ item ∈ items, check item = .ok () := by
  induction items with
  | nil => simp [List.forM, pure, Except.pure]
  | cons item rest induction =>
    change (check item >>= fun _ => rest.forM check) = .ok () ↔ _
    rw [List.forall_mem_cons, ← induction]
    cases check item with
    | error refused => simp [bind, Except.bind]
    | ok _ => simp [bind, Except.bind]

theorem agent_blobs_regular (read : agentBlobs parent.entries = .ok base) {rel : Str}
    (there : base.get? rel ≠ none) : heldAsFile parent.entries (agentFront ++ rel) = true := by
  obtain ⟨_, checked, -⟩ := except_bind_ok.mp read
  rw [agent_blobs_lookup read] at there
  cases found : Dict.lookup (agentFront ++ rel) parent.entries with
  | none =>
    rw [found] at there
    exact absurd rfl there
  | some entry =>
    have inParent := (Dict.lookup_eq_some_iff parent.once).mp found
    have listed : (agentFront ++ rel, entry) ∈ agentEntries parent.entries :=
      (mem_agent_entries parent _).mpr ⟨inParent, rel, rfl⟩
    have passed := (for_all_ok _).mp checked _ listed
    by_contra irregular
    rw [heldAsFile, found] at irregular
    rw [if_neg irregular] at passed
    cases passed

theorem trees_differ {index other : GitIndex} (path : Str)
    (differs : Dict.lookup path index ≠ Dict.lookup path other) :
    sameTree index other ≠ true := by
  intro same
  by_cases known : path ∈ index.map Prod.fst ++ other.map Prod.fst
  · exact differs (beq_iff_eq.mp (List.all_eq_true.mp same path known))
  · rw [List.mem_append, not_or, ← Dict.lookup_isSome_iff, ← Dict.lookup_isSome_iff,
      Option.not_isSome_iff_eq_none, Option.not_isSome_iff_eq_none] at known
    exact differs (known.1.trans known.2.symm)

/-- A claim the draft makes is committed, and the commit has the draft's files
below `agent/` and the parent's entries outside it. -/
theorem commit_makes_base_draft (casefold : Str → Str) (lanes : List Str) (parent : CommitTree)
    (base : Dict Str Bytes) (tree : DraftTree) (changes : List AgentChange)
    (formed : FolderWellFormed tree.agent) (read : agentBlobs parent.entries = .ok base)
    (accepted : changeSet casefold lanes base tree = .ok changes) (filled : changes ≠ []) :
    ∃ index, applyRows (stageRows changes) parent.entries = some index ∧
      commitClaim casefold lanes parent.entries changes = .ok index ∧
      (∀ rel, (Dict.lookup (agentFront ++ rel) index).map IndexEntry.blob =
        Dict.lookup rel (filesBelow [] tree.agent)) ∧
      ∀ path, ¬ agentFront <+: path → Dict.lookup path index = Dict.lookup path parent.entries := by
  have claim := change_set_claim formed accepted
  obtain ⟨index, ran, inside, outside⟩ := rows_apply formed read claim
  refine ⟨index, ran, ?_, inside, outside⟩
  obtain ⟨found, -, collecting⟩ := except_bind_ok.mp accepted
  obtain ⟨collected, ranCollect, checkedOnce⟩ := except_bind_ok.mp collecting
  have same : collected = changes := by
    split at checkedOnce
    · exact Except.ok.inj checkedOnce
    · cases checkedOnce
  rw [same] at ranCollect
  have checked := collect_checked ranCollect
  have paths : (changes.forM fun change => agentPath casefold change.path) = .ok () :=
    (for_all_ok _).mpr fun change member => (checked change member).1
  have inLanes : (changes.forM fun change => requireInLanes change.path lanes) = .ok () :=
    (for_all_ok _).mpr fun change member => (checked change member).2
  have held : (changes.forM fun change =>
      if change.content.isNone && !heldAsFile parent.entries change.path then
        (throw (.notHeld change.path) : Except DeliveryRefused Unit)
      else pure ()) = .ok () := by
    rw [for_all_ok]
    intro change member
    obtain ⟨rel, path, content, differs⟩ := change_below_agent claim member
    split
    case isTrue gone =>
      rw [Bool.and_eq_true, Bool.not_eq_true', path] at gone
      rw [← content, Option.isNone_iff_eq_none.mp gone.1] at differs
      rw [agent_blobs_regular read (Ne.symm differs)] at gone
      cases gone.2
    case isFalse => rfl
  have moved : sameTree index parent.entries ≠ true := by
    obtain ⟨change, member⟩ := List.exists_mem_of_ne_nil changes filled
    obtain ⟨rel, -, -, differs⟩ := change_below_agent claim member
    exact trees_differ (agentFront ++ rel) fun same => differs (by
      rw [← inside rel, same, agent_blobs_lookup read])
  rw [commitClaim, paths]
  dsimp only [bind, Except.bind]
  rw [if_neg filled, inLanes]
  dsimp only [bind, Except.bind, pure, Except.pure] at held ⊢
  rw [held]
  dsimp only
  rw [makeCommit, ran]
  exact if_neg moved

def lessonTree : CommitTree where
  entries := [("README.md", { mode := "100644", blob := [7] }),
    ("agent/.tenant-id", { mode := "100644", blob := [1] }),
    ("agent/lessons/a", { mode := "100755", blob := [2] })]
  once := by decide
  apart := by decide
  marked := by decide

def splitDraft : DraftTree where
  agent := [(".tenant-id", .leaf (.file 1 [1])),
    ("lessons", .folder [("a", .folder [("b", .leaf (.file 2 [3]))])])]
  inodes := { links := fun _ => 1, next := 3 }

def lessonBlobs : Dict Str Bytes := ⟨[(".tenant-id", [1]), ("lessons/a", [2])], by decide⟩

def splitClaim : List AgentChange :=
  [{ path := "agent/lessons/a", content := none },
    { path := "agent/lessons/a/b", content := some [3] }]

theorem split_claim_committed :
    changeSet id ["lessons"] lessonBlobs splitDraft = .ok splitClaim ∧
      ∃ index, applyRows (stageRows splitClaim) lessonTree.entries = some index ∧
        commitClaim id ["lessons"] lessonTree.entries splitClaim = .ok index ∧
        (∀ rel, (Dict.lookup (agentFront ++ rel) index).map IndexEntry.blob =
          Dict.lookup rel (filesBelow [] splitDraft.agent)) ∧
        ∀ path, ¬ agentFront <+: path →
          Dict.lookup path index = Dict.lookup path lessonTree.entries := by
  have formed : FolderWellFormed splitDraft.agent := by
    simp only [splitDraft, FolderWellFormed, Entry.WellFormed, PlainName]
    decide
  have accepted : changeSet id ["lessons"] lessonBlobs splitDraft = .ok splitClaim := by
    decide +kernel
  exact ⟨accepted, commit_makes_base_draft id ["lessons"] lessonTree lessonBlobs splitDraft
    splitClaim formed rfl accepted (by decide)⟩

end Commit

end Defender.Learning.Draft
