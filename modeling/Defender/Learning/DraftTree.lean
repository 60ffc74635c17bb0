import Defender.Library.OrderedDict
import Defender.Library.PathTree
import Defender.Library.Wire
import Defender.Python.Text

/-!
# The draft of a batch

The tree a box writes into, below `agent/`. A file's name leads to an inode, and
the table of inodes counts the names of each, those outside the tree included.
`resync` brings the tree back to the batch's base in place, within the calls the
interpreter has left; `changeSet` reads what the box changed, or refuses the
claim whole.
-/

namespace Defender.Learning.Draft

open Defender.Python Defender.Library.OrderedDict Defender.Library.PathTree
open Defender.Library.Wire

/-- What is no file. A closed folder is one whose mode keeps its owner from its
entries. -/
inductive SpecialKind where
  | link
  | fifo
  | socket
  | device
  | closedFolder
deriving DecidableEq, Repr

inductive DraftLeaf where
  | file (inode : Nat) (data : Bytes)
  | special (kind : SpecialKind)
deriving DecidableEq, Repr

structure Inodes where
  links : Nat → Nat
  next : Nat

structure DraftTree where
  agent : Folder DraftLeaf
  inodes : Inodes

def Inodes.unlink (inodes : Inodes) (inode : Nat) : Inodes :=
  { inodes with
    links := fun other => if other = inode then inodes.links other - 1 else inodes.links other }

/-- A new file takes a fresh inode with one name. -/
def Inodes.create (inodes : Inodes) : Inodes where
  links other := if other = inodes.next then 1 else inodes.links other
  next := inodes.next + 1

/-- `unlink` of a leaf and `rmtree` of a folder: every name at or below it goes. -/
def Inodes.remove (inodes : Inodes) (entry : Entry DraftLeaf) : Inodes :=
  (entry.listing []).foldl (fun held item =>
    match item.2 with
    | some (.file inode _) => held.unlink inode
    | _ => held) inodes

def ancestors (rel : Str) : List Str :=
  let parts := (splitOn '/' rel).filter (· ≠ [])
  (List.range parts.length).map fun count => join ['/'] (parts.take (count + 1))

/-- Every folder holding one of the files or named in `extra`, with its
ancestors. -/
def foldersOf (files extra : List Str) : List Str :=
  dedup ((files.map (fun file => (rpartition ['/'] file).1) ++ extra).flatMap ancestors)

section Resync

inductive SyncFault where
  | taken (name : Str)
  | notFolder (name : Str)
  | notRemoved (name : Str)
  | recursion
deriving DecidableEq, Repr

/-- What is named `front` and one name more. -/
def here (front rel : Str) : Option Str :=
  if startsWith front rel && !(rel.drop front.length).contains '/' then
    some (rel.drop front.length)
  else none

def hereFiles (front : Str) (files : List (Str × Bytes)) : List (Str × Bytes) :=
  files.filterMap fun file => (here front file.1).map fun name => (name, file.2)

def hereFolders (front : Str) (folders : List Str) : List Str := folders.filterMap (here front)

def holds (inodes : Inodes) (data : Bytes) : Entry DraftLeaf → Bool
  | .leaf (.file inode held) =>
    !decide (1 < inodes.links inode) && held.length == data.length &&
      held.take (data.length + 1) == data
  | .leaf (.special _) => false
  | .folder _ => false

def isFolder : Entry DraftLeaf → Bool
  | .folder _ => true
  | .leaf leaf => leaf = .special .closedFolder

/-- Whether `rmtree` comes to its end: it takes a call for each folder on the way
down, and opens every folder. -/
def opensWithin : Nat → Entry DraftLeaf → Bool
  | _, .leaf leaf => leaf ≠ .special .closedFolder
  | 0, .folder _ => false
  | calls + 1, .folder entries => entries.all fun entry => opensWithin calls entry.2

def keeps (files : List (Str × Bytes)) (folders : List Str) (inodes : Inodes) (name : Str)
    (entry : Entry DraftLeaf) : Bool :=
  (folders.contains name && isFolder entry) ||
    match Dict.lookup name files with
    | some data => holds inodes data entry
    | none => false

/-- The entries kept, in turn, and the inodes once the others are removed. -/
def sweep (files : List (Str × Bytes)) (folders : List Str) (calls : Nat) :
    Folder DraftLeaf → Inodes → Except SyncFault (Folder DraftLeaf × Inodes)
  | [], inodes => .ok ([], inodes)
  | (name, entry) :: rest, inodes =>
    if keeps files folders inodes name entry then do
      let (kept, after) ← sweep files folders calls rest inodes
      pure ((name, entry) :: kept, after)
    else if opensWithin calls entry then sweep files folders calls rest (inodes.remove entry)
    else .error (.notRemoved name)

def mkdir (name : Str) (entries : Folder DraftLeaf) : Except SyncFault (Folder DraftLeaf) :=
  if name ∈ entries.map Prod.fst then .error (.taken name)
  else .ok (entries ++ [(name, .folder [])])

def makeMissing (kept : List Str) (name : Str) (entries : Folder DraftLeaf) :
    Except SyncFault (Folder DraftLeaf) :=
  if name ∈ kept then .ok entries else mkdir name entries

def enterFolders
    (below : Str → Folder DraftLeaf → Inodes → Except SyncFault (Folder DraftLeaf × Inodes))
    (kept : List Str) :
    List Str → Folder DraftLeaf → Inodes → Except SyncFault (Folder DraftLeaf × Inodes)
  | [], entries, inodes => .ok (entries, inodes)
  | name :: rest, entries, inodes => do
    let entries ← makeMissing kept name entries
    match Dict.lookup name entries with
    | some (.folder children) =>
      let (children, inodes) ← below name children inodes
      enterFolders below kept rest (Dict.setEntries name (.folder children) entries) inodes
    | _ => .error (.notFolder name)

def createFiles (kept : List Str) :
    List (Str × Bytes) → Folder DraftLeaf → Inodes → Except SyncFault (Folder DraftLeaf × Inodes)
  | [], entries, inodes => .ok (entries, inodes)
  | (name, data) :: rest, entries, inodes =>
    if name ∈ kept then createFiles kept rest entries inodes
    else if name ∈ entries.map Prod.fst then .error (.taken name)
    else
      createFiles kept rest (entries ++ [(name, .leaf (.file inodes.next data))]) inodes.create

def sortedItems {Value : Type} (items : List (Str × Value)) : List (Str × Value) :=
  items.insertionSort fun left right => textLe left.1 right.1 = true

/-- `_resync_at`, a call for each folder entered. -/
def resyncAt (files : List (Str × Bytes)) (folders : List Str) :
    Nat → Str → Folder DraftLeaf → Inodes → Except SyncFault (Folder DraftLeaf × Inodes)
  | 0, _, _, _ => .error .recursion
  | calls + 1, front, present, inodes => do
    let (held, inodes) ←
      sweep (hereFiles front files) (hereFolders front folders) calls present inodes
    let kept := held.map Prod.fst
    let (entries, inodes) ←
      enterFolders (fun name => resyncAt files folders calls (front ++ name ++ ['/'])) kept
        (sorted (hereFolders front folders)) held inodes
    createFiles kept (sortedItems (hereFiles front files)) entries inodes

/-- `_resync`, with `calls` left of those the interpreter nests. -/
def resync (calls : Nat) (tree : DraftTree) (files : Dict Str Bytes) (folders : List Str) :
    Except SyncFault DraftTree := do
  let (agent, inodes) ← resyncAt files.entries folders calls [] tree.agent tree.inodes
  pure { agent := agent, inodes := inodes }

end Resync

section Claim

def readLimit : Nat := 64 * 1024 * 1024

/-- What refuses a claim, with the path it names. -/
inductive DeliveryRefused where
  | notRegular (rel : Str) (kind : SpecialKind)
  | tooLarge (rel : Str)
  | notRead (rel : Str)
  | notPlainPath (path : Str)
  | tenantId
  | gitControl (path : Str)
  | outsideLanes (path : Str) (lanes : List Str)
  | namedTwice (paths : List Str)
  | notRegularBlob (path : Str) (mode : Str)
  | emptyClaim
  | notHeld (path : Str)
  | gitFault
  | changesNothing
deriving DecidableEq, Repr

def below (folder name : Str) : Str := if folder = [] then name else folder ++ '/' :: name

def readFolder (inodes : Inodes) (folder : Str) :
    Folder DraftLeaf →
      Except DeliveryRefused (List (Str × Folder DraftLeaf) × List (Str × Bytes))
  | [] => .ok ([], [])
  | (name, .folder entries) :: rest => do
    let (pending, files) ← readFolder inodes folder rest
    pure ((below folder name, entries) :: pending, files)
  | (name, .leaf (.special kind)) :: _ => .error (.notRegular (below folder name) kind)
  | (name, .leaf (.file inode data)) :: rest =>
    if readLimit < data.length then .error (.tooLarge (below folder name))
    else if 1 < inodes.links inode then .error (.notRead (below folder name))
    else do
      let (pending, files) ← readFolder inodes folder rest
      pure (pending, (below folder name, data) :: files)

theorem read_folder_lighter {inodes : Inodes} {folder : Str} {entries : Folder DraftLeaf}
    {pending : List (Str × Folder DraftLeaf)} {files : List (Str × Bytes)}
    (read : readFolder inodes folder entries = .ok (pending, files)) :
    (pending.map fun waiting => (listingBelow [] waiting.2).length + 1).sum ≤
      (listingBelow [] entries).length := by
  induction entries generalizing pending files with
  | nil =>
    cases read
    simp
  | cons entry rest induction =>
    obtain ⟨name, entry⟩ := entry
    rw [listingBelow, List.length_append]
    cases entry with
    | folder children =>
      obtain ⟨⟨others, found⟩, readRest, same⟩ := except_bind_ok.mp read
      cases same
      have lighter := induction readRest
      have sizes := listing_below_length children ([] ++ name ++ ['/']) []
      rw [List.map_cons, List.sum_cons, Entry.listing, List.length_cons]
      dsimp only
      omega
    | leaf leaf =>
      cases leaf with
      | special kind => cases read
      | file inode data =>
        rw [readFolder] at read
        split at read
        · cases read
        · split at read
          · cases read
          · obtain ⟨⟨others, found⟩, readRest, same⟩ := except_bind_ok.mp read
            cases same
            have lighter := induction readRest
            omega

theorem sorted_items_perm {Value : Type} (items : List (Str × Value)) :
    (sortedItems items).Perm items :=
  List.perm_insertionSort _ items

/-- Every regular file below the folders on the stack; the last one added is
walked first. -/
def walkFolders (inodes : Inodes) :
    List (Str × Folder DraftLeaf) → Except DeliveryRefused (List (Str × Bytes))
  | [] => .ok []
  | (folder, entries) :: rest =>
    match _read : readFolder inodes folder (sortedItems entries) with
    | .error refused => .error refused
    | .ok (pending, files) => do
      let others ← walkFolders inodes (pending.reverse ++ rest)
      pure (files ++ others)
termination_by stack => (stack.map fun waiting => (listingBelow [] waiting.2).length + 1).sum
decreasing_by
  have lighter := read_folder_lighter _read
  have same : (listingBelow [] (sortedItems entries)).length =
      (listingBelow [] entries).length := by
    rw [listing_below_flat, listing_below_flat]
    exact ((sorted_items_perm entries).flatMap_right _).length_eq
  simp only [List.map_append, List.map_reverse, List.sum_append, List.sum_reverse, List.map_cons,
    List.sum_cons]
  omega

def regularFiles (tree : DraftTree) : Except DeliveryRefused (List (Str × Bytes)) :=
  walkFolders tree.inodes [([], tree.agent)]

structure AgentChange where
  path : Str
  content : Option Bytes
deriving DecidableEq, Repr

def gitControlNames : List Str := [".git", ".gitattributes", ".gitignore", ".gitmodules"]

def plainComponent (part : Str) : Bool :=
  match part with
  | [] => false
  | first :: _ =>
    !(part == ("." : Str) || part == (".." : Str) || isSpace first) &&
      part.all fun char => !(decide (char.toNat < 0x20) || char.toNat == 0x7F)

def laneParts (lane : Str) : List Str := splitOn '/' lane

def inLanes (path : Str) (lanes : List Str) : Bool :=
  let inside := (splitOn '/' path).drop 1
  lanes.any fun lane =>
    decide ((laneParts lane).length < inside.length) &&
      inside.take (laneParts lane).length == laneParts lane

def requireInLanes (path : Str) (lanes : List Str) : Except DeliveryRefused Unit :=
  if inLanes path lanes then .ok () else .error (.outsideLanes path lanes)

section

-- `str.casefold` of the interpreter
variable (casefold : Str → Str)

def agentPath (path : Str) : Except DeliveryRefused Unit :=
  let parts := splitOn '/' path
  if parts.length < 2 || parts.head? != some "agent" || !parts.all plainComponent then
    .error (.notPlainPath path)
  else if parts == ["agent", ".tenant-id"] then .error .tenantId
  else if parts.any fun part => gitControlNames.contains (casefold part) then
    .error (.gitControl path)
  else .ok ()

def collectChanges (lanes : List Str) (base draft : List (Str × Bytes)) :
    List Str → Except DeliveryRefused (List AgentChange)
  | [] => .ok []
  | rel :: rest =>
    if Dict.lookup rel draft = Dict.lookup rel base then collectChanges lanes base draft rest
    else do
      let change : AgentChange := { path := "agent/" ++ rel, content := Dict.lookup rel draft }
      agentPath casefold change.path
      requireInLanes change.path lanes
      let changes ← collectChanges lanes base draft rest
      pure (change :: changes)

/-- The draft's `agent/` against the files of the batch's base. -/
def changeSet (lanes : List Str) (base : Dict Str Bytes) (tree : DraftTree) :
    Except DeliveryRefused (List AgentChange) := do
  let draft ← regularFiles tree
  let changes ← collectChanges casefold lanes base.entries draft
    (sorted (dedup (draft.map Prod.fst ++ base.keys)))
  if (changes.map AgentChange.path).Nodup then pure changes
  else throw (.namedTwice (sorted (changes.map AgentChange.path)))

end

end Claim

end Defender.Learning.Draft
