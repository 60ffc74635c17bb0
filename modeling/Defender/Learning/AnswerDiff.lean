import Defender.Investigation.QueryRules
import Defender.Library.Alignment
import Defender.Library.OrderedDict

/-!
# The structural difference of two answers

Two answers are compared shape by shape. Lists are aligned row by row; an ES|QL answer's value
arrays are first zipped into rows of named cells, so that an edited row pairs with its old self.
-/

namespace Defender.Learning.Estate

open Defender.Python Defender.Library.OrderedDict Defender.Library.Alignment
open Defender.Filesystem (height)
open Defender.Investigation (sortKeys)

def canonicalJson (value : Json) : Str := Json.dumps (sortKeys value)

/-- A mapping's members, as a dict holds them. -/
abbrev Members := Dict Str Json

abbrev Path := List Str

abbrev Names := Option (List Str)

/-- A row found added or removed: its table's path, the row, its table's column names. -/
structure Found where
  path : Path
  row : Json
  names : Names

/-- A value changed in place. The key of a bare value is empty and its mappings are too. -/
structure Change where
  key : Str
  old : Json
  new : Json
  baseMap : Members
  servedMap : Members
  row : Option Members
  path : Path

structure Diff where
  added : List Found := []
  removed : List Found := []
  changed : List Change := []
  unclaimed : List Str := []

/-- What is found first, and what is found after it. -/
def Diff.then (first second : Diff) : Diff where
  added := first.added ++ second.added
  removed := first.removed ++ second.removed
  changed := first.changed ++ second.changed
  unclaimed := first.unclaimed ++ second.unclaimed

def Diff.joined (found : List Diff) : Diff := found.foldr Diff.then {}

inductive Shape where
  | mapping
  | list
  | scalar
  deriving DecidableEq, Repr

def Shape.name : Shape → Str
  | .mapping => "mapping"
  | .list => "list"
  | .scalar => "scalar"

def shapeKind : Json → Shape
  | .object _ => .mapping
  | .array _ => .list
  | _ => .scalar

/-- `_where`. -/
def placeText (path : Path) : Str := if path = [] then "the top level" else join ['/'] path

def columnName : Json → Option Str
  | .string name => some name
  | .object entries =>
      match (Dict.ofList entries).get? "name" with
      | some (.string name) => some name
      | _ => none
  | _ => none

/-- The column names of an ES|QL answer; nothing for any other mapping. -/
def esqlNames (node : Members) : Names :=
  match node.get? "columns", node.get? "values" with
  | some (.array columns), some (.array _) => if columns = [] then none else columns.mapM columnName
  | _, _ => none

/-- A row's cells: a mapping's own, or a value array zipped with its table's columns. -/
def asRow (element : Json) (names : Names) : Option Members :=
  match element, names with
  | .object entries, _ => some (Dict.ofList entries)
  | .array cells, some names =>
      if cells.length = names.length then some (Dict.ofList (names.zip cells)) else none
  | _, _ => none

/-- An element of an ES|QL answer's values, as `_zipped` leaves it. -/
def zippedRow (names : List Str) (element : Json) : Json :=
  match asRow element (some names) with
  | some cells => .object cells.entries
  | none => element

/-- `_zipped`. -/
def zipped (node : Members) (names : List Str) : Members :=
  match node.get? "values" with
  | some (.array values) => node.set "values" (.array (values.map (zippedRow names)))
  | _ => node

section Pairs

variable (isAddition : Json → Bool)

/-- How many of an old row's cells a new row of the same columns repeats. -/
def equalCells (old new : Members) : Nat :=
  old.entries.countP fun cell =>
    (new.get? cell.1).any fun other => canonicalJson cell.2 = canonicalJson other

def pairScore (old : Members) (new : Json) : Option Nat :=
  match new with
  | .object entries =>
      let cells := Dict.ofList entries
      if (cells.keys.all (old.keys.contains ·) && old.keys.all (cells.keys.contains ·)) &&
          !isAddition new then some (equalCells old cells)
      else none
  | _ => none

/-- The first of the best scores above zero, and its place. -/
def bestPair (old : Members) (free : List Json) : Option (Nat × Nat) :=
  free.zipIdx.foldl (fun best new =>
    match pairScore isAddition old new.1 with
    | none => best
    | some score => if (best.map (·.2)).getD 0 < score then some (new.2, score) else best) none

/-- `_pair_rows`: the pairs, the old rows left and the new rows left. -/
def pairRows : List Json → List Json → List (Json × Json) × List Json × List Json
  | [], free => ([], [], free)
  | old :: olds, free =>
      let best := match old with
        | .object entries => bestPair isAddition (Dict.ofList entries) free
        | _ => none
      match best.bind fun found => (free[found.1]?).map fun new => (found.1, new) with
      | none =>
          let (pairs, left, rest) := pairRows olds free
          (pairs, old :: left, rest)
      | some (place, new) =>
          let (pairs, left, rest) := pairRows olds (free.eraseIdx place)
          ((old, new) :: pairs, left, rest)

end Pairs

section Differ

variable [UnicodeDatabase] (aligner : Aligner Str) (isAddition : Json → Names → Bool)

def keyUnclaimed (path : Path) (fate key : Str) : Str :=
  message ["key ", reprText key, " at ", placeText path, " was ", fate]

def shapeUnclaimed (path : Path) (base served : Shape) : Str :=
  message ["the value at ", placeText path, " changed shape (", base.name, " to ", served.name,
    [')']]

/-- What one block of a list's alignment tells; `pairDiff` compares a row with its edit. -/
def blockDiff (pairDiff : Json → Json → Diff) (base served : List Json) (path : Path)
    (names : Names) (op : Opcode) : Diff :=
  if op.tag = .equal then {}
  else
    let (pairs, olds, news) :=
      pairRows (fun new => isAddition new names) (op.leftSlice base) (op.rightSlice served)
    (Diff.joined (pairs.map fun pair => pairDiff pair.1 pair.2)).then
      { removed := olds.map fun row => ⟨path, row, names⟩
        added := news.map fun row => ⟨path, row, names⟩ }

/-- The names both answers list their columns under, where they are one and the same. -/
def sharedNames (base served : Members) : Names :=
  if esqlNames base = esqlNames served then esqlNames base else none

/-- `_diff`; a comparison of `rounds` nested shapes. -/
def diffWithin : Nat → Json → Json → Path → Names → Option Members → Diff
  | 0, _, _, _, _, _ => {}
  | rounds + 1, base, served, path, names, row =>
      match base, served with
      | .object baseEntries, .object servedEntries =>
          let esql := sharedNames (Dict.ofList baseEntries) (Dict.ofList servedEntries)
          let base := match esql with
            | some names => zipped (Dict.ofList baseEntries) names
            | none => Dict.ofList baseEntries
          let served := match esql with
            | some names => zipped (Dict.ofList servedEntries) names
            | none => Dict.ofList servedEntries
          let lost := sorted (base.keys.filter (!served.contains ·))
          let gained := sorted (served.keys.filter (!base.contains ·))
          let shared := sorted (base.keys.filter served.contains)
          Diff.then
            { unclaimed := lost.map (keyUnclaimed path "removed") ++
                gained.map (keyUnclaimed path "added") }
            (Diff.joined (shared.map fun key =>
              match base.get? key, served.get? key with
              | some old, some new =>
                  if shapeKind old = .scalar ∧ shapeKind new = .scalar then
                    if canonicalJson old = canonicalJson new then {}
                    else { changed := [⟨key, old, new, base, served, row, path⟩] }
                  else
                    diffWithin rounds old new (path ++ [key])
                      (if key = "values" then esql else none) row
              | _, _ => {}))
      | .array base, .array served =>
          Diff.joined ((aligner.opcodes (base.map canonicalJson) (served.map canonicalJson)).map
            (blockDiff isAddition (fun old new =>
              diffWithin rounds old new path none (match old with
                | .object cells => some (Dict.ofList cells)
                | _ => none)) base served path names))
      | base, served =>
          if shapeKind base ≠ shapeKind served then
            { unclaimed := [shapeUnclaimed path (shapeKind base) (shapeKind served)] }
          else if canonicalJson base = canonicalJson served then {}
          else { changed := [⟨[], base, served, Dict.empty, Dict.empty, row, path⟩] }

/-- `_diff`, as deep as the base nests. -/
def diff (base served : Json) (path : Path) : Diff :=
  diffWithin aligner isAddition (height base + 1) base served path none none

end Differ

section Cut

/-- `Counter(texts)`. -/
def counter (rows : List Json) (text : Str) : Nat := (rows.map canonicalJson).count text

/-- `_less_reordered`. -/
def lessReordered : List Json → (Str → Nat) → List Json
  | [], _ => []
  | row :: rows, cancel =>
      let text := canonicalJson row
      if 0 < cancel text then lessReordered rows (Function.update cancel text (cancel text - 1))
      else row :: lessReordered rows cancel

variable [UnicodeDatabase] (aligner : Aligner Str)

/-- `cut_rows`: the rows dropped and the rows brought in. -/
def cutRows (live reAsked : Json) : List Json × List Json :=
  let out := diff aligner (fun _ _ => true) live reAsked []
  let dropped := out.removed.map (·.row)
  let broughtIn := out.added.map (·.row)
  let kept := fun text => min (counter dropped text) (counter broughtIn text)
  if dropped.all fun row => kept (canonicalJson row) = 0 then (dropped, broughtIn)
  else (lessReordered dropped kept, lessReordered broughtIn kept)

end Cut

end Defender.Learning.Estate
