import Defender.Filesystem.JsonLines
import Defender.Library.OrderedDict

/-!
# The commit-maker and its record

Every commit is written to the tenant's record as one JSON row before its branch
moves to it. The record is read line by line, and a batch's branch is delivered
only when every commit on it is on the record for that batch.
-/

namespace Defender.Learning

open Defender.Python Defender.Filesystem Defender.Library.OrderedDict

section Rows

def isOidDigit (char : Char) : Bool := ('0' ≤ char && char ≤ '9') || ('a' ≤ char && char ≤ 'f')

/-- A full git object id, SHA-1 or SHA-256. -/
def isOid (text : Str) : Bool :=
  text.all isOidDigit && (text.length == 40 || text.length == 64)

abbrev Oid := { text : Str // isOid text = true }

structure BatchKey where
  branch : Str
  base : Oid
  start : Str
deriving DecidableEq

/-- A path with its blob at the batch's base and the blob the commit left. -/
structure PathChange where
  path : Str
  before : Option Oid
  after : Option Oid
deriving DecidableEq

structure Made where
  commit : Oid
  batch : BatchKey
  lanes : List Str
  changes : List PathChange
  reverts : Option (BatchKey × Str)
deriving DecidableEq

-- the rows list their keys in the order `sort_keys` gives them

def batchRow (batch : BatchKey) : Json :=
  .object [("base", .string batch.base.1), ("branch", .string batch.branch),
    ("start", .string batch.start)]

def oidRow : Option Oid → Json
  | none => .null
  | some oid => .string oid.1

def changeRow (change : PathChange) : Json :=
  .object [("after", oidRow change.after), ("before", oidRow change.before),
    ("path", .string change.path)]

def revertRow : Option (BatchKey × Str) → List (Str × Json)
  | none => []
  | some (batch, path) =>
      [("reverts", .object [("batch", batchRow batch), ("path", .string path)])]

def madeEntries (made : Made) : List (Str × Json) :=
  ("batch", batchRow made.batch) :: ("changes", .array (made.changes.map changeRow)) ::
    ("commit", .string made.commit.1) :: ("lanes", .array (made.lanes.map Json.string)) ::
    revertRow made.reverts

def madeRow (made : Made) : Json := .object (madeEntries made)

/-- What `_record_made` appends. -/
def recordLine (made : Made) : Str := Json.dumps (madeRow made) ++ ['\n']

end Rows

section Reading

def textOf : Json → Option Str
  | .string text => some text
  | _ => none

def parseOid (value : Json) : Option Oid :=
  (textOf value).bind fun text => if valid : isOid text = true then some ⟨text, valid⟩ else none

/-- A blob id, or an absent file; the outer `none` is a `ValueError`. -/
def oidOrNone : Option Json → Option (Option Oid)
  | none | some .null => some none
  | some value => (parseOid value).map some

def parseBatch (value : Option Json) : Option BatchKey := do
  let row ← value
  let branch ← (row.get? "branch").bind textOf
  let start ← (row.get? "start").bind textOf
  let base ← (row.get? "base").bind parseOid
  return ⟨branch, base, start⟩

def parseChange (row : Json) : Option PathChange := do
  let path ← (row.get? "path").bind textOf
  let before ← oidOrNone (row.get? "before")
  let after ← oidOrNone (row.get? "after")
  return ⟨path, before, after⟩

def parseReverts (row : Json) : Option (Option (BatchKey × Str)) :=
  match row.get? "reverts" with
  | none => some none
  | some target => do
      let path ← (target.get? "path").bind textOf
      let batch ← parseBatch (target.get? "batch")
      return some (batch, path)

def itemsOf : Json → Option (List Json)
  | .array items => some items
  | _ => none

/-- One record row; `none` is a row of any other shape. -/
def parseMade (row : Json) : Option Made := do
  let commit ← (row.get? "commit").bind parseOid
  let lanes ← ((row.get? "lanes").bind itemsOf).bind fun items => items.mapM textOf
  let changes ← ((row.get? "changes").bind itemsOf).bind fun items => items.mapM parseChange
  let reverts ← parseReverts row
  let batch ← parseBatch (row.get? "batch")
  return ⟨commit, batch, lanes, changes, reverts⟩

def readLimit : Nat := 64 * 1024 * 1024

def byteLength (text : Str) : Nat := (text.map fun char => char.utf8Size).sum

def decodedText (text : Str) : Str := replace ['\r'] ['\n'] (replace ['\r', '\n'] ['\n'] text)

/-- `_Record.read`: the rows recorded, or a refusal of an oversized file. -/
def readRecord (text : Str) : Option (List Made) :=
  if byteLength text > readLimit then none
  else some ((jsonlRowsOf (decodedText text)).1.filterMap parseMade)

def commitsOf (record : List Made) (batch : BatchKey) : List Oid :=
  (record.filter fun made => made.batch = batch).map Made.commit

end Reading

section RoundTrip

theorem parse_oid_written (oid : Oid) : parseOid (.string oid.1) = some oid := by
  simp [parseOid, textOf, oid.2]

theorem parse_batch_written (batch : BatchKey) : parseBatch (some (batchRow batch)) = some batch := by
  simp [parseBatch, batchRow, Json.get?, textOf, parse_oid_written]

theorem oid_or_none_written (oid : Option Oid) : oidOrNone (some (oidRow oid)) = some oid := by
  cases oid with
  | none => rfl
  | some oid => simp [oidRow, oidOrNone, parse_oid_written]

theorem parse_change_written (change : PathChange) : parseChange (changeRow change) = some change := by
  simp [parseChange, changeRow, Json.get?, textOf, oid_or_none_written]

theorem map_mapM_written {α : Type*} {write : α → Json} {read : Json → Option α}
    (inverse : ∀ item, read (write item) = some item) (items : List α) :
    (items.map write).mapM read = some items := by
  induction items with
  | nil => rfl
  | cons first rest ih => simp [List.mapM_cons, inverse, ih]

theorem parse_reverts_written (made : Made) : parseReverts (madeRow made) = some made.reverts := by
  rcases made with ⟨commit, batch, lanes, changes, - | ⟨undone, path⟩⟩
  · rfl
  · have held : (madeRow ⟨commit, batch, lanes, changes, some (undone, path)⟩).get? "reverts" =
        some (.object [("batch", batchRow undone), ("path", .string path)]) := rfl
    have within : (Json.object [("batch", batchRow undone), ("path", .string path)]).get? "batch" =
        some (batchRow undone) := rfl
    have beside : (Json.object [("batch", batchRow undone), ("path", .string path)]).get? "path" =
        some (.string path) := rfl
    simp only [parseReverts, held, within, beside, textOf, parse_batch_written, Option.bind_some]
    rfl

theorem made_row_entries (made : Made) :
    (madeRow made).get? "batch" = some (batchRow made.batch) ∧
      (madeRow made).get? "changes" = some (.array (made.changes.map changeRow)) ∧
      (madeRow made).get? "commit" = some (.string made.commit.1) ∧
      (madeRow made).get? "lanes" = some (.array (made.lanes.map Json.string)) := by
  rcases made with ⟨commit, batch, lanes, changes, - | ⟨undone, path⟩⟩
  · exact ⟨rfl, rfl, rfl, rfl⟩
  · exact ⟨rfl, rfl, rfl, rfl⟩

theorem parse_made_written (made : Made) : parseMade (madeRow made) = some made := by
  obtain ⟨batch, changes, commit, lanes⟩ := made_row_entries made
  have readLanes : (made.lanes.map Json.string).mapM textOf = some made.lanes :=
    @map_mapM_written Str Json.string textOf (fun _ => rfl) made.lanes
  have readChanges := map_mapM_written parse_change_written made.changes
  simp only [parseMade, batch, changes, commit, lanes, Option.bind_some, itemsOf, parse_oid_written,
    readLanes, readChanges, parse_reverts_written, parse_batch_written]
  rfl

theorem plain_items_map {α : Type*} {write : α → Json} (plain : ∀ item, (write item).plain = true)
    (items : List α) : Json.plainItems (items.map write) = true := by
  induction items with
  | nil => rfl
  | cons first rest ih => simp [Json.plainItems, plain, ih]

theorem height_items_map {α : Type*} {write : α → Json} {bound : Nat}
    (low : ∀ item, height (write item) ≤ bound) (items : List α) :
    heightItems (items.map write) ≤ bound := by
  induction items with
  | nil => simp [heightItems]
  | cons first rest ih => simp [heightItems, low, ih]

theorem made_row_plain (made : Made) : (madeRow made).plain = true := by
  have oids : ∀ oid, (oidRow oid).plain = true := by
    intro oid
    cases oid <;> rfl
  have plainChanges : Json.plainItems (made.changes.map changeRow) = true :=
    plain_items_map (fun change => by simp [changeRow, Json.plain, Json.plainEntries, oids]) _
  have plainLanes : Json.plainItems (made.lanes.map Json.string) = true :=
    plain_items_map (fun _ => rfl) _
  rcases made with ⟨commit, batch, lanes, changes, - | ⟨undone, path⟩⟩
  · simp_all [madeRow, madeEntries, revertRow, batchRow, Json.plain, Json.plainEntries]
  · simp_all [madeRow, madeEntries, revertRow, batchRow, Json.plain, Json.plainEntries]

theorem made_row_shallow (made : Made) : height (madeRow made) ≤ jsonNestingLimit := by
  have oids : ∀ oid, height (oidRow oid) = 0 := by
    intro oid
    cases oid <;> rfl
  have lowChanges : heightItems (made.changes.map changeRow) ≤ 1 :=
    height_items_map (fun change => by simp [changeRow, height, heightEntries, oids]) _
  have lowLanes : heightItems (made.lanes.map Json.string) ≤ 0 :=
    height_items_map (fun _ => by simp [height]) _
  have batches : ∀ batch, height (batchRow batch) = 1 := by
    intro batch
    simp [batchRow, height, heightEntries]
  rcases made with ⟨commit, batch, lanes, changes, - | ⟨undone, path⟩⟩
  · dsimp only at lowChanges lowLanes
    simp only [madeRow, madeEntries, revertRow, height, heightEntries, batches, jsonNestingLimit]
    omega
  · dsimp only at lowChanges lowLanes
    simp only [madeRow, madeEntries, revertRow, height, heightEntries, batches, jsonNestingLimit]
    omega

theorem recorded_line_read {before after : Str} (made : Made)
    (starts : before = [] ∨ ∃ earlier, before = earlier ++ ['\n'])
    (read : '\r' ∉ before ++ (recordLine made ++ after))
    (small : byteLength (before ++ (recordLine made ++ after)) ≤ readLimit) :
    ∃ record, readRecord (before ++ (recordLine made ++ after)) = some record ∧ made ∈ record := by
  have decoded : decodedText (before ++ (recordLine made ++ after)) =
      before ++ (recordLine made ++ after) := by
    have inner : replace ['\r', '\n'] ['\n'] (before ++ (recordLine made ++ after)) =
        before ++ (recordLine made ++ after) := replace_absent read
    rw [decodedText, inner, replace_absent read]
  refine ⟨_, by rw [readRecord, if_neg (by omega)], ?_⟩
  rw [decoded]
  refine List.mem_filterMap.mpr ⟨madeRow made, ?_, parse_made_written made⟩
  have line := @row_on_own_line before after (madeEntries made)
    (Json.plain_spelled _ (made_row_plain made))
    (made_row_shallow made) starts
  simpa [recordLine, madeRow] using line

end RoundTrip

end Defender.Learning
