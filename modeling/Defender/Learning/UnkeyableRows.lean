import Defender.Investigation.MemberOrder
import Defender.Learning.CuratorQueue
import Defender.Python.JsonInteger

/-!
# Rows without an id

A tick records the rows that have no text for an id on the graveyard, each with its counter one
up, and at once rotates them out of the queue. The rotation matches a row by its id where it has
one of any kind, and else by its whole content.
-/

namespace Defender.Learning.Unkeyable

open Defender.Python Defender.Library.OrderedDict Defender.Library.Wire
open Defender.Investigation
open Defender.Learning.Curator (Row idKey textAt withText stamped consumeAs)

section Model

/-- A row off a line of the queue, its numbers as they are written again. -/
structure QueueRow where
  members : Row
  spelled : (Json.object members.entries).spelled = true
  distinct : distinctMembers (.object members.entries)

/-- What the interpreter reads a number that is no integer as. -/
inductive Double where
  | nan
  | infinite (negative : Bool)
  | finite (value : ℚ)
deriving DecidableEq

/-- What tells ids apart in a set: a number by its value alone, and the reader's `NaN` is one
object wherever it is read. -/
inductive IdKey where
  | null
  | text (id : Str)
  | number (value : Double)
deriving DecidableEq

inductive Fault where
  | typeError
  | valueError
  | overflowError
deriving DecidableEq

/-- The files of a channel, read as rows. -/
structure Files where
  queue : List QueueRow
  graveyard : List Row
  ledger : List Row

/-- `_row_id`. -/
def rowId (row : QueueRow) : Option Str :=
  match row.members.get? idKey with
  | some (.string []) => none
  | some (.string id) => some id
  | _ => none

/-- `row.get(key)` where it is not `None`. -/
def idOf (row : Row) : Option Json :=
  match row.get? idKey with
  | some .null => none
  | found => found

def canonicalRow (row : QueueRow) : Str := Json.dumps (sortKeys (.object row.members.entries))

/-- A file with the rows after what it holds; `json.dumps` spells no integer past its limit. -/
def appendRows (file rows : List Row) : Except Fault (List Row) :=
  if rows.all fun row => (Json.object row.entries).spelled then .ok (file ++ rows)
  else .error .valueError

variable [UnicodeDatabase] (double : Str → Double)

def numberValue (literal : Str) : Double :=
  match Json.integerOf literal with
  | some number => .finite number
  | none => double literal

def hashKey : Json → Except Fault IdKey
  | .null => .ok .null
  | .bool value => .ok (.number (.finite (if value then 1 else 0)))
  | .number literal => .ok (.number (numberValue double literal))
  | .string text => .ok (.text text)
  | .array _ | .object _ => .error .typeError

/-- `int(row.get("attempts") or 0)`. -/
def attempts (row : Row) : Except Fault Int :=
  match row.get? "attempts" with
  | none | some .null | some (.bool false) => .ok 0
  | some (.string []) | some (.array []) | some (.object []) => .ok 0
  | some (.bool true) => .ok 1
  | some (.number literal) =>
      match numberValue double literal with
      | .nan => .error .valueError
      | .infinite _ => .error .overflowError
      | .finite value => .ok (value.num.tdiv value.den)
  | some (.string text) =>
      match parseInt text with
      | some number => .ok number
      | none => .error .valueError
  | some (.array _) | some (.object _) => .error .typeError

/-- The ids a rotation has handled. -/
def processedIds : List Row → Except Fault (List IdKey)
  | [] => .ok []
  | entry :: rest =>
      match idOf entry with
      | none => processedIds rest
      | some id => do
          let key ← hashKey double id
          let keys ← processedIds rest
          .ok (key :: keys)

def outlives (processed : List IdKey) (dropped : List Str) (row : QueueRow) : Except Fault Bool :=
  match idOf row.members with
  | some id => do
      let key ← hashKey double id
      .ok (!processed.contains key)
  | none => .ok (!dropped.contains (canonicalRow row))

def survivors (processed : List IdKey) (dropped : List Str) :
    List QueueRow → Except Fault (List QueueRow)
  | [] => .ok []
  | row :: rest => do
      let stays ← outlives double processed dropped row
      let others ← survivors processed dropped rest
      .ok (if stays then row :: others else others)

def rotated (held : List QueueRow) (consumed : List Row) (drop queue : List QueueRow) :
    Except Fault (List QueueRow) := do
  let processed ← processedIds double (held.map QueueRow.members ++ consumed)
  let kept ← survivors double processed (drop.map canonicalRow) queue
  .ok (held ++ kept)

def rotate (held : List QueueRow) (consumed : List Row) (commit : Option Str)
    (drop : List QueueRow) (now : Str) (files : Files) : Files × Except Fault Unit :=
  match rotated double held consumed drop files.queue with
  | .error fault => (files, .error fault)
  | .ok queue =>
      match appendRows files.ledger (consumed.map (stamped now commit)) with
      | .error fault => ({ files with queue := queue }, .error fault)
      | .ok ledger => ({ files with queue := queue, ledger := ledger }, .ok ())

def deadletter (entries : List Row) (files : Files) : Files × Except Fault Unit :=
  match appendRows files.graveyard entries with
  | .error fault => (files, .error fault)
  | .ok graveyard => ({ files with graveyard := graveyard }, .ok ())

def retiredReason : Str := "row carries no value under " ++ reprText idKey

def graveRecord (count : Int) (now : Str) (row : QueueRow) : Row :=
  withText (withText (row.members.set "attempts" (.number (showInt (count + 1))))
    "deadletter_reason" retiredReason) "retired_at" now

def graveRecords : (Nat → Str) → List QueueRow → Except Fault (List Row)
  | _, [] => .ok []
  | clock, row :: rest => do
      let count ← attempts double row.members
      let records ← graveRecords (fun turn => clock (turn + 1)) rest
      .ok (graveRecord count (clock 0) row :: records)

def retiredCategory : Str := "consumed_retired"

def consumedRows (rows : List QueueRow) : List Row :=
  rows.map fun row => consumeAs row.members retiredCategory

/-- `_retire_unkeyable`. -/
def retireUnkeyable (clock : Nat → Str) (now : Str) (rows : List QueueRow) (files : Files) :
    Files × Except Fault Unit :=
  if rows.isEmpty then (files, .ok ())
  else
    match graveRecords double clock rows with
    | .error fault => (files, .error fault)
    | .ok records =>
        match deadletter records files with
        | (files, .error fault) => (files, .error fault)
        | (files, .ok ()) =>
            rotate double [] (consumedRows rows) none rows now files

def unkeyable (batch : List QueueRow) : List QueueRow :=
  batch.filter fun row => (rowId row).isNone

def retireRead (clock : Nat → Str) (now : Str) (batch appended : List QueueRow)
    (graveyard ledger : List Row) : Files × Except Fault Unit :=
  retireUnkeyable double clock now (unkeyable batch) ⟨batch ++ appended, graveyard, ledger⟩

end Model

section Purpose

variable [UnicodeDatabase] (double : Str → Double)

def Carries (fields : List Str) (row : QueueRow) (record : Row) : Prop :=
  ∀ key ∉ fields, record.get? key = row.members.get? key

def SameContent (left right : QueueRow) : Prop :=
  Alike (.object left.members.entries) (.object right.members.entries)

/-- Every row found without an id is on the graveyard and the ledger once more. -/
structure Recorded (batch : List QueueRow) (graveyard ledger : List Row) (after : Files) :
    Prop where
  buried : ∃ records, after.graveyard = graveyard ++ records ∧
    List.Forall₂ (Carries ["attempts", "deadletter_reason", "retired_at"]) (unkeyable batch) records
  consumed : ∃ records, after.ledger = ledger ++ records ∧
    List.Forall₂ (Carries ["consumed_category", "consumed_at"]) (unkeyable batch) records

/-- The rows found without an id have left the queue, by their content, and no others. -/
structure Retired (batch appended : List QueueRow) (graveyard ledger : List Row) (after : Files) :
    Prop extends Recorded batch graveyard ledger after where
  removed : ∃ keep : QueueRow → Bool,
    (∀ row, keep row = true ↔ ∀ other ∈ unkeyable batch, ¬SameContent row other) ∧
      after.queue = (batch ++ appended).filter keep

/-- They have left, and every row appended since has stayed. -/
structure RetiredAlone (batch appended : List QueueRow) (graveyard ledger : List Row)
    (after : Files) : Prop extends Recorded batch graveyard ledger after where
  removed : after.queue = (batch.filter fun row => (rowId row).isSome) ++ appended

def Counted (row : QueueRow) : Prop :=
  ∃ count, attempts double row.members = .ok count ∧
    (decimalText (count + 1).natAbs).length ≤ Json.digitsLimit

def HasHash (row : Row) : Prop := ∀ id, idOf row = some id → ∃ key, hashKey double id = .ok key

def SameId (left right : QueueRow) : Prop :=
  ∃ id other key, idOf left.members = some id ∧ idOf right.members = some other ∧
    hashKey double id = .ok key ∧ hashKey double other = .ok key

/-- The step gets through to its rotation's end. -/
structure Accepted (batch appended : List QueueRow) : Prop where
  counted : ∀ row ∈ unkeyable batch, Counted double row
  hashed : ∀ row ∈ unkeyable batch ++ appended, HasHash double row.members

/-- It does, and whatever was appended under the id of a row it retires is a copy of one. -/
structure Retirable (batch appended : List QueueRow) : Prop extends
    Accepted double batch appended where
  apart : ∀ row ∈ appended, ∀ other ∈ unkeyable batch, SameId double row other →
    ∃ copy ∈ unkeyable batch, SameContent row copy

/-- What the rotation takes for a row it retires. -/
def Matched (rows : List QueueRow) (row : QueueRow) : Prop :=
  ∃ other ∈ rows, SameId double row other ∨ (idOf row.members = none ∧ SameContent row other)

end Purpose

section Content

theorem canonical_same_iff (left right : QueueRow) :
    canonicalRow left = canonicalRow right ↔ SameContent left right := by
  rw [SameContent, ← sorted_alike_iff left.distinct]
  constructor
  · exact dumps_injective (sort_keys_spelled _ left.spelled) (sort_keys_spelled _ right.spelled)
  · exact congrArg Json.dumps

theorem lookup_moved {left right : Row} {key : Str} {value : Json}
    (moved : (sortKeysEntries left.entries).Perm (sortKeysEntries right.entries))
    (found : left.get? key = some value) :
    ∃ other, right.get? key = some other ∧ sortKeys other = sortKeys value := by
  have member : (key, sortKeys value) ∈ sortKeysEntries right.entries := by
    rw [← moved.mem_iff, sort_entries_map]
    exact List.mem_map.mpr ⟨_, (Dict.mem_entries_iff left key value).mpr found, rfl⟩
  rw [sort_entries_map] at member
  obtain ⟨⟨name, other⟩, inside, same⟩ := List.mem_map.mp member
  obtain ⟨sameKey, sameValue⟩ := Prod.mk.inj same
  subst sameKey
  exact ⟨other, (Dict.mem_entries_iff right name other).mp inside, sameValue⟩

variable {left right : QueueRow}

theorem same_content_get (same : SameContent left right) (key : Str) :
    (left.members.get? key).map sortKeys = (right.members.get? key).map sortKeys := by
  have moved : (sortKeysEntries left.members.entries).Perm
      (sortKeysEntries right.members.entries) := by
    cases same with
    | object entries => exact sorted_of_alike_entries entries left.distinct.2
  cases found : left.members.get? key with
  | some value =>
      obtain ⟨other, there, sorted⟩ := lookup_moved moved found
      rw [there, Option.map_some, Option.map_some, sorted]
  | none =>
      cases there : right.members.get? key with
      | none => rfl
      | some other =>
          obtain ⟨value, back, _⟩ := lookup_moved moved.symm there
          rw [found] at back
          contradiction

theorem hash_key_sorted (double : Str → Double) (id : Json) :
    hashKey double (sortKeys id) = hashKey double id := by
  cases id with
  | _ => rfl

def namedId : Json → Option Json
  | .null => none
  | id => some id

def textId : Json → Option Str
  | .string [] => none
  | .string id => some id
  | _ => none

theorem same_content_id (same : SameContent left right) :
    (idOf left.members).map sortKeys = (idOf right.members).map sortKeys := by
  have ids := same_content_get same idKey
  have apart (row : Row) : (idOf row).map sortKeys =
      ((row.get? idKey).map sortKeys).bind namedId := by
    unfold idOf
    cases row.get? idKey with
    | none => rfl
    | some id => cases id with
      | _ => rfl
  rw [apart, apart, ids]

theorem same_content_row_id (same : SameContent left right) : rowId left = rowId right := by
  have ids := same_content_get same idKey
  have apart (row : QueueRow) : rowId row =
      ((row.members.get? idKey).map sortKeys).bind textId := by
    unfold rowId
    cases row.members.get? idKey with
    | none => rfl
    | some id => cases id with
      | string text => cases text with
        | _ => rfl
      | _ => rfl
  rw [apart, apart, ids]

end Content

section Rotation

variable {double : Str → Double} {processed : List IdKey} {dropped : List Str}

theorem processed_ids_ok {entries : List Row} (hashed : ∀ entry ∈ entries, HasHash double entry) :
    ∃ keys, processedIds double entries = .ok keys ∧ ∀ key, key ∈ keys ↔
      ∃ entry ∈ entries, ∃ id, idOf entry = some id ∧ hashKey double id = .ok key := by
  induction entries with
  | nil => exact ⟨[], rfl, by simp⟩
  | cons entry rest ih =>
      obtain ⟨keys, run, held⟩ := ih fun other inside =>
        hashed other (List.mem_cons_of_mem _ inside)
      cases found : idOf entry with
      | none =>
          refine ⟨keys, ?_, ?_⟩
          · rw [processedIds, found]
            exact run
          · intro key
            rw [held]
            simp [found]
      | some id =>
          obtain ⟨first, hash⟩ := hashed entry List.mem_cons_self id found
          refine ⟨first :: keys, ?_, ?_⟩
          · rw [processedIds, found]
            simp only [hash, run]
            rfl
          · intro key
            rw [List.mem_cons, held]
            simp [found, hash, eq_comm]

theorem processed_ids_hashed {entries : List Row} {keys : List IdKey}
    (run : processedIds double entries = .ok keys) : ∀ entry ∈ entries, HasHash double entry := by
  induction entries generalizing keys with
  | nil => simp
  | cons entry rest ih =>
      rw [List.forall_mem_cons]
      rw [processedIds] at run
      cases found : idOf entry with
      | none =>
          rw [found] at run
          exact ⟨fun id held => by rw [found] at held; contradiction, ih run⟩
      | some id =>
          simp only [found, except_bind_ok] at run
          obtain ⟨key, hash, others, further, _⟩ := run
          refine ⟨?_, ih further⟩
          intro other held
          rw [found, Option.some.injEq] at held
          exact ⟨key, held ▸ hash⟩

def Outlives (double : Str → Double) (processed : List IdKey) (dropped : List Str)
    (row : QueueRow) : Prop :=
  match idOf row.members with
  | some id => ∀ key, hashKey double id = .ok key → key ∉ processed
  | none => canonicalRow row ∉ dropped

variable (processed dropped) in
theorem outlives_ok {row : QueueRow} (hashed : HasHash double row.members) :
    ∃ stays, outlives double processed dropped row = .ok stays ∧
      (stays = true ↔ Outlives double processed dropped row) := by
  unfold outlives Outlives
  cases found : idOf row.members with
  | none => exact ⟨_, rfl, by simp⟩
  | some id =>
      obtain ⟨key, hash⟩ := hashed id found
      refine ⟨!processed.contains key, ?_, ?_⟩
      · simp only [hash]
        rfl
      · simp [hash]

theorem outlives_hashed {row : QueueRow} {stays : Bool}
    (run : outlives double processed dropped row = .ok stays) : HasHash double row.members := by
  intro id found
  simp only [outlives, found, except_bind_ok] at run
  obtain ⟨key, hash, _⟩ := run
  exact ⟨key, hash⟩

variable (processed dropped) in
theorem survivors_ok {rows : List QueueRow} {keep : QueueRow → Bool}
    (hashed : ∀ row ∈ rows, HasHash double row.members)
    (kept : ∀ row ∈ rows, keep row = true ↔ Outlives double processed dropped row) :
    survivors double processed dropped rows = .ok (rows.filter keep) := by
  induction rows with
  | nil => rfl
  | cons row rest ih =>
      rw [List.forall_mem_cons] at hashed kept
      obtain ⟨stays, run, outlived⟩ := outlives_ok processed dropped hashed.1
      have same : stays = keep row := by
        rw [Bool.eq_iff_iff, outlived, kept.1]
      rw [survivors, run, ih hashed.2 kept.2, same]
      cases held : keep row with
      | true => rw [List.filter_cons_of_pos held]; rfl
      | false => rw [List.filter_cons_of_neg (by simp [held])]; rfl

theorem survivors_hashed {rows kept : List QueueRow}
    (run : survivors double processed dropped rows = .ok kept) :
    ∀ row ∈ rows, HasHash double row.members := by
  induction rows generalizing kept with
  | nil => simp
  | cons row rest ih =>
      rw [survivors, except_bind_ok] at run
      obtain ⟨stays, first, run⟩ := run
      rw [except_bind_ok] at run
      obtain ⟨others, further, _⟩ := run
      rw [List.forall_mem_cons]
      exact ⟨outlives_hashed first, ih further⟩

end Rotation

section Records

theorem row_spelled_iff (row : Row) : (Json.object row.entries).spelled = true ↔
    ∀ key value, row.get? key = some value → value.spelled = true := by
  rw [Json.spelled, spelled_entries_iff]
  constructor
  · intro spelled key value found
    exact spelled (key, value) ((row.mem_entries_iff key value).mpr found)
  · intro spelled entry inside
    exact spelled entry.1 entry.2 ((row.mem_entries_iff entry.1 entry.2).mp inside)

theorem set_spelled {row : Row} (spelled : (Json.object row.entries).spelled = true) {key : Str}
    {value : Json} (valueSpelled : value.spelled = true) :
    (Json.object (row.set key value).entries).spelled = true := by
  rw [row_spelled_iff] at spelled ⊢
  intro other held found
  rw [Dict.get_set] at found
  split at found
  · exact Option.some.inj found ▸ valueSpelled
  · exact spelled other held found

theorem set_default_spelled {row : Row} (spelled : (Json.object row.entries).spelled = true)
    {key : Str} {value : Json} (valueSpelled : value.spelled = true) :
    (Json.object (row.setDefault key value).entries).spelled = true := by
  unfold Dict.setDefault
  split
  · exact spelled
  · exact set_spelled spelled valueSpelled

theorem stamped_uncommitted (now : Str) (entry : Row) :
    stamped now none entry = entry.setDefault "consumed_at" (.string now) := by
  unfold stamped
  dsimp only
  split
  · contradiction
  · rfl

def ledgerRecord (now : Str) (row : QueueRow) : Row :=
  stamped now none (consumeAs row.members retiredCategory)

theorem ledger_record_spelled (now : Str) (row : QueueRow) :
    (Json.object (ledgerRecord now row).entries).spelled = true := by
  rw [ledgerRecord, stamped_uncommitted]
  exact set_default_spelled (set_spelled row.spelled rfl) rfl

theorem ledger_record_carries (now : Str) (row : QueueRow) :
    Carries ["consumed_category", "consumed_at"] row (ledgerRecord now row) := by
  intro key other
  simp only [List.mem_cons, List.not_mem_nil, or_false, not_or] at other
  rw [ledgerRecord, stamped_uncommitted, Dict.get_set_default, if_neg (Ne.symm other.2)]
  exact Dict.get_set_of_ne _ _ (Ne.symm other.1)

theorem consume_as_id (row : QueueRow) (category : Str) :
    idOf (consumeAs row.members category) = idOf row.members := by
  unfold idOf consumeAs withText
  rw [Dict.get_set_of_ne _ _ (by decide)]

variable [UnicodeDatabase] {double : Str → Double}

theorem grave_record_get (count : Int) (now : Str) (row : QueueRow) (key : Str) :
    (graveRecord count now row).get? key =
      if key = "retired_at" then some (.string now)
      else if key = "deadletter_reason" then some (.string retiredReason)
      else if key = "attempts" then some (.number (showInt (count + 1)))
      else row.members.get? key := by
  unfold graveRecord withText
  rw [Dict.get_set, Dict.get_set, Dict.get_set]
  simp only [eq_comm (b := key)]

theorem grave_record_spelled_iff (count : Int) (now : Str) (row : QueueRow) :
    (Json.object (graveRecord count now row).entries).spelled = true ↔
      (decimalText (count + 1).natAbs).length ≤ Json.digitsLimit := by
  constructor
  · intro spelled
    have held : (graveRecord count now row).get? "attempts" =
        some (.number (showInt (count + 1))) := by
      rw [grave_record_get, if_neg (by decide), if_neg (by decide), if_pos rfl]
    exact Json.spelled_show_short ((row_spelled_iff _).mp spelled _ _ held)
  · intro short
    have counted : (Json.number (showInt (count + 1))).spelled = true := Json.show_spelled short
    exact set_spelled (set_spelled (set_spelled row.spelled counted) rfl) rfl

theorem grave_record_carries (count : Int) (now : Str) (row : QueueRow) :
    Carries ["attempts", "deadletter_reason", "retired_at"] row (graveRecord count now row) := by
  intro key other
  simp only [List.mem_cons, List.not_mem_nil, or_false, not_or] at other
  rw [grave_record_get, if_neg other.2.2, if_neg other.2.1, if_neg other.1]

theorem grave_records_carry {clock : Nat → Str} {rows : List QueueRow} {records : List Row}
    (run : graveRecords double clock rows = .ok records) :
    List.Forall₂ (Carries ["attempts", "deadletter_reason", "retired_at"]) rows records := by
  induction rows generalizing clock records with
  | nil =>
      cases run
      exact .nil
  | cons row rest ih =>
      simp only [graveRecords, except_bind_ok] at run
      obtain ⟨count, _, others, further, same⟩ := run
      cases same
      exact .cons (grave_record_carries count _ row) (ih further)

theorem grave_records_written_iff (clock : Nat → Str) (rows : List QueueRow) :
    (∃ records, graveRecords double clock rows = .ok records ∧
      ∀ record ∈ records, (Json.object record.entries).spelled = true) ↔
        ∀ row ∈ rows, Counted double row := by
  induction rows generalizing clock with
  | nil => simp [graveRecords]
  | cons row rest ih =>
      rw [List.forall_mem_cons, ← ih fun turn => clock (turn + 1)]
      simp only [graveRecords, except_bind_ok]
      constructor
      · rintro ⟨records, ⟨count, read, others, further, same⟩, spelled⟩
        cases same
        rw [List.forall_mem_cons] at spelled
        exact ⟨⟨count, read, (grave_record_spelled_iff count _ row).mp spelled.1⟩,
          others, further, spelled.2⟩
      · rintro ⟨⟨count, read, short⟩, others, further, spelled⟩
        refine ⟨_, ⟨count, read, others, further, rfl⟩, ?_⟩
        rw [List.forall_mem_cons]
        exact ⟨(grave_record_spelled_iff count _ row).mpr short, spelled⟩

end Records

section Retiring

variable {double : Str → Double} {rows queue : List QueueRow}

theorem outlives_iff_unmatched {processed : List IdKey}
    (held : ∀ key, key ∈ processed ↔ ∃ entry ∈ consumedRows rows, ∃ id,
      idOf entry = some id ∧ hashKey double id = .ok key)
    (row : QueueRow) :
    Outlives double processed (rows.map canonicalRow) row ↔ ¬Matched double rows row := by
  unfold Outlives Matched
  cases found : idOf row.members with
  | none =>
      have unnamed (other : QueueRow) : ¬SameId double row other := by
        rintro ⟨id, _, _, there, _⟩
        rw [found] at there
        contradiction
      simp only [unnamed, false_or, true_and, List.mem_map, ← canonical_same_iff]
      simp [eq_comm]
  | some id =>
      simp only [reduceCtorEq, false_and, or_false, held, consumedRows, List.mem_map]
      constructor
      · rintro apart ⟨other, inside, _, otherId, key, there, otherFound, hash, otherHash⟩
        rw [found, Option.some.injEq] at there
        subst there
        exact apart key hash ⟨_, ⟨other, inside, rfl⟩, otherId,
          (consume_as_id other _).trans otherFound, otherHash⟩
      · rintro unmatched key hash ⟨_, ⟨other, inside, rfl⟩, otherId, otherFound, otherHash⟩
        rw [consume_as_id] at otherFound
        exact unmatched ⟨other, inside, id, otherId, key, found, otherFound, hash, otherHash⟩

theorem rotated_ok {keep : QueueRow → Bool} (rowsHashed : ∀ row ∈ rows, HasHash double row.members)
    (queueHashed : ∀ row ∈ queue, HasHash double row.members)
    (kept : ∀ row ∈ queue, keep row = true ↔ ¬Matched double rows row) :
    rotated double [] (consumedRows rows) rows queue = .ok (queue.filter keep) := by
  have hashed : ∀ entry ∈ consumedRows rows, HasHash double entry := by
    intro entry inside
    obtain ⟨row, member, rfl⟩ := List.mem_map.mp inside
    intro id found
    exact rowsHashed row member id ((consume_as_id row _).symm.trans found)
  obtain ⟨keys, run, held⟩ := processed_ids_ok hashed
  have left := survivors_ok keys (rows.map canonicalRow) queueHashed
    fun row inside => (kept row inside).trans (outlives_iff_unmatched held row).symm
  simp only [rotated, List.map_nil, List.nil_append, run]
  exact congrArg (fun outcome => outcome >>= fun kept => Except.ok kept) left

theorem rotated_hashed {left : List QueueRow}
    (run : rotated double [] (consumedRows rows) rows queue = .ok left) :
    (∀ row ∈ rows, HasHash double row.members) ∧ ∀ row ∈ queue, HasHash double row.members := by
  simp only [rotated, List.map_nil, List.nil_append, except_bind_ok] at run
  obtain ⟨keys, named, kept, outlived, _⟩ := run
  refine ⟨?_, survivors_hashed outlived⟩
  intro row inside id found
  refine processed_ids_hashed named _ (List.mem_map.mpr ⟨row, inside, rfl⟩) id ?_
  rw [consume_as_id]
  exact found

theorem rotate_moves {left : List QueueRow} (now : Str) (files : Files)
    (run : rotated double [] (consumedRows rows) rows files.queue = .ok left) :
    rotate double [] (consumedRows rows) none rows now files =
      (⟨left, files.graveyard, files.ledger ++ rows.map (ledgerRecord now)⟩, .ok ()) := by
  have written : appendRows files.ledger ((consumedRows rows).map (stamped now none)) =
      .ok (files.ledger ++ rows.map (ledgerRecord now)) := by
    rw [consumedRows, List.map_map, appendRows, if_pos]
    · rfl
    · rw [List.all_eq_true]
      intro record inside
      obtain ⟨row, _, rfl⟩ := List.mem_map.mp inside
      exact ledger_record_spelled now row
  simp only [rotate, run, written]

end Retiring

end Defender.Learning.Unkeyable
