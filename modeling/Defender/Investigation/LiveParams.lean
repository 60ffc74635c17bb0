import Defender.Investigation.MemberOrder
import Defender.Investigation.RecordQuery

/-!
# The parameters of a live call

A live call's parameters hold more than a stored row's: tuples, sets, dates, members under
names that are no text. They are cleaned before they are stored and again before a key is
taken of them, so a key read off the stored line must be the live call's.
-/

namespace Defender.Investigation.LiveCall

open Defender.Python Defender.Filesystem Defender.Library.OrderedDict

/-- What a member may be named by. A number stands as the encoder spells it, and any other
object by the text it is written as. -/
inductive Key where
  | null
  | bool (value : Bool)
  | number (literal : Str)
  | text (written : Str)

/-- A live value. A set holds its items in the order it iterates; an object the encoder does
not know stands by the text it is written as. -/
inductive Value where
  | null
  | bool (value : Bool)
  | number (literal : Str)
  | string (text : Str)
  | other (written : Str)
  | sequence (items : List Value)
  | set (items : List Value)
  | mapping (isDict : Bool) (entries : List (Key × Value))

/-- A character as the encoder writes it without `ensure_ascii`. -/
def rawEscape (char : Char) : Str :=
  if char = '"' then "\\\""
  else if char = '\\' then "\\\\"
  else if char = '\n' then "\\n"
  else if char = '\r' then "\\r"
  else if char = '\t' then "\\t"
  else if char = Char.ofNat 0x0c then "\\f"
  else if char = Char.ofNat 0x08 then "\\b"
  else if char < ' ' then Json.escapeUnit char.toNat
  else [char]

def rawString (text : Str) : Str := '"' :: (text.flatMap rawEscape ++ ['"'])

mutual

/-- `json.dumps` with `ensure_ascii=False`. -/
def rawDumps : Json → Str
  | .null => "null"
  | .bool true => "true"
  | .bool false => "false"
  | .number literal => literal
  | .string text => rawString text
  | .array items => '[' :: (join ", " (rawItems items) ++ [']'])
  | .object entries => '\x7b' :: (join ", " (rawEntries entries) ++ ['\x7d'])

def rawItems : List Json → List Str
  | [] => []
  | item :: items => rawDumps item :: rawItems items

def rawEntries : List (Str × Json) → List Str
  | [] => []
  | (key, value) :: entries => (rawString key ++ ": " ++ rawDumps value) :: rawEntries entries

end

def inWrittenOrder (items : List Json) : List Json :=
  items.insertionSort fun left right => textLe (rawDumps left) (rawDumps right) = true

/-- `_json_key`; nothing for a number the encoder cannot write. -/
def jsonKey : Key → Option Str
  | .null => some "null"
  | .bool true => some "true"
  | .bool false => some "false"
  | .number literal => if Json.spelledNumber literal then some literal else none
  | .text written => some written

def jsonNumber (literal : Str) : Json :=
  if Json.namedNumbers.contains literal then .string literal else .number literal

/-- Whether a container lies past the limit. -/
def tooDeep (limit : Option Nat) (depth : Nat) : Bool := limit.any fun most => most ≤ depth

mutual

/-- `_json_safe_walk`, refusing what lies deeper; nothing where it raises. -/
def jsonSafeWalk (limit : Option Nat) : Nat → Value → Option Json
  | _, .null => some .null
  | _, .bool value => some (.bool value)
  | _, .number literal => some (jsonNumber literal)
  | _, .string text => some (.string text)
  | _, .other written => some (.string written)
  | depth, .sequence items =>
      if tooDeep limit depth then none else (walkItems limit (depth + 1) items).map .array
  | depth, .set items =>
      if tooDeep limit depth then none
      else
        (walkItems limit (depth + 1) items).bind fun cleaned =>
          if Json.spelledItems cleaned then some (.array (inWrittenOrder cleaned)) else none
  | depth, .mapping _ entries =>
      if tooDeep limit depth then none
      else
        (walkEntries limit (depth + 1) entries).map fun cleaned =>
          .object (Dict.ofList cleaned).entries

def walkItems (limit : Option Nat) : Nat → List Value → Option (List Json)
  | _, [] => some []
  | depth, item :: items =>
      (jsonSafeWalk limit depth item).bind fun first =>
        (walkItems limit depth items).map fun rest => first :: rest

def walkEntries (limit : Option Nat) : Nat → List (Key × Value) → Option (List (Str × Json))
  | _, [] => some []
  | depth, (key, value) :: entries =>
      (jsonKey key).bind fun name =>
        (jsonSafeWalk limit depth value).bind fun first =>
          (walkEntries limit depth entries).map fun rest => (name, first) :: rest

end

def jsonSafe (value : Value) : Option Json := jsonSafeWalk none 0 value

/-- `json_safe_params`; nothing where the value is refused. -/
def jsonSafeParams (value : Value) : Option Json := jsonSafeWalk (some paramsNestingLimit) 0 value

/-- The parameters a key is taken of: what is no dict counts as none. -/
def keyParams : Value → Value
  | .mapping true entries => .mapping true entries
  | _ => .mapping true []

/-- `query_request_key`; nothing where a number is one the encoder cannot write. -/
def queryRequestKey (system verb : Str) (params : Value) : Option Str :=
  (jsonSafe (.sequence [.string system, .string verb, keyParams params])).bind fun call =>
    if call.spelled then some (Json.dumps (sortKeys call)) else none

mutual

/-- A value as it is read from a line. -/
def ofJson : Json → Value
  | .null => .null
  | .bool value => .bool value
  | .number literal => .number literal
  | .string text => .string text
  | .array items => .sequence (ofItems items)
  | .object entries => .mapping true (ofEntries entries)

def ofItems : List Json → List Value
  | [] => []
  | item :: items => ofJson item :: ofItems items

def ofEntries : List (Str × Json) → List (Key × Value)
  | [] => []
  | (key, value) :: entries => (.text key, ofJson value) :: ofEntries entries

end

section Cleaned

/-- A value that cleaning leaves as it is, and that names no member twice. -/
structure Cleaned (value : Json) : Prop where
  distinct : distinctMembers value
  clean : Investigation.jsonSafe value = value

theorem clean_items {items : List Json} (each : ∀ item ∈ items, Investigation.jsonSafe item = item) :
    jsonSafeItems items = items := by
  induction items with
  | nil => rfl
  | cons item items ih =>
      rw [jsonSafeItems, each item (List.mem_cons_self ..),
        ih fun other among => each other (List.mem_cons_of_mem _ among)]

theorem clean_entries {entries : List (Str × Json)}
    (each : ∀ entry ∈ entries, Investigation.jsonSafe entry.2 = entry.2) :
    jsonSafeEntries entries = entries := by
  induction entries with
  | nil => rfl
  | cons entry entries ih =>
      rw [jsonSafeEntries, each entry (List.mem_cons_self ..),
        ih fun other among => each other (List.mem_cons_of_mem _ among)]

theorem Cleaned.array {items : List Json} (each : ∀ item ∈ items, Cleaned item) :
    Cleaned (.array items) where
  distinct := (distinct_items_iff items).mpr fun item among => (each item among).distinct
  clean := by rw [Investigation.jsonSafe, clean_items fun item among => (each item among).clean]

theorem Cleaned.object {entries : List (Str × Json)} (nodup : (entries.map Prod.fst).Nodup)
    (each : ∀ entry ∈ entries, Cleaned entry.2) : Cleaned (.object entries) where
  distinct :=
    ⟨nodup, (distinct_entries_iff entries).mpr fun entry among => (each entry among).distinct⟩
  clean := by
    rw [Investigation.jsonSafe, clean_entries fun entry among => (each entry among).clean]

theorem json_number_cleaned (literal : Str) : Cleaned (jsonNumber literal) := by
  unfold jsonNumber
  split
  · exact ⟨trivial, rfl⟩
  · rename_i unnamed
    exact ⟨trivial, by rw [Investigation.jsonSafe, if_neg unnamed]⟩

mutual

theorem walk_cleaned {limit : Option Nat} {depth : Nat} (value : Value) {read : Json}
    (walked : jsonSafeWalk limit depth value = some read) : Cleaned read := by
  cases value with
  | null => cases walked; exact ⟨trivial, rfl⟩
  | bool value => cases walked; exact ⟨trivial, rfl⟩
  | number literal => cases walked; exact json_number_cleaned literal
  | string text => cases walked; exact ⟨trivial, rfl⟩
  | other written => cases walked; exact ⟨trivial, rfl⟩
  | sequence items =>
      rw [jsonSafeWalk, Option.ite_none_left_eq_some, Option.map_eq_some_iff] at walked
      obtain ⟨-, cleaned, among, rfl⟩ := walked
      exact .array (walk_items_cleaned items among)
  | set items =>
      rw [jsonSafeWalk, Option.ite_none_left_eq_some, Option.bind_eq_some_iff] at walked
      obtain ⟨-, cleaned, among, written⟩ := walked
      rw [Option.ite_none_right_eq_some] at written
      obtain ⟨-, same⟩ := written
      cases same
      exact .array fun item held =>
        walk_items_cleaned items among item ((List.mem_insertionSort _).mp held)
  | mapping isDict entries =>
      rw [jsonSafeWalk, Option.ite_none_left_eq_some, Option.map_eq_some_iff] at walked
      obtain ⟨-, cleaned, among, rfl⟩ := walked
      exact .object (Dict.ofList cleaned).nodup fun entry held =>
        walk_entries_cleaned entries among entry (Dict.mem_of_list_entries held)

theorem walk_items_cleaned {limit : Option Nat} {depth : Nat} (items : List Value)
    {read : List Json} (walked : walkItems limit depth items = some read) :
    ∀ item ∈ read, Cleaned item := by
  cases items with
  | nil =>
      cases walked
      exact fun item among => nomatch among
  | cons item items =>
      rw [walkItems, Option.bind_eq_some_iff] at walked
      obtain ⟨first, firstWalked, restWalked⟩ := walked
      obtain ⟨rest, others, rfl⟩ := Option.map_eq_some_iff.mp restWalked
      exact List.forall_mem_cons.mpr
        ⟨walk_cleaned item firstWalked, walk_items_cleaned items others⟩

theorem walk_entries_cleaned {limit : Option Nat} {depth : Nat} (entries : List (Key × Value))
    {read : List (Str × Json)} (walked : walkEntries limit depth entries = some read) :
    ∀ entry ∈ read, Cleaned entry.2 := by
  cases entries with
  | nil =>
      cases walked
      exact fun entry among => nomatch among
  | cons entry entries =>
      rw [walkEntries, Option.bind_eq_some_iff] at walked
      obtain ⟨name, -, valueWalked⟩ := walked
      obtain ⟨first, firstWalked, restWalked⟩ := Option.bind_eq_some_iff.mp valueWalked
      obtain ⟨rest, others, rfl⟩ := Option.map_eq_some_iff.mp restWalked
      exact List.forall_mem_cons.mpr
        ⟨walk_cleaned entry.2 firstWalked, walk_entries_cleaned entries others⟩

end

end Cleaned

mutual

theorem walk_unlimited {limit : Option Nat} {depth : Nat} (other : Nat) (value : Value)
    {read : Json} (walked : jsonSafeWalk limit depth value = some read) :
    jsonSafeWalk none other value = some read := by
  have unlimited : tooDeep none other = false := rfl
  cases value with
  | null => exact walked
  | bool value => exact walked
  | number literal => exact walked
  | string text => exact walked
  | other written => exact walked
  | sequence items =>
      rw [jsonSafeWalk, Option.ite_none_left_eq_some, Option.map_eq_some_iff] at walked
      obtain ⟨-, cleaned, among, rfl⟩ := walked
      rw [jsonSafeWalk, unlimited, walk_items_unlimited (other + 1) items among]
      rfl
  | set items =>
      rw [jsonSafeWalk, Option.ite_none_left_eq_some, Option.bind_eq_some_iff] at walked
      obtain ⟨-, cleaned, among, written⟩ := walked
      rw [jsonSafeWalk, unlimited, walk_items_unlimited (other + 1) items among]
      exact written
  | mapping isDict entries =>
      rw [jsonSafeWalk, Option.ite_none_left_eq_some, Option.map_eq_some_iff] at walked
      obtain ⟨-, cleaned, among, rfl⟩ := walked
      rw [jsonSafeWalk, unlimited, walk_entries_unlimited (other + 1) entries among]
      rfl

theorem walk_items_unlimited {limit : Option Nat} {depth : Nat} (other : Nat) (items : List Value)
    {read : List Json} (walked : walkItems limit depth items = some read) :
    walkItems none other items = some read := by
  cases items with
  | nil => exact walked
  | cons item items =>
      rw [walkItems, Option.bind_eq_some_iff] at walked
      obtain ⟨first, firstWalked, restWalked⟩ := walked
      obtain ⟨rest, others, rfl⟩ := Option.map_eq_some_iff.mp restWalked
      rw [walkItems, walk_unlimited other item firstWalked, Option.bind_some,
        walk_items_unlimited other items others]
      rfl

theorem walk_entries_unlimited {limit : Option Nat} {depth : Nat} (other : Nat)
    (entries : List (Key × Value)) {read : List (Str × Json)}
    (walked : walkEntries limit depth entries = some read) :
    walkEntries none other entries = some read := by
  cases entries with
  | nil => exact walked
  | cons entry entries =>
      rw [walkEntries, Option.bind_eq_some_iff] at walked
      obtain ⟨name, named, valueWalked⟩ := walked
      obtain ⟨first, firstWalked, restWalked⟩ := Option.bind_eq_some_iff.mp valueWalked
      obtain ⟨rest, others, rfl⟩ := Option.map_eq_some_iff.mp restWalked
      rw [walkEntries, named, Option.bind_some, walk_unlimited other entry.2 firstWalked,
        Option.bind_some, walk_entries_unlimited other entries others]
      rfl

end

theorem json_safe_entries_keys (entries : List (Str × Json)) :
    (jsonSafeEntries entries).map Prod.fst = entries.map Prod.fst := by
  induction entries with
  | nil => rfl
  | cons entry entries ih => rw [jsonSafeEntries, List.map_cons, List.map_cons, ih]

mutual

theorem walk_of_json (depth : Nat) (value : Json) (distinct : distinctMembers value) :
    jsonSafeWalk none depth (ofJson value) = some (Investigation.jsonSafe value) := by
  have unlimited : tooDeep none depth = false := rfl
  cases value with
  | null => rfl
  | bool value => rfl
  | number literal => rfl
  | string text => rfl
  | array items =>
      rw [ofJson, jsonSafeWalk, unlimited, walk_of_items (depth + 1) items distinct]
      rfl
  | object entries =>
      have nodup : ((jsonSafeEntries entries).map Prod.fst).Nodup := by
        rw [json_safe_entries_keys]
        exact distinct.1
      rw [ofJson, jsonSafeWalk, unlimited, walk_of_entries (depth + 1) entries distinct.2]
      exact congrArg (fun members => some (Json.object members)) (Dict.of_list_entries nodup)

theorem walk_of_items (depth : Nat) (items : List Json) (distinct : distinctItems items) :
    walkItems none depth (ofItems items) = some (jsonSafeItems items) := by
  cases items with
  | nil => rfl
  | cons item items =>
      rw [ofItems, walkItems, walk_of_json depth item distinct.1,
        walk_of_items depth items distinct.2]
      rfl

theorem walk_of_entries (depth : Nat) (entries : List (Str × Json))
    (distinct : distinctEntries entries) :
    walkEntries none depth (ofEntries entries) = some (jsonSafeEntries entries) := by
  cases entries with
  | nil => rfl
  | cons entry entries =>
      rw [ofEntries, walkEntries, walk_of_json depth entry.2 distinct.1,
        walk_of_entries depth entries distinct.2]
      rfl

end

/-- The key of a call whose parameters are cleaned to `stored`. -/
def keyOf (system verb : Str) (stored : Json) : Option Str :=
  if stored.spelled then
    some (Json.dumps (sortKeys (.array [.string system, .string verb, stored])))
  else none

theorem call_spelled (system verb : Str) (stored : Json) :
    (Json.array [.string system, .string verb, stored]).spelled = stored.spelled := by
  simp only [Json.spelled, Json.spelledItems, Bool.true_and, Bool.and_true]

theorem request_key_walked {system verb : Str} {entries : List (Key × Value)} {stored : Json}
    (walked : jsonSafeWalk none 1 (.mapping true entries) = some stored) :
    queryRequestKey system verb (.mapping true entries) = keyOf system verb stored := by
  have call : jsonSafe (.sequence [.string system, .string verb, .mapping true entries]) =
      some (.array [.string system, .string verb, stored]) := by
    have string : ∀ text, jsonSafeWalk none 1 (.string text) = some (.string text) := fun _ => rfl
    simp only [jsonSafe, jsonSafeWalk.eq_6, tooDeep, Option.any_none, walkItems, string, walked]
    rfl
  rw [queryRequestKey, keyParams, call, Option.bind_some, call_spelled, keyOf]

theorem request_key_accepted {system verb : Str} {entries : List (Key × Value)} {stored : Json}
    (kept : jsonSafeParams (.mapping true entries) = some stored) :
    queryRequestKey system verb (.mapping true entries) = keyOf system verb stored :=
  request_key_walked (walk_unlimited 1 _ kept)

theorem request_key_read {system verb : Str} {stored : List (Str × Json)}
    (cleaned : Cleaned (.object stored)) :
    queryRequestKey system verb (ofJson (.object stored)) =
      keyOf system verb (.object stored) := by
  have walked := walk_of_json 1 (.object stored) cleaned.distinct
  rw [cleaned.clean] at walked
  exact request_key_walked walked

theorem accepted_object {isDict : Bool} {entries : List (Key × Value)} {kept : Json}
    (accepted : jsonSafeParams (.mapping isDict entries) = some kept) :
    ∃ stored, kept = .object stored := by
  rw [jsonSafeParams, jsonSafeWalk, Option.ite_none_left_eq_some,
    Option.map_eq_some_iff] at accepted
  obtain ⟨-, cleaned, -, same⟩ := accepted
  exact ⟨_, same.symm⟩

theorem key_of_eq_iff {system verb otherSystem otherVerb key otherKey : Str} {stored other : Json}
    (cleaned : Cleaned stored) (keyed : keyOf system verb stored = some key)
    (otherKeyed : keyOf otherSystem otherVerb other = some otherKey) :
    key = otherKey ↔ system = otherSystem ∧ verb = otherVerb ∧ Alike stored other := by
  rw [keyOf, Option.ite_none_right_eq_some] at keyed otherKeyed
  obtain ⟨spelled, same⟩ := keyed
  obtain ⟨otherSpelled, otherSame⟩ := otherKeyed
  cases same
  cases otherSame
  have sorted : ∀ {value : Json}, value.spelled = true → ∀ {first second : Str},
      (sortKeys (.array [.string first, .string second, value])).spelled = true :=
    fun wellSpelled => sort_keys_spelled _ ((call_spelled _ _ _).trans wellSpelled)
  have written : ∀ {first second : Str} {value : Json},
      sortKeys (.array [.string first, .string second, value]) =
        .array [.string first, .string second, sortKeys value] := rfl
  rw [← sorted_alike_iff cleaned.distinct]
  constructor
  · intro sameKey
    have sameCall := dumps_injective (sorted spelled) (sorted otherSpelled) sameKey
    rw [written, written] at sameCall
    simpa using sameCall
  · rintro ⟨rfl, rfl, sameValue⟩
    rw [written, written, sameValue]

/-- A dict of parameters that is accepted has the key of the row its line reads back as, and
two such calls share a key exactly when they ask the same of the same system. -/
theorem request_key_faithful :
    (∀ {entries : List (Key × Value)} {kept : Json},
      jsonSafeParams (.mapping true entries) = some kept →
      ∃ stored, kept = .object stored ∧
        ∀ (call : QueryCall) (seq : Nat) (path : Json) (digest receivedAt : Str) {read : Json},
          throughLine (.object (queryRow call seq stored path digest receivedAt)) = .ok read →
          ∃ back key, read.get? "params" = some back ∧
            queryRequestKey call.system call.verb (ofJson back) = some key ∧
            queryRequestKey call.system call.verb (.mapping true entries) = some key) ∧
    ∀ {system verb otherSystem otherVerb : Str} {entries others : List (Key × Value)}
      {kept other : Json} {key otherKey : Str},
      jsonSafeParams (.mapping true entries) = some kept →
      jsonSafeParams (.mapping true others) = some other →
      queryRequestKey system verb (.mapping true entries) = some key →
      queryRequestKey otherSystem otherVerb (.mapping true others) = some otherKey →
      (key = otherKey ↔ system = otherSystem ∧ verb = otherVerb ∧ Alike kept other) := by
  constructor
  · intro entries kept accepted
    obtain ⟨stored, rfl⟩ := accepted_object accepted
    refine ⟨stored, rfl, ?_⟩
    intro call seq path digest receivedAt read landed
    obtain ⟨spelled, rfl⟩ := through_line_ok landed
    have storedSpelled : (Json.object stored).spelled = true := by
      refine (spelled_entries_iff _).mp spelled ("params", .object stored) ?_
      simp [queryRow]
    have keyed : ∀ system verb, (keyOf system verb (.object stored)).isSome := by
      intro system verb
      rw [keyOf, if_pos storedSpelled]
      rfl
    obtain ⟨key, found⟩ := Option.isSome_iff_exists.mp (keyed call.system call.verb)
    exact ⟨.object stored, key, rfl, (request_key_read (walk_cleaned _ accepted)).trans found,
      (request_key_accepted accepted).trans found⟩
  · intro system verb otherSystem otherVerb entries others kept other key otherKey accepted
      otherAccepted keyed otherKeyed
    rw [request_key_accepted accepted] at keyed
    rw [request_key_accepted otherAccepted] at otherKeyed
    exact key_of_eq_iff (walk_cleaned _ accepted) keyed otherKeyed

def exampleCall : QueryCall where
  leadId := "l-001"
  system := "siem"
  verb := "search"
  queryId := "q-1"
  params := .empty
  rawCommand := []
  payloadText := []
  exitCode := 0
  payloadStatus := "ok"
  payloadDigest := []
  systemKey := []

/-- A set under a number, and a number without a numeral. -/
theorem set_key_read_back :
    ∃ back key, (Json.object (queryRow exampleCall 0
        [("1", .array [.string "b", .number "2"]), ("null", .string "NaN")] .null [] [])).get?
          "params" = some back ∧
      queryRequestKey "siem" "search" (ofJson back) = some key ∧
      queryRequestKey "siem" "search" (.mapping true
        [(.number "1", .set [.number "2", .string "b"]), (.null, .number "NaN")]) = some key := by
  have accepted : jsonSafeParams (.mapping true
      [(.number "1", .set [.number "2", .string "b"]), (.null, .number "NaN")]) =
        some (.object [("1", .array [.string "b", .number "2"]), ("null", .string "NaN")]) := rfl
  obtain ⟨stored, same, read⟩ := request_key_faithful.1 accepted
  cases same
  exact read exampleCall 0 .null [] [] (through_line_spelled (by decide +kernel))

/-- A mapping that is no dict is stored with its members and keyed as if it had none. -/
theorem proxy_keyed_empty :
    jsonSafeParams (.mapping false [(.text "a", .number "1")]) =
        some (.object [("a", .number "1")]) ∧
      throughLine (.object (queryRow exampleCall 0 [("a", .number "1")] .null [] [])) =
        .ok (.object (queryRow exampleCall 0 [("a", .number "1")] .null [] [])) ∧
      (Json.object (queryRow exampleCall 0 [("a", .number "1")] .null [] [])).get? "params" =
        some (.object [("a", .number "1")]) ∧
      queryRequestKey "siem" "search" (.mapping false [(.text "a", .number "1")]) ≠
        queryRequestKey "siem" "search" (ofJson (.object [("a", .number "1")])) :=
  ⟨rfl, through_line_spelled (by decide +kernel), rfl, by decide +kernel⟩

end Defender.Investigation.LiveCall
