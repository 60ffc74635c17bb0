import Defender.Filesystem.JsonLines

/-!
# Request keys and stored parameters

A call's parameters are stored with each number JSON has no numeral for as its name, and not
at all when they nest too deep. A request's key is read off the same cleaned form, so that a
live call and the row it left have one key.
-/

namespace Defender.Investigation

open Defender.Python Defender.Filesystem

/-- The parameters of a call; every number among them is one a text can spell. -/
structure Params where
  entries : List (Str × Json)
  spelled : Json.spelledEntries entries = true

namespace Params

def empty : Params := ⟨[], rfl⟩

def json (params : Params) : Json := .object params.entries

end Params

mutual

/-- `json_safe` with `non_finite="text"`. -/
def jsonSafe : Json → Json
  | .number literal =>
      if Json.namedNumbers.contains literal then .string literal else .number literal
  | .array items => .array (jsonSafeItems items)
  | .object entries => .object (jsonSafeEntries entries)
  | value => value

def jsonSafeItems : List Json → List Json
  | [] => []
  | item :: items => jsonSafe item :: jsonSafeItems items

def jsonSafeEntries : List (Str × Json) → List (Str × Json)
  | [] => []
  | (key, value) :: entries => (key, jsonSafe value) :: jsonSafeEntries entries

end

def paramsNestingLimit : Nat := 32

/-- `json_safe_params`. The walk meets a container below the limit exactly when the value is
higher than it. -/
def jsonSafeParams (params : Params) : Option (List (Str × Json)) :=
  if height params.json ≤ paramsNestingLimit then some (jsonSafeEntries params.entries) else none

mutual

/-- A value as `dumps` writes it with `sort_keys`. -/
def sortKeys : Json → Json
  | .array items => .array (sortKeysItems items)
  | .object entries => .object ((sortKeysEntries entries).insertionSort fun left right =>
      textLe left.1 right.1 = true)
  | value => value

def sortKeysItems : List Json → List Json
  | [] => []
  | item :: items => sortKeys item :: sortKeysItems items

def sortKeysEntries : List (Str × Json) → List (Str × Json)
  | [] => []
  | (key, value) :: entries => (key, sortKeys value) :: sortKeysEntries entries

end

def keyParams : Json → Json
  | .object entries => .object entries
  | _ => .object []

def queryRequestKey (system verb params : Json) : Str :=
  Json.dumps (sortKeys (jsonSafe (.array [system, verb, keyParams params])))

def reservedQueryIdPrefix : Str := "∅."

def aboveGuardQueryId : Str := "∅.above-repeat-guard"

def deniedQueryId : Str := "∅.denied"

def repeatTripQueryId : Str := "∅.repeat-trip"

section Safe

theorem named_not_finite {literal : Str} (named : Json.namedNumbers.contains literal = true) :
    jsonSafe (.number literal) = .string literal := by
  rw [jsonSafe, if_pos named]

mutual

theorem json_safe_idempotent (value : Json) : jsonSafe (jsonSafe value) = jsonSafe value := by
  cases value with
  | number literal =>
      by_cases named : Json.namedNumbers.contains literal = true
      · rw [named_not_finite named, jsonSafe]
        · nofun
        · nofun
        · nofun
      · rw [jsonSafe, if_neg named, jsonSafe, if_neg named]
  | array items => rw [jsonSafe, jsonSafe, json_safe_items_idempotent items]
  | object entries => rw [jsonSafe, jsonSafe, json_safe_entries_idempotent entries]
  | null => rfl
  | bool value => rfl
  | string text => rfl

theorem json_safe_items_idempotent (items : List Json) :
    jsonSafeItems (jsonSafeItems items) = jsonSafeItems items := by
  cases items with
  | nil => rfl
  | cons item items =>
      rw [jsonSafeItems, jsonSafeItems, json_safe_idempotent item, json_safe_items_idempotent items]

theorem json_safe_entries_idempotent (entries : List (Str × Json)) :
    jsonSafeEntries (jsonSafeEntries entries) = jsonSafeEntries entries := by
  cases entries with
  | nil => rfl
  | cons entry entries =>
      rw [jsonSafeEntries, jsonSafeEntries, json_safe_idempotent entry.2,
        json_safe_entries_idempotent entries]

end

mutual

theorem json_safe_height (value : Json) : height (jsonSafe value) = height value := by
  cases value with
  | number literal =>
      rw [jsonSafe]
      split <;> rfl
  | array items => rw [jsonSafe, height, height, json_safe_items_height items]
  | object entries => rw [jsonSafe, height, height, json_safe_entries_height entries]
  | null => rfl
  | bool value => rfl
  | string text => rfl

theorem json_safe_items_height (items : List Json) :
    heightItems (jsonSafeItems items) = heightItems items := by
  cases items with
  | nil => rfl
  | cons item items =>
      rw [jsonSafeItems, heightItems, heightItems, json_safe_height item,
        json_safe_items_height items]

theorem json_safe_entries_height (entries : List (Str × Json)) :
    heightEntries (jsonSafeEntries entries) = heightEntries entries := by
  cases entries with
  | nil => rfl
  | cons entry entries =>
      rw [jsonSafeEntries, heightEntries, heightEntries, json_safe_height entry.2,
        json_safe_entries_height entries]

end

mutual

theorem json_safe_spelled (value : Json) (wellSpelled : value.spelled = true) :
    (jsonSafe value).spelled = true := by
  cases value with
  | number literal =>
      rw [jsonSafe]
      split
      · rfl
      · exact wellSpelled
  | array items => exact json_safe_items_spelled items wellSpelled
  | object entries => exact json_safe_entries_spelled entries wellSpelled
  | null => rfl
  | bool value => rfl
  | string text => rfl

theorem json_safe_items_spelled (items : List Json) (wellSpelled : Json.spelledItems items = true) :
    Json.spelledItems (jsonSafeItems items) = true := by
  cases items with
  | nil => rfl
  | cons item items =>
      rw [Json.spelledItems, Bool.and_eq_true] at wellSpelled
      rw [jsonSafeItems, Json.spelledItems, json_safe_spelled item wellSpelled.1,
        json_safe_items_spelled items wellSpelled.2]
      rfl

theorem json_safe_entries_spelled (entries : List (Str × Json))
    (wellSpelled : Json.spelledEntries entries = true) :
    Json.spelledEntries (jsonSafeEntries entries) = true := by
  cases entries with
  | nil => rfl
  | cons entry entries =>
      rw [Json.spelledEntries, Bool.and_eq_true] at wellSpelled
      rw [jsonSafeEntries, Json.spelledEntries, json_safe_spelled entry.2 wellSpelled.1,
        json_safe_entries_spelled entries wellSpelled.2]
      rfl

end

theorem spelled_entries_iff (entries : List (Str × Json)) :
    Json.spelledEntries entries = true ↔ ∀ entry ∈ entries, entry.2.spelled = true := by
  induction entries with
  | nil => simp [Json.spelledEntries]
  | cons entry entries ih => simp [Json.spelledEntries, ih]

mutual

theorem sort_keys_spelled (value : Json) (wellSpelled : value.spelled = true) :
    (sortKeys value).spelled = true := by
  cases value with
  | array items => exact sort_items_spelled items wellSpelled
  | object entries =>
      have sorted := sort_entries_spelled entries wellSpelled
      rw [sortKeys, Json.spelled, spelled_entries_iff]
      intro entry member
      exact (spelled_entries_iff _).mp sorted entry
        ((List.perm_insertionSort _ _).mem_iff.mp member)
  | number literal => exact wellSpelled
  | null => rfl
  | bool value => rfl
  | string text => rfl

theorem sort_items_spelled (items : List Json) (wellSpelled : Json.spelledItems items = true) :
    Json.spelledItems (sortKeysItems items) = true := by
  cases items with
  | nil => rfl
  | cons item items =>
      rw [Json.spelledItems, Bool.and_eq_true] at wellSpelled
      rw [sortKeysItems, Json.spelledItems, sort_keys_spelled item wellSpelled.1,
        sort_items_spelled items wellSpelled.2]
      rfl

theorem sort_entries_spelled (entries : List (Str × Json))
    (wellSpelled : Json.spelledEntries entries = true) :
    Json.spelledEntries (sortKeysEntries entries) = true := by
  cases entries with
  | nil => rfl
  | cons entry entries =>
      rw [Json.spelledEntries, Bool.and_eq_true] at wellSpelled
      rw [sortKeysEntries, Json.spelledEntries, sort_keys_spelled entry.2 wellSpelled.1,
        sort_entries_spelled entries wellSpelled.2]
      rfl

end

theorem sort_entries_map (entries : List (Str × Json)) :
    sortKeysEntries entries = entries.map fun entry => (entry.1, sortKeys entry.2) := by
  induction entries with
  | nil => rfl
  | cons entry entries ih => rw [sortKeysEntries, ih, List.map_cons]

theorem request_key_stored {params : Params} {stored : List (Str × Json)}
    (kept : jsonSafeParams params = some stored) (system verb : Json) :
    queryRequestKey system verb (.object stored) = queryRequestKey system verb params.json := by
  unfold jsonSafeParams at kept
  split at kept
  · rw [← Option.some.inj kept]
    simp only [queryRequestKey, keyParams, Params.json, jsonSafe, jsonSafeItems,
      json_safe_entries_idempotent]
  · contradiction

theorem safe_params_height {params : Params} {stored : List (Str × Json)}
    (kept : jsonSafeParams params = some stored) :
    heightEntries stored + 1 ≤ paramsNestingLimit := by
  unfold jsonSafeParams at kept
  split at kept
  · rename_i shallow
    rw [← Option.some.inj kept, json_safe_entries_height]
    exact shallow
  · contradiction

theorem safe_params_spelled {params : Params} {stored : List (Str × Json)}
    (kept : jsonSafeParams params = some stored) : Json.spelledEntries stored = true := by
  unfold jsonSafeParams at kept
  split at kept
  · rw [← Option.some.inj kept]
    exact json_safe_entries_spelled params.entries params.spelled
  · contradiction

end Safe

end Defender.Investigation
