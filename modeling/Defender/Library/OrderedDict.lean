import Mathlib.Data.List.Nodup
import Mathlib.Data.List.Basic

/-!
# Insertion-ordered dictionaries

A key occurs once. Setting a key that is present replaces its value in place,
setting a new one appends it, so the keys are kept in the order first met.
-/

namespace Defender.Library.OrderedDict

structure Dict (Key Value : Type*) where
  entries : List (Key × Value)
  nodup : (entries.map Prod.fst).Nodup

namespace Dict

variable {Key Value Other : Type*}

theorem ext_entries {left right : Dict Key Value} (same : left.entries = right.entries) :
    left = right := by
  cases left
  cases right
  simpa using same

instance [DecidableEq Key] [DecidableEq Value] : DecidableEq (Dict Key Value) :=
  fun left right => decidable_of_iff (left.entries = right.entries)
    ⟨ext_entries, fun same => by rw [same]⟩

def empty : Dict Key Value := ⟨[], List.nodup_nil⟩

instance : Inhabited (Dict Key Value) := ⟨empty⟩

def keys (dict : Dict Key Value) : List Key := dict.entries.map Prod.fst

def values (dict : Dict Key Value) : List Value := dict.entries.map Prod.snd

def isEmpty (dict : Dict Key Value) : Bool := dict.entries.isEmpty

variable [DecidableEq Key]

def lookup (key : Key) : List (Key × Value) → Option Value
  | [] => none
  | entry :: rest => if entry.1 = key then some entry.2 else lookup key rest

def get? (dict : Dict Key Value) (key : Key) : Option Value := lookup key dict.entries

def contains (dict : Dict Key Value) (key : Key) : Bool := (dict.get? key).isSome

/-- The entries with `key` set: in place where it is present, at the end else. -/
def setEntries (key : Key) (value : Value) : List (Key × Value) → List (Key × Value)
  | [] => [(key, value)]
  | entry :: rest =>
      if entry.1 = key then (key, value) :: rest else entry :: setEntries key value rest

theorem keys_set_entries (key : Key) (value : Value) (entries : List (Key × Value)) :
    (setEntries key value entries).map Prod.fst =
      if key ∈ entries.map Prod.fst then entries.map Prod.fst
      else entries.map Prod.fst ++ [key] := by
  induction entries with
  | nil => simp [setEntries]
  | cons entry rest ih =>
      by_cases same : entry.1 = key
      · simp [setEntries, same]
      · simp only [setEntries, if_neg same, List.map_cons, ih, List.mem_cons,
          Ne.symm same, false_or]
        split <;> simp

theorem nodup_set_entries {key : Key} {value : Value} {entries : List (Key × Value)}
    (nodup : (entries.map Prod.fst).Nodup) :
    ((setEntries key value entries).map Prod.fst).Nodup := by
  rw [keys_set_entries]
  split
  · exact nodup
  · rename_i absent
    exact List.nodup_append.mpr ⟨nodup, List.nodup_singleton key, by
      intro left member right last same
      rw [List.mem_singleton] at last
      exact absent (last ▸ same ▸ member)⟩

def set (dict : Dict Key Value) (key : Key) (value : Value) : Dict Key Value :=
  ⟨setEntries key value dict.entries, nodup_set_entries dict.nodup⟩

def setDefault (dict : Dict Key Value) (key : Key) (value : Value) : Dict Key Value :=
  if dict.contains key then dict else dict.set key value

def erase (dict : Dict Key Value) (key : Key) : Dict Key Value :=
  ⟨dict.entries.filter fun entry => entry.1 != key,
    dict.nodup.sublist (List.filter_sublist.map _)⟩

/-- The value under `key` changed by `change`; an absent key starts from `fresh`. -/
def modify (dict : Dict Key Value) (key : Key) (fresh : Value) (change : Value → Value) :
    Dict Key Value :=
  dict.set key (change ((dict.get? key).getD fresh))

def update (dict other : Dict Key Value) : Dict Key Value :=
  other.entries.foldl (fun held entry => held.set entry.1 entry.2) dict

def ofList (entries : List (Key × Value)) : Dict Key Value :=
  entries.foldl (fun held entry => held.set entry.1 entry.2) empty

section Lookup

theorem lookup_set_entries (key other : Key) (value : Value) (entries : List (Key × Value)) :
    lookup other (setEntries key value entries) =
      if key = other then some value else lookup other entries := by
  induction entries with
  | nil => simp [setEntries, lookup]
  | cons entry rest ih =>
      by_cases same : entry.1 = key
      · by_cases here : key = other
        · simp [setEntries, lookup, same, here]
        · simp [setEntries, lookup, same, here]
      · by_cases here : entry.1 = other
        · have differs : key ≠ other := fun equal => same (here.trans equal.symm)
          simp only [setEntries, if_neg same, lookup, if_pos here, if_neg differs]
        · simp [setEntries, lookup, same, here, ih]

theorem lookup_isSome_iff (key : Key) (entries : List (Key × Value)) :
    (lookup key entries).isSome ↔ key ∈ entries.map Prod.fst := by
  induction entries with
  | nil => simp [lookup]
  | cons entry rest ih =>
      by_cases same : entry.1 = key
      · simp [lookup, same]
      · simp only [lookup, if_neg same, ih, List.map_cons, List.mem_cons, Ne.symm same,
          false_or]

theorem lookup_eq_some_iff {key : Key} {value : Value} {entries : List (Key × Value)}
    (nodup : (entries.map Prod.fst).Nodup) :
    lookup key entries = some value ↔ (key, value) ∈ entries := by
  induction entries with
  | nil => simp [lookup]
  | cons entry rest ih =>
      simp only [List.map_cons, List.nodup_cons] at nodup
      rw [List.mem_cons, ← ih nodup.2, lookup]
      by_cases same : entry.1 = key
      · have absent : lookup key rest = none := by
          rw [← Option.not_isSome_iff_eq_none, lookup_isSome_iff, ← same]
          exact nodup.1
        subst same
        simp [absent, Prod.ext_iff, eq_comm]
      · simp [same, Prod.ext_iff, Ne.symm same]

theorem lookup_filter_key (keep : Key → Bool) (key : Key) (entries : List (Key × Value)) :
    lookup key (entries.filter fun entry => keep entry.1) =
      if keep key then lookup key entries else none := by
  induction entries with
  | nil => simp [lookup]
  | cons entry rest ih =>
      by_cases kept : keep entry.1 = true
      · rw [List.filter_cons, if_pos kept, lookup, lookup, ih]
        by_cases same : entry.1 = key
        · rw [if_pos same, if_pos same, if_pos (same ▸ kept)]
        · rw [if_neg same, if_neg same]
      · rw [List.filter_cons, if_neg kept, ih, lookup]
        by_cases same : entry.1 = key
        · rw [if_neg (same ▸ kept), if_neg (same ▸ kept)]
        · rw [if_neg same]

/-- Distinct keys set in turn are the entries themselves. -/
theorem of_list_entries {entries : List (Key × Value)} (nodup : (entries.map Prod.fst).Nodup) :
    (ofList entries).entries = entries := by
  have append : ∀ (key : Key) (value : Value) (held : List (Key × Value)),
      key ∉ held.map Prod.fst → setEntries key value held = held ++ [(key, value)] := by
    intro key value held
    induction held with
    | nil => exact fun _ => rfl
    | cons entry rest ih =>
        intro fresh
        rw [List.map_cons, List.mem_cons, not_or] at fresh
        rw [setEntries, if_neg (Ne.symm fresh.1), ih fresh.2, List.cons_append]
  have general : ∀ held : Dict Key Value, (held.entries ++ entries).map Prod.fst |>.Nodup →
      (entries.foldl (fun dict entry => dict.set entry.1 entry.2) held).entries =
        held.entries ++ entries := by
    clear nodup
    induction entries with
    | nil => exact fun held _ => (List.append_nil _).symm
    | cons entry rest ih =>
        intro held distinct
        have fresh : entry.1 ∉ held.entries.map Prod.fst := by
          rw [List.map_append, List.nodup_append] at distinct
          intro known
          exact distinct.2.2 _ known entry.1 List.mem_cons_self rfl
        have next : (held.set entry.1 entry.2).entries = held.entries ++ [entry] :=
          append entry.1 entry.2 held.entries fresh
        rw [List.foldl_cons, ih _ (by rw [next]; simpa using distinct), next]
        simp
  exact general empty nodup

theorem mem_set_entries_iff {key other : Key} {value held : Value} {entries : List (Key × Value)}
    (nodup : (entries.map Prod.fst).Nodup) :
    (other, held) ∈ setEntries key value entries ↔
      (other = key ∧ held = value) ∨ (other ≠ key ∧ (other, held) ∈ entries) := by
  rw [← lookup_eq_some_iff (nodup_set_entries nodup), lookup_set_entries]
  by_cases same : key = other
  · rw [if_pos same, Option.some_inj]
    simp [same, eq_comm]
  · rw [if_neg same, lookup_eq_some_iff nodup]
    simp [Ne.symm same]

theorem mem_of_list_entries {entries : List (Key × Value)} {entry : Key × Value}
    (held : entry ∈ (ofList entries).entries) : entry ∈ entries := by
  have general : ∀ dict : Dict Key Value,
      entry ∈ (entries.foldl (fun dict entry => dict.set entry.1 entry.2) dict).entries →
        entry ∈ dict.entries ∨ entry ∈ entries := by
    clear held
    induction entries with
    | nil => exact fun dict among => .inl among
    | cons first rest ih =>
        intro dict among
        rcases ih (dict.set first.1 first.2) among with among | among
        · rcases (mem_set_entries_iff dict.nodup).mp among with ⟨key, value⟩ | ⟨-, among⟩
          · exact .inr (List.mem_cons.mpr (.inl (Prod.ext key value)))
          · exact .inl among
        · exact .inr (List.mem_cons_of_mem _ among)
  exact (general empty held).resolve_left fun among => nomatch among

theorem mem_entries_iff (dict : Dict Key Value) (key : Key) (value : Value) :
    (key, value) ∈ dict.entries ↔ dict.get? key = some value :=
  (lookup_eq_some_iff dict.nodup).symm

theorem get_set (dict : Dict Key Value) (key other : Key) (value : Value) :
    (dict.set key value).get? other = if key = other then some value else dict.get? other :=
  lookup_set_entries key other value dict.entries

@[simp] theorem get_set_self (dict : Dict Key Value) (key : Key) (value : Value) :
    (dict.set key value).get? key = some value := by
  rw [get_set, if_pos rfl]

theorem get_set_of_ne (dict : Dict Key Value) {key other : Key} (value : Value)
    (differs : key ≠ other) : (dict.set key value).get? other = dict.get? other := by
  rw [get_set, if_neg differs]

theorem get_erase (dict : Dict Key Value) (key other : Key) :
    (dict.erase key).get? other = if key = other then none else dict.get? other := by
  simp only [erase, get?]
  induction dict.entries with
  | nil => simp [lookup]
  | cons entry rest ih =>
    by_cases erased : entry.1 = key
    · by_cases same : key = other
      · simpa [erased, same] using ih
      · simpa [erased, same, lookup] using ih
    · by_cases same : key = other
      · subst same
        simpa [erased, lookup] using ih
      · simp only [erased, bne_iff_ne, ne_eq, not_false_eq_true, List.filter_cons_of_pos, lookup,
          ih, same, if_false]

theorem get_set_default (dict : Dict Key Value) (key other : Key) (value : Value) :
    (dict.setDefault key value).get? other =
      if key = other then (dict.get? other).or (some value) else dict.get? other := by
  unfold setDefault contains
  by_cases same : key = other
  · subst same
    cases held : dict.get? key <;> simp [held]
  · rw [if_neg same]
    split
    · rfl
    · exact get_set_of_ne dict value same

theorem get_foldl_set_default {Item : Type*} (keyOf : Item → Key) (valueOf : Item → Value)
    (items : List Item) (held : Dict Key Value) (key : Key) :
    (items.foldl (fun index item => index.setDefault (keyOf item) (valueOf item)) held).get? key =
      (held.get? key).or ((items.find? fun item => decide (keyOf item = key)).map valueOf) := by
  induction items generalizing held with
  | nil => simp
  | cons item rest ih =>
      rw [List.foldl_cons, ih, get_set_default]
      by_cases same : keyOf item = key
      · cases held.get? key <;> simp [same]
      · simp [same]

theorem get_modify (dict : Dict Key Value) (key other : Key) (fresh : Value)
    (change : Value → Value) :
    (dict.modify key fresh change).get? other =
      if key = other then some (change ((dict.get? key).getD fresh)) else dict.get? other :=
  get_set dict key other _

theorem get_foldl_collect {Item : Type*} (keyOf : Item → Key) (valueOf : Item → Value)
    (items : List Item) (held : Dict Key (List Value)) (key : Key) :
    ((items.foldl (fun index item => index.modify (keyOf item) [] (· ++ [valueOf item]))
      held).get? key).getD [] =
      (held.get? key).getD [] ++ (items.filter fun item => keyOf item = key).map valueOf := by
  induction items generalizing held with
  | nil => simp
  | cons item rest ih =>
      rw [List.foldl_cons, ih, get_modify]
      by_cases same : keyOf item = key
      · simp [same]
      · simp [same]

@[simp] theorem get_empty (key : Key) : (empty : Dict Key Value).get? key = none := rfl

theorem contains_iff (dict : Dict Key Value) (key : Key) :
    dict.contains key = true ↔ key ∈ dict.keys :=
  lookup_isSome_iff key dict.entries

theorem keys_set (dict : Dict Key Value) (key : Key) (value : Value) :
    (dict.set key value).keys =
      if key ∈ dict.keys then dict.keys else dict.keys ++ [key] :=
  keys_set_entries key value dict.entries

theorem mem_keys_of_list {entries : List (Key × Value)} {entry : Key × Value}
    (given : entry ∈ entries) : entry.1 ∈ (ofList entries).keys := by
  have general : ∀ dict : Dict Key Value, entry.1 ∈ dict.keys ∨ entry ∈ entries →
      entry.1 ∈ (entries.foldl (fun dict entry => dict.set entry.1 entry.2) dict).keys := by
    clear given
    induction entries with
    | nil => exact fun dict among => among.resolve_right List.not_mem_nil
    | cons first rest ih =>
        intro dict among
        apply ih (dict.set first.1 first.2)
        rw [keys_set]
        rcases among with held | among
        · left
          split
          · exact held
          · exact List.mem_append_left _ held
        · rcases List.mem_cons.mp among with rfl | later
          · left
            split
            · assumption
            · exact List.mem_append_right _ (List.mem_singleton_self _)
          · exact Or.inr later
  exact general empty (Or.inr given)

theorem find_values (dict : Dict Key Value) {keyOf : Value → Key}
    (named : ∀ entry ∈ dict.entries, keyOf entry.2 = entry.1) (key : Key) :
    dict.values.find? (fun value => keyOf value = key) = dict.get? key := by
  unfold values get?
  revert named
  induction dict.entries with
  | nil => exact fun _ => rfl
  | cons entry rest ih =>
      intro named
      rw [List.forall_mem_cons] at named
      rw [List.map_cons, List.find?_cons, lookup, named.1, ih named.2]
      by_cases same : entry.1 = key
      · simp [same]
      · simp [same]

theorem values_by_keys (dict : Dict Key Value) : dict.values = dict.keys.filterMap dict.get? := by
  have general : ∀ entries : List (Key × Value), (entries.map Prod.fst).Nodup →
      entries.map Prod.snd = (entries.map Prod.fst).filterMap fun key => lookup key entries := by
    intro entries
    induction entries with
    | nil => exact fun _ => rfl
    | cons entry rest ih =>
        intro distinct
        rw [List.map_cons, List.nodup_cons] at distinct
        have later : ∀ key ∈ rest.map Prod.fst, lookup key (entry :: rest) = lookup key rest := by
          intro key member
          have differs : entry.1 ≠ key := by
            rintro rfl
            exact distinct.1 member
          simp [lookup, differs]
        rw [List.map_cons, List.map_cons, List.filterMap_cons, List.filterMap_congr later,
          ← ih distinct.2]
        simp [lookup]
  exact general dict.entries dict.nodup

theorem contains_update (dict other : Dict Key Value) (key : Key) :
    (dict.update other).contains key = (dict.contains key || other.contains key) := by
  have general : ∀ entries : List (Key × Value), ∀ held : Dict Key Value,
      (entries.foldl (fun held entry => held.set entry.1 entry.2) held).contains key =
        (held.contains key || (lookup key entries).isSome) := by
    intro entries
    induction entries with
    | nil => simp [lookup]
    | cons entry rest ih =>
        intro held
        rw [List.foldl_cons, ih]
        by_cases same : entry.1 = key
        · simp [contains, lookup, same]
        · simp [contains, get_set, lookup, same]
  exact general other.entries dict

theorem get_foldl_set {Held : Type*} (change : Held → Value) (key : Key)
    {entries : List (Key × Held)} (distinct : (entries.map Prod.fst).Nodup)
    (held : Dict Key Value) :
    (entries.foldl (fun held entry => held.set entry.1 (change entry.2)) held).get? key =
      ((lookup key entries).map change).or (held.get? key) := by
  induction entries generalizing held with
  | nil => rfl
  | cons entry rest ih =>
      rw [List.map_cons, List.nodup_cons] at distinct
      rw [List.foldl_cons, ih distinct.2, get_set, lookup]
      by_cases same : entry.1 = key
      · have absent : lookup key rest = none := by
          rw [← Option.not_isSome_iff_eq_none, lookup_isSome_iff, ← same]
          exact distinct.1
        rw [if_pos same, if_pos same, absent]
        rfl
      · rw [if_neg same, if_neg same]

theorem get_update (dict other : Dict Key Value) (key : Key) :
    (dict.update other).get? key = (other.get? key).or (dict.get? key) := by
  have found := get_foldl_set id key other.nodup dict
  rw [Option.map_id] at found
  exact found

theorem get_foldl_set_values {Held : Type*} (dict : Dict Key Held) (change : Held → Value)
    (key : Key) :
    (dict.entries.foldl (fun held entry => held.set entry.1 (change entry.2)) empty).get? key =
      (dict.get? key).map change := by
  rw [get_foldl_set change key dict.nodup, get_empty, Option.or_none]
  rfl

theorem keys_prefix_set (dict : Dict Key Value) (key : Key) (value : Value) :
    dict.keys <+: (dict.set key value).keys := by
  rw [keys_set]
  split
  · exact List.prefix_refl _
  · exact List.prefix_append _ _

theorem keys_prefix_update (dict other : Dict Key Value) :
    dict.keys <+: (dict.update other).keys := by
  unfold update
  induction other.entries generalizing dict with
  | nil => exact List.prefix_refl _
  | cons entry rest ih => exact (keys_prefix_set dict entry.1 entry.2).trans (ih _)

end Lookup

end Dict

end Defender.Library.OrderedDict
