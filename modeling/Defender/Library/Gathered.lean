import Defender.Library.OrderedDict
import Mathlib.Algebra.Ring.Nat
import Mathlib.Data.List.Induction

/-!
# Rows gathered by key

The first row of a key makes its record, each further one is joined to it, and the records stand in
the order their keys were first met. Where making a record of a record changes nothing and joining
is associative, gathering the records of two lists is gathering the lists.
-/

namespace Defender.Library.Gathered

open Defender.Library.OrderedDict

variable {Row Key : Type*} [DecidableEq Key]

/-- How rows become records and records grow. -/
structure Gathering (Row Key : Type*) where
  keyOf : Row → Key
  fresh : Row → Row
  join : Row → Row → Row

namespace Gathering

variable (gathering : Gathering Row Key)

def add (records : Dict Key Row) (row : Row) : Dict Key Row :=
  match records.get? (gathering.keyOf row) with
  | some record => records.set (gathering.keyOf row) (gathering.join record row)
  | none => records.set (gathering.keyOf row) (gathering.fresh row)

def addAll (records : Dict Key Row) (rows : List Row) : Dict Key Row :=
  rows.foldl gathering.add records

def gather (rows : List Row) : List Row := (gathering.addAll Dict.empty rows).values

/-- Records are rows of their key, and joining them loses nothing. -/
structure Lawful : Prop where
  key_fresh : ∀ row, gathering.keyOf (gathering.fresh row) = gathering.keyOf row
  key_join : ∀ record row, gathering.keyOf (gathering.join record row) = gathering.keyOf record
  fresh_fresh : ∀ row, gathering.fresh (gathering.fresh row) = gathering.fresh row
  fresh_join : ∀ record row, gathering.fresh (gathering.join record row) =
    gathering.join (gathering.fresh record) row
  join_fresh : ∀ record row, gathering.join record (gathering.fresh row) =
    gathering.join record row
  join_join : ∀ record other row, gathering.join record (gathering.join other row) =
    gathering.join (gathering.join record other) row

variable {gathering}

theorem add_fresh (lawful : gathering.Lawful) (records : Dict Key Row) (row : Row) :
    gathering.add records (gathering.fresh row) = gathering.add records row := by
  unfold add
  rw [lawful.key_fresh]
  cases records.get? (gathering.keyOf row) with
  | none => simp only [lawful.fresh_fresh]
  | some record => simp only [lawful.join_fresh]

section Sets

variable {Value : Type*}

theorem set_set (dict : Dict Key Value) (key : Key) (first second : Value) :
    (dict.set key first).set key second = dict.set key second := by
  apply Dict.ext_entries
  show Dict.setEntries key second (Dict.setEntries key first dict.entries) = _
  change _ = Dict.setEntries key second dict.entries
  induction dict.entries with
  | nil => simp [Dict.setEntries]
  | cons entry rest ih =>
      by_cases same : entry.1 = key
      · simp [Dict.setEntries, same]
      · simp [Dict.setEntries, same, ih]

theorem set_comm (dict : Dict Key Value) {key other : Key} (different : other ≠ key)
    (present : key ∈ dict.keys) (value held : Value) :
    (dict.set key value).set other held = (dict.set other held).set key value := by
  apply Dict.ext_entries
  show Dict.setEntries other held (Dict.setEntries key value dict.entries) =
    Dict.setEntries key value (Dict.setEntries other held dict.entries)
  unfold Dict.keys at present
  revert present
  induction dict.entries with
  | nil =>
      intro present
      cases present
  | cons entry rest ih =>
      intro present
      by_cases own : entry.1 = key
      · simp [Dict.setEntries, own, Ne.symm different]
      · have later : key ∈ rest.map Prod.fst := by
          rcases List.mem_cons.mp present with same | later
          · exact absurd same.symm own
          · exact later
        by_cases taken : entry.1 = other
        · simp [Dict.setEntries, taken, different]
        · simp [Dict.setEntries, own, taken, ih later]

theorem values_fresh (dict : Dict Key Value) {key : Key} (absent : key ∉ dict.keys)
    (value : Value) : (dict.set key value).values = dict.values ++ [value] := by
  show (Dict.setEntries key value dict.entries).map Prod.snd = dict.entries.map Prod.snd ++ [value]
  unfold Dict.keys at absent
  revert absent
  induction dict.entries with
  | nil =>
      intro _
      rfl
  | cons entry rest ih =>
      intro absent
      rw [List.map_cons, List.mem_cons, not_or] at absent
      rw [Dict.setEntries, if_neg (Ne.symm absent.1), List.map_cons, ih absent.2]
      rfl

/-- A value set in place, with what stands around it. -/
theorem values_set (dict : Dict Key Value) {key : Key} {held : Value}
    (found : dict.get? key = some held) :
    ∃ before after : List (Key × Value), dict.entries = before ++ (key, held) :: after ∧
      (∀ entry ∈ before ++ after, entry.1 ≠ key) ∧ ∀ value,
        (dict.set key value).entries = before ++ (key, value) :: after := by
  have distinct := dict.nodup
  have general : ∀ entries : List (Key × Value), (entries.map Prod.fst).Nodup →
      Dict.lookup key entries = some held →
      ∃ before after : List (Key × Value), entries = before ++ (key, held) :: after ∧
        (∀ entry ∈ before ++ after, entry.1 ≠ key) ∧ ∀ value,
          Dict.setEntries key value entries = before ++ (key, value) :: after := by
    intro entries
    induction entries with
    | nil => exact fun _ found => nomatch found
    | cons entry rest ih =>
        obtain ⟨own, value⟩ := entry
        intro distinct found
        rw [List.map_cons, List.nodup_cons] at distinct
        by_cases same : own = key
        · subst same
          rw [Dict.lookup, if_pos rfl] at found
          cases found
          refine ⟨[], rest, rfl, ?_, fun value => by simp [Dict.setEntries]⟩
          intro other member same
          have listed : other.1 ∈ rest.map Prod.fst := List.mem_map_of_mem member
          rw [same] at listed
          exact distinct.1 listed
        · rw [Dict.lookup, if_neg same] at found
          obtain ⟨before, after, split, apart, set⟩ := ih distinct.2 found
          refine ⟨(own, value) :: before, after, by rw [split]; rfl, ?_, ?_⟩
          · intro other member
            rcases List.mem_cons.mp member with rfl | later
            · exact same
            · exact apart other later
          · intro next
            rw [Dict.setEntries, if_neg same, set next]
            rfl
  exact general dict.entries distinct found

end Sets

section Records

variable {records : Dict Key Row}

theorem keys_add (records : Dict Key Row) (row : Row) : (gathering.add records row).keys =
    if gathering.keyOf row ∈ records.keys then records.keys
    else records.keys ++ [gathering.keyOf row] := by
  unfold add
  split <;> exact Dict.keys_set _ _ _

theorem mem_keys_add {row : Row} {key : Key} (known : key ∈ records.keys) :
    key ∈ (gathering.add records row).keys := by
  rw [keys_add]
  split
  · exact known
  · exact List.mem_append_left _ known

theorem present_iff (records : Dict Key Row) (key : Key) :
    (∃ record, records.get? key = some record) ↔ key ∈ records.keys := by
  rw [← Dict.contains_iff, Dict.contains, Option.isSome_iff_exists]

theorem add_join (lawful : gathering.Lawful) (records : Dict Key Row) {record row : Row}
    (same : gathering.keyOf record = gathering.keyOf row) :
    gathering.add records (gathering.join record row) =
      gathering.add (gathering.add records record) row := by
  unfold add
  rw [lawful.key_join]
  cases found : records.get? (gathering.keyOf record) with
  | none =>
      dsimp only
      rw [← same, Dict.get_set_self]
      dsimp only
      rw [set_set, lawful.fresh_join]
  | some held =>
      dsimp only
      rw [← same, Dict.get_set_self]
      dsimp only
      rw [set_set, lawful.join_join]

theorem add_comm (records : Dict Key Row) {row other : Row}
    (different : gathering.keyOf other ≠ gathering.keyOf row)
    (present : gathering.keyOf row ∈ records.keys) :
    gathering.add (gathering.add records row) other =
      gathering.add (gathering.add records other) row := by
  obtain ⟨record, found⟩ := (present_iff records _).mpr present
  unfold add
  rw [found]
  dsimp only
  rw [Dict.get_set_of_ne _ _ (Ne.symm different)]
  cases held : records.get? (gathering.keyOf other) with
  | none =>
      dsimp only
      rw [Dict.get_set_of_ne _ _ different, found]
      exact set_comm records different present _ _
  | some taken =>
      dsimp only
      rw [Dict.get_set_of_ne _ _ different, found]
      exact set_comm records different present _ _

theorem add_all_comm (records : Dict Key Row) {row : Row} {others : List Row}
    (different : ∀ other ∈ others, gathering.keyOf other ≠ gathering.keyOf row)
    (present : gathering.keyOf row ∈ records.keys) :
    gathering.addAll (gathering.add records row) others =
      gathering.add (gathering.addAll records others) row := by
  induction others generalizing records with
  | nil => rfl
  | cons other rest ih =>
      have first := different other (List.mem_cons_self ..)
      have later := ih (gathering.add records other)
        (fun next member => different next (List.mem_cons_of_mem _ member)) (mem_keys_add present)
      unfold addAll at later ⊢
      rw [List.foldl_cons, add_comm records first present, List.foldl_cons, later]

theorem add_all_append (records : Dict Key Row) (first second : List Row) :
    gathering.addAll records (first ++ second) =
      gathering.addAll (gathering.addAll records first) second :=
  List.foldl_append

def Keyed (gathering : Gathering Row Key) (records : Dict Key Row) : Prop :=
  ∀ entry ∈ records.entries, gathering.keyOf entry.2 = entry.1

theorem keyed_add (lawful : gathering.Lawful) (keyed : gathering.Keyed records) (row : Row) :
    gathering.Keyed (gathering.add records row) := by
  intro entry member
  have found := (Dict.mem_entries_iff _ entry.1 entry.2).mp member
  have named : ∀ key record, records.get? key = some record → gathering.keyOf record = key :=
    fun key record held => keyed (key, record) ((Dict.mem_entries_iff _ _ _).mpr held)
  unfold add at found
  by_cases same : entry.1 = gathering.keyOf row
  · cases held : records.get? (gathering.keyOf row) with
    | none =>
        rw [held, same] at found
        dsimp only at found
        rw [Dict.get_set_self, Option.some.injEq] at found
        rw [← found, lawful.key_fresh, same]
    | some record =>
        rw [held, same] at found
        dsimp only at found
        rw [Dict.get_set_self, Option.some.injEq] at found
        rw [← found, lawful.key_join, same, named _ _ held]
  · cases held : records.get? (gathering.keyOf row) with
    | none =>
        rw [held] at found
        dsimp only at found
        rw [Dict.get_set_of_ne _ _ (Ne.symm same)] at found
        exact named _ _ found
    | some record =>
        rw [held] at found
        dsimp only at found
        rw [Dict.get_set_of_ne _ _ (Ne.symm same)] at found
        exact named _ _ found

/-- Adding the records made of some rows is adding the rows. -/
theorem add_values (lawful : gathering.Lawful) (keyed : gathering.Keyed records)
    (onto : Dict Key Row) (row : Row) :
    gathering.addAll onto (gathering.add records row).values =
      gathering.add (gathering.addAll onto records.values) row := by
  cases found : records.get? (gathering.keyOf row) with
  | none =>
      have absent : gathering.keyOf row ∉ records.keys := by
        rw [← present_iff, found]
        rintro ⟨record, none_found⟩
        cases none_found
      have made : gathering.add records row =
          records.set (gathering.keyOf row) (gathering.fresh row) := by
        unfold add
        rw [found]
      rw [made, values_fresh records absent, add_all_append]
      exact add_fresh lawful _ row
  | some record =>
      obtain ⟨before, after, split, apart, set⟩ := values_set records found
      have own : gathering.keyOf record = gathering.keyOf row := by
        apply keyed (gathering.keyOf row, record)
        rw [split]
        exact List.mem_append_right _ (List.mem_cons_self ..)
      have others : ∀ other ∈ after.map Prod.snd, gathering.keyOf other ≠ gathering.keyOf row := by
        intro other member
        obtain ⟨entry, listed, rfl⟩ := List.mem_map.mp member
        have held : entry ∈ records.entries := by
          rw [split]
          exact List.mem_append_right _ (List.mem_cons_of_mem _ listed)
        rw [keyed entry held]
        exact apart entry (List.mem_append_right _ listed)
      have made : (gathering.add records row).values =
          before.map Prod.snd ++ gathering.join record row :: after.map Prod.snd := by
        unfold add
        rw [found]
        show ((records.set _ _).entries).map Prod.snd = _
        rw [set, List.map_append, List.map_cons]
      have held : records.values = before.map Prod.snd ++ record :: after.map Prod.snd := by
        show records.entries.map Prod.snd = _
        rw [split, List.map_append, List.map_cons]
      have present : gathering.keyOf row ∈
          (gathering.add (gathering.addAll onto (before.map Prod.snd)) record).keys := by
        rw [keys_add, ← own]
        split
        · assumption
        · simp
      have moved := add_all_comm _ others present
      rw [made, held, add_all_append, add_all_append]
      unfold addAll at moved ⊢
      rw [List.foldl_cons, List.foldl_cons, add_join lawful _ own]
      exact moved

theorem add_gathered (lawful : gathering.Lawful) (onto : Dict Key Row) (rows : List Row) :
    gathering.addAll onto (gathering.gather rows) = gathering.addAll onto rows := by
  have general : gathering.Keyed (gathering.addAll Dict.empty rows) ∧
      gathering.addAll onto (gathering.addAll Dict.empty rows).values =
        gathering.addAll onto rows := by
    induction rows using List.reverseRecOn with
    | nil => exact ⟨(fun _ member => nomatch member), rfl⟩
    | append_singleton rows row ih =>
        obtain ⟨keyed, gathered⟩ := ih
        rw [add_all_append, add_all_append]
        refine ⟨keyed_add lawful keyed row, ?_⟩
        have added := add_values lawful keyed onto row
        rw [gathered] at added
        exact added
  exact general.2

theorem gather_append (lawful : gathering.Lawful) (first second : List Row) :
    gathering.gather (gathering.gather first ++ gathering.gather second) =
      gathering.gather (first ++ second) := by
  unfold gather
  rw [add_all_append, add_all_append]
  have front := add_gathered lawful Dict.empty first
  have back := add_gathered lawful (gathering.addAll Dict.empty first) second
  unfold gather at front back
  rw [front, back]

theorem gather_gather (lawful : gathering.Lawful) (rows : List Row) :
    gathering.gather (gathering.gather rows) = gathering.gather rows :=
  congrArg Dict.values (add_gathered lawful Dict.empty rows)

theorem keys_add_all (records : Dict Key Row) (rows : List Row) :
    (gathering.addAll records rows).keys = (rows.map gathering.keyOf).foldl
      (fun known key => if key ∈ known then known else known ++ [key]) records.keys := by
  induction rows generalizing records with
  | nil => rfl
  | cons row rest ih =>
      rw [List.map_cons, List.foldl_cons, ← keys_add]
      exact ih _

theorem gather_keys (lawful : gathering.Lawful) (rows : List Row) :
    ((gathering.gather rows).map gathering.keyOf).Nodup ∧
      (gathering.gather rows).map gathering.keyOf = (rows.map gathering.keyOf).foldl
        (fun known key => if key ∈ known then known else known ++ [key]) [] := by
  have keyed : gathering.Keyed (gathering.addAll Dict.empty rows) := by
    induction rows using List.reverseRecOn with
    | nil => exact fun _ member => nomatch member
    | append_singleton rows row ih =>
        rw [add_all_append]
        exact keyed_add lawful ih row
  have keys : (gathering.gather rows).map gathering.keyOf =
      (gathering.addAll Dict.empty rows).keys := by
    show ((gathering.addAll Dict.empty rows).entries.map Prod.snd).map gathering.keyOf = _
    rw [List.map_map]
    exact List.map_congr_left keyed
  rw [keys]
  exact ⟨(gathering.addAll Dict.empty rows).nodup, keys_add_all _ _⟩

/-- What a record weighs is what its rows weigh. -/
theorem gather_weight (weight : Row → Nat)
    (fresh : ∀ row, weight (gathering.fresh row) = weight row)
    (join : ∀ record row, weight (gathering.join record row) = weight record + weight row)
    (rows : List Row) :
    ((gathering.gather rows).map weight).sum = (rows.map weight).sum := by
  have added : ∀ records : Dict Key Row, ∀ row,
      ((gathering.add records row).values.map weight).sum =
        (records.values.map weight).sum + weight row := by
    intro records row
    unfold add
    cases found : records.get? (gathering.keyOf row) with
    | none =>
        have absent : gathering.keyOf row ∉ records.keys := by
          rw [← present_iff, found]
          rintro ⟨record, none_found⟩
          cases none_found
        dsimp only
        rw [values_fresh records absent]
        simp [fresh]
    | some record =>
        obtain ⟨before, after, split, -, set⟩ := values_set records found
        unfold Dict.values
        dsimp only
        rw [set, split]
        simp only [List.map_append, List.map_cons, List.sum_append, List.sum_cons, join]
        omega
  have general : ∀ records : Dict Key Row,
      ((gathering.addAll records rows).values.map weight).sum =
        (records.values.map weight).sum + (rows.map weight).sum := by
    induction rows with
    | nil => exact fun records => (Nat.add_zero _).symm
    | cons row rest ih =>
        intro records
        have further := ih (gathering.add records row)
        rw [added] at further
        rw [List.map_cons, List.sum_cons, ← Nat.add_assoc, ← further]
        rfl
  have whole := general Dict.empty
  rw [show ((Dict.empty : Dict Key Row).values.map weight).sum = 0 from rfl, Nat.zero_add] at whole
  exact whole

end Records

end Gathering

end Defender.Library.Gathered
