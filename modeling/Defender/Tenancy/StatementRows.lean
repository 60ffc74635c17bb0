import Defender.Tenancy.Statement
import Defender.Tenancy.MemoryStore

/-!
# What a statement leaves of each row

The changes a commit compiles to, salt by salt, and the table after any part of a
schedule: each row is as it was or as its one change leaves it, and the new row stands
behind them once it is inserted.
-/

namespace Defender.Tenancy

open Defender.Python Defender.Library.OrderedDict

def Commit.destroys (commit : Commit) (salt : Str) : Bool :=
  match commit.destroy with
  | .all => false
  | .named salts => decide (salt ∈ salts)

namespace Statement

def changeOf (commit : Commit) (salt : Str) : Option RowChange :=
  let updated : Option RowChange :=
    (commit.updateGenerations.get? salt).map fun fields => { fields }
  let live : Option RowChange :=
    if commit.goLive = some salt then some { updated.getD {} with status := some .live }
    else updated
  if commit.destroys salt then some { live.getD {} with status := some .destroyed } else live

theorem lookup_fields (salt : Str) (entries : List (Str × GenerationFields)) :
    Dict.lookup salt (entries.map fun entry => (entry.1, ({ fields := entry.2 } : RowChange))) =
      (Dict.lookup salt entries).map fun fields => { fields } := by
  induction entries with
  | nil => rfl
  | cons entry rest ih =>
    simp only [List.map_cons, Dict.lookup, ih]
    split_ifs <;> rfl

theorem updates_get (commit : Commit) (salt : Str) :
    (updatesOf commit).get? salt =
      (commit.updateGenerations.get? salt).map fun fields => { fields } := by
  have apart : ((commit.updateGenerations.entries.map fun entry =>
      (entry.1, ({ fields := entry.2 } : RowChange))).map Prod.fst).Nodup := by
    rw [List.map_map]
    exact commit.updateGenerations.nodup
  unfold updatesOf Dict.get?
  rw [Dict.of_list_entries apart]
  exact lookup_fields salt commit.updateGenerations.entries

theorem live_get (commit : Commit) (salt : Str) :
    (liveChanges commit).get? salt =
      if commit.goLive = some salt then
        some { ((updatesOf commit).get? salt).getD {} with status := some .live }
      else (updatesOf commit).get? salt := by
  unfold liveChanges
  cases commit.goLive with
  | none => rfl
  | some goLive =>
    rw [Dict.get_modify]
    by_cases same : goLive = salt
    · rw [if_pos same, if_pos (congrArg some same), same]
    · rw [if_neg same, if_neg fun equal => same (Option.some.inj equal)]

theorem destroyed_get (salts : List Str) (changes : Dict Str RowChange) (salt : Str) :
    (salts.foldl (fun changes salt =>
      changes.modify salt {} fun change => { change with status := some .destroyed })
        changes).get? salt =
      if salt ∈ salts then
        some { (changes.get? salt).getD {} with status := some .destroyed }
      else changes.get? salt := by
  induction salts generalizing changes with
  | nil => rfl
  | cons first rest ih =>
    rw [List.foldl_cons, ih, Dict.get_modify]
    by_cases same : first = salt
    · subst same
      simp
    · simp [same, Ne.symm same]

theorem changes_get (commit : Commit) (salt : Str) :
    (changesOf commit).get? salt = changeOf commit salt := by
  have live := live_get commit salt
  rw [updates_get] at live
  unfold changesOf changeOf Commit.destroys
  simp only
  rw [← live]
  cases commit.destroy with
  | all => rfl
  | named salts => simp only [destroyed_get, decide_eq_true_iff]

theorem mem_named_iff (commit : Commit) (salt : Str) :
    salt ∈ named commit ↔ (changeOf commit salt).isSome := by
  unfold named
  rw [(sorted_perm _).mem_iff, ← changes_get]
  exact (Dict.lookup_isSome_iff salt (changesOf commit).entries).symm

theorem change_of_none_iff (commit : Commit) (salt : Str) :
    changeOf commit salt = none ↔
      salt ∉ commit.updateGenerations.keys ∧ commit.goLive ≠ some salt ∧
        ¬ commit.destroys salt := by
  have listed : salt ∈ commit.updateGenerations.keys ↔
      (commit.updateGenerations.get? salt).isSome :=
    (Dict.lookup_isSome_iff salt commit.updateGenerations.entries).symm
  unfold changeOf
  rw [listed]
  cases commit.updateGenerations.get? salt with
  | none => by_cases live : commit.goLive = some salt <;>
      by_cases gone : commit.destroys salt <;> simp [live, gone]
  | some fields => by_cases live : commit.goLive = some salt <;>
      by_cases gone : commit.destroys salt <;> simp [live, gone]

/-- The row as the statement leaves it. -/
def rowAfter (commit : Commit) (held : Generation) : Generation :=
  match changeOf commit held.salt with
  | some change => change.apply held
  | none =>
    if commit.goLive.isSome ∧ held.status = .live then { held with status := .retiring }
    else if commit.destroy = .all then { held with status := .destroyed }
    else held

@[simp] theorem row_after_salt (commit : Commit) (held : Generation) :
    (rowAfter commit held).salt = held.salt := by
  unfold rowAfter
  cases changeOf commit held.salt with
  | some change => rfl
  | none => simp only; split_ifs <;> rfl

section Tables

variable {rows : List Generation} {writes : List Write} {final : Generation → Generation}

def replacedSalts (writes : List Write) : List Str :=
  writes.filterMap fun write => match write with
    | .insert _ => none
    | .replace row => some row.salt

def insertedRows (writes : List Write) : List Generation :=
  writes.filterMap fun write => match write with
    | .insert row => some row
    | .replace _ => none

theorem mem_replaced_iff {salt : Str} :
    salt ∈ replacedSalts writes ↔ ∃ row, .replace row ∈ writes ∧ row.salt = salt := by
  unfold replacedSalts
  rw [List.mem_filterMap]
  constructor
  · rintro ⟨write, member, found⟩
    cases write with
    | insert row => cases found
    | replace row => exact ⟨row, member, Option.some.inj found⟩
  · rintro ⟨row, member, same⟩
    exact ⟨.replace row, member, congrArg some same⟩

theorem mem_inserted_iff {row : Generation} :
    row ∈ insertedRows writes ↔ .insert row ∈ writes := by
  unfold insertedRows
  rw [List.mem_filterMap]
  constructor
  · rintro ⟨write, member, found⟩
    cases write with
    | insert held =>
      cases found
      exact member
    | replace held => cases found
  · intro member
    exact ⟨.insert row, member, rfl⟩

theorem held_of_salt (apart : (saltsOf rows).Nodup) {left right : Generation}
    (here : left ∈ rows) (there : right ∈ rows) (same : left.salt = right.salt) :
    left = right :=
  List.inj_on_of_nodup_map apart here there same

theorem table_after (apart : (saltsOf rows).Nodup)
    (keeps : ∀ held, (final held).salt = held.salt)
    (replaces : ∀ row, .replace row ∈ writes → ∃ held ∈ rows, row = final held)
    (inserts : ∀ row, .insert row ∈ writes → row.salt ∉ saltsOf rows) :
    writes.foldl put rows =
      rows.map (fun held => if held.salt ∈ replacedSalts writes then final held else held) ++
        insertedRows writes := by
  induction writes using List.reverseRecOn with
  | nil => simp [replacedSalts, insertedRows]
  | append_singleton front write ih =>
    have earlier := ih (fun row member => replaces row (List.mem_append_left _ member))
      (fun row member => inserts row (List.mem_append_left _ member))
    rw [List.foldl_append, earlier, List.foldl_cons, List.foldl_nil]
    cases write with
    | insert row => simp [put, replacedSalts, insertedRows]
    | replace row =>
      obtain ⟨origin, member, made⟩ := replaces row (List.mem_append_right _ List.mem_cons_self)
      have untouched : ∀ new ∈ insertedRows front, new.salt ≠ row.salt := by
        intro new entered same
        have outside := inserts new (List.mem_append_left _ (mem_inserted_iff.mp entered))
        rw [same, made, keeps] at outside
        exact outside (List.mem_map_of_mem member)
      have behind : (insertedRows front).map
          (fun held => if held.salt = row.salt then row else held) = insertedRows front := by
        conv_rhs => rw [← List.map_id (insertedRows front)]
        exact List.map_congr_left fun new entered => if_neg (untouched new entered)
      have inserted : insertedRows (front ++ [.replace row]) = insertedRows front := by
        simp [insertedRows]
      have replaced : replacedSalts (front ++ [.replace row]) =
          replacedSalts front ++ [row.salt] := by
        simp [replacedSalts]
      rw [inserted, replaced]
      show (List.map _ (_ ++ _)) = _
      rw [List.map_append, behind, List.map_map]
      congr 1
      refine List.map_congr_left fun held kept => ?_
      have salt : (if held.salt ∈ replacedSalts front then final held else held).salt =
          held.salt := by
        split_ifs
        · exact keeps held
        · rfl
      show (if (if _ then _ else _ : Generation).salt = row.salt then row else _) = _
      rw [salt]
      by_cases same : held.salt = row.salt
      · have origin_held : held = origin :=
          held_of_salt apart kept member (by rw [same, made, keeps])
        rw [if_pos same, if_pos (List.mem_append_right _ (by simp [same])), made, origin_held]
      · rw [if_neg same]
        simp [same]

end Tables

section WriteAll

variable {table : List Generation} {writes : List Write}

theorem write_all_some
    (fine : ∀ front, front <+: writes → front ≠ [] →
      constraintsHold (front.foldl put table) = true) :
    writeAll table writes = some (writes.foldl put table) := by
  induction writes generalizing table with
  | nil => rfl
  | cons write rest ih =>
    have first : constraintsHold (put table write) = true :=
      fine [write] ⟨rest, rfl⟩ (List.cons_ne_nil _ _)
    have others := @ih (put table write) fun front starts _ =>
      fine (write :: front) (List.cons_prefix_cons.mpr ⟨rfl, starts⟩) (List.cons_ne_nil _ _)
    unfold writeAll
    rw [if_pos first, others]
    rfl

theorem write_all_none {front : List Write} (starts : front <+: writes) (some_write : front ≠ [])
    (broken : constraintsHold (front.foldl put table) = false) :
    writeAll table writes = none := by
  induction writes generalizing table front with
  | nil => exact absurd (List.prefix_nil.mp starts) some_write
  | cons write rest ih =>
    unfold writeAll
    by_cases first : constraintsHold (put table write) = true
    · rw [if_pos first]
      cases front with
      | nil => exact absurd rfl some_write
      | cons head tail =>
        obtain ⟨same, onward⟩ := List.cons_prefix_cons.mp starts
        subst same
        cases tail with
        | nil =>
          rw [List.foldl_cons, List.foldl_nil, first] at broken
          cases broken
        | cons next others => exact ih onward (List.cons_ne_nil _ _) broken
    · exact if_neg first

theorem live_le_one_iff (apart : (saltsOf table).Nodup) :
    (liveOf table).length ≤ 1 ↔ ∀ left ∈ table, ∀ right ∈ table,
      left.status = .live → right.status = .live → left.salt = right.salt := by
  have listed : ∀ {held : Generation},
      held ∈ liveOf table ↔ held ∈ table ∧ held.status = .live := by
    intro held
    unfold liveOf
    rw [List.mem_filter, decide_eq_true_iff]
  constructor
  · intro short left here right there left_live right_live
    have left_in := listed.mpr ⟨here, left_live⟩
    have right_in := listed.mpr ⟨there, right_live⟩
    cases shape : liveOf table with
    | nil =>
      rw [shape] at left_in
      cases left_in
    | cons only rest =>
      rw [shape] at short left_in right_in
      have none_left : rest = [] := by
        apply List.eq_nil_of_length_eq_zero
        rw [List.length_cons] at short
        omega
      rw [none_left, List.mem_singleton] at left_in right_in
      rw [left_in, right_in]
  · intro single
    have live_apart : (saltsOf (liveOf table)).Nodup :=
      List.Nodup.sublist (List.filter_sublist.map _) apart
    cases shape : liveOf table with
    | nil => exact Nat.zero_le _
    | cons first rest =>
      cases rest with
      | nil => exact Nat.le_refl _
      | cons second rest =>
        have first_in : first ∈ liveOf table := shape ▸ List.mem_cons_self
        have second_in : second ∈ liveOf table :=
          shape ▸ List.mem_cons_of_mem _ List.mem_cons_self
        have same := single first (listed.mp first_in).1 second (listed.mp second_in).1
          (listed.mp first_in).2 (listed.mp second_in).2
        rw [shape] at live_apart
        have apart_first := (List.nodup_cons.mp live_apart).1
        exact absurd (List.mem_cons.mpr (Or.inl same)) apart_first

end WriteAll

end Statement

end Defender.Tenancy
