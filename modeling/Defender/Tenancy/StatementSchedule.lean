import Defender.Tenancy.CommitOutcome

/-!
# The table along a schedule

What the parts of a statement write, the table after any number of the writes, and the
constraints it meets all along when no generation is in the way of two changes.
-/

namespace Defender.Tenancy

open Defender.Python Defender.Library.OrderedDict

namespace Statement

def writesOf (tenant : Str) (rows : TenantRows) (commit : Commit) : List Write :=
  (partsOf tenant commit).flatMap (Part.writes rows.generations)

section Writes

variable {rows : TenantRows} {tenant : Str} {commit : Commit}

theorem mem_parts_iff {part : Part} :
    part ∈ partsOf tenant commit ↔
      (∃ add, commit.addGeneration = some add ∧
        part = .newGeneration (newRow tenant commit add)) ∨
      (commit.goLive.isSome = true ∧ part = .retire (named commit)) ∨
      (commit.destroy = .all ∧ part = .destroy (named commit)) ∨
      ∃ salt change, (salt, change) ∈ (otherChanges commit).entries ∧
        part = .generation salt change (commit.goLive = some salt) := by
  unfold partsOf
  simp only [List.mem_append, List.mem_map, Option.mem_toList, Option.map_eq_some_iff,
    Prod.exists]
  have live : part ∈ (if commit.goLive.isSome = true then [Part.retire (named commit)] else []) ↔
      commit.goLive.isSome = true ∧ part = .retire (named commit) := by
    by_cases goes : commit.goLive.isSome = true <;> simp [goes]
  have all : part ∈ (if commit.destroy = .all then [Part.destroy (named commit)] else []) ↔
      commit.destroy = .all ∧ part = .destroy (named commit) := by
    by_cases every : commit.destroy = .all <;> simp [every]
  rw [live, all, or_assoc, or_assoc]
  apply or_congr
  · constructor
    · rintro ⟨add, adds, made⟩
      exact ⟨add, adds, made.symm⟩
    · rintro ⟨add, adds, made⟩
      exact ⟨add, adds, made.symm⟩
  · apply or_congr Iff.rfl
    apply or_congr Iff.rfl
    constructor
    · rintro ⟨salt, change, member, made⟩
      exact ⟨salt, change, member, made.symm⟩
    · rintro ⟨salt, change, member, made⟩
      exact ⟨salt, change, member, made.symm⟩

theorem other_changes {salt : Str} {change : RowChange}
    (member : (salt, change) ∈ (otherChanges commit).entries) :
    changeOf commit salt = some change := by
  rw [← changes_get]
  unfold otherChanges at member
  cases adds : commit.addGeneration with
  | none =>
    rw [adds] at member
    exact (Dict.mem_entries_iff _ _ _).mp member
  | some add =>
    rw [adds] at member
    exact (Dict.mem_entries_iff _ _ _).mp (List.mem_filter.mp member).1

theorem changes_other {salt : Str} {change : RowChange}
    (changed : changeOf commit salt = some change)
    (other : ∀ add, commit.addGeneration = some add → add.salt ≠ salt) :
    (salt, change) ∈ (otherChanges commit).entries := by
  rw [← changes_get] at changed
  have member := (Dict.mem_entries_iff _ _ _).mpr changed
  unfold otherChanges
  cases adds : commit.addGeneration with
  | none => exact member
  | some add =>
    refine List.mem_filter.mpr ⟨member, ?_⟩
    simpa using Ne.symm (other add adds)

theorem unnamed_iff (salt : Str) : salt ∉ named commit ↔ changeOf commit salt = none := by
  rw [mem_named_iff]
  cases changeOf commit salt <;> simp

theorem new_unchanged (addressed : Addressed rows commit) (fresh : Fresh rows commit)
    {add : Generation} (adds : commit.addGeneration = some add) :
    changeOf commit add.salt = none := by
  rw [change_of_none_iff]
  refine ⟨fun named => fresh add adds (addressed.updates _ named),
    fun live => fresh add adds (addressed.live _ live), ?_⟩
  rw [new_not_destroyed addressed fresh adds]
  exact Bool.false_ne_true

/-- Whatever part writes it, a row is replaced by what the statement leaves of it. -/
theorem replaced_row (addressed : Addressed rows commit) {row : Generation}
    (member : .replace row ∈ writesOf tenant rows commit) :
    ∃ held ∈ rows.generations, row = rowAfter commit held := by
  obtain ⟨part, listed, written⟩ := List.mem_flatMap.mp member
  rcases mem_parts_iff.mp listed with ⟨add, adds, rfl⟩ | ⟨goes, rfl⟩ | ⟨all, rfl⟩ |
    ⟨salt, change, entered, rfl⟩
  · cases List.mem_singleton.mp written
  · obtain ⟨held, kept, made⟩ := List.mem_map.mp written
    obtain ⟨here, chosen⟩ := List.mem_filter.mp kept
    simp only [Bool.and_eq_true, decide_eq_true_eq, Bool.not_eq_true', decide_eq_false_iff_not]
      at chosen
    refine ⟨held, here, ?_⟩
    unfold rowAfter
    rw [(unnamed_iff held.salt).mp chosen.2]
    simp only [goes, chosen.1, and_self, if_true]
    exact (Write.replace.inj made).symm
  · obtain ⟨held, kept, made⟩ := List.mem_map.mp written
    obtain ⟨here, chosen⟩ := List.mem_filter.mp kept
    simp only [Bool.and_eq_true, decide_eq_true_eq, Bool.not_eq_true', decide_eq_false_iff_not]
      at chosen
    refine ⟨held, here, ?_⟩
    unfold rowAfter
    rw [(unnamed_iff held.salt).mp chosen.2, addressed.all all, all]
    simp only [Option.isSome_none, Bool.false_eq_true, false_and, if_false, if_true]
    exact (Write.replace.inj made).symm
  · obtain ⟨held, kept, made⟩ := List.mem_map.mp written
    obtain ⟨here, chosen⟩ := List.mem_filter.mp kept
    have same : held.salt = salt := by simpa using chosen
    refine ⟨held, here, ?_⟩
    unfold rowAfter
    rw [same, other_changes entered]
    exact (Write.replace.inj made).symm

/-- A row no part writes is left as it is. -/
theorem row_written (tenant : Str) (fresh : Fresh rows commit) {held : Generation}
    (here : held ∈ rows.generations) :
    rowAfter commit held = held ∨
      .replace (rowAfter commit held) ∈ writesOf tenant rows commit := by
  have by_part : ∀ part ∈ partsOf tenant commit,
      Write.replace (rowAfter commit held) ∈ Part.writes rows.generations part →
      Write.replace (rowAfter commit held) ∈ writesOf tenant rows commit :=
    fun part listed written => List.mem_flatMap.mpr ⟨part, listed, written⟩
  cases changed : changeOf commit held.salt with
  | some change =>
    right
    have entered := changes_other changed fun add adds same =>
      fresh add adds (same ▸ List.mem_map_of_mem here)
    apply by_part _ (mem_parts_iff.mpr (Or.inr (Or.inr (Or.inr ⟨_, _, entered, rfl⟩))))
    have made : rowAfter commit held = change.apply held := by
      unfold rowAfter
      rw [changed]
    rw [made]
    exact List.mem_map_of_mem (List.mem_filter.mpr ⟨here, by simp⟩)
  | none =>
    have outside := (unnamed_iff held.salt).mpr changed
    by_cases retires : commit.goLive.isSome = true ∧ held.status = .live
    · right
      apply by_part _ (mem_parts_iff.mpr (Or.inr (Or.inl ⟨retires.1, rfl⟩)))
      have made : rowAfter commit held = { held with status := .retiring } := by
        unfold rowAfter
        rw [changed]
        exact if_pos retires
      rw [made]
      exact List.mem_map.mpr
        ⟨held, List.mem_filter.mpr ⟨here, by simp [retires.2, outside]⟩, rfl⟩
    · have left : rowAfter commit held =
          if commit.destroy = .all then { held with status := .destroyed } else held := by
        unfold rowAfter
        rw [changed]
        exact if_neg retires
      by_cases all : commit.destroy = .all
      · rw [if_pos all] at left
        by_cases gone : held.status = .destroyed
        · left
          rw [left, ← gone]
        · right
          apply by_part _ (mem_parts_iff.mpr (Or.inr (Or.inr (Or.inl ⟨all, rfl⟩))))
          rw [left]
          exact List.mem_map.mpr
            ⟨held, List.mem_filter.mpr ⟨here, by simp [gone, outside]⟩, rfl⟩
      · left
        rw [left, if_neg all]

theorem new_row (tenant : Str) (addressed : Addressed rows commit) (fresh : Fresh rows commit)
    {add : Generation} (adds : commit.addGeneration = some add) :
    newRow tenant commit add = { add with tenantId := tenant } := by
  unfold newRow
  rw [changes_get, new_unchanged addressed fresh adds]
  rfl

theorem inserted_rows (addressed : Addressed rows commit) (fresh : Fresh rows commit) :
    insertedRows (writesOf tenant rows commit) = newRows tenant commit := by
  have replaces : ∀ part : Part, (∀ row, part ≠ .newGeneration row) →
      insertedRows (Part.writes rows.generations part) = [] := by
    intro part other
    have none_inserted : ∀ row, row ∉ insertedRows (Part.writes rows.generations part) := by
      intro row member
      have written := mem_inserted_iff.mp member
      cases part with
      | newGeneration new => exact other new rfl
      | retire named =>
        obtain ⟨held, kept, made⟩ := List.mem_map.mp written
        cases made
      | destroy kept =>
        obtain ⟨held, kept, made⟩ := List.mem_map.mp written
        cases made
      | generation salt change waits =>
        obtain ⟨held, kept, made⟩ := List.mem_map.mp written
        cases made
    exact List.eq_nil_iff_forall_not_mem.mpr none_inserted
  have quiet : ∀ parts : List Part, (∀ part ∈ parts, ∀ row, part ≠ .newGeneration row) →
      insertedRows (parts.flatMap (Part.writes rows.generations)) = [] := by
    intro parts others
    induction parts with
    | nil => rfl
    | cons part rest ih =>
      have here := replaces part (others part List.mem_cons_self)
      have there := ih fun part member => others part (List.mem_cons_of_mem _ member)
      unfold insertedRows at here there ⊢
      rw [List.flatMap_cons, List.filterMap_append, here, there]
      rfl
  have sweeping : ∀ part ∈ (if commit.goLive.isSome = true then [Part.retire (named commit)]
        else []) ++ (if commit.destroy = .all then [Part.destroy (named commit)] else []) ++
        (otherChanges commit).entries.map (fun entry =>
          Part.generation entry.1 entry.2 (commit.goLive = some entry.1)),
      ∀ row, part ≠ .newGeneration row := by
    intro part member row same
    subst same
    simp only [List.mem_append, List.mem_map] at member
    rcases member with (live | all) | ⟨entry, -, made⟩
    · split_ifs at live <;> simp at live
    · split_ifs at all <;> simp at all
    · cases made
  have rest := quiet _ sweeping
  unfold writesOf partsOf newRows insertedRows at *
  rw [List.append_assoc, List.append_assoc, List.flatMap_append, List.filterMap_append,
    ← List.append_assoc, rest, List.append_nil]
  cases adds : commit.addGeneration with
  | none => rfl
  | some add =>
    have made := new_row tenant addressed fresh adds
    simp [Part.writes, made]

end Writes

section Rows

variable {rows : TenantRows} {commit : Commit}

theorem row_after_status (held : Generation) :
    (rowAfter commit held).status =
      if commit.destroys held.salt = true then .destroyed
      else if commit.goLive = some held.salt then .live
      else if held.salt ∈ commit.updateGenerations.keys then held.status
      else if commit.goLive.isSome ∧ held.status = .live then .retiring
      else if commit.destroy = .all then .destroyed
      else held.status := by
  have listed : held.salt ∈ commit.updateGenerations.keys ↔
      (commit.updateGenerations.get? held.salt).isSome :=
    (Dict.lookup_isSome_iff held.salt commit.updateGenerations.entries).symm
  unfold rowAfter changeOf
  by_cases gone : commit.destroys held.salt = true
  · simp [gone, RowChange.apply]
  · by_cases live : commit.goLive = some held.salt
    · simp [gone, live, RowChange.apply]
    · cases fields : commit.updateGenerations.get? held.salt with
      | some fields =>
        simp [gone, live, RowChange.apply, listed, fields]
      | none =>
        simp only [gone, live, listed, fields, Option.map_none, Bool.false_eq_true, if_false,
          Option.isSome_none]
        split_ifs <;> rfl

theorem row_after_shape (held : Generation) :
    rowAfter commit held =
      { Memory.fieldsSet commit.updateGenerations.entries held with
        status := (rowAfter commit held).status } := by
  have lookup : commit.updateGenerations.get? held.salt =
    Dict.lookup held.salt commit.updateGenerations.entries := rfl
  unfold rowAfter changeOf Memory.fieldsSet
  rw [lookup]
  cases Dict.lookup held.salt commit.updateGenerations.entries with
  | some fields => split_ifs <;> rfl
  | none => split_ifs <;> rfl

theorem memory_row_shape (held : Generation) :
    Memory.rowAfter commit held =
      { Memory.fieldsSet commit.updateGenerations.entries held with
        status := (Memory.rowAfter commit held).status } := by
  unfold Memory.rowAfter Memory.destroyed Memory.wentLive
  cases commit.goLive <;> cases commit.destroy <;> simp only <;> split_ifs <;> rfl

theorem rows_agree (addressed : Addressed rows commit) (separate : Separate rows commit)
    {held : Generation} (here : held ∈ rows.generations) :
    rowAfter commit held = Memory.rowAfter commit held := by
  rw [row_after_shape, memory_row_shape]
  rw [row_after_status, memory_row_status]
  by_cases gone : commit.destroys held.salt = true
  · simp [gone]
  · by_cases all : commit.destroy = .all
    · have none_live := addressed.all all
      have settled := (separate.all all).2 held here
      by_cases updated : held.salt ∈ commit.updateGenerations.keys
      · simp [gone, all, none_live, updated, settled updated]
      · simp [gone, all, none_live, updated]
    · cases goes : commit.goLive with
      | none => simp [gone, all]
      | some salt =>
        by_cases same : salt = held.salt
        · simp [gone, all, same]
        · have other : held.salt ≠ salt := Ne.symm same
          by_cases live : held.status = .live
          · have apart := ((separate.live salt goes).2 held here live other).1
            simp [gone, all, same, other, live, apart]
          · simp [gone, all, same, other, live]

theorem new_rows_agree (addressed : Addressed rows commit) (fresh : Fresh rows commit)
    (separate : Separate rows commit) {tenant : Str} {new : Generation}
    (entered : new ∈ newRows tenant commit) : Memory.rowAfter commit new = new := by
  obtain ⟨add, adds, made⟩ := mem_new_iff.mp entered
  have salt : new.salt = add.salt := by rw [made]
  have status : new.status = add.status := by rw [made]
  obtain ⟨unnamed, other, spared⟩ :=
    (change_of_none_iff commit add.salt).mp (new_unchanged addressed fresh adds)
  have absent : Dict.lookup new.salt commit.updateGenerations.entries = none := by
    rw [salt]
    have unlisted := (Dict.lookup_isSome_iff add.salt commit.updateGenerations.entries).not.mpr
      unnamed
    exact Option.not_isSome_iff_eq_none.mp unlisted
  have fields : Memory.fieldsSet commit.updateGenerations.entries new = new := by
    unfold Memory.fieldsSet
    rw [absent]
  have kept : (Memory.rowAfter commit new).status = new.status := by
    rw [memory_row_status, salt]
    by_cases all : commit.destroy = .all
    · simp [all, status, (separate.all all).1 add adds]
    · cases goes : commit.goLive with
      | none => simp [all, spared]
      | some live =>
        have apart : add.salt ≠ live := fun same => other (by rw [goes, same])
        have idle := (separate.live live goes).1 add adds
        simp [all, spared, apart, status, idle]
  rw [memory_row_shape, kept, fields]

end Rows

section Schedules

variable {rows : TenantRows} {tenant : Str} {commit : Commit} {order front : List Write}

theorem scheduled (schedule : Schedule rows.generations (partsOf tenant commit) order)
    (starts : front <+: order) {write : Write} (member : write ∈ front) :
    write ∈ writesOf tenant rows commit :=
  schedule.perm.mem_iff.mp (starts.subset member)

theorem table_at (stored : InStore rows) (addressed : Addressed rows commit)
    (fresh : Fresh rows commit)
    (schedule : Schedule rows.generations (partsOf tenant commit) order)
    (starts : front <+: order) :
    front.foldl put rows.generations =
      rows.generations.map (fun held =>
        if held.salt ∈ replacedSalts front then rowAfter commit held else held) ++
        insertedRows front := by
  apply table_after stored.apart (row_after_salt commit)
  · intro row member
    exact replaced_row addressed (scheduled schedule starts member)
  · intro row member
    have entered := mem_inserted_iff.mpr (scheduled schedule starts member)
    rw [inserted_rows addressed fresh] at entered
    obtain ⟨add, adds, made⟩ := mem_new_iff.mp entered
    rw [made]
    exact fresh add adds

theorem inserted_at (addressed : Addressed rows commit) (fresh : Fresh rows commit)
    (schedule : Schedule rows.generations (partsOf tenant commit) order)
    (starts : front <+: order) {new : Generation} (entered : new ∈ insertedRows front) :
    new ∈ newRows tenant commit := by
  rw [← inserted_rows addressed fresh]
  exact mem_inserted_iff.mpr (scheduled schedule starts (mem_inserted_iff.mp entered))

theorem inserted_whole (addressed : Addressed rows commit) (fresh : Fresh rows commit)
    (schedule : Schedule rows.generations (partsOf tenant commit) order) :
    insertedRows order = newRows tenant commit := by
  have same : (insertedRows order).Perm (insertedRows (writesOf tenant rows commit)) :=
    schedule.perm.filterMap _
  rw [inserted_rows addressed fresh] at same
  unfold newRows at same ⊢
  cases adds : commit.addGeneration with
  | none =>
    rw [adds] at same
    exact same.eq_nil
  | some add =>
    rw [adds] at same
    exact List.perm_singleton.mp same

theorem table_whole (stored : InStore rows) (addressed : Addressed rows commit)
    (fresh : Fresh rows commit)
    (schedule : Schedule rows.generations (partsOf tenant commit) order) :
    order.foldl put rows.generations =
      rows.generations.map (rowAfter commit) ++ newRows tenant commit := by
  rw [table_at stored addressed fresh schedule (List.prefix_refl order)]
  rw [inserted_whole addressed fresh schedule]
  congr 1
  refine List.map_congr_left fun held here => ?_
  by_cases touched : held.salt ∈ replacedSalts order
  · rw [if_pos touched]
  · rw [if_neg touched]
    cases row_written tenant fresh here with
    | inl same => exact same.symm
    | inr written =>
      have member := schedule.perm.mem_iff.mpr written
      exact absurd (mem_replaced_iff.mpr ⟨_, member, row_after_salt commit held⟩) touched

end Schedules

section Constraints

variable {rows : TenantRows} {tenant : Str} {commit : Commit} {order front : List Write}

theorem salts_apart_at (stored : InStore rows) (addressed : Addressed rows commit)
    (fresh : Fresh rows commit)
    (schedule : Schedule rows.generations (partsOf tenant commit) order)
    (starts : front <+: order) : (saltsOf (front.foldl put rows.generations)).Nodup := by
  rw [table_at stored addressed fresh schedule starts]
  have keeps : ∀ held : Generation,
      (if held.salt ∈ replacedSalts front then rowAfter commit held else held).salt =
        held.salt := by
    intro held
    split_ifs
    · exact row_after_salt commit held
    · rfl
  have fewer : (insertedRows front).Sublist (newRows tenant commit) := by
    rw [← inserted_whole addressed fresh schedule]
    exact starts.sublist.filterMap _
  have whole : (saltsOf (rows.generations ++ newRows tenant commit)).Nodup :=
    grown_apart tenant stored fresh
  have split : ∀ left right, saltsOf (left ++ right) = saltsOf left ++ saltsOf right :=
    fun left right => List.map_append
  rw [split, Memory.salts_map keeps, ← split]
  exact whole.sublist ((List.Sublist.append (List.Sublist.refl _) fewer).map _)

theorem known_after {held : Generation} (known : held.status.known = true) :
    (rowAfter commit held).status.known = true := by
  rw [row_after_status]
  split_ifs <;> first | rfl | exact known

theorem known_at (stored : InStore rows) (addressed : Addressed rows commit)
    (fresh : Fresh rows commit) (holdable : Holdable commit)
    (schedule : Schedule rows.generations (partsOf tenant commit) order)
    (starts : front <+: order) :
    ∀ row ∈ front.foldl put rows.generations, row.status.known = true := by
  rw [table_at stored addressed fresh schedule starts]
  intro row member
  rcases List.mem_append.mp member with changed | entered
  · obtain ⟨held, here, rfl⟩ := List.mem_map.mp changed
    split_ifs
    · exact known_after (stored.known held here)
    · exact stored.known held here
  · obtain ⟨add, adds, made⟩ := mem_new_iff.mp (inserted_at addressed fresh schedule starts entered)
    rw [made]
    exact holdable.status add adds

/-- Nothing but the generation that goes live is made live of what is stored. -/
theorem live_after {held : Generation} (live : (rowAfter commit held).status = .live) :
    commit.goLive = some held.salt ∨
      held.status = .live ∧ commit.destroys held.salt = false ∧
        (held.salt ∈ commit.updateGenerations.keys ∨ commit.goLive = none) := by
  rw [row_after_status] at live
  by_cases gone : commit.destroys held.salt = true
  · rw [if_pos gone] at live
    cases live
  · rw [if_neg gone] at live
    have spared : commit.destroys held.salt = false := by simpa using gone
    by_cases goes : commit.goLive = some held.salt
    · exact Or.inl goes
    · rw [if_neg goes] at live
      by_cases updated : held.salt ∈ commit.updateGenerations.keys
      · rw [if_pos updated] at live
        exact Or.inr ⟨live, spared, Or.inl updated⟩
      · rw [if_neg updated] at live
        cases moves : commit.goLive with
        | none =>
          rw [moves] at live
          by_cases all : commit.destroy = .all
          · simp [all] at live
          · simp only [all, Option.isSome_none, Bool.false_eq_true, false_and, if_false] at live
            exact Or.inr ⟨live, spared, Or.inr rfl⟩
        | some salt =>
          rw [moves] at live
          by_cases was : held.status = .live
          · simp [was] at live
          · by_cases all : commit.destroy = .all
            · simp [was, all] at live
            · simp [was, all] at live

/-- Once the generation that goes live is written, the one live before it is retiring. -/
theorem retired_before (schedule : Schedule rows.generations (partsOf tenant commit) order)
    (fresh : Fresh rows commit) (starts : front <+: order) {salt : Str}
    (goes : commit.goLive = some salt) (here : salt ∈ saltsOf rows.generations)
    (written : salt ∈ replacedSalts front) {held : Generation}
    (kept : held ∈ rows.generations) (live : held.status = .live)
    (unnamed : changeOf commit held.salt = none) : held.salt ∈ replacedSalts front := by
  obtain ⟨row, member, same⟩ := mem_replaced_iff.mp written
  obtain ⟨front_before, front_after, split⟩ := List.append_of_mem member
  obtain ⟨rest, whole⟩ := starts
  have changed : ∃ change, changeOf commit salt = some change := by
    cases found : changeOf commit salt with
    | some change => exact ⟨change, rfl⟩
    | none => exact absurd goes ((change_of_none_iff commit salt).mp found).2.1
  obtain ⟨change, changed⟩ := changed
  have part : Part.generation salt change true ∈ partsOf tenant commit := by
    apply mem_parts_iff.mpr
    refine Or.inr (Or.inr (Or.inr ⟨salt, change, changes_other changed ?_, by simp [goes]⟩))
    intro add adds equal
    exact fresh add adds (equal ▸ here)
  have retire : Part.retire (named commit) ∈ partsOf tenant commit :=
    mem_parts_iff.mpr (Or.inr (Or.inl ⟨by simp [goes], rfl⟩))
  have own : Write.replace row ∈
      Part.writes rows.generations (.generation salt change true) := by
    have listed : Write.replace row ∈ writesOf tenant rows commit :=
      schedule.perm.mem_iff.mp (whole ▸ List.mem_append_left _ member)
    obtain ⟨writer, entered, made⟩ := List.mem_flatMap.mp listed
    have named_salt : salt ∈ named commit := by
      rw [mem_named_iff, changed]
      rfl
    rcases mem_parts_iff.mp entered with ⟨add, adds, rfl⟩ | ⟨-, rfl⟩ | ⟨-, rfl⟩ |
      ⟨other, otherChange, listed, rfl⟩
    · cases List.mem_singleton.mp made
    · obtain ⟨origin, chosen, equal⟩ := List.mem_map.mp made
      have spared := (List.mem_filter.mp chosen).2
      rw [← Write.replace.inj equal] at same
      have origin_salt : origin.salt = salt := same
      simp [origin_salt, named_salt] at spared
    · obtain ⟨origin, chosen, equal⟩ := List.mem_map.mp made
      have spared := (List.mem_filter.mp chosen).2
      rw [← Write.replace.inj equal] at same
      have origin_salt : origin.salt = salt := same
      simp [origin_salt, named_salt] at spared
    · obtain ⟨origin, chosen, equal⟩ := List.mem_map.mp made
      have of_other : origin.salt = other := by simpa using (List.mem_filter.mp chosen).2
      rw [← Write.replace.inj equal] at same
      have origin_salt : origin.salt = salt := same
      have other_salt : other = salt := of_other.symm.trans origin_salt
      have one_change : otherChange = change := by
        have found := other_changes listed
        rw [other_salt, changed] at found
        exact (Option.some.inj found).symm
      rw [other_salt, one_change] at made
      exact made
  have retired := schedule.waits salt change part (named commit) retire (.replace row) own
    front_before (front_after ++ rest) (by
      rw [← whole, split, List.append_assoc]
      rfl)
  have sweeps : Write.replace { held with status := .retiring } ∈
      Part.writes rows.generations (.retire (named commit)) := by
    have outside := (unnamed_iff held.salt).mpr unnamed
    exact List.mem_map.mpr ⟨held, List.mem_filter.mpr ⟨kept, by simp [live, outside]⟩, rfl⟩
  rw [split]
  exact mem_replaced_iff.mpr ⟨_, List.mem_append_left _ (retired sweeps), rfl⟩

/-- With nothing going live, what is live stays the one kept or is the one added. -/
theorem one_live_kept (stored : InStore rows) (goes : commit.goLive = none)
    (alone : ¬ SecondLive rows commit) (separate : Separate rows commit)
    (new_of : ∀ row ∈ insertedRows front, ∃ add, commit.addGeneration = some add ∧
      row = { add with tenantId := tenant }) :
    ∃ salt, ∀ row ∈ rows.generations.map (fun held =>
        if held.salt ∈ replacedSalts front then rowAfter commit held else held) ++
        insertedRows front, row.status = .live → row.salt = salt := by
  have single := (live_le_one_iff stored.apart).mp stored.oneLive
  have stays : ∀ held : Generation,
      (if held.salt ∈ replacedSalts front then rowAfter commit held else held).status = .live →
      held.status = .live := by
    intro held live
    split_ifs at live
    · cases live_after live with
      | inl moved =>
        rw [goes] at moved
        cases moved
      | inr was => exact was.1
    · exact live
  by_cases new_live : ∃ add, commit.addGeneration = some add ∧ add.status = .live
  · obtain ⟨add, adds, add_live⟩ := new_live
    have none_held : ∀ held ∈ rows.generations, held.status ≠ .live := by
      intro held here live
      by_cases all : commit.destroy = .all
      · rw [(separate.all all).1 add adds] at add_live
        cases add_live
      · exact alone ⟨goes, all, add, adds, add_live, held, here, live,
          separate.added goes add adds add_live held here live⟩
    refine ⟨add.salt, fun row member live => ?_⟩
    rcases List.mem_append.mp member with changed | entered
    · obtain ⟨held, here, rfl⟩ := List.mem_map.mp changed
      exact absurd (stays held live) (none_held held here)
    · obtain ⟨new, adds_new, made⟩ := new_of row entered
      have same : new = add := Option.some.inj (adds_new.symm.trans adds)
      rw [made, same]
  · have idle : ∀ row ∈ insertedRows front, row.status ≠ .live := by
      intro row entered live
      obtain ⟨add, adds, made⟩ := new_of row entered
      rw [made] at live
      exact new_live ⟨add, adds, live⟩
    by_cases kept : ∃ held ∈ rows.generations, held.status = .live
    · obtain ⟨first, first_here, first_live⟩ := kept
      refine ⟨first.salt, fun row member live => ?_⟩
      rcases List.mem_append.mp member with changed | entered
      · obtain ⟨held, here, rfl⟩ := List.mem_map.mp changed
        have same := single held here first first_here (stays held live) first_live
        rw [← same]
        split_ifs
        · exact row_after_salt commit held
        · rfl
      · exact absurd live (idle row entered)
    · refine ⟨[], fun row member live => ?_⟩
      rcases List.mem_append.mp member with changed | entered
      · obtain ⟨held, here, rfl⟩ := List.mem_map.mp changed
        exact absurd ⟨held, here, stays held live⟩ kept
      · exact absurd live (idle row entered)

/-- With a generation going live, it is the only one once written, and before that the one
kept is. -/
theorem one_live_moving (stored : InStore rows) (addressed : Addressed rows commit)
    (fresh : Fresh rows commit) {salt : Str} (goes : commit.goLive = some salt)
    (separate : Separate rows commit)
    (schedule : Schedule rows.generations (partsOf tenant commit) order)
    (starts : front <+: order)
    (new_of : ∀ row ∈ insertedRows front, ∃ add, commit.addGeneration = some add ∧
      row = { add with tenantId := tenant }) :
    ∃ salt, ∀ row ∈ rows.generations.map (fun held =>
        if held.salt ∈ replacedSalts front then rowAfter commit held else held) ++
        insertedRows front, row.status = .live → row.salt = salt := by
  have single := (live_le_one_iff stored.apart).mp stored.oneLive
  obtain ⟨new_idle, apart⟩ := separate.live salt goes
  have idle : ∀ row ∈ insertedRows front, row.status ≠ .live := by
    intro row entered live
    obtain ⟨add, adds, made⟩ := new_of row entered
    rw [made] at live
    exact new_idle add adds live
  have moved : ∀ held ∈ rows.generations, held.salt ∈ replacedSalts front →
      (rowAfter commit held).status = .live → held.salt = salt := by
    intro held here _ live
    cases live_after live with
    | inl goes_live =>
      rw [goes] at goes_live
      exact (Option.some.inj goes_live).symm
    | inr was =>
      obtain ⟨was_live, -, named⟩ := was
      by_contra other
      have outside := (apart held here was_live other).1
      cases named with
      | inl updated => exact outside updated
      | inr none_goes =>
        rw [goes] at none_goes
        cases none_goes
  by_cases written : salt ∈ replacedSalts front
  · refine ⟨salt, fun row member live => ?_⟩
    rcases List.mem_append.mp member with changed | entered
    · obtain ⟨held, here, rfl⟩ := List.mem_map.mp changed
      by_cases touched : held.salt ∈ replacedSalts front
      · rw [if_pos touched] at live ⊢
        rw [row_after_salt]
        exact moved held here touched live
      · rw [if_neg touched] at live ⊢
        by_contra other
        obtain ⟨outside, spared⟩ := apart held here live other
        have unnamed : changeOf commit held.salt = none := by
          rw [change_of_none_iff]
          refine ⟨outside, fun same => ?_, by simp [spared]⟩
          rw [goes] at same
          exact other (Option.some.inj same).symm
        exact touched (retired_before schedule fresh starts goes (addressed.live salt goes)
          written here live unnamed)
    · exact absurd live (idle row entered)
  · by_cases kept : ∃ held ∈ rows.generations, held.status = .live
    · obtain ⟨first, first_here, first_live⟩ := kept
      refine ⟨first.salt, fun row member live => ?_⟩
      rcases List.mem_append.mp member with changed | entered
      · obtain ⟨held, here, rfl⟩ := List.mem_map.mp changed
        by_cases touched : held.salt ∈ replacedSalts front
        · rw [if_pos touched] at live
          exact absurd (moved held here touched live ▸ touched) written
        · rw [if_neg touched] at live ⊢
          exact single held here first first_here live first_live
      · exact absurd live (idle row entered)
    · refine ⟨[], fun row member live => ?_⟩
      rcases List.mem_append.mp member with changed | entered
      · obtain ⟨held, here, rfl⟩ := List.mem_map.mp changed
        by_cases touched : held.salt ∈ replacedSalts front
        · rw [if_pos touched] at live
          exact absurd (moved held here touched live ▸ touched) written
        · rw [if_neg touched] at live
          exact absurd ⟨held, here, live⟩ kept
      · exact absurd live (idle row entered)

theorem single_live_at (stored : InStore rows) (addressed : Addressed rows commit)
    (fresh : Fresh rows commit) (alone : ¬ SecondLive rows commit)
    (separate : Separate rows commit)
    (schedule : Schedule rows.generations (partsOf tenant commit) order)
    (starts : front <+: order) :
    ∀ left ∈ front.foldl put rows.generations, ∀ right ∈ front.foldl put rows.generations,
      left.status = .live → right.status = .live → left.salt = right.salt := by
  have new_of : ∀ row ∈ insertedRows front, ∃ add, commit.addGeneration = some add ∧
      row = { add with tenantId := tenant } := fun row entered =>
    mem_new_iff.mp (inserted_at addressed fresh schedule starts entered)
  have only : ∃ salt, ∀ row ∈ front.foldl put rows.generations,
      row.status = .live → row.salt = salt := by
    rw [table_at stored addressed fresh schedule starts]
    cases goes : commit.goLive with
    | none => exact one_live_kept stored goes alone separate new_of
    | some salt =>
      exact one_live_moving stored addressed fresh goes separate schedule starts new_of
  obtain ⟨salt, named⟩ := only
  intro left here right there left_live right_live
  rw [named left here left_live, named right there right_live]

end Constraints

end Statement

end Defender.Tenancy
