import Defender.Learning.UnkeyableRows

/-!
# Which batches are retired

A row of the batch leaves exactly where it was found without an id, and whatever was appended
since leaves where its id, or without one its content, is a retired row's. The step stops short of
the queue where a counter is no number or an id no key of a set.
-/

namespace Defender.Learning.Unkeyable

open Defender.Python Defender.Library.OrderedDict
open Defender.Investigation
open Defender.Learning.Curator (Row idKey)

section Batch

variable {double : Str → Double} {batch appended : List QueueRow} {row : QueueRow}

theorem mem_unkeyable : row ∈ unkeyable batch ↔ row ∈ batch ∧ rowId row = none := by
  rw [unkeyable, List.mem_filter, Option.isNone_iff_eq_none]

theorem row_id_found {id : Str} (named : rowId row = some id) :
    idOf row.members = some (.string id) := by
  unfold rowId at named
  split at named
  · contradiction
  · rename_i found
    rw [← Option.some.inj named, idOf, found]
  · contradiction

theorem row_id_text {id : Str} (found : idOf row.members = some (.string id)) :
    rowId row = none ↔ id = [] := by
  unfold idOf at found
  split at found
  · contradiction
  · rw [rowId, found]
    cases id with
    | nil => simp
    | cons first rest => simp

theorem same_content_refl (row : QueueRow) : SameContent row row :=
  (canonical_same_iff row row).mp rfl

theorem keyed_has_hash (named : rowId row ≠ none) : HasHash double row.members := by
  obtain ⟨id, named⟩ := Option.ne_none_iff_exists'.mp named
  intro other found
  rw [row_id_found named, Option.some.injEq] at found
  subst found
  exact ⟨.text id, rfl⟩

theorem hash_key_text {id : Json} {text : Str} (hash : hashKey double id = .ok (.text text)) :
    id = .string text := by
  cases id with
  | string held =>
      simp only [hashKey, Except.ok.injEq, IdKey.text.injEq] at hash
      rw [hash]
  | _ => simp [hashKey] at hash

theorem batch_matched_iff (inside : row ∈ batch)
    (hashed : rowId row = none → HasHash double row.members) :
    Matched double (unkeyable batch) row ↔ rowId row = none := by
  constructor
  · rintro ⟨other, there, same | ⟨found, same⟩⟩
    · obtain ⟨id, otherId, key, found, otherFound, hash, otherHash⟩ := same
      by_contra named
      obtain ⟨text, named⟩ := Option.ne_none_iff_exists'.mp named
      have asText := row_id_found named
      rw [found, Option.some.injEq] at asText
      subst asText
      cases hash
      rw [hash_key_text otherHash] at otherFound
      have empty := (row_id_text otherFound).mp (mem_unkeyable.mp there).2
      have unnamed := (row_id_text found).mpr empty
      rw [named] at unnamed
      contradiction
    · exact (same_content_row_id same).trans (mem_unkeyable.mp there).2
  · intro unnamed
    refine ⟨row, mem_unkeyable.mpr ⟨inside, unnamed⟩, ?_⟩
    cases found : idOf row.members with
    | none => exact .inr ⟨rfl, same_content_refl row⟩
    | some id =>
        obtain ⟨key, hash⟩ := hashed unnamed id found
        exact .inl ⟨id, id, key, found, found, hash, hash⟩

theorem batch_copied_iff (inside : row ∈ batch) :
    (∃ other ∈ unkeyable batch, SameContent row other) ↔ rowId row = none := by
  constructor
  · rintro ⟨other, there, same⟩
    exact (same_content_row_id same).trans (mem_unkeyable.mp there).2
  · intro unnamed
    exact ⟨row, mem_unkeyable.mpr ⟨inside, unnamed⟩, same_content_refl row⟩

theorem copied_matched {rows : List QueueRow} (hashed : HasHash double row.members)
    (copied : ∃ other ∈ rows, SameContent row other) : Matched double rows row := by
  obtain ⟨other, there, same⟩ := copied
  refine ⟨other, there, ?_⟩
  have ids := same_content_id same
  cases found : idOf row.members with
  | none => exact .inr ⟨rfl, same⟩
  | some id =>
      rw [found, Option.map_some, eq_comm, Option.map_eq_some_iff] at ids
      obtain ⟨otherId, otherFound, sorted⟩ := ids
      obtain ⟨key, hash⟩ := hashed id found
      refine .inl ⟨id, otherId, key, found, otherFound, hash, ?_⟩
      rw [← hash_key_sorted, sorted, hash_key_sorted, hash]

theorem whole_hashed_iff :
    (∀ row ∈ unkeyable batch ++ appended, HasHash double row.members) ↔
      ∀ row ∈ batch ++ appended, HasHash double row.members := by
  simp only [List.forall_mem_append]
  refine and_congr_left fun _ => ?_
  constructor
  · intro hashed row inside
    by_cases unnamed : rowId row = none
    · exact hashed row (mem_unkeyable.mpr ⟨inside, unnamed⟩)
    · exact keyed_has_hash unnamed
  · intro hashed row inside
    exact hashed row (mem_unkeyable.mp inside).1

theorem exists_unkeyable (filled : unkeyable batch ≠ []) : ∃ row ∈ batch, rowId row = none := by
  obtain ⟨row, inside⟩ := List.exists_mem_of_ne_nil _ filled
  exact ⟨row, mem_unkeyable.mp inside⟩

theorem filter_pointwise {keep stay : QueueRow → Bool} {rows : List QueueRow}
    (same : rows.filter keep = rows.filter stay) : ∀ row ∈ rows, keep row = stay row := by
  intro row inside
  have both : row ∈ rows.filter keep ↔ row ∈ rows.filter stay := by rw [same]
  rw [List.mem_filter, List.mem_filter, and_iff_right inside, and_iff_right inside] at both
  exact Bool.eq_iff_iff.mpr both

end Batch

section Step

variable [UnicodeDatabase] {double : Str → Double} {batch appended : List QueueRow}
variable (clock : Nat → Str) (now : Str) (graveyard ledger : List Row)

theorem retire_accepted (keep : QueueRow → Bool) (filled : unkeyable batch ≠ [])
    (accepted : Accepted double batch appended)
    (kept : ∀ row ∈ batch ++ appended, keep row = true ↔ ¬Matched double (unkeyable batch) row) :
    Recorded batch graveyard ledger
        (retireRead double clock now batch appended graveyard ledger).1 ∧
      (retireRead double clock now batch appended graveyard ledger).1.queue =
        (batch ++ appended).filter keep := by
  obtain ⟨records, counted, spelled⟩ :=
    (grave_records_written_iff clock (unkeyable batch)).mpr accepted.counted
  have hashed := List.forall_mem_append.mp accepted.hashed
  have run := rotated_ok hashed.1 (whole_hashed_iff.mp accepted.hashed) kept
  have some : (unkeyable batch).isEmpty = false := by
    rw [Bool.eq_false_iff, ne_eq, List.isEmpty_iff]
    exact filled
  have moved := rotate_moves now
    ⟨batch ++ appended, graveyard ++ records, ledger⟩ run
  have left : (retireRead double clock now batch appended graveyard ledger).1 =
      ⟨(batch ++ appended).filter keep, graveyard ++ records,
        ledger ++ (unkeyable batch).map (ledgerRecord now)⟩ := by
    simp only [retireRead, retireUnkeyable, some, Bool.false_eq_true, if_false, counted, deadletter,
      appendRows, if_pos (List.all_eq_true.mpr spelled), moved]
  rw [left]
  refine ⟨⟨⟨records, rfl, grave_records_carry counted⟩, _, rfl, ?_⟩, rfl⟩
  rw [List.forall₂_map_right_iff]
  exact List.forall₂_same.mpr fun row _ => ledger_record_carries now row

theorem retire_refused (refused : ¬Accepted double batch appended) :
    (retireRead double clock now batch appended graveyard ledger).1.queue = batch ++ appended := by
  unfold retireRead retireUnkeyable
  split
  · rfl
  cases counted : graveRecords double clock (unkeyable batch) with
  | error fault => rfl
  | ok records =>
      by_cases spelled : (records.all fun row => (Json.object row.entries).spelled) = true
      · simp only [deadletter, appendRows, if_pos spelled, rotate]
        cases run : rotated double [] (consumedRows (unkeyable batch)) (unkeyable batch)
            (batch ++ appended) with
        | error fault => rfl
        | ok left =>
            have hashed := rotated_hashed run
            have written := (grave_records_written_iff clock (unkeyable batch)).mp
              ⟨records, counted, List.all_eq_true.mp spelled⟩
            exact absurd ⟨written, whole_hashed_iff.mpr hashed.2⟩ refused
      · simp only [deadletter, appendRows, if_neg spelled]

end Step

section Outcome

variable [UnicodeDatabase] {double : Str → Double} {batch appended : List QueueRow}
variable (clock : Nat → Str) (now : Str) (graveyard ledger : List Row)

variable (double batch appended) in
theorem retire_none (empty : unkeyable batch = []) :
    (retireRead double clock now batch appended graveyard ledger).1 =
        ⟨batch ++ appended, graveyard, ledger⟩ ∧
      Recorded batch graveyard ledger ⟨batch ++ appended, graveyard, ledger⟩ := by
  constructor
  · rw [retireRead, empty]
    rfl
  · refine ⟨⟨[], (List.append_nil _).symm, ?_⟩, [], (List.append_nil _).symm, ?_⟩
    · rw [empty]
      exact .nil
    · rw [empty]
      exact .nil

theorem accepted_of_left
    (left : (retireRead double clock now batch appended graveyard ledger).1.queue ≠
      batch ++ appended) : Accepted double batch appended := by
  by_contra refused
  exact left (retire_refused clock now graveyard ledger refused)

theorem copied_iff_matched {row : QueueRow} (retirable : Retirable double batch appended)
    (inside : row ∈ batch ++ appended) :
    (∃ other ∈ unkeyable batch, SameContent row other) ↔ Matched double (unkeyable batch) row := by
  have hashed := whole_hashed_iff.mp retirable.hashed row inside
  refine ⟨copied_matched hashed, ?_⟩
  rcases List.mem_append.mp inside with read | since
  · intro matched
    exact (batch_copied_iff read).mpr ((batch_matched_iff read fun _ => hashed).mp matched)
  · rintro ⟨other, there, same | ⟨_, same⟩⟩
    · exact retirable.apart row since other there same
    · exact ⟨other, there, same⟩

/-- The rows found without an id leave, each recorded once, and no other content does, exactly
where every counter and id can be handled and no id of theirs was appended over other content. -/
theorem retired_iff :
    Retired batch appended graveyard ledger
        (retireRead double clock now batch appended graveyard ledger).1 ↔
      unkeyable batch = [] ∨ Retirable double batch appended := by
  classical
  by_cases empty : unkeyable batch = []
  · refine iff_of_true ?_ (.inl empty)
    obtain ⟨left, recorded⟩ := retire_none double batch appended clock now graveyard
      ledger empty
    rw [left]
    refine ⟨recorded, fun _ => true, ?_, (List.filter_true _).symm⟩
    simp [empty]
  rw [or_iff_right empty]
  constructor
  · rintro ⟨-, stay, copied, left⟩
    have accepted : Accepted double batch appended := by
      refine accepted_of_left clock now graveyard ledger ?_
      rw [left]
      intro whole
      obtain ⟨row, inside, unnamed⟩ := exists_unkeyable empty
      have stays := List.filter_eq_self.mp whole row (List.mem_append_left _ inside)
      exact (copied row).mp stays row (mem_unkeyable.mpr ⟨inside, unnamed⟩) (same_content_refl row)
    refine ⟨accepted, ?_⟩
    intro row inside other there named
    obtain ⟨_, kept⟩ := retire_accepted clock now graveyard ledger
      (fun row => decide ¬Matched double (unkeyable batch) row) empty accepted
      fun row _ => decide_eq_true_iff
    have same := filter_pointwise (kept.symm.trans left) row (List.mem_append_right _ inside)
    have goes : stay row = false := by
      rw [← same, decide_eq_false_iff_not, not_not]
      exact ⟨other, there, .inl named⟩
    by_contra alone
    have stays := (copied row).mpr fun copy member content => alone ⟨copy, member, content⟩
    rw [goes] at stays
    contradiction
  · intro retirable
    obtain ⟨recorded, left⟩ := retire_accepted clock now graveyard ledger
      (fun row => decide (∀ other ∈ unkeyable batch, ¬SameContent row other)) empty
      retirable.toAccepted (by
        intro row inside
        rw [decide_eq_true_iff, ← copied_iff_matched retirable inside]
        simp)
    exact ⟨recorded, _, fun row => decide_eq_true_iff, left⟩

theorem batch_kept {keep : QueueRow → Bool} (accepted : Accepted double batch appended)
    (kept : ∀ row ∈ batch ++ appended, keep row = true ↔ ¬Matched double (unkeyable batch) row) :
    batch.filter keep = batch.filter fun row => (rowId row).isSome := by
  refine List.filter_congr fun row inside => ?_
  have hashed := whole_hashed_iff.mp accepted.hashed row (List.mem_append_left _ inside)
  rw [Bool.eq_iff_iff, kept row (List.mem_append_left _ inside),
    batch_matched_iff inside fun _ => hashed, Option.isSome_iff_ne_none]

theorem retired_alone_iff :
    RetiredAlone batch appended graveyard ledger
        (retireRead double clock now batch appended graveyard ledger).1 ↔
      unkeyable batch = [] ∨
        Accepted double batch appended ∧
          ∀ row ∈ appended, ¬Matched double (unkeyable batch) row := by
  classical
  by_cases empty : unkeyable batch = []
  · refine iff_of_true ?_ (.inl empty)
    obtain ⟨left, recorded⟩ := retire_none double batch appended clock now graveyard
      ledger empty
    rw [left]
    refine ⟨recorded, ?_⟩
    have keyed : batch.filter (fun row => (rowId row).isSome) = batch := by
      rw [List.filter_eq_self]
      intro row inside
      rw [Option.isSome_iff_ne_none]
      intro unnamed
      have member := mem_unkeyable.mpr ⟨inside, unnamed⟩
      rw [empty] at member
      contradiction
    rw [keyed]
  rw [or_iff_right empty]
  constructor
  · rintro ⟨-, left⟩
    have accepted : Accepted double batch appended := by
      refine accepted_of_left clock now graveyard ledger ?_
      rw [left]
      intro whole
      obtain ⟨row, inside, unnamed⟩ := exists_unkeyable empty
      have stays := List.filter_eq_self.mp (List.append_cancel_right whole) row inside
      rw [unnamed] at stays
      contradiction
    refine ⟨accepted, ?_⟩
    have kept : ∀ row ∈ batch ++ appended,
        decide (¬Matched double (unkeyable batch) row) = true ↔
          ¬Matched double (unkeyable batch) row := fun row _ => decide_eq_true_iff
    obtain ⟨_, moved⟩ := retire_accepted clock now graveyard ledger _ empty accepted kept
    rw [left, List.filter_append, batch_kept accepted kept] at moved
    have whole := List.filter_eq_self.mp (List.append_cancel_left moved).symm
    intro row inside
    exact of_decide_eq_true (whole row inside)
  · rintro ⟨accepted, alone⟩
    have kept : ∀ row ∈ batch ++ appended,
        decide (¬Matched double (unkeyable batch) row) = true ↔
          ¬Matched double (unkeyable batch) row := fun row _ => decide_eq_true_iff
    obtain ⟨recorded, left⟩ := retire_accepted clock now graveyard ledger _ empty accepted kept
    refine ⟨recorded, ?_⟩
    have stayed := List.filter_eq_self.mpr fun row inside => decide_eq_true (alone row inside)
    rw [left, List.filter_append, batch_kept accepted kept, stayed]

/-- By content, the rows without an id alone leave the queue, recorded once each, exactly where
each of their counters and every id can be handled and whatever came under an id of theirs copies
one. Every row appended since stays besides exactly where it matches none of them. -/
theorem unkeyable_leave_iff (double : Str → Double) (batch appended : List QueueRow) :
    (Retired batch appended graveyard ledger
        (retireRead double clock now batch appended graveyard ledger).1 ↔
      unkeyable batch = [] ∨ Retirable double batch appended) ∧
    (RetiredAlone batch appended graveyard ledger
        (retireRead double clock now batch appended graveyard ledger).1 ↔
      unkeyable batch = [] ∨
        Accepted double batch appended ∧
          ∀ row ∈ appended, ¬Matched double (unkeyable batch) row) :=
  ⟨retired_iff clock now graveyard ledger, retired_alone_iff clock now graveyard ledger⟩

end Outcome

def listRow : QueueRow where
  members := Dict.ofList [(idKey, .array []), ("subject", .string "s")]
  spelled := rfl
  distinct := ⟨by decide, trivial, trivial, trivial⟩

/-- Its id cannot be hashed: the graveyard has it, and the queue keeps it for the next tick. -/
theorem list_id_stays :
    (@retireRead asciiDatabase (fun _ => .nan) (fun _ => "t") "t" [listRow] [] [] []).2 =
        .error .typeError ∧
      (@retireRead asciiDatabase (fun _ => .nan) (fun _ => "t") "t"
        [listRow] [] [] []).1.graveyard.length = 1 ∧
      (@retireRead asciiDatabase (fun _ => .nan) (fun _ => "t") "t" [listRow] [] [] []).1.queue =
        [listRow] ∧
      ¬Retired [listRow] [] [] []
        (@retireRead asciiDatabase (fun _ => .nan) (fun _ => "t") "t" [listRow] [] [] []).1 := by
  refine ⟨rfl, rfl, rfl, ?_⟩
  rintro ⟨-, keep, copied, left⟩
  have whole : [listRow] = [listRow].filter keep := left
  have stays := List.filter_eq_self.mp whole.symm listRow List.mem_cons_self
  exact (copied listRow).mp stays listRow List.mem_cons_self (same_content_refl listRow)

end Defender.Learning.Unkeyable
