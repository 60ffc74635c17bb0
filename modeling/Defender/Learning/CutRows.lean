import Defender.Investigation.MemberOrder
import Defender.Learning.AnswerDiff

/-!
# The rows a re-ask cuts

What a re-asked answer drops from the live base is read off their difference, and a row that
only moved is taken out of it again. What remains is the difference of the two answers' rows as
multisets, whichever way the rows were aligned.
-/

namespace Defender.Learning.Estate

open Defender.Python Defender.Library.OrderedDict Defender.Library.Alignment
open Defender.Filesystem (height)
open Defender.Investigation (sorted_of_perm)

theorem joined_removed (found : List Diff) :
    (Diff.joined found).removed = found.flatMap (·.removed) := by
  induction found with
  | nil => rfl
  | cons first rest ih => rw [List.flatMap_cons, ← ih]; rfl

theorem joined_added (found : List Diff) :
    (Diff.joined found).added = found.flatMap (·.added) := by
  induction found with
  | nil => rfl
  | cons first rest ih => rw [List.flatMap_cons, ← ih]; rfl

section Additions

theorem best_pair_additions (old : Members) (free : List Json) :
    bestPair (fun _ => true) old free = none := by
  have noScore : ∀ new, pairScore (fun _ => true) old new = none := by
    intro new
    cases new with
    | object entries => simp [pairScore]
    | _ => rfl
  unfold bestPair
  induction free.zipIdx with
  | nil => rfl
  | cons new rest ih => rw [List.foldl_cons, noScore]; exact ih

theorem pair_rows_additions (olds news : List Json) :
    pairRows (fun _ => true) olds news = ([], olds, news) := by
  induction olds with
  | nil => rfl
  | cons old olds ih =>
      cases old with
      | object entries => rw [pairRows, best_pair_additions, Option.bind_none, ih]
      | _ =>
          rw [pairRows, Option.bind_none, ih]
          intros
          contradiction

theorem block_diff_additions (pairDiff : Json → Json → Diff) (base served : List Json)
    (path : Path) (names : Names) (op : Opcode) :
    (blockDiff (fun _ _ => true) pairDiff base served path names op).removed.map (·.row) =
        (if op.tag = .equal then [] else op.leftSlice base) ∧
      (blockDiff (fun _ _ => true) pairDiff base served path names op).added.map (·.row) =
        (if op.tag = .equal then [] else op.rightSlice served) := by
  unfold blockDiff
  by_cases equal : op.tag = .equal
  · simp only [if_pos equal, List.map_nil, and_self]
  · simp only [if_neg equal, pair_rows_additions]
    constructor
    · simp [Diff.then, Diff.joined, Function.comp_def]
    · simp [Diff.then, Diff.joined, Function.comp_def]

variable [UnicodeDatabase] (aligner : Aligner Str)

/-- The rows a comparison finds removed and added when no edit counts. -/
def removedRows (rounds : Nat) (base served : Json) (path : Path) (names : Names)
    (row : Option Members) : List Json :=
  (diffWithin aligner (fun _ _ => true) rounds base served path names row).removed.map (·.row)

def addedRows (rounds : Nat) (base served : Json) (path : Path) (names : Names)
    (row : Option Members) : List Json :=
  (diffWithin aligner (fun _ _ => true) rounds base served path names row).added.map (·.row)

theorem list_cut (rounds : Nat) (base served : List Json) (path : Path) (names : Names)
    (row : Option Members) :
    Cut canonicalJson base served
      (removedRows aligner (rounds + 1) (.array base) (.array served) path names row)
      (addedRows aligner (rounds + 1) (.array base) (.array served) path names row) := by
  have cut := unequal_cut (aligner.lays (base.map canonicalJson) (served.map canonicalJson))
  have removed : removedRows aligner (rounds + 1) (.array base) (.array served) path names row =
      unequalLeft (aligner.opcodes (base.map canonicalJson) (served.map canonicalJson)) base := by
    unfold removedRows unequalLeft
    rw [diffWithin, joined_removed, List.flatMap_map, List.map_flatMap]
    simp only [block_diff_additions]
  have added : addedRows aligner (rounds + 1) (.array base) (.array served) path names row =
      unequalRight (aligner.opcodes (base.map canonicalJson) (served.map canonicalJson))
        served := by
    unfold addedRows unequalRight
    rw [diffWithin, joined_added, List.flatMap_map, List.map_flatMap]
    simp only [block_diff_additions]
  rw [removed, added]
  exact cut

end Additions

section Tables

def members (answer : Dict Str (List Json)) : Members where
  entries := answer.entries.map fun table => (table.1, .array table.2)
  nodup := by
    rw [List.map_map]
    exact answer.nodup

def answerJson (answer : Dict Str (List Json)) : Json := .object (members answer).entries

theorem members_read (answer : Dict Str (List Json)) :
    Dict.ofList (members answer).entries = members answer :=
  Dict.ext_entries (Dict.of_list_entries (members answer).nodup)

theorem members_keys (answer : Dict Str (List Json)) : (members answer).keys = answer.keys :=
  List.map_map

theorem members_get (answer : Dict Str (List Json)) (key : Str) :
    (members answer).get? key = (answer.get? key).map .array := by
  change Dict.lookup key (answer.entries.map fun table => (table.1, Json.array table.2)) =
    (Dict.lookup key answer.entries).map .array
  induction answer.entries with
  | nil => rfl
  | cons table rest ih =>
      simp only [List.map_cons, Dict.lookup]
      split
      · rfl
      · exact ih

def tableRows (names : Names) (key : Str) (rows : List Json) : List Json :=
  match names with
  | some names => if key = "values" then rows.map (zippedRow names) else rows
  | none => rows

def pooledRows (names : Names) (answer : Dict Str (List Json)) : List Json :=
  (sorted answer.keys).flatMap fun key => tableRows names key ((answer.get? key).getD [])

/-- What a comparison reads of an answer. -/
def readMembers (names : Names) (answer : Dict Str (List Json)) : Members :=
  match names with
  | some names => zipped (members answer) names
  | none => members answer

theorem read_members_get (names : Names) (answer : Dict Str (List Json)) (key : Str) :
    (readMembers names answer).get? key =
      (answer.get? key).map fun rows => .array (tableRows names key rows) := by
  cases names with
  | none => exact members_get answer key
  | some names =>
      unfold readMembers zipped
      rw [members_get]
      cases held : answer.get? "values" with
      | none =>
          simp only [Option.map_none, members_get]
          by_cases values : key = "values"
          · rw [values, held, Option.map_none, Option.map_none]
          · simp only [tableRows, if_neg values]
      | some rows =>
          simp only [Option.map_some, Dict.get_set, members_get]
          by_cases values : key = "values"
          · rw [values, if_pos rfl, held, Option.map_some, tableRows, if_pos rfl]
          · rw [if_neg (Ne.symm values)]
            simp only [tableRows, if_neg values]

theorem read_members_keys (names : Names) (answer : Dict Str (List Json)) :
    (readMembers names answer).keys = answer.keys := by
  cases names with
  | none => exact members_keys answer
  | some names =>
      unfold readMembers zipped
      rw [members_get]
      cases held : answer.get? "values" with
      | none => exact members_keys answer
      | some rows =>
          have present : ("values".toList : Str) ∈ answer.keys :=
            (Dict.contains_iff answer "values").mp (by rw [Dict.contains, held]; rfl)
          simp only [Option.map_some]
          rw [Dict.keys_set, members_keys, if_pos present]

end Tables

section Mappings

variable [UnicodeDatabase] (aligner : Aligner Str)

/-- What a comparison of two mappings tells of one name both have. -/
def tableDiff (rounds : Nat) (names : Names) (live reAsked : Dict Str (List Json)) (path : Path)
    (row : Option Members) (key : Str) : Diff :=
  diffWithin aligner (fun _ _ => true) rounds
    (.array (tableRows names key ((live.get? key).getD [])))
    (.array (tableRows names key ((reAsked.get? key).getD []))) (path ++ [key])
    (if key = "values" then names else none) row

theorem mapping_diff (rounds : Nat) (live reAsked : Dict Str (List Json)) (path : Path)
    (row : Option Members) (same : ∀ key, key ∈ live.keys ↔ key ∈ reAsked.keys) :
    diffWithin aligner (fun _ _ => true) (rounds + 1) (answerJson live) (answerJson reAsked) path
        none row =
      Diff.joined ((sorted live.keys).map
        (tableDiff aligner rounds (sharedNames (members live) (members reAsked)) live reAsked
          path row)) := by
  rw [answerJson, answerJson, diffWithin, members_read, members_read]
  generalize sharedNames (members live) (members reAsked) = names
  have contained : ∀ {left right : Dict Str (List Json)} {key : Str},
      key ∈ (readMembers names left).keys → (key ∈ left.keys → key ∈ right.keys) →
        (readMembers names right).contains key = true := by
    intro left right key among kept
    rw [read_members_keys] at among
    rw [Dict.contains_iff, read_members_keys]
    exact kept among
  have lost : (readMembers names live).keys.filter (!(readMembers names reAsked).contains ·) =
      [] := by
    rw [List.filter_eq_nil_iff]
    intro key among
    rw [contained among (same key).mp]
    decide
  have gained : (readMembers names reAsked).keys.filter (!(readMembers names live).contains ·) =
      [] := by
    rw [List.filter_eq_nil_iff]
    intro key among
    rw [contained among (same key).mpr]
    decide
  have shared : (readMembers names live).keys.filter (readMembers names reAsked).contains =
      live.keys := by
    rw [List.filter_eq_self.mpr fun key among => contained among (same key).mp,
      read_members_keys]
  change Diff.then
    { unclaimed := (sorted ((readMembers names live).keys.filter
          (!(readMembers names reAsked).contains ·))).map (keyUnclaimed path "removed") ++
        (sorted ((readMembers names reAsked).keys.filter
          (!(readMembers names live).contains ·))).map (keyUnclaimed path "added") }
    (Diff.joined ((sorted ((readMembers names live).keys.filter
      (readMembers names reAsked).contains)).map _)) = _
  rw [lost, gained, shared]
  change Diff.joined _ = _
  congr 1
  apply List.map_congr_left
  intro key among
  have held : key ∈ live.keys := (sorted_perm _).mem_iff.mp among
  obtain ⟨rows, found⟩ := Option.isSome_iff_exists.mp ((Dict.contains_iff live key).mpr held)
  obtain ⟨others, otherFound⟩ :=
    Option.isSome_iff_exists.mp ((Dict.contains_iff reAsked key).mpr ((same key).mp held))
  unfold tableDiff
  rw [found, otherFound]
  have old := read_members_get names live key
  have new := read_members_get names reAsked key
  rw [found] at old
  rw [otherFound] at new
  unfold readMembers at old new
  cases names
  all_goals
    dsimp only at old new ⊢
    rw [old, new]
    rfl

theorem mapping_cut (rounds : Nat) (live reAsked : Dict Str (List Json)) (path : Path)
    (row : Option Members) (same : ∀ key, key ∈ live.keys ↔ key ∈ reAsked.keys) :
    Cut canonicalJson
      (pooledRows (sharedNames (members live) (members reAsked)) live)
      (pooledRows (sharedNames (members live) (members reAsked)) reAsked)
      (removedRows aligner (rounds + 2) (answerJson live) (answerJson reAsked) path none row)
      (addedRows aligner (rounds + 2) (answerJson live) (answerJson reAsked) path none row) := by
  unfold removedRows addedRows pooledRows
  rw [mapping_diff aligner (rounds + 1) live reAsked path row same]
  generalize sharedNames (members live) (members reAsked) = names
  have moved : live.keys.Perm reAsked.keys :=
    (List.perm_ext_iff_of_nodup live.nodup reAsked.nodup).mpr same
  rw [← sorted_of_perm moved]
  simp only [joined_removed, joined_added, List.flatMap_map, List.map_flatMap]
  apply Cut.flatMap
  intro key _
  exact list_cut aligner rounds _ _ _ _ row

end Mappings

theorem less_reordered_sublist (rows : List Json) (cancel : Str → Nat) :
    (lessReordered rows cancel).Sublist rows := by
  induction rows generalizing cancel with
  | nil => exact .refl _
  | cons row rows ih =>
      rw [lessReordered]
      split
      · exact (ih _).cons row
      · exact (ih _).cons_cons row

/-- Of the rows of one spelling as many go as are to be cancelled. -/
theorem less_reordered_count (rows : List Json) (cancel : Str → Nat) (text : Str) :
    counter (lessReordered rows cancel) text = counter rows text - cancel text := by
  induction rows generalizing cancel with
  | nil => exact (Nat.zero_sub _).symm
  | cons row rows ih =>
      have first : counter (row :: rows) text =
          counter rows text + if canonicalJson row = text then 1 else 0 := by
        rw [counter, List.map_cons, List.count_cons]
        simp only [beq_iff_eq]
        rfl
      rw [lessReordered, first]
      by_cases cancels : 0 < cancel (canonicalJson row)
      · rw [if_pos cancels, ih]
        by_cases same : canonicalJson row = text
        · rw [same] at cancels ⊢
          rw [Function.update_self, if_pos rfl]
          omega
        · rw [Function.update_of_ne (Ne.symm same), if_neg same, Nat.add_zero]
      · have kept : counter (row :: lessReordered rows cancel) text =
            counter (lessReordered rows cancel) text +
              if canonicalJson row = text then 1 else 0 := by
          rw [counter, List.map_cons, List.count_cons]
          simp only [beq_iff_eq]
          rfl
        rw [if_neg cancels, kept, ih]
        by_cases same : canonicalJson row = text
        · rw [same] at cancels
          rw [if_pos same]
          omega
        · rw [if_neg same, Nat.add_zero, Nat.add_zero]

/-- What is left of a cut once the rows that only moved are cancelled. -/
def cancelled (dropped broughtIn : List Json) : List Json × List Json :=
  let kept := fun text => min (counter dropped text) (counter broughtIn text)
  if dropped.all fun row => kept (canonicalJson row) = 0 then (dropped, broughtIn)
  else (lessReordered dropped kept, lessReordered broughtIn kept)

/-- Two lists of rows beside the rows of each that the other lacks, in their order. -/
structure MultisetCut (live reAsked : List Json) (cut : List Json × List Json) : Prop where
  dropped : (cut.1.map canonicalJson : Multiset Str) =
    live.map canonicalJson - reAsked.map canonicalJson
  broughtIn : (cut.2.map canonicalJson : Multiset Str) =
    reAsked.map canonicalJson - live.map canonicalJson
  droppedOrder : cut.1.Sublist live
  broughtOrder : cut.2.Sublist reAsked

theorem counter_multiset (rows : List Json) (text : Str) :
    (rows.map canonicalJson : Multiset Str).count text = counter rows text := by
  rw [Multiset.coe_count, counter]
  exact List.countP_congr fun other _ => by simp

theorem cancelled_multiset {live reAsked dropped broughtIn : List Json}
    (cut : Cut canonicalJson live reAsked dropped broughtIn) :
    MultisetCut live reAsked (cancelled dropped broughtIn) := by
  have counts : ∀ text,
      counter (cancelled dropped broughtIn).1 text = counter live text - counter reAsked text ∧
        counter (cancelled dropped broughtIn).2 text =
          counter reAsked text - counter live text := by
    intro text
    obtain ⟨shared, inLive, inAnswer⟩ := cut.counts text
    change counter live text = shared + counter dropped text at inLive
    change counter reAsked text = shared + counter broughtIn text at inAnswer
    unfold cancelled
    by_cases apart : (dropped.all fun row =>
        min (counter dropped (canonicalJson row)) (counter broughtIn (canonicalJson row)) = 0) =
          true
    · have disjoint : min (counter dropped text) (counter broughtIn text) = 0 := by
        by_cases among : text ∈ dropped.map canonicalJson
        · obtain ⟨row, held, rfl⟩ := List.mem_map.mp among
          exact of_decide_eq_true (List.all_eq_true.mp apart row held)
        · have absent : counter dropped text = 0 := List.count_eq_zero.mpr among
          omega
      simp only [if_pos apart]
      omega
    · simp only [if_neg apart, less_reordered_count]
      omega
  have orders : (cancelled dropped broughtIn).1.Sublist dropped ∧
      (cancelled dropped broughtIn).2.Sublist broughtIn := by
    unfold cancelled
    dsimp only
    split
    · exact ⟨.refl _, .refl _⟩
    · exact ⟨less_reordered_sublist _ _, less_reordered_sublist _ _⟩
  exact {
    dropped := Multiset.ext.mpr fun text => by
      rw [Multiset.count_sub, counter_multiset, counter_multiset, counter_multiset]
      exact (counts text).1
    broughtIn := Multiset.ext.mpr fun text => by
      rw [Multiset.count_sub, counter_multiset, counter_multiset, counter_multiset]
      exact (counts text).2
    droppedOrder := orders.1.trans cut.droppedOrder
    broughtOrder := orders.2.trans cut.broughtOrder }

section Recorded

variable [UnicodeDatabase] (aligner : Aligner Str)

theorem cut_rows_cancelled (live reAsked : Json) :
    cutRows aligner live reAsked =
      cancelled (removedRows aligner (height live + 1) live reAsked [] none none)
        (addedRows aligner (height live + 1) live reAsked [] none none) := rfl

/-- The recorded cut is the multiset difference of the two answers' rows, whatever alignment
is picked; the values of ES|QL answers that list their columns alike count as rows of those. -/
theorem cut_is_multiset_difference :
    (∀ live reAsked : List Json,
      MultisetCut live reAsked (cutRows aligner (.array live) (.array reAsked))) ∧
    ∀ live reAsked : Dict Str (List Json), (∀ key, key ∈ live.keys ↔ key ∈ reAsked.keys) →
      MultisetCut (pooledRows (sharedNames (members live) (members reAsked)) live)
        (pooledRows (sharedNames (members live) (members reAsked)) reAsked)
        (cutRows aligner (answerJson live) (answerJson reAsked)) := by
  constructor
  · intro live reAsked
    rw [cut_rows_cancelled]
    exact cancelled_multiset (list_cut aligner _ live reAsked [] none none)
  · intro live reAsked same
    rw [cut_rows_cancelled]
    exact cancelled_multiset (mapping_cut aligner _ live reAsked [] none same)

end Recorded

def esqlAnswer (columns : List Str) (rows : List (List Json)) : Dict Str (List Json) where
  entries := [("columns", columns.map .string), ("values", rows.map .array)]
  nodup := by
    change (["columns", "values"] : List Str).Nodup
    decide

/-- An ES|QL answer of two rows, re-asked for the second. -/
theorem narrowed_answer_cut :
    MultisetCut (pooledRows (some ["a"]) (esqlAnswer ["a"] [[.number "1"], [.number "2"]]))
      (pooledRows (some ["a"]) (esqlAnswer ["a"] [[.number "2"]]))
      (@cutRows asciiDatabase Aligner.leading
        (answerJson (esqlAnswer ["a"] [[.number "1"], [.number "2"]]))
        (answerJson (esqlAnswer ["a"] [[.number "2"]]))) :=
  (@cut_is_multiset_difference asciiDatabase Aligner.leading).2
    (esqlAnswer ["a"] [[.number "1"], [.number "2"]]) (esqlAnswer ["a"] [[.number "2"]])
    fun _ => Iff.rfl

/-- Two rows that differ under the first of two columns of one name are one row of cells: as
they stand in the answers, one is missing, and the cut is empty. -/
theorem hidden_column_uncut :
    (∀ key, key ∈ (esqlAnswer ["a", "a"] [[.number "1", .number "2"]]).keys ↔
        key ∈ (esqlAnswer ["a", "a"] [[.number "3", .number "2"]]).keys) ∧
      (((@cutRows asciiDatabase Aligner.leading
          (answerJson (esqlAnswer ["a", "a"] [[.number "1", .number "2"]]))
          (answerJson (esqlAnswer ["a", "a"] [[.number "3", .number "2"]]))).1.map
            canonicalJson : List Str) : Multiset Str) ≠
        (pooledRows none (esqlAnswer ["a", "a"] [[.number "1", .number "2"]])).map canonicalJson -
          (pooledRows none (esqlAnswer ["a", "a"] [[.number "3", .number "2"]])).map
            canonicalJson :=
  ⟨fun _ => Iff.rfl, by decide +kernel⟩

end Defender.Learning.Estate
