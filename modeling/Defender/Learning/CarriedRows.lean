import Defender.Learning.GradePass

/-!
# What the next record carries

A record says of a label its row, the ledger entries of its findings and its entries on the
user record. A stamp says of every committed label what the record before it said, and a grade
starts from a record that says so of every queued one.
-/

namespace Defender.Learning.Judge

open Defender.Python Defender.Library.OrderedDict

section Said

def EpisodeGrade.rowOf (record : EpisodeGrade) (label : Str) : Option Row :=
  if label = familyLabel then record.family
  else record.worlds.find? fun row => row.label = label

def EpisodeGrade.ledgerOf (record : EpisodeGrade) (label : Str) : List LedgerEntry :=
  (record.dispositions.getD []).filter fun entry => labelOf entry.findingId = some label

def EpisodeGrade.userOf (record : EpisodeGrade) (label : Str) (list : UserList) :
    List UserEntry :=
  (record.user list).filter fun entry => entry.world = label

def IsCommitted (record : EpisodeGrade) (label : Str) : Prop :=
  ∃ row, record.rowOf label = some row ∧ row.state.isSome

def IsQueued (record : EpisodeGrade) (label : Str) : Prop :=
  ∃ row, record.rowOf label = some row ∧ row.state = some .queued

def SaysSame (label : Str) (earlier later : EpisodeGrade) : Prop :=
  later.rowOf label = earlier.rowOf label ∧ later.ledgerOf label = earlier.ledgerOf label ∧
    later.userOf label = earlier.userOf label

def Carries (earlier later : EpisodeGrade) : Prop :=
  ∀ label, IsQueued earlier label → SaysSame label earlier later

theorem says_same_refl (label : Str) (record : EpisodeGrade) : SaysSame label record record :=
  ⟨rfl, rfl, rfl⟩

theorem IsQueued.committed {record : EpisodeGrade} {label : Str} (queued : IsQueued record label) :
    IsCommitted record label := by
  obtain ⟨row, found, state⟩ := queued
  exact ⟨row, found, by rw [state]; rfl⟩

theorem SaysSame.queued {label : Str} {earlier later : EpisodeGrade}
    (same : SaysSame label earlier later) (queued : IsQueued earlier label) :
    IsQueued later label := by
  obtain ⟨row, found, state⟩ := queued
  exact ⟨row, same.1.trans found, state⟩

theorem SaysSame.committed {label : Str} {earlier later : EpisodeGrade}
    (same : SaysSame label earlier later) (held : IsCommitted earlier label) :
    IsCommitted later label := by
  obtain ⟨row, found, state⟩ := held
  exact ⟨row, same.1.trans found, state⟩

theorem carries_refl (record : EpisodeGrade) : Carries record record :=
  fun label _ => says_same_refl label record

theorem Carries.trans {first second third : EpisodeGrade} (early : Carries first second)
    (late : Carries second third) : Carries first third := by
  intro label queued
  have same := early label queued
  have further := late label (same.queued queued)
  exact ⟨further.1.trans same.1, further.2.1.trans same.2.1, further.2.2.trans same.2.2⟩

end Said

section Formed

/-- A world's row stands once, under a label of the manifest; the family's stands apart. -/
structure Formed (manifest : Manifest) (record : EpisodeGrade) : Prop where
  distinct : (record.worlds.map Row.label).Nodup
  planted : ∀ row ∈ record.worlds, row.label ∈ manifest.labels
  family : ∀ row, record.family = some row → row.label = familyLabel

variable {manifest : Manifest}

theorem planted_ne_family {label : Str} (planted : label ∈ manifest.labels) :
    label ≠ familyLabel := by
  intro same
  have spelled := (manifest.spelled label planted).2
  rw [same] at spelled
  exact absurd spelled (by decide)

theorem committed_row_eq {row kept : Row} (found : committedRow row = some kept) :
    kept = row ∧ row.state.isSome := by
  unfold committedRow at found
  split at found
  · rename_i held
    exact ⟨(Option.some.inj found).symm, held⟩
  · cases found

variable {prior : EpisodeGrade}

theorem Formed.row_label (formed : Formed manifest prior) {label : Str} {row : Row}
    (found : prior.rowOf label = some row) : row.label = label := by
  unfold EpisodeGrade.rowOf at found
  split at found
  · rename_i same
    rw [same]
    exact formed.family row found
  · simpa using List.find?_some found

/-- Only a committed row is kept, under its label. -/
theorem committed_lookup {rows : List Row} (distinct : (rows.map Row.label).Nodup) (label : Str) :
    Dict.lookup label ((rows.filterMap committedRow).map fun row => (row.label, row)) =
      (rows.find? fun row => row.label = label).bind committedRow := by
  induction rows with
  | nil => rfl
  | cons row rest ih =>
    rw [List.map_cons, List.nodup_cons] at distinct
    have further := ih distinct.2
    by_cases here : row.label = label
    · have absent : (rest.find? fun row => row.label = label) = none := by
        rw [List.find?_eq_none]
        intro other member same
        refine distinct.1 (List.mem_map.mpr ⟨other, member, ?_⟩)
        rw [here]
        simpa using same
      rw [absent] at further
      rw [List.find?_cons_of_pos (by simpa using here), Option.bind_some]
      cases held : committedRow row with
      | none =>
        rw [List.filterMap_cons_none held]
        exact further
      | some kept =>
        obtain ⟨rfl, -⟩ := committed_row_eq held
        rw [List.filterMap_cons_some held, List.map_cons, Dict.lookup, if_pos here]
    · rw [List.find?_cons_of_neg (by simpa using here)]
      cases held : committedRow row with
      | none =>
        rw [List.filterMap_cons_none held]
        exact further
      | some kept =>
        obtain ⟨rfl, -⟩ := committed_row_eq held
        rw [List.filterMap_cons_some held, List.map_cons, Dict.lookup, if_neg here]
        exact further

theorem committed_distinct {rows : List Row} (distinct : (rows.map Row.label).Nodup) :
    (((rows.filterMap committedRow).map fun row => (row.label, row)).map Prod.fst).Nodup := by
  have same : ((rows.filterMap committedRow).map fun row => (row.label, row)).map Prod.fst =
      (rows.filterMap committedRow).map Row.label := by
    rw [List.map_map]
    rfl
  rw [same]
  refine distinct.sublist ?_
  clear distinct same
  induction rows with
  | nil => exact List.Sublist.refl _
  | cons row rest ih =>
    cases held : committedRow row with
    | none =>
      rw [List.filterMap_cons_none held]
      exact ih.trans (List.sublist_cons_self _ _)
    | some kept =>
      obtain ⟨rfl, -⟩ := committed_row_eq held
      rw [List.filterMap_cons_some held]
      exact ih.cons_cons _

theorem Formed.committed_get (formed : Formed manifest prior) {label : Str}
    (world : label ≠ familyLabel) :
    (committed (some prior)).1.get? label = (prior.rowOf label).bind committedRow := by
  have entries : (committed (some prior)).1.entries =
      (prior.worlds.filterMap committedRow).map fun row => (row.label, row) :=
    Dict.of_list_entries (committed_distinct formed.distinct)
  unfold Dict.get? EpisodeGrade.rowOf
  rw [entries, if_neg world]
  exact committed_lookup formed.distinct label

theorem committed_family :
    (committed (some prior)).2 = (prior.rowOf familyLabel).bind committedRow := by
  unfold EpisodeGrade.rowOf
  rw [if_pos rfl]
  rfl

theorem committed_row_iff {label : Str} {row : Row} :
    (prior.rowOf label).bind committedRow = some row ↔
      prior.rowOf label = some row ∧ row.state.isSome := by
  cases found : prior.rowOf label with
  | none => simp
  | some held =>
    rw [Option.bind_some]
    constructor
    · intro kept
      obtain ⟨rfl, state⟩ := committed_row_eq kept
      exact ⟨rfl, state⟩
    · rintro ⟨same, state⟩
      obtain rfl := Option.some.inj same
      rw [committedRow, if_pos state]

theorem Formed.committed_planted (formed : Formed manifest prior) {label : Str} {row : Row}
    (found : (committed (some prior)).1.get? label = some row) :
    label ∈ manifest.labels ∧ row.label = label := by
  rw [← Dict.mem_entries_iff] at found
  obtain ⟨held, member, same⟩ := List.mem_map.mp (Dict.mem_of_list_entries found)
  obtain ⟨rfl, rfl⟩ := Prod.mk.inj same
  obtain ⟨source, among, kept⟩ := List.mem_filterMap.mp member
  obtain ⟨rfl, -⟩ := committed_row_eq kept
  exact ⟨formed.planted held among, rfl⟩

end Formed

section Labels

variable {manifest : Manifest} {prior : EpisodeGrade}

def carriedLabels (prior : Option EpisodeGrade) : List Str :=
  (committed prior).1.keys ++ ((committed prior).2.map fun _ => familyLabel).toList

theorem Formed.mem_carried_labels (formed : Formed manifest prior) {label : Str} :
    label ∈ carriedLabels (some prior) ↔ IsCommitted prior label := by
  unfold carriedLabels
  rw [List.mem_append]
  have inKeys : label ∈ (committed (some prior)).1.keys ↔
      ∃ row, (committed (some prior)).1.get? label = some row := by
    rw [← Dict.contains_iff, Dict.contains, Option.isSome_iff_exists]
  rw [inKeys]
  by_cases family : label = familyLabel
  · have outside : ¬∃ row, (committed (some prior)).1.get? label = some row := by
      rintro ⟨row, found⟩
      exact planted_ne_family (formed.committed_planted found).1 family
    rw [committed_family, ← family]
    constructor
    · rintro (among | among)
      · exact absurd among outside
      · obtain ⟨row, found, -⟩ := Option.map_eq_some_iff.mp (Option.mem_toList.mp among)
        exact ⟨row, committed_row_iff.mp found⟩
    · rintro ⟨row, found⟩
      right
      rw [committed_row_iff.mpr found]
      simp
  · rw [formed.committed_get family]
    constructor
    · rintro (⟨row, found⟩ | among)
      · exact ⟨row, committed_row_iff.mp found⟩
      · obtain ⟨row, -, same⟩ := Option.map_eq_some_iff.mp (Option.mem_toList.mp among)
        exact absurd same.symm family
    · rintro ⟨row, found⟩
      exact Or.inl ⟨row, committed_row_iff.mpr found⟩

theorem Formed.mem_kept_labels (formed : Formed manifest prior) {label : Str} :
    label ∈ keptLabels (some prior) ↔ IsQueued prior label := by
  unfold keptLabels
  simp only [List.mem_append, List.mem_map, List.mem_filter, Option.mem_toList,
    Option.map_eq_some_iff, Option.filter_eq_some_iff, beq_iff_eq, committed_family,
    committed_row_iff]
  constructor
  · rintro (⟨row, ⟨among, state⟩, rfl⟩ | ⟨row, ⟨⟨found, -⟩, state⟩, rfl⟩)
    · obtain ⟨entry, member, rfl⟩ := List.mem_map.mp among
      have found := (Dict.mem_entries_iff _ entry.1 entry.2).mp member
      obtain ⟨planted, named⟩ := formed.committed_planted found
      rw [formed.committed_get (planted_ne_family planted)] at found
      rw [named]
      exact ⟨entry.2, (committed_row_iff.mp found).1, state⟩
    · exact ⟨row, found, state⟩
  · rintro ⟨row, found, state⟩
    have held : row.state.isSome := by rw [state]; rfl
    by_cases family : label = familyLabel
    · right
      subst family
      exact ⟨row, ⟨⟨found, held⟩, state⟩, rfl⟩
    · left
      have kept := (formed.committed_get family).trans (committed_row_iff.mpr ⟨found, held⟩)
      exact ⟨row, ⟨List.mem_map.mpr ⟨(label, row), (Dict.mem_entries_iff _ _ _).mpr kept, rfl⟩,
        state⟩, formed.row_label found⟩

theorem carried_ledger_of {labels : List Str} {label : Str} (among : label ∈ labels) :
    ((carriedLedger (some prior) labels).filter fun entry =>
      labelOf entry.findingId = some label) = prior.ledgerOf label := by
  unfold carriedLedger EpisodeGrade.ledgerOf
  rw [List.filter_filter]
  refine List.filter_congr fun entry _ => ?_
  cases labelOf entry.findingId with
  | none => simp
  | some other =>
    by_cases same : other = label
    · subst same
      simp [among]
    · simp [same]

theorem carried_user_of {labels : List Str} {label : Str} (among : label ∈ labels)
    (list : UserList) :
    ((carriedUser (some prior) labels list).filter fun entry => entry.world = label) =
      prior.userOf label list := by
  unfold carriedUser EpisodeGrade.userOf
  rw [List.filter_filter]
  refine List.filter_congr fun entry _ => ?_
  by_cases same : entry.world = label
  · simp [same, among]
  · simp [same]

end Labels

section Stamp

variable {manifest : Manifest} {prior : EpisodeGrade} (word reason : Str) (validity : Option Str)
  (foundGaps : List (Dict Str Json)) {worlds : List Row}

def stampedWorlds (carried : Dict Str Row) (worlds : List Row) : List Row :=
  let listed := worlds.map fun row => (carried.get? row.label).getD row
  listed ++ carried.values.filter fun row => !(listed.map Row.label).contains row.label

theorem stamped_worlds (prior : Option EpisodeGrade) :
    (stampNotGraded word reason validity worlds foundGaps prior).worlds =
      stampedWorlds (committed prior).1 worlds := rfl

variable {carried : Dict Str Row}

theorem listed_label (keyed : ∀ label row, carried.get? label = some row → row.label = label)
    (row : Row) : ((carried.get? row.label).getD row).label = row.label := by
  cases found : carried.get? row.label with
  | none => rfl
  | some held => exact keyed row.label held found

theorem listed_labels (keyed : ∀ label row, carried.get? label = some row → row.label = label) :
    (worlds.map fun row => (carried.get? row.label).getD row).map Row.label =
      worlds.map Row.label := by
  rw [List.map_map]
  exact List.map_congr_left fun row _ => listed_label keyed row

theorem values_labels (keyed : ∀ label row, carried.get? label = some row → row.label = label) :
    carried.values.map Row.label = carried.keys := by
  unfold Dict.values Dict.keys
  rw [List.map_map]
  refine List.map_congr_left fun entry member => ?_
  exact keyed entry.1 entry.2 ((Dict.mem_entries_iff _ _ _).mp member)

/-- A carried row is the one the stamp shows for its label. -/
theorem stamped_row (keyed : ∀ label row, carried.get? label = some row → row.label = label)
    {label : Str} {row : Row} (held : carried.get? label = some row) :
    ((stampedWorlds carried worlds).find? fun row => row.label = label) = some row := by
  unfold stampedWorlds
  rw [List.find?_append]
  cases found : (worlds.map fun row => (carried.get? row.label).getD row).find?
      fun row => row.label = label with
  | some listed =>
    obtain ⟨source, -, rfl⟩ := List.mem_map.mp (List.mem_of_find?_eq_some found)
    have named : source.label = label := by
      rw [← listed_label keyed source]
      simpa using List.find?_some found
    rw [Option.some_or, named, held]
    rfl
  | none =>
    rw [Option.none_or, List.find?_filter]
    have fresh : label ∉ (worlds.map fun row => (carried.get? row.label).getD row).map
        Row.label := by
      intro among
      obtain ⟨listed, member, named⟩ := List.mem_map.mp among
      exact absurd (decide_eq_true named) (List.find?_eq_none.mp found listed member)
    have filtered : carried.values.find? (fun other =>
        decide ((!(((worlds.map fun row => (carried.get? row.label).getD row).map
          Row.label).contains other.label)) = true ∧ decide (other.label = label) = true)) =
        carried.values.find? fun other => other.label = label := by
      congr 1
      funext other
      by_cases same : other.label = label
      · simp only [same]
        simpa using fresh
      · simp [same]
    rw [filtered]
    refine (Dict.find_values carried (fun entry member => ?_) label).trans held
    exact keyed entry.1 entry.2 ((Dict.mem_entries_iff _ _ _).mp member)

theorem Formed.keyed (formed : Formed manifest prior) (label : Str) (row : Row)
    (found : (committed (some prior)).1.get? label = some row) : row.label = label :=
  (formed.committed_planted found).2

theorem stamp_says_same (formed : Formed manifest prior) {label : Str}
    (held : IsCommitted prior label) :
    SaysSame label prior
      (stampNotGraded word reason validity worlds foundGaps (some prior)) := by
  have among : label ∈ carriedLabels (some prior) := formed.mem_carried_labels.mpr held
  refine ⟨?_, ?_, ?_⟩
  · obtain ⟨row, found, state⟩ := held
    by_cases family : label = familyLabel
    · subst family
      have kept : (committed (some prior)).2 = some row :=
        committed_family.trans (committed_row_iff.mpr ⟨found, state⟩)
      rw [found]
      exact (if_pos rfl).trans kept
    · have kept := (formed.committed_get family).trans (committed_row_iff.mpr ⟨found, state⟩)
      rw [found]
      exact (if_neg family).trans (stamped_row formed.keyed kept)
  · have some : carriedLabels (some prior) ≠ [] := List.ne_nil_of_mem among
    have listed :
        (stampNotGraded word reason validity worlds foundGaps (.some prior)).dispositions =
          .some (carriedLedger (.some prior) (carriedLabels (.some prior))) := if_neg some
    unfold EpisodeGrade.ledgerOf
    rw [listed]
    exact carried_ledger_of among
  · funext list
    exact carried_user_of among list

theorem stamp_formed (prior : Option EpisodeGrade)
    (formed : ∀ record, prior = some record → Formed manifest record)
    (distinct : (worlds.map Row.label).Nodup)
    (planted : ∀ row ∈ worlds, row.label ∈ manifest.labels) :
    Formed manifest (stampNotGraded word reason validity worlds foundGaps prior) := by
  have keyed : ∀ label row, (committed prior).1.get? label = some row →
      label ∈ manifest.labels ∧ row.label = label := by
    intro label row found
    cases prior with
    | none => cases found
    | some record => exact (formed record rfl).committed_planted found
  have named := fun label row found => (keyed label row found).2
  refine ⟨?_, ?_, ?_⟩
  · rw [stamped_worlds, stampedWorlds, List.map_append, listed_labels named]
    refine List.Nodup.append distinct ?_ ?_
    · have values : ((committed prior).1.values.map Row.label).Nodup := by
        rw [values_labels named]
        exact (committed prior).1.nodup
      exact values.sublist (List.filter_sublist.map _)
    · intro label listed other
      obtain ⟨row, member, rfl⟩ := List.mem_map.mp other
      have fresh := (List.mem_filter.mp member).2
      simp only [Bool.not_eq_true', List.contains_eq_mem, decide_eq_false_iff_not] at fresh
      exact fresh listed
  · intro row member
    rw [stamped_worlds, stampedWorlds, List.mem_append] at member
    rcases member with member | member
    · obtain ⟨source, among, rfl⟩ := List.mem_map.mp member
      rw [listed_label named]
      exact planted source among
    · obtain ⟨entry, among, rfl⟩ := List.mem_map.mp (List.mem_filter.mp member).1
      have found := (Dict.mem_entries_iff _ entry.1 entry.2).mp among
      rw [(keyed entry.1 entry.2 found).2]
      exact (keyed entry.1 entry.2 found).1
  · intro row found
    cases prior with
    | none => cases found
    | some record =>
      have kept : (committed (some record)).2 = some row := found
      rw [committed_family] at kept
      exact (formed record rfl).row_label (committed_row_iff.mp kept).1

end Stamp

end Defender.Learning.Judge
