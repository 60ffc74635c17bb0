import Defender.Learning.CarriedRows

/-!
# Each label's findings are queued once

A commit writes its row `queueing` before it appends, so an appended row's label is committed
in the record wherever the pass stops. No grade judges a committed label again, and every
write carries what the record says of the queued ones.
-/

namespace Defender.Learning.Judge

open Defender.Python Defender.Library.OrderedDict Defender.Library.HostSteps
open HostStep

section Runs

def Run.rowOf (run : Run) (label : Str) : Option Row :=
  if label = familyLabel then run.family else run.rows.get? label

structure RunFormed (manifest : Manifest) (run : Run) : Prop where
  rows : ∀ label row, run.rows.get? label = some row →
    label ∈ manifest.labels ∧ row.label = label
  family : ∀ row, run.family = some row → row.label = familyLabel

/-- The change leaves alone what the run says of the other labels. -/
structure OnlyAbout (label : Str) (before after : Run) : Prop where
  rows : ∀ other, other ≠ label → after.rowOf other = before.rowOf other
  ledger : ∃ added, after.ledger = before.ledger ++ added ∧
    ∀ entry ∈ added, labelOf entry.findingId = some label
  user : ∀ list, ∃ added, after.user list = before.user list ++ added ∧
    ∀ entry ∈ added, entry.world = label

variable {manifest : Manifest} {run : Run} {label : Str}

theorem find_listed {get : Str → Option Row} (named : ∀ label row, get label = some row →
    row.label = label) (order : List Str) (label : Str) :
    ((order.filterMap get).find? fun row => row.label = label) =
      if label ∈ order then get label else none := by
  induction order with
  | nil => rfl
  | cons first rest ih =>
    cases found : get first with
    | none =>
      rw [List.filterMap_cons_none found, ih]
      by_cases same : label = first
      · subst same
        simp [found]
      · simp [same]
    | some row =>
      rw [List.filterMap_cons_some found]
      by_cases same : label = first
      · subst same
        rw [List.find?_cons_of_pos (by simpa using named label row found)]
        simp [found]
      · have other : ¬row.label = label := by
          rw [named first row found]
          exact fun equal => same equal.symm
        rw [List.find?_cons_of_neg (by simpa using other), ih]
        simp [same]

theorem RunFormed.row_of_record (formed : RunFormed manifest run) (label : Str) :
    (run.record manifest.labels).rowOf label = run.rowOf label := by
  unfold EpisodeGrade.rowOf Run.rowOf
  split
  · rfl
  · refine (find_listed (fun label row found => (formed.rows label row found).2) _ _).trans ?_
    split
    · rfl
    · rename_i outside
      cases found : run.rows.get? label with
      | none => rfl
      | some row => exact absurd (formed.rows label row found).1 outside

theorem listed_distinct {get : Str → Option Row} (named : ∀ label row, get label = some row →
    row.label = label) {order : List Str} (distinct : order.Nodup) :
    ((order.filterMap get).map Row.label).Nodup := by
  refine distinct.sublist ?_
  clear distinct
  induction order with
  | nil => exact List.Sublist.refl _
  | cons first rest ih =>
    cases found : get first with
    | none =>
      rw [List.filterMap_cons_none found]
      exact ih.trans (List.sublist_cons_self _ _)
    | some row =>
      rw [List.filterMap_cons_some found, List.map_cons, named first row found]
      exact ih.cons_cons _

theorem RunFormed.record (formed : RunFormed manifest run) :
    Formed manifest (run.record manifest.labels) := by
  refine ⟨?_, ?_, ?_⟩
  · exact listed_distinct (fun label row found => (formed.rows label row found).2)
      manifest.distinct
  · intro row member
    obtain ⟨label, planted, found⟩ := List.mem_filterMap.mp member
    rw [(formed.rows label row found).2]
    exact planted
  · exact formed.family

theorem OnlyAbout.says_same {before after : Run} (about : OnlyAbout label before after)
    (formed : RunFormed manifest before) (reformed : RunFormed manifest after) {other : Str}
    (apart : other ≠ label) :
    SaysSame other (before.record manifest.labels) (after.record manifest.labels) := by
  refine ⟨?_, ?_, ?_⟩
  · rw [reformed.row_of_record, formed.row_of_record]
    exact about.rows other apart
  · obtain ⟨added, grown, named⟩ := about.ledger
    have none : (added.filter fun entry => labelOf entry.findingId = some other) = [] := by
      rw [List.filter_eq_nil_iff]
      intro entry member
      rw [named entry member, decide_eq_true_eq, Option.some.injEq]
      exact fun same => apart same.symm
    show (after.ledger.filter _) = before.ledger.filter _
    rw [grown, List.filter_append, none, List.append_nil]
  · funext list
    obtain ⟨added, grown, named⟩ := about.user list
    have none : (added.filter fun entry => entry.world = other) = [] := by
      rw [List.filter_eq_nil_iff]
      intro entry member
      rw [named entry member, decide_eq_true_eq]
      exact fun same => apart same.symm
    show ((after.user list).filter _) = (before.user list).filter _
    rw [grown, List.filter_append, none, List.append_nil]

theorem set_row_row_of (row : Row) (other : Str) :
    (run.setRow row).rowOf other = if other = row.label then some row else run.rowOf other := by
  unfold Run.setRow Run.rowOf
  by_cases family : row.label = familyLabel
  · rw [if_pos family, family]
    split
    · rfl
    · rfl
  · rw [if_neg family]
    by_cases same : other = familyLabel
    · rw [if_pos same, if_pos same, same, if_neg (Ne.symm family)]
    · rw [if_neg same, if_neg same, Dict.get_set]
      by_cases equal : row.label = other
      · rw [if_pos equal, if_pos equal.symm]
      · rw [if_neg equal, if_neg (Ne.symm equal)]

theorem RunFormed.set_row (formed : RunFormed manifest run) {row : Row}
    (spelled : row.label ∈ manifest.labels ∨ row.label = familyLabel) :
    RunFormed manifest (run.setRow row) := by
  unfold Run.setRow
  split
  · rename_i family
    refine ⟨formed.rows, ?_⟩
    intro held same
    obtain rfl := Option.some.inj same
    exact family
  · rename_i world
    refine ⟨?_, formed.family⟩
    intro label held found
    rw [Dict.get_set] at found
    split at found
    · rename_i same
      obtain rfl := Option.some.inj found
      rw [← same]
      exact ⟨spelled.resolve_right world, rfl⟩
    · exact formed.rows label held found

theorem set_row_only_about (run : Run) (row : Row) : OnlyAbout row.label run (run.setRow row) := by
  refine ⟨?_, ⟨[], ?_, fun _ none => nomatch none⟩,
    fun list => ⟨[], ?_, fun _ none => nomatch none⟩⟩
  · intro other apart
    rw [set_row_row_of, if_neg apart]
  · rw [List.append_nil]
    unfold Run.setRow
    split
    · rfl
    · rfl
  · rw [List.append_nil]
    unfold Run.setRow
    split
    · rfl
    · rfl

end Runs

section Filing

theorem decimal_text_no_slash (number : Nat) : '/' ∉ decimalText number := by
  intro member
  have digit := Nat.isDigit_of_mem_toDigits (by decide) (by decide) member
  exact absurd digit (by decide)

theorem label_of_finding (runId : Str) {label : Str} (fresh : '/' ∉ label) (draw index : Nat) :
    labelOf (findingId runId label draw index) = some label := by
  have same : findingId runId label draw index = runId ++ '/' :: (label ++ '/' ::
      (decimalText draw ++ '/' :: decimalText index)) := by
    unfold findingId message
    simp only [List.flatten_cons, List.flatten_nil, List.append_nil]
    rfl
  unfold labelOf
  rw [same, split_on_append, split_on_append, split_on_append, split_on_word fresh,
    split_on_word (decimal_text_no_slash draw), split_on_word (decimal_text_no_slash index)]
  obtain ⟨first, others, pieces⟩ :=
    List.exists_cons_of_ne_nil (List.reverse_ne_nil_iff.mpr (split_on_ne_nil '/' runId))
  simp [pieces]

variable {manifest : Manifest} {label : Str}

theorem world_label_no_slash {label : Str} (spelled : isWorldLabel label = true) :
    '/' ∉ label := by
  intro member
  cases label with
  | nil => cases member
  | cons first rest =>
    obtain ⟨start, more⟩ := Bool.and_eq_true_iff.mp spelled
    rcases List.mem_cons.mp member with rfl | member
    · exact absurd start (by decide)
    · exact absurd (List.all_eq_true.mp more '/' member) (by decide)

theorem label_no_slash (spelled : label ∈ manifest.labels ∨ label = familyLabel) :
    '/' ∉ label := by
  rcases spelled with planted | rfl
  · exact world_label_no_slash (manifest.spelled label planted).1
  · decide

/-- Filing a draw's findings changes the ledger, and the user entries to come. -/
structure Files (label : Str) (before : Run) (placed : Placed) : Prop where
  rows : placed.run.rows = before.rows
  family : placed.run.family = before.family
  user : placed.run.user = before.user
  ledger : ∃ added, placed.run.ledger = before.ledger ++ added ∧
    ∀ entry ∈ added, labelOf entry.findingId = some label
  entries : ∀ list, ∀ entry ∈ placed.user list, entry.world = label

theorem queued_ids_of_run (queues : Channel → List Curator.Row) (channel : Channel) (look : Look)
    (run : Run) : ∃ ids, (queuedIdsOf queues channel look run).2 = { run with queuedIds := ids } := by
  unfold queuedIdsOf
  split
  · exact ⟨run.queuedIds, rfl⟩
  · exact ⟨run.queuedIds, rfl⟩
  · exact ⟨_, rfl⟩

theorem files_row {queues : Channel → List Curator.Row} {before : Run} {placed : Placed}
    (files : Files label before placed) (item : Filed) (fid : Str) (channel : Channel) :
    Files label before (placeRow queues placed item fid channel).1 := by
  unfold placeRow
  cases item.refusal with
  | some reason => exact files
  | none =>
    obtain ⟨ids, same⟩ := queued_ids_of_run queues channel item.look placed.run
    have moved : ∀ defender world, Files label before
        ⟨(queuedIdsOf queues channel item.look placed.run).2, defender, world, placed.user⟩ := by
      intro defender world
      rw [same]
      exact ⟨files.rows, files.family, files.user, files.ledger, files.entries⟩
    dsimp only
    split
    · exact moved _ _
    · cases channel with
      | findings => exact moved _ _
      | questioner => exact moved _ _

theorem files_place {queues : Channel → List Curator.Row} {runId : Str} {before : Run}
    {placed : Placed} (files : Files label before placed) (fresh : '/' ∉ label) (item : Filed) :
    Files label before (place queues runId label placed item) := by
  have noted : ∀ (filed : Placed × Lane × Option Str), Files label before filed.1 →
      Files label before { filed.1 with run := { filed.1.run with
        ledger := filed.1.run.ledger ++
          [⟨findingId runId label item.draw item.index, filed.2.1, filed.2.2⟩] } } := by
    intro filed files
    obtain ⟨added, grown, named⟩ := files.ledger
    let line : LedgerEntry :=
      ⟨findingId runId label item.draw item.index, filed.2.1, filed.2.2⟩
    refine ⟨files.rows, files.family, files.user, ⟨added ++ [line], ?_, ?_⟩, files.entries⟩
    · rw [grown, List.append_assoc]
    · intro entry member
      rcases List.mem_append.mp member with member | member
      · exact named entry member
      · rw [List.mem_singleton.mp member]
        exact label_of_finding runId fresh item.draw item.index
  unfold place
  refine noted _ ?_
  cases item.lane with
  | defender => exact files_row files item _ .findings
  | questioner => exact files_row files item _ .questioner
  | userRecord =>
    cases item.list with
    | none => exact files
    | some list =>
      refine ⟨files.rows, files.family, files.user, files.ledger, ?_⟩
      intro other entry member
      change entry ∈ enter placed.user list _ other at member
      unfold enter at member
      split at member
      · rcases List.mem_append.mp member with member | member
        · exact files.entries other entry member
        · rw [List.mem_singleton.mp member]
      · exact files.entries other entry member
  | notMeasured => exact files
  | unauthored => exact files
  | drawsDisagree => exact files
  | gapNotUnanimous => exact files
  | gapUnkeyed => exact files
  | droppedUnresolved => exact files
  | droppedOtherRun => exact files
  | droppedNoPair => exact files
  | unqueueable => exact files

theorem files_all (queues : Channel → List Curator.Row) (runId : Str) (fresh : '/' ∉ label)
    (run : Run) (filed : List Filed) : Files label run (placeAll queues runId label run filed) := by
  have general : ∀ (filed : List Filed) (placed : Placed), Files label run placed →
      Files label run (filed.foldl (place queues runId label) placed) := by
    intro filed
    induction filed with
    | nil => exact fun _ files => files
    | cons item rest ih => exact fun placed files => ih _ (files_place files fresh item)
  refine general filed _ ⟨rfl, rfl, rfl, ⟨[], ?_, fun _ none => nomatch none⟩, ?_⟩
  · exact (List.append_nil _).symm
  · exact fun _ _ none => nomatch none

theorem Files.row_of {run : Run} {placed : Placed} (files : Files label run placed) (other : Str) :
    placed.run.rowOf other = run.rowOf other := by
  unfold Run.rowOf
  rw [files.rows, files.family]

theorem Files.formed {run : Run} {placed : Placed} (files : Files label run placed)
    (formed : RunFormed manifest run) : RunFormed manifest placed.run := by
  refine ⟨?_, ?_⟩
  · rw [files.rows]
    exact formed.rows
  · rw [files.family]
    exact formed.family

theorem Files.only_about {run : Run} {placed : Placed} (files : Files label run placed) :
    OnlyAbout label run placed.run := by
  refine ⟨fun other _ => files.row_of other, files.ledger, fun list => ⟨[], ?_, ?_⟩⟩
  · rw [files.user, List.append_nil]
  · exact fun _ none => nomatch none

end Filing

section Standing

def rowLabel (row : Curator.Row) : Option Str := (Curator.rowId row).bind labelOf

def QueuedOnce (desk : Desk) : Prop :=
  ∀ first ∈ desk.appended, ∀ second ∈ desk.appended, ∀ label,
    rowLabel first.2 = some label → rowLabel second.2 = some label → first.1 = second.1

/-- What holds between two passes, and wherever one stops. -/
structure Past (manifest : Manifest) (desk : Desk) : Prop where
  formed : ∀ record, desk.record = some record → Formed manifest record
  written : desk.written.Pairwise Carries
  latest : ∀ earlier ∈ desk.written,
    ∃ record, desk.record = some record ∧ Carries earlier record
  owned : ∀ entry ∈ desk.appended, ∃ label record, rowLabel entry.2 = some label ∧
    desk.record = some record ∧ IsCommitted record label
  once : QueuedOnce desk

/-- What holds in a pass: the run says of the committed labels what the record does, and the
labels still to be judged are not among them. -/
structure Standing (manifest : Manifest) (todo : List Str) (desk : Desk) : Prop where
  past : Past manifest desk
  formed : RunFormed manifest desk.run
  carries : ∀ record, desk.record = some record →
    Carries record (desk.run.record manifest.labels)
  keeps : ∀ record label, desk.record = some record → IsCommitted record label →
    IsCommitted (desk.run.record manifest.labels) label
  waits : ∀ label ∈ todo, ¬IsCommitted (desk.run.record manifest.labels) label

variable {manifest : Manifest} {desk : Desk} {todo : List Str} {label : Str}

theorem Past.save (past : Past manifest desk) {record : EpisodeGrade}
    (formed : Formed manifest record)
    (carries : ∀ earlier, desk.record = some earlier → Carries earlier record)
    (keeps : ∀ earlier label, desk.record = some earlier → IsCommitted earlier label →
      IsCommitted record label) : Past manifest (desk.save record) := by
  have before : ∀ earlier ∈ desk.written, Carries earlier record := by
    intro earlier member
    obtain ⟨last, found, kept⟩ := past.latest earlier member
    exact kept.trans (carries last found)
  refine ⟨?_, ?_, ?_, ?_, past.once⟩
  · intro held same
    obtain rfl := Option.some.inj same
    exact formed
  · refine List.pairwise_append.mpr ⟨past.written, List.pairwise_singleton _ _, ?_⟩
    intro earlier member later last
    rw [List.mem_singleton.mp last]
    exact before earlier member
  · intro earlier member
    refine ⟨record, rfl, ?_⟩
    rcases List.mem_append.mp member with member | member
    · exact before earlier member
    · rw [List.mem_singleton.mp member]
      exact carries_refl record
  · intro entry member
    obtain ⟨label, held, named, found, kept⟩ := past.owned entry member
    exact ⟨label, record, named, rfl, keeps held label found kept⟩

theorem Standing.fewer (standing : Standing manifest todo desk) {rest : List Str}
    (among : ∀ label ∈ rest, label ∈ todo) : Standing manifest rest desk :=
  ⟨standing.past, standing.formed, standing.carries, standing.keeps,
    fun label member => standing.waits label (among label member)⟩

theorem Standing.done (standing : Standing manifest todo desk) : Standing manifest [] desk :=
  standing.fewer fun _ none => nomatch none

theorem Standing.save (standing : Standing manifest todo desk) :
    Standing manifest todo (desk.save (desk.run.record manifest.labels)) := by
  refine ⟨?_, standing.formed, ?_, ?_, standing.waits⟩
  · exact standing.past.save standing.formed.record standing.carries standing.keeps
  · intro record same
    obtain rfl := Option.some.inj same
    exact carries_refl _
  · intro record label same held
    obtain rfl := Option.some.inj same
    exact held

/-- A change about one label, which the record does not hold queued and which stays committed
where the record has it so. -/
theorem Standing.think (standing : Standing manifest todo desk) {run : Run}
    (about : OnlyAbout label desk.run run) (formed : RunFormed manifest run)
    (apart : label ∉ todo)
    (open_ : ∀ record, desk.record = some record → ¬IsQueued record label)
    (stays : ∀ record, desk.record = some record → IsCommitted record label →
      IsCommitted (run.record manifest.labels) label) :
    Standing manifest todo { desk with run } := by
  have same : ∀ other, other ≠ label →
      SaysSame other (desk.run.record manifest.labels) (run.record manifest.labels) :=
    fun _ apart => about.says_same standing.formed formed apart
  refine ⟨⟨standing.past.formed, standing.past.written, standing.past.latest,
    standing.past.owned, standing.past.once⟩, formed, ?_, ?_, ?_⟩
  · intro record found other queued
    have kept := standing.carries record found other queued
    by_cases equal : other = label
    · subst equal
      exact absurd queued (open_ record found)
    · have further := same other equal
      exact ⟨further.1.trans kept.1, further.2.1.trans kept.2.1, further.2.2.trans kept.2.2⟩
  · intro record other found held
    by_cases equal : other = label
    · subst equal
      exact stays record found held
    · exact (same other equal).committed (standing.keeps record other found held)
  · intro other member
    have equal : other ≠ label := fun equal => apart (equal ▸ member)
    have back := standing.waits other member
    rintro ⟨row, found, state⟩
    exact back ⟨row, (same other equal).1.symm.trans found, state⟩

end Standing

section Uncommitted

variable {manifest : Manifest} {desk : Desk} {todo : List Str} {label : Str}

theorem Standing.uncommitted (standing : Standing manifest todo desk)
    (open_ : ¬IsCommitted (desk.run.record manifest.labels) label) (record : EpisodeGrade)
    (found : desk.record = some record) : ¬IsCommitted record label :=
  fun held => open_ (standing.keeps record label found held)

theorem Standing.set_row (standing : Standing manifest todo desk) {row : Row}
    (spelled : row.label ∈ manifest.labels ∨ row.label = familyLabel) (apart : row.label ∉ todo)
    (open_ : ¬IsCommitted (desk.run.record manifest.labels) row.label) :
    Standing manifest todo { desk with run := desk.run.setRow row } := by
  refine standing.think (set_row_only_about desk.run row) (standing.formed.set_row spelled) apart
    ?_ ?_
  · exact fun record found queued => standing.uncommitted open_ record found queued.committed
  · exact fun record found held => absurd held (standing.uncommitted open_ record found)

theorem Standing.file (standing : Standing manifest todo desk) {placed : Placed}
    (files : Files label desk.run placed) (apart : label ∉ todo)
    (open_ : ¬IsCommitted (desk.run.record manifest.labels) label) :
    Standing manifest todo { desk with run := placed.run } ∧
      ¬IsCommitted (placed.run.record manifest.labels) label := by
  refine ⟨standing.think files.only_about (files.formed standing.formed) apart ?_ ?_, ?_⟩
  · exact fun record found queued => standing.uncommitted open_ record found queued.committed
  · exact fun record found held => absurd held (standing.uncommitted open_ record found)
  · rintro ⟨row, found, state⟩
    rw [(files.formed standing.formed).row_of_record, files.row_of,
      ← standing.formed.row_of_record] at found
    exact open_ ⟨row, found, state⟩

end Uncommitted

section Commits

variable {manifest : Manifest} {todo : List Str} {row : Row} {desk : Desk}

/-- The pass that shows a row `queueing` appended every row of its label. -/
structure Committing (manifest : Manifest) (todo : List Str) (row : Row) (desk : Desk) :
    Prop where
  standing : Standing manifest todo desk
  mine : ∀ entry ∈ desk.appended, rowLabel entry.2 = some row.label → entry.1 = desk.pass
  shown : desk.run.rowOf row.label = some { row with state := some .queueing }

/-- The record shows it too: its label is committed, and not queued. -/
structure Announced (manifest : Manifest) (todo : List Str) (row : Row) (desk : Desk) :
    Prop extends Committing manifest todo row desk where
  recorded : ∃ record, desk.record = some record ∧
    record.rowOf row.label = some { row with state := some .queueing }

theorem Committing.announce (committing : Committing manifest todo row desk) :
    Announced manifest todo row (desk.save (desk.run.record manifest.labels)) := by
  refine ⟨⟨committing.standing.save, committing.mine, committing.shown⟩, _, rfl, ?_⟩
  rw [committing.standing.formed.row_of_record]
  exact committing.shown

theorem Announced.committed (announced : Announced manifest todo row desk) :
    ∃ record, desk.record = some record ∧ IsCommitted record row.label ∧
      ¬IsQueued record row.label := by
  obtain ⟨record, found, shown⟩ := announced.recorded
  refine ⟨record, found, ⟨_, shown, rfl⟩, ?_⟩
  rintro ⟨held, same, state⟩
  obtain rfl := Option.some.inj (shown.symm.trans same)
  cases state

theorem unseen_subset (rows : List Curator.Row) (seen : List Str) :
    ∀ row ∈ Curator.unseen seen rows, row ∈ rows := by
  induction rows generalizing seen with
  | nil => exact fun _ none => nomatch none
  | cons first rest ih =>
    intro row member
    unfold Curator.unseen at member
    split at member
    · rcases List.mem_cons.mp member with rfl | member
      · exact List.mem_cons_self
      · exact List.mem_cons_of_mem _ (ih _ row member)
    · split at member
      · exact List.mem_cons_of_mem _ (ih _ row member)
      · rcases List.mem_cons.mp member with rfl | member
        · exact List.mem_cons_self
        · exact List.mem_cons_of_mem _ (ih _ row member)

theorem Announced.enqueue (announced : Announced manifest todo row desk) (channel : Channel)
    (kept : Curator.Row → Bool) (malformed : Nat) {rows : List Curator.Row}
    (labelled : ∀ item ∈ rows, rowLabel item = some row.label) :
    Announced manifest todo row (desk.enqueue channel kept malformed rows) := by
  obtain ⟨record, found, held, -⟩ := announced.committed
  have fresh : ∀ entry ∈ (desk.enqueue channel kept malformed rows).appended,
      entry ∈ desk.appended ∨ (entry.1 = desk.pass ∧ rowLabel entry.2 = some row.label) := by
    intro entry member
    rcases List.mem_append.mp member with member | member
    · exact Or.inl member
    · obtain ⟨item, among, rfl⟩ := List.mem_map.mp member
      exact Or.inr ⟨rfl, labelled item (unseen_subset _ _ item among)⟩
  have past := announced.standing.past
  have again : Past manifest (desk.enqueue channel kept malformed rows) := by
    refine ⟨past.formed, past.written, past.latest, ?_, ?_⟩
    · intro entry member
      rcases fresh entry member with member | ⟨-, named⟩
      · exact past.owned entry member
      · exact ⟨row.label, record, named, found, held⟩
    · intro first firstIn second secondIn label firstNamed secondNamed
      rcases fresh first firstIn with firstOld | ⟨firstPass, firstHere⟩
      · rcases fresh second secondIn with secondOld | ⟨secondPass, secondHere⟩
        · exact past.once first firstOld second secondOld label firstNamed secondNamed
        · obtain rfl := Option.some.inj (secondHere.symm.trans secondNamed)
          rw [announced.mine first firstOld firstNamed, secondPass]
      · obtain rfl := Option.some.inj (firstHere.symm.trans firstNamed)
        rcases fresh second secondIn with secondOld | ⟨secondPass, -⟩
        · rw [announced.mine second secondOld secondNamed, firstPass]
        · rw [firstPass, secondPass]
  refine ⟨⟨⟨again, ?_, announced.standing.carries, announced.standing.keeps,
    announced.standing.waits⟩, ?_, announced.shown⟩, announced.recorded⟩
  · exact ⟨announced.standing.formed.rows, announced.standing.formed.family⟩
  · intro entry member named
    rcases fresh entry member with member | ⟨pass, -⟩
    · exact announced.mine entry member named
    · exact pass

theorem Announced.append_rows (announced : Announced manifest todo row desk)
    (stop : Option Fault) (channel : Channel) (kept : Curator.Row → Bool) (malformed : Nat)
    {rows : List Curator.Row} (labelled : ∀ item ∈ rows, rowLabel item = some row.label) :
    Announced manifest todo row (appendRows stop channel kept malformed rows desk).1 := by
  unfold appendRows
  split
  · exact announced
  · refine @keeps_write _ _ (fun desk => Announced manifest todo row desk) _ _ ?_ desk announced
    intro desk announced
    exact announced.enqueue channel kept malformed labelled

/-- The row, its user entries and the record over them, once its findings are on the queues. -/
theorem Announced.settle (announced : Announced manifest todo row desk) {user : User}
    (entries : ∀ list, ∀ entry ∈ user list, entry.world = row.label)
    (spelled : row.label ∈ manifest.labels ∨ row.label = familyLabel) (apart : row.label ∉ todo) :
    Standing manifest todo { desk with
      run := { desk.run with user := fun list => desk.run.user list ++ user list }.setRow
        { row with state := some .queued } } := by
  let named : Run := { desk.run with user := fun list => desk.run.user list ++ user list }
  have about := set_row_only_about named { row with state := some .queued }
  have namedFormed : RunFormed manifest named :=
    ⟨announced.standing.formed.rows, announced.standing.formed.family⟩
  have formed : RunFormed manifest (named.setRow { row with state := some .queued }) :=
    namedFormed.set_row spelled
  obtain ⟨record, found, -, unqueued⟩ := announced.committed
  have whole : OnlyAbout row.label desk.run (named.setRow { row with state := some .queued }) := by
    refine ⟨about.rows, about.ledger, ?_⟩
    intro list
    obtain ⟨added, grown, of⟩ := about.user list
    refine ⟨user list ++ added, ?_, ?_⟩
    · rw [← List.append_assoc]
      exact grown
    · intro entry member
      rcases List.mem_append.mp member with member | member
      · exact entries list entry member
      · exact of entry member
  refine announced.standing.think whole formed apart ?_ ?_
  · intro held same
    obtain rfl := Option.some.inj (found.symm.trans same)
    exact unqueued
  · intro held same _
    refine ⟨{ row with state := some .queued }, ?_, rfl⟩
    rw [formed.row_of_record, set_row_row_of, if_pos rfl]

theorem stands_write_record (stop : Option Fault) (standing : Standing manifest todo desk) :
    Standing manifest todo (writeRecord stop manifest.labels desk).1 :=
  @keeps_write _ _ (fun desk => Standing manifest todo desk) _ _
    (fun _ standing => standing.save) desk standing

theorem labelled_of_check {label : Str} {rows : List Curator.Row}
    (passes : (rows.find? fun row => (Curator.rowId row).bind labelOf != some label) = none) :
    ∀ row ∈ rows, rowLabel row = some label := by
  intro row member
  simpa [rowLabel] using List.find?_eq_none.mp passes row member

/-- The appends and the second write, once the row is announced. -/
theorem Announced.finish (announced : Announced manifest todo row desk) (answers : CommitAnswers)
    {defenderRows worldRows : List Curator.Row} {user : User}
    (entries : ∀ list, ∀ entry ∈ user list, entry.world = row.label)
    (spelled : row.label ∈ manifest.labels ∨ row.label = familyLabel) (apart : row.label ∉ todo) :
    Standing manifest todo (inTurn
      [checkRows row.label (defenderRows ++ worldRows),
        appendRows answers.defender .findings answers.defenderKept answers.defenderMalformed
          defenderRows,
        appendRows answers.world .questioner answers.worldKept answers.worldMalformed worldRows,
        think fun run => { run with user := fun list => run.user list ++ user list }.setRow
          { row with state := some .queued },
        writeRecord answers.queued manifest.labels] desk).1 := by
  cases checked : (defenderRows ++ worldRows).find?
      fun item => (Curator.rowId item).bind labelOf != some row.label with
  | some item =>
    have stopped : (checkRows row.label (defenderRows ++ worldRows) desk).2.isSome := by
      unfold checkRows
      rw [checked]
      rfl
    obtain ⟨fault, broken⟩ := Option.isSome_iff_exists.mp stopped
    rw [inTurn, and_then_broken broken]
    unfold checkRows
    rw [checked]
    exact announced.standing
  | none =>
    have labelled := labelled_of_check checked
    have through : checkRows row.label (defenderRows ++ worldRows) = skip := by
      unfold checkRows
      rw [checked]
    rw [inTurn, through, and_then_done rfl]
    have defenderOf : ∀ item ∈ defenderRows, rowLabel item = some row.label :=
      fun item member => labelled item (List.mem_append_left _ member)
    have worldOf : ∀ item ∈ worldRows, rowLabel item = some row.label :=
      fun item member => labelled item (List.mem_append_right _ member)
    refine @and_then_leads _ _ _ _ (fun desk => Announced manifest todo row desk) _ _
      (announced.append_rows _ _ _ _ defenderOf) (fun _ announced => announced.standing) ?_
    intro desk announced
    refine @and_then_leads _ _ _ _ (fun desk => Announced manifest todo row desk) _ _
      (announced.append_rows _ _ _ _ worldOf) (fun _ announced => announced.standing) ?_
    intro desk announced
    refine @and_then_leads _ _ _ _ (fun desk => Standing manifest todo desk) _ _
      (announced.settle entries spelled apart) (fun _ standing => standing) ?_
    intro desk standing
    exact @and_then_leads _ _ _ _ (fun desk => Standing manifest todo desk) _ _
      (stands_write_record answers.queued standing) (fun _ standing => standing)
      fun _ standing => standing

/-- Wherever a commit of a label yet uncommitted stops, the run carries the record. -/
theorem commit_stands (answers : CommitAnswers) {defenderRows worldRows : List Curator.Row}
    {user : User} (entries : ∀ list, ∀ entry ∈ user list, entry.world = row.label)
    (spelled : row.label ∈ manifest.labels ∨ row.label = familyLabel) (apart : row.label ∉ todo)
    (standing : Standing manifest todo desk)
    (uncommitted : ¬IsCommitted (desk.run.record manifest.labels) row.label) :
    Standing manifest todo
      (commit answers manifest.labels row defenderRows worldRows user desk).1 := by
  let showing : Row := { row with state := some .queueing }
  have committing : Committing manifest todo row
      { desk with run := desk.run.setRow showing } := by
    have shown : Standing manifest todo { desk with run := desk.run.setRow showing } :=
      standing.set_row spelled apart uncommitted
    refine ⟨shown, ?_, ?_⟩
    · intro entry member named
      obtain ⟨label, record, same, found, held⟩ := standing.past.owned entry member
      obtain rfl := Option.some.inj (same.symm.trans named)
      exact absurd held (standing.uncommitted uncommitted record found)
    · rw [set_row_row_of]
      exact if_pos rfl
  unfold commit
  rw [inTurn, and_then_done rfl, inTurn]
  cases stop : answers.queueing with
  | some fault =>
    rw [and_then_broken rfl]
    exact committing.standing
  | none =>
    rw [and_then_done rfl]
    exact committing.announce.finish answers entries spelled apart

end Commits

section Judged

variable {manifest : Manifest} {runId : Str} {todo : List Str} {desk : Desk}

variable {row : Row} (spelled : row.label ∈ manifest.labels ∨ row.label = familyLabel)
  (apart : row.label ∉ todo) (standing : Standing manifest todo desk)
  (open_ : ¬IsCommitted (desk.run.record manifest.labels) row.label)

include spelled apart standing open_

theorem commit_world_stands (answers : CommitAnswers) (drawn : Drawn) :
    Standing manifest todo (commitWorld runId manifest.labels row answers drawn desk).1 := by
  have files := files_all desk.queues runId (label_no_slash spelled) desk.run drawn.filed
  obtain ⟨placed, uncommitted⟩ := standing.file files apart open_
  unfold commitWorld
  rw [and_then_done rfl]
  refine commit_stands answers ?_ spelled apart placed uncommitted
  intro list entry member
  rcases List.mem_append.mp member with member | member
  · exact files.entries list entry member
  · split at member
    · obtain ⟨gap, -, rfl⟩ := List.mem_map.mp member
      rfl
    · cases member

theorem commit_family_stands (answers : CommitAnswers) (drawn : Drawn) :
    Standing manifest todo (commitFamily runId manifest.labels row answers drawn desk).1 := by
  have files := files_all desk.queues runId (label_no_slash spelled) desk.run drawn.filed
  obtain ⟨placed, uncommitted⟩ := standing.file files apart open_
  unfold commitFamily
  rw [and_then_done rfl]
  exact commit_stands answers files.entries spelled apart placed uncommitted

omit spelled apart standing open_

theorem judge_world_stands (answers : WorldAnswers) {label : Str}
    (planted : label ∈ manifest.labels) (apart : label ∉ todo)
    (standing : Standing manifest (label :: todo) desk) :
    Standing manifest todo (judgeWorld runId manifest.labels answers label desk).1 := by
  have open_ := standing.waits label List.mem_cons_self
  have others : Standing manifest todo desk :=
    standing.fewer fun _ member => List.mem_cons_of_mem _ member
  unfold judgeWorld
  by_cases unusable : (!answers.usable) = true
  · rw [if_pos unusable]
    exact others.set_row (Or.inl planted) apart open_
  · rw [if_neg unusable]
    cases answers.prompt with
    | some reason => exact others.set_row (Or.inl planted) apart open_
    | none =>
      cases answers.drawing with
      | some fault => exact others
      | none =>
        dsimp only
        rw [and_then_done rfl]
        by_cases idle : answers.drawn.completed = 0
        · rw [if_pos idle]
          exact others.set_row (Or.inl planted) apart open_
        · rw [if_neg idle]
          let judged : Row := ⟨label, none, drawnFields answers.fields answers.drawn⟩
          have spelled : judged.label ∈ manifest.labels ∨ judged.label = familyLabel :=
            Or.inl planted
          exact commit_world_stands spelled apart others open_ answers.commit answers.drawn

theorem judge_family_stands (answers : FamilyAnswers) (apart : familyLabel ∉ todo)
    (standing : Standing manifest (familyLabel :: todo) desk) :
    Standing manifest todo (judgeFamily runId manifest.labels answers desk).1 := by
  have open_ := standing.waits familyLabel List.mem_cons_self
  have others : Standing manifest todo desk :=
    standing.fewer fun _ member => List.mem_cons_of_mem _ member
  unfold judgeFamily
  by_cases idle : answers.fault.isSome ∨ answers.drawn.completed = 0
  · rw [if_pos idle]
    exact others.set_row (Or.inr rfl) apart open_
  · rw [if_neg idle]
    let row : Row := ⟨familyLabel, none, familyFields answers⟩
    have spelled : row.label ∈ manifest.labels ∨ row.label = familyLabel := Or.inr rfl
    exact commit_family_stands spelled apart others open_ answers.commit answers.drawn

theorem judge_worlds_stand (answers : Str → WorldAnswers) (labels : List Str)
    (planted : ∀ label ∈ labels, label ∈ manifest.labels) (distinct : (labels ++ todo).Nodup)
    (standing : Standing manifest (labels ++ todo) desk) :
    Standing manifest todo (inTurn (labels.map fun label =>
      judgeWorld runId manifest.labels (answers label) label) desk).1 := by
  induction labels generalizing desk with
  | nil => exact standing
  | cons label rest ih =>
    rw [List.cons_append, List.nodup_cons] at distinct
    rw [List.map_cons, inTurn]
    refine @and_then_leads _ _ _ _ (fun desk => Standing manifest (rest ++ todo) desk) _ _
      (judge_world_stands _ (planted label List.mem_cons_self) distinct.1 standing) ?_ ?_
    · exact fun _ standing => standing.fewer fun _ member => List.mem_append_right _ member
    · exact fun _ standing => ih (fun label member => planted label
        (List.mem_cons_of_mem _ member)) distinct.2 standing

end Judged

section Passes

variable {manifest : Manifest} {runId : Str} {desk : Desk}

/-- Where no row is left `queueing`, a committed label is queued. -/
theorem queued_of_committed {prior : EpisodeGrade} (settled : leftQueueing prior = none)
    {label : Str} (held : IsCommitted prior label) : IsQueued prior label := by
  obtain ⟨row, found, state⟩ := held
  have queued : row.state ≠ some .queueing → row.state = some .queued := by
    intro other
    cases kind : row.state with
    | none =>
      rw [kind] at state
      cases state
    | some commit =>
      cases commit with
      | queueing => exact absurd kind other
      | queued => rfl
  refine ⟨row, found, queued ?_⟩
  unfold leftQueueing at settled
  split at settled
  · cases settled
  · rename_i unlisted
    split at settled
    · cases settled
    · rename_i other
      unfold EpisodeGrade.rowOf at found
      split at found
      · intro queueing
        obtain ⟨name, kind, fields⟩ := row
        subst queueing
        exact other name fields found
      · intro queueing
        have never := List.find?_eq_none.mp unlisted row (List.mem_of_find?_eq_some found)
        rw [queueing] at never
        exact never (by decide)

variable (answers : PassAnswers)

theorem lookup_listed (get : Str → Option Row) (order : List Str) (label : Str) :
    Dict.lookup label (order.filterMap fun label => (get label).map fun row => (label, row)) =
      if label ∈ order then get label else none := by
  induction order with
  | nil => rfl
  | cons first rest ih =>
    cases found : get first with
    | none =>
      rw [List.filterMap_cons_none (by rw [found]; rfl), ih]
      by_cases same : label = first
      · subst same
        simp [found]
      · simp [same]
    | some row =>
      rw [List.filterMap_cons_some (by rw [found]; rfl), Dict.lookup, ih]
      by_cases same : first = label
      · subst same
        simp [found]
      · simp [same, Ne.symm same]

theorem listed_keys_distinct (get : Str → Option Row) {order : List Str}
    (distinct : order.Nodup) :
    ((order.filterMap fun label => (get label).map fun row => (label, row)).map
      Prod.fst).Nodup := by
  refine distinct.sublist ?_
  clear distinct
  induction order with
  | nil => exact List.Sublist.refl _
  | cons first rest ih =>
    cases found : get first with
    | none =>
      rw [List.filterMap_cons_none (by rw [found]; rfl)]
      exact ih.trans (List.sublist_cons_self _ _)
    | some row =>
      rw [List.filterMap_cons_some (by rw [found]; rfl)]
      exact ih.cons_cons _

theorem start_row_get (prior : Option EpisodeGrade) (label : Str) :
    (startRun manifest answers prior).rows.get? label =
      if label ∈ manifest.labels ∧ label ∈ keptLabels prior then (committed prior).1.get? label
      else none := by
  have entries : (startRun manifest answers prior).rows.entries =
      (manifest.labels.filter (keptLabels prior).contains).filterMap fun label =>
        ((committed prior).1.get? label).map fun row => (label, row) :=
    Dict.of_list_entries
      (listed_keys_distinct _ (manifest.distinct.sublist List.filter_sublist))
  unfold Dict.get?
  rw [entries]
  refine (lookup_listed _ _ label).trans ?_
  simp only [List.mem_filter, List.contains_eq_mem, decide_eq_true_eq]
  rfl

theorem start_formed (prior : Option EpisodeGrade)
    (formed : ∀ record, prior = some record → Formed manifest record) :
    RunFormed manifest (startRun manifest answers prior) := by
  refine ⟨?_, ?_⟩
  · intro label row found
    rw [start_row_get] at found
    split at found
    · rename_i listed
      refine ⟨listed.1, ?_⟩
      cases prior with
      | none => cases found
      | some record => exact (formed record rfl).keyed label row found
    · cases found
  · intro row found
    cases prior with
    | none => cases found
    | some record =>
      have kept : (committed (some record)).2 = some row :=
        (Option.filter_eq_some_iff.mp found).1
      rw [committed_family] at kept
      exact (formed record rfl).row_label (committed_row_iff.mp kept).1

/-- A grade starts from the queued rows of its prior record. -/
theorem start_row_iff {prior : EpisodeGrade} (formed : Formed manifest prior) (label : Str)
    (row : Row) :
    (startRun manifest answers (some prior)).rowOf label = some row ↔
      prior.rowOf label = some row ∧ row.state = some .queued := by
  unfold Run.rowOf
  by_cases family : label = familyLabel
  · rw [if_pos family, family]
    have held : (startRun manifest answers (some prior)).family =
        (committed (some prior)).2.filter fun row => row.state == some .queued := rfl
    rw [held, committed_family, Option.filter_eq_some_iff, committed_row_iff]
    constructor
    · rintro ⟨⟨found, -⟩, state⟩
      exact ⟨found, by simpa using state⟩
    · rintro ⟨found, state⟩
      rw [state]
      exact ⟨⟨found, rfl⟩, rfl⟩
  · rw [if_neg family, start_row_get, formed.committed_get family]
    constructor
    · intro found
      split at found
      · rename_i listed
        obtain ⟨held, same, state⟩ := formed.mem_kept_labels.mp listed.2
        have there := (committed_row_iff.mp found).1
        obtain rfl := Option.some.inj (same.symm.trans there)
        exact ⟨there, state⟩
      · cases found
    · rintro ⟨found, state⟩
      have kept : label ∈ keptLabels (some prior) :=
        formed.mem_kept_labels.mpr ⟨row, found, state⟩
      have held := committed_row_iff.mpr ⟨found, (by rw [state]; rfl : row.state.isSome)⟩
      have planted : label ∈ manifest.labels :=
        (formed.committed_planted ((formed.committed_get family).trans held)).1
      rw [if_pos ⟨planted, kept⟩]
      exact held

theorem start_says_same {prior : EpisodeGrade} (formed : Formed manifest prior) {label : Str}
    (queued : IsQueued prior label) :
    SaysSame label prior
      ((startRun manifest answers (some prior)).record manifest.labels) := by
  have kept := formed.mem_kept_labels.mpr queued
  have reformed : RunFormed manifest (startRun manifest answers (some prior)) := by
    refine start_formed answers (some prior) ?_
    intro record same
    obtain rfl := Option.some.inj same
    exact formed
  refine ⟨?_, carried_ledger_of kept, funext fun list => carried_user_of kept list⟩
  obtain ⟨row, found, state⟩ := queued
  rw [reformed.row_of_record, found]
  exact (start_row_iff answers formed label row).mpr ⟨found, state⟩

theorem start_stands (past : Past manifest desk) {todo : List Str}
    (settled : desk.record.bind leftQueueing = none)
    (unkept : ∀ label ∈ todo, label ∉ keptLabels desk.record) :
    Standing manifest todo { desk with run := startRun manifest answers desk.record } := by
  have formed := start_formed answers desk.record past.formed
  refine ⟨⟨past.formed, past.written, past.latest, past.owned, past.once⟩, formed, ?_, ?_, ?_⟩
  · intro record found label queued
    have same : desk.record = some record := found
    show SaysSame label record ((startRun manifest answers desk.record).record manifest.labels)
    rw [same]
    exact start_says_same answers (past.formed record same) queued
  · intro record label found held
    have same : desk.record = some record := found
    have queued : IsQueued record label := by
      rw [same] at settled
      exact queued_of_committed settled held
    show IsCommitted ((startRun manifest answers desk.record).record manifest.labels) label
    rw [same]
    exact (start_says_same answers (past.formed record same) queued).committed held
  · rintro label member ⟨row, found, -⟩
    have there : (startRun manifest answers desk.record).rowOf label = some row :=
      (formed.row_of_record label).symm.trans found
    have fresh := unkept label member
    cases prior : desk.record with
    | none =>
      rw [prior] at there
      unfold Run.rowOf at there
      split at there
      · cases there
      · rw [start_row_get] at there
        split at there
        · cases there
        · cases there
    | some record =>
      rw [prior] at there fresh
      have intact := past.formed record prior
      exact fresh (intact.mem_kept_labels.mpr
        ⟨row, (start_row_iff answers intact label row).mp there⟩)

theorem grade_runs_past (past : Past manifest desk)
    (settled : desk.record.bind leftQueueing = none) :
    Past manifest (gradeRuns manifest runId answers desk.record desk).1 := by
  unfold gradeRuns
  by_cases unread : (!answers.alertRecord) = true
  · rw [if_pos unread]
    exact past
  rw [if_neg unread, and_then_done rfl]
  let kept := keptLabels desk.record
  let worlds := manifest.labels.filter fun label => !kept.contains label
  let family := [familyLabel].filter fun label => !kept.contains label
  have planted : ∀ label ∈ worlds, label ∈ manifest.labels :=
    fun label member => (List.mem_filter.mp member).1
  have unkept : ∀ label ∈ worlds ++ family, label ∉ kept := by
    intro label member
    rw [← List.filter_append] at member
    simpa using (List.mem_filter.mp member).2
  have distinct : (worlds ++ family).Nodup := by
    refine List.Nodup.append (manifest.distinct.sublist List.filter_sublist)
      ((List.nodup_singleton familyLabel).sublist List.filter_sublist) ?_
    intro label early late
    exact planted_ne_family (planted label early)
      (List.mem_singleton.mp (List.mem_filter.mp late).1)
  have judged : Standing manifest family (inTurn (worlds.map fun label =>
      judgeWorld runId manifest.labels (answers.worlds label) label)
      { desk with run := startRun manifest answers desk.record }).1 :=
    judge_worlds_stand answers.worlds worlds planted distinct
      (start_stands answers past settled unkept)
  refine @and_then_leads _ _ _ _ (fun desk => Standing manifest family desk) _ _ judged
    (fun _ standing => standing.past) ?_
  intro desk standing
  refine @and_then_leads _ _ _ _ (fun desk => Standing manifest [] desk) _ _ ?_
    (fun _ standing => standing.past) ?_
  · split
    · rename_i called
      have lone : family = [familyLabel] := List.filter_eq_self.mpr
        fun label member => by rw [List.mem_singleton.mp member]; exact called.1
      rw [lone] at standing
      exact judge_family_stands _ (fun none => nomatch none) standing
    · exact standing.done
  · exact fun _ standing => (stands_write_record answers.last standing).past

theorem grade_past (past : Past manifest desk) :
    Past manifest (grade manifest runId answers desk).1 := by
  unfold grade
  cases answers.gate with
  | refused reason => exact past
  | stamped word reason validity listed =>
    cases answers.stamp with
    | some fault => exact past
    | none =>
      refine past.save (stamp_formed word reason validity answers.foundGaps desk.record
        past.formed ?_ ?_) ?_ ?_
      · cases listed with
        | none => exact List.nodup_nil
        | some fields =>
          rw [List.map_map]
          exact (List.map_id manifest.labels).symm ▸ manifest.distinct
      · intro row member
        cases listed with
        | none => cases member
        | some fields =>
          obtain ⟨label, planted, rfl⟩ := List.mem_map.mp member
          exact planted
      · intro record found label queued
        rw [found]
        exact stamp_says_same word reason validity answers.foundGaps (past.formed record found)
          queued.committed
      · intro record label found held
        rw [found]
        exact (stamp_says_same word reason validity answers.foundGaps (past.formed record found)
          held).committed held
  | opened =>
    cases settled : desk.record.bind leftQueueing with
    | some reason => exact past
    | none => exact grade_runs_past answers past settled

theorem passes_past (past : Past manifest desk) (answers : List PassAnswers) :
    Past manifest (passes manifest runId desk answers) := by
  unfold passes
  induction answers generalizing desk with
  | nil => exact past
  | cons first rest ih =>
    refine ih (grade_past first ?_)
    exact ⟨past.formed, past.written, past.latest, past.owned, past.once⟩

/-- However its passes end, an episode's findings of one label are appended by one pass, and
every record carries what an earlier one says of the queued labels. -/
theorem findings_queued_once (manifest : Manifest) (runId : Str)
    (queues : Channel → List Curator.Row) (answers : List PassAnswers) :
    QueuedOnce (passes manifest runId (ungraded queues) answers) ∧
      (passes manifest runId (ungraded queues) answers).written.Pairwise Carries := by
  have fresh : Past manifest (ungraded queues) := by
    refine ⟨?_, List.Pairwise.nil, ?_, ?_, ?_⟩
    · exact fun _ none => nomatch none
    · exact fun _ none => nomatch none
    · exact fun _ none => nomatch none
    · exact fun _ none => nomatch none
  have past : Past manifest (passes manifest runId (ungraded queues) answers) :=
    passes_past fresh answers
  exact ⟨past.once, past.written⟩

end Passes

end Defender.Learning.Judge
