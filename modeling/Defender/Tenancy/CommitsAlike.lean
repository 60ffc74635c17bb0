import Defender.Tenancy.StatementSchedule

/-!
# The two stores' commits compared

A commit that both stores take leaves the same rows when no generation row is in the way
of two changes at once: one that another change names is passed over by the statement's
sweeping parts, and a row written live while another still is breaks the index.
-/

namespace Defender.Tenancy

open Defender.Python Defender.Library.OrderedDict

namespace Statement

section Urgent

variable (tenant : Str) (rows : TenantRows) (commit : Commit)

def changeParts : List Part :=
  (otherChanges commit).entries.map fun entry =>
    .generation entry.1 entry.2 (commit.goLive = some entry.1)

def newParts : List Part :=
  (commit.addGeneration.map fun add => Part.newGeneration (newRow tenant commit add)).toList

def retireParts : List Part := if commit.goLive.isSome then [.retire (named commit)] else []

def destroyParts : List Part := if commit.destroy = .all then [.destroy (named commit)] else []

def Part.isWaiting : Part → Bool
  | .generation _ _ waits => waits
  | _ => false

/-- The parts that free and fill the live slot. -/
def firstParts : List Part := newParts tenant commit ++ retireParts commit

def waitingParts : List Part := (changeParts commit).filter Part.isWaiting

def lastParts : List Part :=
  (changeParts commit).filter (fun part => !part.isWaiting) ++ destroyParts commit

/-- The schedule that writes the new generation and the one going live before any other
named row. -/
def urgent : List Write :=
  (firstParts tenant commit ++ waitingParts commit ++ lastParts commit).flatMap
    (Part.writes rows.generations)

variable {tenant rows commit}

theorem first_not_named {row : Generation}
    (member : .replace row ∈ (firstParts tenant commit).flatMap (Part.writes rows.generations)) :
    row.salt ∉ named commit := by
  obtain ⟨part, listed, written⟩ := List.mem_flatMap.mp member
  unfold firstParts newParts retireParts at listed
  rcases List.mem_append.mp listed with new | retires
  · obtain ⟨add, -, made⟩ := Option.map_eq_some_iff.mp (Option.mem_toList.mp new)
    rw [← made] at written
    cases List.mem_singleton.mp written
  · split_ifs at retires
    · rw [List.mem_singleton.mp retires] at written
      obtain ⟨held, chosen, made⟩ := List.mem_map.mp written
      have spared := (List.mem_filter.mp chosen).2
      rw [← Write.replace.inj made]
      simp only [Bool.and_eq_true, Bool.not_eq_true', decide_eq_false_iff_not] at spared
      exact spared.2
    · cases retires

theorem urgent_schedule (tenant : Str) (rows : TenantRows) (commit : Commit) :
    Schedule rows.generations (partsOf tenant commit) (urgent tenant rows commit) where
  perm := by
    apply List.Perm.flatMap_right
    have whole : partsOf tenant commit =
        newParts tenant commit ++ retireParts commit ++ destroyParts commit ++
          changeParts commit := rfl
    rw [whole]
    unfold firstParts waitingParts lastParts
    simp only [List.append_assoc]
    apply List.Perm.append_left
    apply List.Perm.append_left
    have split := List.filter_append_perm Part.isWaiting (changeParts commit)
    rw [← List.append_assoc]
    exact (split.append_right _).trans List.perm_append_comm
  waits := by
    intro salt change listed names retires write written before after order
    have salt_named : salt ∈ named commit := by
      rcases mem_parts_iff.mp listed with ⟨add, -, made⟩ | ⟨-, made⟩ | ⟨-, made⟩ |
        ⟨other, otherChange, entered, made⟩
      · cases made
      · cases made
      · cases made
      · rw [mem_named_iff, (Part.generation.inj made).1, other_changes entered]
        rfl
    have one_retire : Part.retire names ∈ firstParts tenant commit := by
      rcases mem_parts_iff.mp retires with ⟨add, -, made⟩ | ⟨goes, made⟩ | ⟨-, made⟩ |
        ⟨other, otherChange, -, made⟩
      · cases made
      · unfold firstParts retireParts
        rw [if_pos goes]
        exact List.mem_append_right _ (List.mem_singleton.mpr made)
      · cases made
      · cases made
    have outside :
        write ∉ (firstParts tenant commit).flatMap (Part.writes rows.generations) := by
      intro member
      obtain ⟨held, chosen, made⟩ := List.mem_map.mp written
      have held_salt : held.salt = salt := by simpa using (List.mem_filter.mp chosen).2
      rw [← made] at member
      have unnamed := first_not_named member
      have same : (change.apply held).salt = salt := held_salt
      rw [same] at unnamed
      exact unnamed salt_named
    -- the write is none of the first, so these all stand before it
    have split : urgent tenant rows commit =
        (firstParts tenant commit).flatMap (Part.writes rows.generations) ++
          (waitingParts commit ++ lastParts commit).flatMap (Part.writes rows.generations) := by
      unfold urgent
      rw [List.append_assoc, List.flatMap_append]
    rw [split] at order
    have starts : (firstParts tenant commit).flatMap (Part.writes rows.generations) <+: before := by
      rcases List.append_eq_append_iff.mp order with ⟨more, longer, -⟩ | ⟨more, longer, rest⟩
      · exact ⟨more, longer.symm⟩
      · cases more with
        | nil => exact ⟨[], by rw [List.append_nil, longer, List.append_nil]⟩
        | cons head tail =>
          have same : write = head := (List.cons.inj rest).1
          rw [longer, same] at outside
          exact absurd (List.mem_append_right _ List.mem_cons_self) outside
    intro retired member
    exact starts.subset (List.mem_flatMap.mpr ⟨_, one_retire, member⟩)

end Urgent

end Statement

section Outcome

variable {rows : TenantRows} {seen : TenantRecord} {commit : Commit}
  {order front : List Statement.Write}

theorem named_stored (addressed : Addressed rows commit) {salt : Str}
    (named : salt ∈ Statement.named commit) : salt ∈ saltsOf rows.generations := by
  by_contra outside
  have unnamed : Statement.changeOf commit salt = none := by
    rw [Statement.change_of_none_iff]
    exact ⟨fun updated => outside (addressed.updates salt updated),
      fun live => outside (addressed.live salt live),
      fun gone => outside (addressed.destroys salt gone).1⟩
  exact (Statement.unnamed_iff salt).mpr unnamed named

theorem texts_held_iff (stored : InStore rows) (addressed : Addressed rows commit) :
    (commit.texts ++ Statement.named commit).all Statement.storable = true ↔
      ∀ text ∈ commit.texts, Statement.storable text = true := by
  rw [List.all_eq_true]
  constructor
  · intro all text member
    exact all text (List.mem_append_left _ member)
  · intro held text member
    rcases List.mem_append.mp member with own | named
    · exact held text own
    · exact stored.storable text (named_stored addressed named)

theorem unset_change_iff (salt : Str) :
    Statement.changeOf commit salt = some {} ↔
      commit.updateGenerations.get? salt = some {} ∧ commit.goLive ≠ some salt ∧
        commit.destroys salt = false := by
  unfold Statement.changeOf
  by_cases gone : commit.destroys salt = true
  · simp [gone]
  · by_cases live : commit.goLive = some salt
    · simp [gone, live]
    · cases commit.updateGenerations.get? salt <;> simp [gone, live]

/-- The statement parses exactly when each part has a column to set. -/
theorem parsed_iff (addressed : Addressed rows commit) (fresh : Fresh rows commit) :
    Statement.unparsed commit = false ↔
      ∀ salt, commit.updateGenerations.get? salt = some {} →
        commit.goLive = some salt ∨ commit.destroys salt = true := by
  unfold Statement.unparsed
  constructor
  · intro parses salt unset
    by_contra neither
    rw [not_or] at neither
    have changed := (unset_change_iff salt).mpr ⟨unset, neither.1, by simpa using neither.2⟩
    have updated : salt ∈ commit.updateGenerations.keys :=
      (Dict.lookup_isSome_iff salt commit.updateGenerations.entries).mp (Option.isSome_of_mem unset)
    have entered := Statement.changes_other changed fun add adds same =>
      fresh add adds (same ▸ addressed.updates salt updated)
    rw [List.any_eq_false] at parses
    exact parses {} (List.mem_map_of_mem entered) (decide_eq_true rfl)
  · intro sets
    rw [List.any_eq_false]
    intro change listed empty
    obtain ⟨entry, entered, same⟩ := List.mem_map.mp listed
    have unset : entry.2 = {} := same.trans (of_decide_eq_true empty)
    have changed := Statement.other_changes entered
    rw [unset, unset_change_iff] at changed
    rcases sets _ changed.1 with live | gone
    · exact changed.2.1 live
    · rw [changed.2.2] at gone
      cases gone

theorem not_both_asked (addressed : Addressed rows commit) :
    (commit.goLive.isSome && decide (commit.destroy = .all)) = false := by
  by_cases all : commit.destroy = .all
  · rw [addressed.all all]
    rfl
  · simp [all]

theorem wiring_agrees (addressed : Addressed rows commit) (tenant : Str) :
    Statement.wiringAfter tenant rows.wiring commit = recordedWiring tenant rows commit := by
  unfold Statement.wiringAfter recordedWiring
  cases rows.wiring with
  | some held => simp
  | none =>
    cases wires : commit.wiring with
    | none => simp
    | some wiring =>
      have kept := addressed.wiring (by rw [wires]; rfl)
      simp [kept]

/-- The statement under a fence that holds: refused for its parts, its texts, its pair, its
actor or a row, else the rows in whatever order they were written. -/
theorem statement_commit_eq (stored : InStore rows) (addressed : Addressed rows commit)
    (owned : rows.record.id = seen.id) (fence : fenceHolds rows.record seen = true) :
    Statement.commit rows seen true commit order =
      if Statement.unparsed commit = false ∧
          (∀ text ∈ commit.texts, Statement.storable text = true) ∧
          allowedPair (commit.recordAfter rows.record).state
            (commit.recordAfter rows.record).pendingAction = true ∧
          (∀ actor, commit.actor = some actor → actor.known = true) then
        match Statement.writeAll rows.generations order with
        | none => .error (Statement.refused seen.id)
        | some generations => .ok { memoryAfter rows seen commit with generations }
      else .error (Statement.refused seen.id) := by
  have texts := texts_held_iff stored addressed
  have actors : (commit.recordAfter rows.record).stepActor.all StepActor.known = true ↔
      ∀ actor, commit.actor = some actor → actor.known = true := by
    show commit.actor.all StepActor.known = true ↔ _
    cases commit.actor <;> simp
  have wiring := wiring_agrees addressed seen.id
  unfold Statement.commit
  simp only [not_both_asked addressed, Bool.false_eq_true, if_false, owned, decide_true, fence,
    Bool.and_self, Bool.not_true]
  cases parses : Statement.unparsed commit with
  | true => rw [if_neg (c := _ ∧ _) fun all => Bool.noConfusion all.1, if_pos rfl]
  | false =>
    rw [if_neg (c := _ = true) Bool.false_ne_true]
    by_cases held : ∀ text ∈ commit.texts, Statement.storable text = true
    · by_cases pair : allowedPair (commit.recordAfter rows.record).state
          (commit.recordAfter rows.record).pendingAction = true
      · by_cases known : ∀ actor, commit.actor = some actor → actor.known = true
        · rw [if_pos (c := _ ∧ _) ⟨rfl, held, pair, known⟩, wiring]
          conv_lhs => rw [texts.mpr held, pair, actors.mpr known]
          rfl
        · rw [if_neg (c := _ ∧ _) fun all => known all.2.2.2]
          have unknown : (commit.recordAfter rows.record).stepActor.all StepActor.known =
              false := by
            simpa using actors.not.mpr known
          conv_lhs => rw [texts.mpr held, pair, unknown]
          rfl
      · rw [if_neg (c := _ ∧ _) fun all => pair all.2.2.1]
        have refused : allowedPair (commit.recordAfter rows.record).state
            (commit.recordAfter rows.record).pendingAction = false := by simpa using pair
        conv_lhs => rw [texts.mpr held, refused]
        rfl
    · rw [if_neg (c := _ ∧ _) fun all => held all.2.1]
      have unheld : (commit.texts ++ Statement.named commit).all Statement.storable = false := by
        simpa using texts.not.mpr held
      conv_lhs => rw [unheld]
      rfl

theorem statement_commit_ok (stored : InStore rows) (addressed : Addressed rows commit)
    (owned : rows.record.id = seen.id) (fence : fenceHolds rows.record seen = true)
    (taken : ¬ RefusedByBoth rows commit) (holdable : Holdable commit)
    (separate : Separate rows commit)
    (schedule : Statement.Schedule rows.generations (Statement.partsOf seen.id commit) order) :
    Statement.commit rows seen true commit order = .ok (memoryAfter rows seen commit) := by
  unfold RefusedByBoth at taken
  push Not at taken
  obtain ⟨pair, fresh, alone⟩ := taken
  have fits : allowedPair (commit.recordAfter rows.record).state
      (commit.recordAfter rows.record).pendingAction = true := by simpa using pair
  rw [statement_commit_eq stored addressed owned fence,
    if_pos ⟨(parsed_iff addressed fresh).mpr holdable.sets, holdable.texts, fits,
      holdable.actor⟩]
  have written : Statement.writeAll rows.generations order =
      some (order.foldl Statement.put rows.generations) := by
    apply Statement.write_all_some
    intro front starts _
    have apart := Statement.salts_apart_at stored addressed fresh schedule starts
    have single := Statement.single_live_at stored addressed fresh alone separate schedule starts
    have one_live := (Statement.live_le_one_iff apart).mpr single
    have known := Statement.known_at stored addressed fresh holdable schedule starts
    unfold Statement.constraintsHold
    rw [Bool.and_eq_true, Bool.and_eq_true, decide_eq_true_iff, decide_eq_true_iff,
      List.all_eq_true]
    exact ⟨⟨apart, known⟩, one_live⟩
  have whole := Statement.table_whole stored addressed fresh schedule
  have same : order.foldl Statement.put rows.generations =
      (memoryAfter rows seen commit).generations := by
    rw [whole]
    show _ = (rows.generations ++ newRows seen.id commit).map (Memory.rowAfter commit)
    rw [List.map_append]
    congr 1
    · exact List.map_congr_left fun held here =>
        Statement.rows_agree addressed separate here
    · conv_lhs => rw [← List.map_id (newRows seen.id commit)]
      exact List.map_congr_left fun new entered =>
        (Statement.new_rows_agree addressed fresh separate entered).symm
  rw [written, same]

theorem salts_written (table : List Generation) (writes : List Statement.Write) :
    saltsOf (writes.foldl Statement.put table) =
      saltsOf table ++ saltsOf (Statement.insertedRows writes) := by
  induction writes generalizing table with
  | nil => exact (List.append_nil _).symm
  | cons write rest ih =>
    rw [List.foldl_cons, ih]
    cases write with
    | insert row =>
      show saltsOf (table ++ [row]) ++ _ = _
      unfold saltsOf
      rw [List.map_append, List.append_assoc]
      rfl
    | replace row =>
      have kept : saltsOf (Statement.put table (.replace row)) = saltsOf table := by
        apply Memory.salts_map
        intro held
        split_ifs with same
        · exact same.symm
        · rfl
      rw [kept]
      rfl

theorem broken_live {table : List Generation} {left right : Generation} (here : left ∈ table)
    (there : right ∈ table) (left_live : left.status = .live) (right_live : right.status = .live)
    (other : left.salt ≠ right.salt) : Statement.constraintsHold table = false := by
  by_contra holds
  have holds : Statement.constraintsHold table = true := by simpa using holds
  unfold Statement.constraintsHold at holds
  rw [Bool.and_eq_true, Bool.and_eq_true, decide_eq_true_iff, decide_eq_true_iff] at holds
  obtain ⟨⟨apart, -⟩, one_live⟩ := holds
  exact other ((Statement.live_le_one_iff apart).mp one_live left here right there left_live
    right_live)

theorem insert_scheduled
    (schedule : Statement.Schedule rows.generations (Statement.partsOf seen.id commit) order)
    {add : Generation} (adds : commit.addGeneration = some add) :
    .insert (Statement.newRow seen.id commit add) ∈ order := by
  apply schedule.perm.mem_iff.mpr
  exact List.mem_flatMap.mpr ⟨.newGeneration (Statement.newRow seen.id commit add),
    Statement.mem_parts_iff.mpr (Or.inl ⟨add, adds, rfl⟩), List.mem_singleton_self _⟩

theorem statement_commit_refused (stored : InStore rows) (addressed : Addressed rows commit)
    (owned : rows.record.id = seen.id) (fence : fenceHolds rows.record seen = true)
    (refused : RefusedByBoth rows commit)
    (schedule : Statement.Schedule rows.generations (Statement.partsOf seen.id commit) order) :
    ∃ why, Statement.commit rows seen true commit order = .error why := by
  rw [statement_commit_eq stored addressed owned fence]
  split_ifs with held
  · have not_written : Statement.writeAll rows.generations order = none := by
      by_cases fresh : Fresh rows commit
      · have second : SecondLive rows commit := by
          rcases refused with bad | taken | second
          · rw [held.2.2.1] at bad
            cases bad
          · exact (taken fresh).elim
          · exact second
        obtain ⟨goes, named, add, adds, add_live, kept, here, kept_live, spared⟩ := second
        have inserted := insert_scheduled schedule adds
        apply Statement.write_all_none (List.prefix_refl order) (List.ne_nil_of_mem inserted)
        rw [Statement.table_whole stored addressed fresh schedule]
        have still_live : (Statement.rowAfter commit kept).status = .live := by
          rw [Statement.row_after_status]
          simp [spared, goes, named, kept_live]
        have new_in : ({ add with tenantId := seen.id } : Generation) ∈ newRows seen.id commit :=
          mem_new_iff.mpr ⟨add, adds, rfl⟩
        apply broken_live (List.mem_append_left _ (List.mem_map_of_mem here))
          (List.mem_append_right _ new_in) still_live add_live
        intro same
        rw [Statement.row_after_salt] at same
        have same : kept.salt = add.salt := same
        exact fresh add adds (same ▸ List.mem_map_of_mem here)
      · unfold Fresh at fresh
        push Not at fresh
        obtain ⟨add, adds, there⟩ := fresh
        have inserted := insert_scheduled schedule adds
        apply Statement.write_all_none (List.prefix_refl order) (List.ne_nil_of_mem inserted)
        have salt : (Statement.newRow seen.id commit add).salt = add.salt := rfl
        have twice : ¬ (saltsOf (order.foldl Statement.put rows.generations)).Nodup := by
          rw [salts_written]
          intro apart
          have behind : add.salt ∈ saltsOf (Statement.insertedRows order) :=
            salt ▸ List.mem_map_of_mem (Statement.mem_inserted_iff.mpr inserted)
          exact (List.nodup_append.mp apart).2.2 add.salt there add.salt behind rfl
        unfold Statement.constraintsHold
        simp [twice]
    rw [not_written]
    exact ⟨_, rfl⟩
  · exact ⟨_, rfl⟩

/-- A statement that lands the in-memory rows passed every check on its way. -/
theorem alike_landed (stored : InStore rows) (addressed : Addressed rows commit)
    (owned : rows.record.id = seen.id) (fence : fenceHolds rows.record seen = true)
    (alike : Alike (.ok (memoryAfter rows seen commit))
      (Statement.commit rows seen true commit order)) :
    Statement.unparsed commit = false ∧
      (∀ text ∈ commit.texts, Statement.storable text = true) ∧
      (∀ actor, commit.actor = some actor → actor.known = true) ∧
      (∀ front, front <+: order → front ≠ [] →
        Statement.constraintsHold (front.foldl Statement.put rows.generations) = true) ∧
      order.foldl Statement.put rows.generations =
        (memoryAfter rows seen commit).generations := by
  rw [statement_commit_eq stored addressed owned fence] at alike
  by_cases passed : Statement.unparsed commit = false ∧
      (∀ text ∈ commit.texts, Statement.storable text = true) ∧
      allowedPair (commit.recordAfter rows.record).state
        (commit.recordAfter rows.record).pendingAction = true ∧
      (∀ actor, commit.actor = some actor → actor.known = true)
  · rw [if_pos passed] at alike
    have fine : ∀ front, front <+: order → front ≠ [] →
        Statement.constraintsHold (front.foldl Statement.put rows.generations) = true := by
      intro front starts some_write
      by_contra broken
      have broken : Statement.constraintsHold
          (front.foldl Statement.put rows.generations) = false := by simpa using broken
      rw [Statement.write_all_none starts some_write broken] at alike
      exact alike
    rw [Statement.write_all_some fine] at alike
    exact ⟨passed.1, passed.2.1, passed.2.2.2, fine, (congrArg TenantRows.generations alike).symm⟩
  · rw [if_neg passed] at alike
    exact alike.elim

theorem new_in (seen : TenantRecord) {add : Generation} (adds : commit.addGeneration = some add) :
    ({ add with tenantId := seen.id } : Generation) ∈ newRows seen.id commit :=
  mem_new_iff.mpr ⟨add, adds, rfl⟩

theorem last_fine (stored : InStore rows) (addressed : Addressed rows commit)
    (fresh : Fresh rows commit)
    (fine : ∀ front, front <+: Statement.urgent seen.id rows commit → front ≠ [] →
      Statement.constraintsHold (front.foldl Statement.put rows.generations) = true)
    (some_write : Statement.urgent seen.id rows commit ≠ []) :
    Statement.constraintsHold (rows.generations.map (Statement.rowAfter commit) ++
      newRows seen.id commit) = true := by
  have final := fine _ (List.prefix_refl _) some_write
  rw [Statement.table_whole stored addressed fresh (Statement.urgent_schedule _ _ _)] at final
  exact final

/-- No row is in the way of the generation that goes live. -/
theorem live_apart_of_landed (stored : InStore rows) (addressed : Addressed rows commit)
    (fresh : Fresh rows commit)
    (fine : ∀ front, front <+: Statement.urgent seen.id rows commit → front ≠ [] →
      Statement.constraintsHold (front.foldl Statement.put rows.generations) = true) :
    ∀ salt, commit.goLive = some salt →
      (∀ add, commit.addGeneration = some add → add.status ≠ .live) ∧
      ∀ held ∈ rows.generations, held.status = .live → held.salt ≠ salt →
        held.salt ∉ commit.updateGenerations.keys ∧ commit.destroys held.salt = false := by
  have schedule := Statement.urgent_schedule seen.id rows commit
  intro salt goes
  have here := addressed.live salt goes
  obtain ⟨target, target_here, target_salt⟩ := List.mem_map.mp here
  have spared : commit.destroys salt = false := by
    by_contra gone
    have gone : commit.destroys salt = true := by simpa using gone
    exact (addressed.destroys salt gone).2 goes
  have target_live : (Statement.rowAfter commit target).status = .live := by
    rw [Statement.row_after_status, target_salt]
    simp [goes, spared]
  have changed : ∃ change, Statement.changeOf commit salt = some change := by
    cases found : Statement.changeOf commit salt with
    | some change => exact ⟨change, rfl⟩
    | none => exact absurd goes ((Statement.change_of_none_iff commit salt).mp found).2.1
  obtain ⟨change, changed⟩ := changed
  have entered := Statement.changes_other changed fun add adds same =>
    fresh add adds (same ▸ here)
  have waiting : Statement.Part.generation salt change true ∈
      Statement.waitingParts commit := by
    unfold Statement.waitingParts Statement.changeParts
    exact List.mem_filter.mpr ⟨List.mem_map.mpr ⟨_, entered, by simp [goes]⟩, rfl⟩
  have target_written : Statement.Write.replace (Statement.rowAfter commit target) ∈
      Statement.Part.writes rows.generations (.generation salt change true) := by
    have made : Statement.rowAfter commit target = change.apply target := by
      unfold Statement.rowAfter
      rw [target_salt, changed]
    rw [made]
    exact List.mem_map_of_mem (List.mem_filter.mpr ⟨target_here, by simp [target_salt]⟩)
  let front := (Statement.firstParts seen.id commit ++ Statement.waitingParts commit).flatMap
    (Statement.Part.writes rows.generations)
  have starts : front <+: Statement.urgent seen.id rows commit := by
    unfold Statement.urgent
    rw [List.flatMap_append]
    exact List.prefix_append _ _
  have in_front : Statement.Write.replace (Statement.rowAfter commit target) ∈ front :=
    List.mem_flatMap.mpr ⟨_, List.mem_append_right _ waiting, target_written⟩
  have some_write : Statement.urgent seen.id rows commit ≠ [] :=
    List.ne_nil_of_mem (starts.subset in_front)
  have final := last_fine stored addressed fresh fine some_write
  have target_last : Statement.rowAfter commit target ∈
      rows.generations.map (Statement.rowAfter commit) ++ newRows seen.id commit :=
    List.mem_append_left _ (List.mem_map_of_mem target_here)
  constructor
  · intro add adds add_live
    have other : (Statement.rowAfter commit target).salt ≠ add.salt := by
      rw [Statement.row_after_salt, target_salt]
      exact fun same => fresh add adds (same ▸ here)
    rw [broken_live target_last (List.mem_append_right _ (new_in seen adds)) target_live
      add_live other] at final
    cases final
  · intro held held_here held_live other
    have apart : (Statement.rowAfter commit target).salt ≠ held.salt := by
      rw [Statement.row_after_salt, target_salt]
      exact Ne.symm other
    have kept : commit.destroys held.salt = false := by
      by_contra gone
      have gone : commit.destroys held.salt = true := by simpa using gone
      have early := fine front starts (List.ne_nil_of_mem in_front)
      rw [Statement.table_at stored addressed fresh schedule starts] at early
      have untouched : held.salt ∉ Statement.replacedSalts front := by
        intro touched
        obtain ⟨row, member, same⟩ := Statement.mem_replaced_iff.mp touched
        have named : held.salt ∈ Statement.named commit := by
          rw [Statement.mem_named_iff]
          cases found : Statement.changeOf commit held.salt with
          | some change => rfl
          | none =>
            exact absurd gone ((Statement.change_of_none_iff commit held.salt).mp found).2.2
        have split : front =
            (Statement.firstParts seen.id commit).flatMap
              (Statement.Part.writes rows.generations) ++
            (Statement.waitingParts commit).flatMap
              (Statement.Part.writes rows.generations) := List.flatMap_append
        rw [split] at member
        rcases List.mem_append.mp member with first | waits
        · exact Statement.first_not_named first (same ▸ named)
        · obtain ⟨part, listed, written⟩ := List.mem_flatMap.mp waits
          obtain ⟨from_changes, is_waiting⟩ := List.mem_filter.mp listed
          obtain ⟨entry, -, made⟩ := List.mem_map.mp from_changes
          rw [← made] at is_waiting written
          have entry_salt : commit.goLive = some entry.1 := of_decide_eq_true is_waiting
          obtain ⟨origin, chosen, equal⟩ := List.mem_map.mp written
          have origin_salt : origin.salt = entry.1 := by
            simpa using (List.mem_filter.mp chosen).2
          have row_salt : row.salt = origin.salt := by
            rw [← Statement.Write.replace.inj equal]
            rfl
          rw [goes] at entry_salt
          exact other (by rw [← same, row_salt, origin_salt, ← Option.some.inj entry_salt])
      have target_touched : target.salt ∈ Statement.replacedSalts front :=
        Statement.mem_replaced_iff.mpr
          ⟨_, in_front, Statement.row_after_salt commit target⟩
      have target_at : Statement.rowAfter commit target ∈ rows.generations.map (fun held =>
          if held.salt ∈ Statement.replacedSalts front then Statement.rowAfter commit held
          else held) ++ Statement.insertedRows front :=
        List.mem_append_left _
          (List.mem_map.mpr ⟨target, target_here, if_pos target_touched⟩)
      have held_at : held ∈ rows.generations.map (fun held =>
          if held.salt ∈ Statement.replacedSalts front then Statement.rowAfter commit held
          else held) ++ Statement.insertedRows front :=
        List.mem_append_left _ (List.mem_map.mpr ⟨held, held_here, if_neg untouched⟩)
      rw [broken_live target_at held_at target_live held_live apart] at early
      cases early
    refine ⟨fun updated => ?_, kept⟩
    have still_live : (Statement.rowAfter commit held).status = .live := by
      rw [Statement.row_after_status]
      simp [kept, updated, held_live]
    have held_last : Statement.rowAfter commit held ∈
        rows.generations.map (Statement.rowAfter commit) ++ newRows seen.id commit :=
      List.mem_append_left _ (List.mem_map_of_mem held_here)
    rw [broken_live target_last held_last target_live still_live
      (by rw [Statement.row_after_salt commit held]; exact apart)] at final
    cases final

/-- `ALL` leaves nothing undestroyed that the in-memory store destroys. -/
theorem all_gone_of_landed (addressed : Addressed rows commit)
    (whole : rows.generations.map (Statement.rowAfter commit) ++ newRows seen.id commit =
      (memoryAfter rows seen commit).generations) :
    commit.destroy = .all →
      (∀ add, commit.addGeneration = some add → add.status = .destroyed) ∧
      ∀ held ∈ rows.generations, held.salt ∈ commit.updateGenerations.keys →
        held.status = .destroyed := by
  intro all
  have split : rows.generations.map (Statement.rowAfter commit) ++ newRows seen.id commit =
      rows.generations.map (Memory.rowAfter commit) ++
        (newRows seen.id commit).map (Memory.rowAfter commit) := by
    rw [whole]
    exact List.map_append
  obtain ⟨held_same, new_same⟩ := List.append_inj split (by rw [List.length_map, List.length_map])
  have gone : ∀ row : Generation, (Memory.rowAfter commit row).status = .destroyed := by
    intro row
    rw [memory_row_status, if_pos (Or.inl all)]
  constructor
  · intro add adds
    have shape : newRows seen.id commit = [{ add with tenantId := seen.id }] := by
      unfold newRows
      rw [adds]
      rfl
    rw [shape] at new_same
    have same := congrArg Generation.status (List.cons.inj new_same).1
    rw [gone] at same
    exact same
  · intro held here updated
    have same := congrArg Generation.status (List.map_inj_left.mp held_same held here)
    have spared : commit.destroys held.salt = false := by
      unfold Commit.destroys
      rw [all]
    rw [gone, Statement.row_after_status] at same
    simp only [spared, addressed.all all, updated, Bool.false_eq_true, if_false, if_true,
      reduceCtorEq] at same
    exact same

/-- A live generation is not added beside one the commit destroys. -/
theorem added_apart_of_landed (addressed : Addressed rows commit) (fresh : Fresh rows commit)
    (fine : ∀ front, front <+: Statement.urgent seen.id rows commit → front ≠ [] →
      Statement.constraintsHold (front.foldl Statement.put rows.generations) = true) :
    ∀ add, commit.addGeneration = some add → add.status = .live →
      ∀ held ∈ rows.generations, held.status ≠ .live := by
  intro add adds add_live held here held_live
  let front := (Statement.newParts seen.id commit).flatMap
    (Statement.Part.writes rows.generations)
  have shape : front = [.insert (Statement.newRow seen.id commit add)] := by
    show (Statement.newParts seen.id commit).flatMap _ = _
    unfold Statement.newParts
    rw [adds]
    rfl
  have starts : front <+: Statement.urgent seen.id rows commit := by
    unfold Statement.urgent Statement.firstParts
    rw [List.flatMap_append, List.flatMap_append, List.flatMap_append, List.append_assoc,
      List.append_assoc]
    exact List.prefix_append _ _
  have early := fine front starts (by rw [shape]; exact List.cons_ne_nil _ _)
  rw [shape] at early
  have made := Statement.new_row seen.id addressed fresh adds
  have new_at : Statement.newRow seen.id commit add ∈
      rows.generations ++ [Statement.newRow seen.id commit add] :=
    List.mem_append_right _ List.mem_cons_self
  have other : held.salt ≠ (Statement.newRow seen.id commit add).salt := by
    intro same
    have salt : (Statement.newRow seen.id commit add).salt = add.salt := rfl
    exact fresh add adds (salt ▸ same ▸ List.mem_map_of_mem here)
  have broken := broken_live (List.mem_append_left _ here) new_at held_live
    (by rw [made]; exact add_live) other
  have checked : Statement.constraintsHold
      (rows.generations ++ [Statement.newRow seen.id commit add]) = true := early
  rw [broken] at checked
  cases checked

theorem separate_of_alike (stored : InStore rows) (addressed : Addressed rows commit)
    (owned : rows.record.id = seen.id) (fence : fenceHolds rows.record seen = true)
    (fresh : Fresh rows commit)
    (alike : Alike (.ok (memoryAfter rows seen commit))
      (Statement.commit rows seen true commit (Statement.urgent seen.id rows commit))) :
    Holdable commit ∧ Separate rows commit := by
  obtain ⟨parses, texts, actor, fine, whole⟩ := alike_landed stored addressed owned fence alike
  rw [Statement.table_whole stored addressed fresh (Statement.urgent_schedule _ _ _)] at whole
  have status : ∀ add, commit.addGeneration = some add → add.status.known = true := by
    intro add adds
    have some_write := List.ne_nil_of_mem
      (insert_scheduled (Statement.urgent_schedule seen.id rows commit) adds)
    have final := last_fine stored addressed fresh fine some_write
    unfold Statement.constraintsHold at final
    rw [Bool.and_eq_true, Bool.and_eq_true, List.all_eq_true] at final
    have known := final.1.2 _ (List.mem_append_right _ (new_in seen adds))
    exact known
  have added := added_apart_of_landed addressed fresh fine
  exact ⟨⟨(parsed_iff addressed fresh).mp parses, texts, actor, status⟩, live_apart_of_landed stored addressed fresh fine,
    all_gone_of_landed addressed whole,
    fun _ add adds add_live held here held_live =>
      absurd held_live (added add adds add_live held here)⟩

end Outcome

namespace Sample

def liveGeneration : Generation :=
  { tenantId := ("t" : Str), salt := ("a1" : Str), status := .live, botLogin := ("bot-a1" : Str),
    oidcRole := ("role-a1" : Str), approle := ("delivery-a1" : Str),
    entity := ("entity-a1" : Str) }

def pendingGeneration : Generation :=
  { tenantId := ("t" : Str), salt := ("b2" : Str), status := .pending,
    botLogin := ("bot-b2" : Str), oidcRole := ("role-b2" : Str),
    approle := ("delivery-b2" : Str), entity := ("entity-b2" : Str) }

/-- A tenant whose rotation has come to `sweep`. -/
def sweeping : TenantRows where
  record :=
    { id := ("t" : Str), createdAt := 0, state := .active, pendingAction := some .rotate,
      step := some .sweep, stepActor := some .service }
  generations := [liveGeneration, pendingGeneration]

def sweepCommit : Commit :=
  { step := some .retire, actor := some .service, goLive := some ("b2" : Str) }

/-- The same, with a field of the generation that is live now. -/
def updatingCommit : Commit :=
  { sweepCommit with
    updateGenerations := .ofList [(("a1" : Str), { audience := .to (some ("d41" : Str)) })] }

theorem sweeping_in_store : InStore sweeping where
  apart := by decide
  oneLive := by decide
  known := by decide
  storable := by decide

theorem sweep_addressed : Addressed sweeping sweepCommit where
  updates := by decide
  live := fun salt goes => by
    rw [← Option.some.inj goes]
    decide
  destroys := fun salt gone => by simp [Commit.destroys, sweepCommit] at gone
  all := fun all => by cases all
  wiring := fun wires => by cases wires

end Sample

end Defender.Tenancy
