import Defender.Jobs.Store

/-!
# What a transaction does to the rows

Whatever the action, the rows change in one of four ways: each row stays in place
under its own identity, a first attempt is added, a lapsed row is failed and its
next attempt added, or one request's rows go. Every invariant over runs is read
off this list.
-/

namespace Defender.Jobs

open Defender.Python Defender.Library.OrderedDict

variable {Knowledge : Type}

section Rows

def InvestigationRow.alertKey (row : InvestigationRow Knowledge) : Str × Str :=
  (row.tenant, row.alert)

def InvestigationRow.request (row : InvestigationRow Knowledge) : (Str × Str) × Str :=
  (row.alertKey, row.requestKey)

theorem same_alert_iff (row other : InvestigationRow Knowledge) :
    row.sameAlert other = true ↔ row.alertKey = other.alertKey := by
  simp [InvestigationRow.sameAlert, InvestigationRow.alertKey]

theorem same_request_iff (row other : InvestigationRow Knowledge) :
    row.sameRequest other = true ↔ row.request = other.request := by
  simp [InvestigationRow.sameRequest, InvestigationRow.request, same_alert_iff]

/-- How the stage of a row may change in one transaction. -/
inductive StageMove : Stage → Stage → Prop where
  | stay (stage : Stage) : StageMove stage stage
  | claimed : StageMove .queued .running
  | ended (stage : Stage) (terminal : stage.live = false) : StageMove .running stage
  | withdrawn : StageMove .queued .aborted

theorem StageMove.live_before {stage next : Stage} (move : StageMove stage next)
    (live : next.live = true) : stage.live = true := by
  cases move with
  | stay stage => exact live
  | claimed => rfl
  | ended stage terminal => rfl
  | withdrawn => rfl

theorem StageMove.terminal_stays {stage next : Stage} (move : StageMove stage next)
    (terminal : stage.live = false) : next = stage := by
  cases move with
  | stay stage => rfl
  | claimed => simp [Stage.live] at terminal
  | ended stage _ => simp [Stage.live] at terminal
  | withdrawn => simp [Stage.live] at terminal

theorem StageMove.to_queued {stage : Stage} (move : StageMove stage .queued) :
    stage = .queued := by
  cases move with
  | stay => rfl
  | ended _ terminal => cases terminal

theorem StageMove.to_running {stage : Stage} (move : StageMove stage .running) :
    stage = .running ∨ stage = .queued := by
  cases move with
  | stay => exact .inl rfl
  | claimed => exact .inr rfl
  | ended => exact .inl rfl

def Action.finishes : Action Knowledge → InvestigationRow Knowledge → Bool
  | .finish tenant id ending _, row =>
      row.tenant == tenant && row.id == id && row.stage == .running && !ending.stage.live
  | _, _ => false

def Action.claims : Action Knowledge → Bool
  | .claim _ _ _ => true
  | _ => false

theorem claims_spares {action : Action Knowledge} (claims : action.claims = true)
    (row : InvestigationRow Knowledge) : action.finishes row = false := by
  cases action <;> first | rfl | cases claims

/-- The only write that marks a live row. -/
def Action.handsBack : Action Knowledge → InvestigationRow Knowledge → Bool
  | .handBack tenant id _ _ _ _, row =>
      row.tenant == tenant && row.id == id && row.stage == .running
  | _, _ => false

/-- A row before and after a transaction that keeps it. -/
structure RowStep (action : Action Knowledge) (row next : InvestigationRow Knowledge) :
    Prop where
  id : next.id = row.id
  request : next.request = row.request
  attempt : next.attempt = row.attempt
  stage : StageMove row.stage next.stage
  claimed : row.stage = .queued → next.stage = .running → action.claims = true
  reason : row.stage.live = false → next.failureReason = row.failureReason
  marked : row.accountingWrittenAt.isSome → action.finishes row = false →
    next.costUsd = row.costUsd ∧ next.knowledge = row.knowledge ∧
      next.accountingWrittenAt = row.accountingWrittenAt
  marks : row.accountingWrittenAt = none → next.accountingWrittenAt.isSome →
    next.stage.live = true → action.handsBack row = true

theorem RowStep.refl (action : Action Knowledge) (row : InvestigationRow Knowledge) :
    RowStep action row row where
  id := rfl
  request := rfl
  attempt := rfl
  stage := .stay row.stage
  claimed queued running := by simp [queued] at running
  reason _ := rfl
  marked _ _ := ⟨rfl, rfl, rfl⟩
  marks unmarked marked := by simp [unmarked] at marked

theorem RowStep.alert_key {action : Action Knowledge} {row next : InvestigationRow Knowledge}
    (kept : RowStep action row next) : next.alertKey = row.alertKey :=
  congrArg Prod.fst kept.request

end Rows

section Steps

/-- The four ways the rows change. -/
inductive StoreStep (action : Action Knowledge) (store next : Store Knowledge) : Prop where
  | changed (change : InvestigationRow Knowledge → InvestigationRow Knowledge)
      (rows : next.rows = store.rows.map change) (minted : next.minted = store.minted)
      (keeps : ∀ row ∈ store.rows, RowStep action row (change row))
  | created (id tenant alert requestKey : Str) (clock : Int)
      (fresh : id ∉ store.minted)
      (allowed : store.refusal (queuedRow id tenant alert requestKey 1 clock) = none)
      (rows : next.rows = store.rows ++ [queuedRow id tenant alert requestKey 1 clock])
      (minted : next.minted = id :: store.minted)
  | retried (lapsed : InvestigationRow Knowledge) (id : Str) (clock : Int)
      (failed : Store Knowledge)
      (change : InvestigationRow Knowledge → InvestigationRow Knowledge)
      (member : lapsed ∈ store.rows) (capped : lapsed.attempt < maxAttempts)
      (lapses : (change lapsed).stage = .failed ∧
        (change lapsed).failureReason = some ("lease_lapsed" : Str))
      (changed : failed.rows = store.rows.map change)
      (keeps : ∀ row ∈ store.rows, RowStep action row (change row))
      (fresh : id ∉ store.minted)
      (allowed : failed.refusal (queuedRow id lapsed.tenant lapsed.alert lapsed.requestKey
        (lapsed.attempt + 1) clock) = none)
      (rows : next.rows = failed.rows ++ [queuedRow id lapsed.tenant lapsed.alert
        lapsed.requestKey (lapsed.attempt + 1) clock])
      (minted : next.minted = id :: store.minted)
  | deleted (request : (Str × Str) × Str)
      (ended : ∀ row ∈ store.rows, row.request = request → row.stage.live = false)
      (rows : next.rows = store.rows.filter fun row => decide (row.request ≠ request))
      (minted : next.minted = store.minted)

theorem StoreStep.same (action : Action Knowledge) {store next : Store Knowledge}
    (rows : next.rows = store.rows) (minted : next.minted = store.minted) :
    StoreStep action store next :=
  .changed id (by rw [rows, List.map_id]) minted fun row _ => RowStep.refl action row

theorem StoreStep.minted_grows {action : Action Knowledge} {store next : Store Knowledge}
    (stepped : StoreStep action store next) : store.minted ⊆ next.minted := by
  cases stepped with
  | changed _ _ minted _ => exact minted ▸ List.Subset.refl _
  | created _ _ _ _ _ _ _ _ minted => exact minted ▸ List.subset_cons_self _ _
  | retried _ _ _ _ _ _ _ _ _ _ _ _ _ minted => exact minted ▸ List.subset_cons_self _ _
  | deleted _ _ _ minted => exact minted ▸ List.Subset.refl _

theorem StoreStep.origin {action : Action Knowledge} {store next : Store Knowledge}
    (stepped : StoreStep action store next) {row : InvestigationRow Knowledge}
    (member : row ∈ next.rows) :
    (∃ before ∈ store.rows, RowStep action before row) ∨
      (row.stage = .queued ∧ row.accountingWrittenAt = none ∧ row.id ∉ store.minted) := by
  cases stepped with
  | changed change rows minted keeps =>
    rw [rows] at member
    obtain ⟨before, beforeMember, rfl⟩ := List.mem_map.mp member
    exact .inl ⟨before, beforeMember, keeps before beforeMember⟩
  | created id tenant alert requestKey clock fresh allowed rows minted =>
    rw [rows, List.mem_append, List.mem_singleton] at member
    rcases member with member | rfl
    · exact .inl ⟨row, member, RowStep.refl action row⟩
    · exact .inr ⟨rfl, rfl, fresh⟩
  | retried lapsed id clock failed change lapsedMember capped lapses changed keeps fresh allowed
      rows minted =>
    rw [rows, changed, List.mem_append, List.mem_singleton] at member
    rcases member with member | rfl
    · obtain ⟨before, beforeMember, rfl⟩ := List.mem_map.mp member
      exact .inl ⟨before, beforeMember, keeps before beforeMember⟩
    · exact .inr ⟨rfl, rfl, fresh⟩
  | deleted request ended rows minted =>
    rw [rows] at member
    exact .inl ⟨row, List.mem_of_mem_filter member, RowStep.refl action row⟩

/-- An `UPDATE` changes the rows it picks, each as a row step. -/
theorem update_step (action : Action Knowledge) (store : Store Knowledge)
    (picks : InvestigationRow Knowledge → Bool)
    (change : InvestigationRow Knowledge → InvestigationRow Knowledge)
    (keeps : ∀ row ∈ store.rows, picks row = true → RowStep action row (change row)) :
    StoreStep action store (store.update picks change).1 := by
  refine .changed (fun row => if picks row then change row else row) rfl rfl ?_
  intro row member
  by_cases picked : picks row = true
  · simpa [picked] using keeps row member picked
  · simpa [picked] using RowStep.refl action row

theorem insert_ok {store next : Store Knowledge} {row : InvestigationRow Knowledge}
    (inserted : store.insert row = .ok next) :
    store.refusal row = none ∧
      next = { store with rows := store.rows ++ [row], minted := row.id :: store.minted } := by
  simp only [Store.insert] at inserted
  split at inserted
  · cases inserted
  · exact ⟨by assumption, by simpa using inserted.symm⟩

/-- What the schema let in broke none of its unique keys. -/
theorem refusal_none {store : Store Knowledge} {row : InvestigationRow Knowledge}
    (allowed : store.refusal row = none) :
    (∀ other ∈ store.rows, other.id ≠ row.id) ∧
      (∀ other ∈ store.rows, other.request = row.request → other.attempt ≠ row.attempt) ∧
      (row.stage.live = true → ∀ other ∈ store.rows, other.stage.live = true →
        other.alertKey ≠ row.alertKey) := by
  simp only [Store.refusal] at allowed
  split at allowed
  · cases allowed
  rename_i freshId
  split at allowed
  · cases allowed
  split at allowed
  · cases allowed
  rename_i freshAttempt
  split at allowed
  · cases allowed
  rename_i freeAlert
  refine ⟨?_, ?_, ?_⟩
  · simpa using freshId
  · intro other member same sameAttempt
    refine freshAttempt (List.any_eq_true.mpr ⟨other, member, ?_⟩)
    simp [(same_request_iff other row).mpr same, sameAttempt]
  · intro live other member otherLive same
    refine freeAlert ?_
    rw [Bool.and_eq_true]
    refine ⟨live, List.any_eq_true.mpr ⟨other, member, ?_⟩⟩
    simp [otherLive, (same_alert_iff other row).mpr same]

theorem refusal_of_distinct {store : Store Knowledge} {row : InvestigationRow Knowledge}
    (freshAttempt : ∀ other ∈ store.rows, other.request = row.request →
      other.attempt ≠ row.attempt)
    (freeAlert : ∀ other ∈ store.rows, other.stage.live = true →
      other.alertKey ≠ row.alertKey) :
    store.refusal row ≠ some .attemptKey ∧ store.refusal row ≠ some .oneLivePerAlert := by
  have noAttempt : (store.rows.any fun other =>
      other.sameRequest row && other.attempt == row.attempt) = false := by
    rw [List.any_eq_false]
    intro other member clash
    rw [Bool.and_eq_true, same_request_iff, beq_iff_eq] at clash
    exact freshAttempt other member clash.1 clash.2
  have noLive : (store.rows.any fun other =>
      other.stage.live && other.sameAlert row) = false := by
    rw [List.any_eq_false]
    intro other member clash
    rw [Bool.and_eq_true, same_alert_iff] at clash
    exact freeAlert other member clash.1 clash.2
  simp only [Store.refusal, noAttempt, noLive, Bool.and_false]
  split_ifs <;> simp_all

theorem first_by_mem {before : InvestigationRow Knowledge → InvestigationRow Knowledge → Bool}
    {rows : List (InvestigationRow Knowledge)} {best : InvestigationRow Knowledge}
    (found : firstBy before rows = some best) : best ∈ rows := by
  induction rows with
  | nil => cases found
  | cons row rest ih =>
    simp only [firstBy] at found
    split at found
    · simp_all
    · rename_i other otherBest
      split at found
      · cases found
        exact List.mem_cons_of_mem _ (ih otherBest)
      · cases found
        exact List.mem_cons_self

end Steps

section Transactions

theorem create_step (store : Store Knowledge) (tenant alert requestKey fresh : Str)
    (clock : Int) (unminted : fresh ∉ store.minted) (action : Action Knowledge) :
    StoreStep action store
      (createInvestigation store tenant alert requestKey fresh clock).1 := by
  have same : StoreStep action store store := .same action rfl rfl
  simp only [createInvestigation]
  split
  · exact same
  split
  · exact same
  split
  · exact same
  split
  · exact same
  split
  · rename_i next inserted
    obtain ⟨allowed, rfl⟩ := insert_ok inserted
    exact .created fresh tenant alert requestKey clock unminted allowed rfl rfl
  · exact same

theorem claim_step (store : Store Knowledge) (locked : List Str) (clock leaseEnd : Int) :
    StoreStep (.claim locked clock leaseEnd) store (claim store locked clock leaseEnd).1 := by
  simp only [claim]
  split
  · exact .same _ rfl rfl
  · refine update_step _ store _ _ fun row _ picked => ?_
    simp only [Bool.and_eq_true, beq_iff_eq] at picked
    exact {
      id := rfl, request := rfl, attempt := rfl
      stage := picked.2 ▸ .claimed
      claimed := fun _ _ => rfl
      reason := fun _ => rfl
      marked := fun _ _ => ⟨rfl, rfl, rfl⟩
      marks := fun unmarked marked => by simp [unmarked] at marked }

theorem claim_answer {store : Store Knowledge} {locked : List Str} {clock leaseEnd : Int}
    {row : InvestigationRow Knowledge}
    (answered : (claim store locked clock leaseEnd).2 = some row) :
    (∃ picked ∈ store.rows, picked.stage = .queued ∧ row.id = picked.id) ∧
      ∀ after ∈ (claim store locked clock leaseEnd).1.rows, after.stage = .queued →
        after.id ≠ row.id := by
  simp only [claim] at answered ⊢
  split at answered
  · cases answered
  rename_i picked found
  have member := first_by_mem found
  simp only [List.mem_filter, Bool.and_eq_true, beq_iff_eq] at member
  have sameId : row.id = picked.id := by
    have claimed := List.mem_of_mem_head? answered
    simp only [Store.update, List.mem_map, List.mem_filter, Bool.and_eq_true,
      beq_iff_eq] at claimed
    obtain ⟨before, ⟨-, same, -⟩, rfl⟩ := claimed
    exact same
  refine ⟨⟨picked, member.1, member.2.1, sameId⟩, ?_⟩
  intro after afterMember queued same
  obtain ⟨before, -, rfl⟩ := List.mem_map.mp afterMember
  by_cases took : (before.id == picked.id && before.stage == .queued) = true
  · simp [took] at queued
  · simp only [took, if_false, Bool.false_eq_true] at queued same
    simp [same, sameId, queued] at took

theorem cancel_step (store : Store Knowledge) (tenant id : Str) (clock : Int)
    (action : Action Knowledge) :
    StoreStep action store (cancelInvestigation store tenant id clock).1 := by
  refine update_step _ store _ _ fun row _ picked => ?_
  simp only [Bool.and_eq_true] at picked
  have aborts : StageMove row.stage .aborted := by
    cases stage : row.stage with
    | queued => exact .withdrawn
    | running => exact .ended _ rfl
    | aborted => exact .stay _
    | completed | unparseable | failed => simp [stage, Stage.live] at picked
  exact {
    id := rfl, request := rfl, attempt := rfl
    stage := aborts
    claimed := fun _ running => by cases running
    reason := fun ended => by simp [ended] at picked
    marked := fun _ _ => ⟨rfl, rfl, rfl⟩
    marks := fun unmarked marked => by simp [unmarked] at marked }

theorem delete_step (store : Store Knowledge) (tenant id : Str) (action : Action Knowledge) :
    StoreStep action store (deleteInvestigation store tenant id).1 := by
  simp only [deleteInvestigation]
  split
  · exact .same action rfl rfl
  split
  · exact .same action rfl rfl
  rename_i named _ idle
  refine .deleted named.request ?_ ?_ rfl
  · intro row member same
    simp only [List.any_filter, List.any_eq_true, not_exists, not_and, Bool.and_eq_true] at idle
    simpa using idle row member ((same_request_iff row named).mpr same)
  · refine List.filter_congr fun row _ => ?_
    by_cases same : row.request = named.request
    · simp [same, (same_request_iff row named).mpr same]
    · have apart : row.sameRequest named = false :=
        Bool.eq_false_iff.mpr fun found => same ((same_request_iff row named).mp found)
      simp [same, apart]

theorem finish_step (store : Store Knowledge) (tenant id : Str) (ending : Finish Knowledge)
    (clock : Int) :
    StoreStep (.finish tenant id ending clock) store (finish store tenant id ending clock).1 := by
  simp only [finish]
  split
  · exact .same _ rfl rfl
  rename_i terminal
  simp only [Bool.not_eq_true] at terminal
  refine update_step _ store _ _ fun row _ picked => ?_
  have running : row.stage = .running := by
    simp only [Bool.and_eq_true, beq_iff_eq] at picked
    exact picked.2
  exact {
    id := rfl, request := rfl, attempt := rfl
    stage := running ▸ .ended _ terminal
    claimed := fun queued => by simp [running] at queued
    reason := fun ended => by simp [running, Stage.live] at ended
    marked := fun _ untouched => by simp [Action.finishes, picked, terminal] at untouched
    marks := fun _ _ live => by simp [terminal] at live }

theorem renew_step (store : Store Knowledge) (held : List Str) (costs : Dict Str ℚ)
    (leaseEnd : Int) (action : Action Knowledge) :
    StoreStep action store (renew store held costs leaseEnd).1 := by
  refine update_step _ store _ _ fun row _ picked => ?_
  simp only [Bool.and_eq_true, beq_iff_eq, Option.isNone_iff_eq_none] at picked
  exact {
    id := rfl, request := rfl, attempt := rfl
    stage := .stay _
    claimed := fun queued => by simp [picked.1.2] at queued
    reason := fun _ => rfl
    marked := fun marked => by simp [picked.2] at marked
    marks := fun unmarked marked => by simp [unmarked] at marked }

theorem write_accounting_step (store : Store Knowledge) (tenant id : Str) (costUsd : Option ℚ)
    (knowledge : Option Knowledge) (clock : Int) (action : Action Knowledge) :
    StoreStep action store (writeAccounting store tenant id costUsd knowledge clock).1 := by
  refine update_step _ store _ _ fun row _ picked => ?_
  simp only [Bool.and_eq_true, Option.isNone_iff_eq_none, Bool.not_eq_true'] at picked
  exact {
    id := rfl, request := rfl, attempt := rfl
    stage := .stay _
    claimed := fun queued => by simp [queued, Stage.live] at picked
    reason := fun _ => rfl
    marked := fun marked => by simp [picked.2] at marked
    marks := fun _ _ live => by simp [picked.1.2] at live }

theorem hand_back_step (store : Store Knowledge) (tenant id : Str) (costUsd : Option ℚ)
    (knowledge : Option Knowledge) (lapsed clock : Int) :
    StoreStep (.handBack tenant id costUsd knowledge lapsed clock) store
      (handBack store tenant id costUsd knowledge lapsed clock).1 := by
  refine update_step _ store _ _ fun row _ picked => ?_
  simp only [Bool.and_eq_true, beq_iff_eq, Option.isNone_iff_eq_none] at picked
  exact {
    id := rfl, request := rfl, attempt := rfl
    stage := .stay _
    claimed := fun queued => by simp [picked.1.2] at queued
    reason := fun _ => rfl
    marked := fun marked => by simp [picked.2] at marked
    marks := fun _ _ _ => by simp [Action.handsBack, picked] }

theorem lapsed_row_spec {store : Store Knowledge} {passedOver locked : List Str} {now : Int}
    {lapsed : InvestigationRow Knowledge}
    (found : lapsedRow store passedOver locked now = some lapsed) :
    lapsed ∈ store.rows ∧ lapsed.stage = .running ∧ lapsed.id ∉ passedOver := by
  have member := first_by_mem found
  simp only [List.mem_filter, Bool.and_eq_true, beq_iff_eq, Bool.not_eq_true'] at member
  exact ⟨member.1, member.2.1.1.1, by simpa using member.2.1.2⟩

@[simp] theorem failed_row_stage (clock : Int) (row : InvestigationRow Knowledge) :
    (failedRow clock row).stage = .failed := rfl

@[simp] theorem failed_row_mark (clock : Int) (row : InvestigationRow Knowledge) :
    (failedRow clock row).accountingWrittenAt = row.accountingWrittenAt := rfl

theorem failed_row_reason (clock : Int) (row : InvestigationRow Knowledge)
    (below : row.attempt < maxAttempts) :
    (failedRow clock row).failureReason = some ("lease_lapsed" : Str) := by
  have uncapped : ¬ row.attempt ≥ maxAttempts := by omega
  simp only [failedRow, uncapped, if_false]

theorem failed_row_step (store : Store Knowledge) (distinct : (store.rows.map (·.id)).Nodup)
    {lapsed : InvestigationRow Knowledge} (member : lapsed ∈ store.rows)
    (running : lapsed.stage = .running) (clock : Int) (action : Action Knowledge)
    (row : InvestigationRow Knowledge) (rowMember : row ∈ store.rows) :
    RowStep action row (if row.id == lapsed.id then failedRow clock row else row) := by
  by_cases same : row.id = lapsed.id
  · have rowRunning : row.stage = .running := by
      rw [List.inj_on_of_nodup_map distinct rowMember member same]
      exact running
    simp only [same, beq_self_eq_true, if_true]
    exact {
      id := rfl, request := rfl, attempt := rfl
      stage := by rw [rowRunning, failed_row_stage]; exact .ended _ rfl
      claimed := fun _ taken => by simp at taken
      reason := fun ended => by simp [rowRunning, Stage.live] at ended
      marked := fun _ _ => ⟨rfl, rfl, rfl⟩
      marks := fun unmarked marked => by simp [unmarked] at marked }
  · simpa [same] using RowStep.refl action row

theorem take_over_step (store : Store Knowledge) (passedOver locked : List Str)
    (now clock : Int) (fresh : Str) (action : Action Knowledge)
    (distinct : (store.rows.map (·.id)).Nodup) (unminted : fresh ∉ store.minted) :
    StoreStep action store (takeOverOne store passedOver locked now clock fresh).1 := by
  simp only [takeOverOne]
  split
  · exact .same action rfl rfl
  rename_i lapsed found
  obtain ⟨member, running, -⟩ := lapsed_row_spec found
  have keeps := failed_row_step store distinct member running clock action
  split
  · exact .changed _ rfl rfl keeps
  rename_i below
  split
  · rename_i next inserted
    obtain ⟨allowed, rfl⟩ := insert_ok inserted
    refine .retried lapsed fresh clock _ _ member (by omega) ?_ rfl keeps unminted allowed rfl rfl
    simp only [beq_self_eq_true, if_true]
    exact ⟨rfl, failed_row_reason clock lapsed (by omega)⟩
  · exact .same action rfl rfl

theorem step_cases (store : Store Knowledge) (distinct : (store.rows.map (·.id)).Nodup)
    (action : Action Knowledge) : StoreStep action store (step store action) := by
  cases action with
  | insertAlert tenant alert => exact .same _ rfl rfl
  | putAlertMapping tenant => exact .same _ rfl rfl
  | create tenant alert requestKey fresh clock =>
    simp only [step]
    split
    · exact .same _ rfl rfl
    · exact create_step store tenant alert requestKey fresh clock (by assumption) _
  | claim locked clock leaseEnd => exact claim_step store locked clock leaseEnd
  | cancel tenant id clock => exact cancel_step store tenant id clock _
  | delete tenant id => exact delete_step store tenant id _
  | finish tenant id ending clock => exact finish_step store tenant id ending clock
  | renew held costs leaseEnd => exact renew_step store held costs leaseEnd _
  | writeAccounting tenant id costUsd knowledge clock =>
    exact write_accounting_step store tenant id costUsd knowledge clock _
  | handBack tenant id costUsd knowledge lapsed clock =>
    exact hand_back_step store tenant id costUsd knowledge lapsed clock
  | takeOver passedOver locked now clock fresh =>
    simp only [step]
    split
    · exact .same _ rfl rfl
    · exact take_over_step store passedOver locked now clock fresh _ distinct (by assumption)

end Transactions

end Defender.Jobs
