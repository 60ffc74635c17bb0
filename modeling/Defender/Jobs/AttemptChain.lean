import Mathlib.Data.List.Perm.Basic
import Defender.Jobs.RowSteps

/-!
# The attempts of one request

A request's attempts are numbered from one without a gap, and all but the last
were failed by a take-over. Take-over does not lock the alert, so that its insert
is never refused has to be a fact about every reachable store: the lapsed row is
the alert's live one, and a later attempt would have left it failed.
-/

namespace Defender.Jobs

open Defender.Python

variable {Knowledge : Type}

def InvestigationRow.lapsedAttempt (row : InvestigationRow Knowledge)
    (request : (Str × Str) × Str) (number : Nat) : Prop :=
  row.request = request ∧ row.attempt = number ∧ row.stage = .failed ∧
    row.failureReason = some ("lease_lapsed" : Str)

/-- What holds of the table of investigations in every reachable store. -/
structure Chained (store : Store Knowledge) : Prop where
  ids : (store.rows.map (·.id)).Nodup
  minted : ∀ row ∈ store.rows, row.id ∈ store.minted
  attempts : (store.rows.map fun row => (row.request, row.attempt)).Nodup
  live : ((store.rows.filter (·.stage.live)).map (·.alertKey)).Nodup
  numbered : ∀ row ∈ store.rows, 1 ≤ row.attempt ∧ row.attempt ≤ maxAttempts
  earlier : ∀ row ∈ store.rows, ∀ number, 1 ≤ number → number < row.attempt →
    ∃ other ∈ store.rows, other.lapsedAttempt row.request number

theorem empty_chained : Chained (Store.empty : Store Knowledge) where
  ids := List.nodup_nil
  minted := by simp [Store.empty]
  attempts := List.nodup_nil
  live := List.nodup_nil
  numbered := by simp [Store.empty]
  earlier := by simp [Store.empty]

theorem Chained.live_unique {store : Store Knowledge} (chained : Chained store)
    {row other : InvestigationRow Knowledge} (member : row ∈ store.rows)
    (otherMember : other ∈ store.rows) (live : row.stage.live = true)
    (otherLive : other.stage.live = true) (same : row.alertKey = other.alertKey) :
    row = other :=
  List.inj_on_of_nodup_map chained.live (List.mem_filter.mpr ⟨member, live⟩)
    (List.mem_filter.mpr ⟨otherMember, otherLive⟩) same

theorem Chained.attempt_unique {store : Store Knowledge} (chained : Chained store)
    {row other : InvestigationRow Knowledge} (member : row ∈ store.rows)
    (otherMember : other ∈ store.rows) (same : row.request = other.request)
    (attempt : row.attempt = other.attempt) : row = other :=
  List.inj_on_of_nodup_map chained.attempts member otherMember (Prod.ext same attempt)

theorem Chained.live_is_last {store : Store Knowledge} (chained : Chained store)
    {row other : InvestigationRow Knowledge} (member : row ∈ store.rows)
    (otherMember : other ∈ store.rows) (live : row.stage.live = true)
    (same : other.request = row.request) : other.attempt ≤ row.attempt := by
  by_contra later
  obtain ⟨lapsed, lapsedMember, lapsedRequest, lapsedAttempt, failed, -⟩ :=
    chained.earlier other otherMember row.attempt (chained.numbered row member).1 (by omega)
  have isRow : lapsed = row :=
    chained.attempt_unique lapsedMember member (lapsedRequest.trans same) lapsedAttempt
  rw [isRow] at failed
  simp [failed, Stage.live] at live

section Preservation

variable {store next : Store Knowledge} {action : Action Knowledge}

theorem RowStep.lapsed_attempt {row after : InvestigationRow Knowledge}
    (kept : RowStep action row after) {request : (Str × Str) × Str} {number : Nat}
    (lapsed : row.lapsedAttempt request number) : after.lapsedAttempt request number := by
  obtain ⟨sameRequest, sameAttempt, failed, reason⟩ := lapsed
  have ended : row.stage.live = false := by simp [failed, Stage.live]
  exact ⟨kept.request.trans sameRequest, kept.attempt.trans sameAttempt,
    (kept.stage.terminal_stays ended).trans failed, (kept.reason ended).trans reason⟩

theorem map_keys {Key : Type} (key : InvestigationRow Knowledge → Key)
    {rows : List (InvestigationRow Knowledge)}
    {change : InvestigationRow Knowledge → InvestigationRow Knowledge}
    (keeps : ∀ row ∈ rows, key (change row) = key row) :
    (rows.map change).map key = rows.map key := by
  rw [List.map_map]
  exact List.map_congr_left keeps

/-- Changing rows in place keeps the chain. -/
theorem Chained.changed (chained : Chained store)
    {change : InvestigationRow Knowledge → InvestigationRow Knowledge}
    (rows : next.rows = store.rows.map change) (minted : store.minted ⊆ next.minted)
    (keeps : ∀ row ∈ store.rows, RowStep action row (change row)) : Chained next where
  ids := by
    rw [rows, map_keys _ fun row member => (keeps row member).id]
    exact chained.ids
  minted := by
    intro row member
    rw [rows] at member
    obtain ⟨before, beforeMember, rfl⟩ := List.mem_map.mp member
    rw [(keeps before beforeMember).id]
    exact minted (chained.minted before beforeMember)
  attempts := by
    rw [rows, map_keys _ fun row member =>
      Prod.ext (keeps row member).request (keeps row member).attempt]
    exact chained.attempts
  live := by
    have sublist : ((store.rows.filter fun row => (change row).stage.live).map
        (·.alertKey)).Sublist ((store.rows.filter (·.stage.live)).map (·.alertKey)) := by
      refine List.Sublist.map _ ?_
      have narrowed : (store.rows.filter fun row => (change row).stage.live) =
          (store.rows.filter (·.stage.live)).filter fun row => (change row).stage.live := by
        rw [List.filter_filter]
        refine List.filter_congr fun row member => ?_
        have before := (keeps row member).stage.live_before
        grind
      rw [narrowed]
      exact List.filter_sublist
    rw [rows, List.filter_map, map_keys _ fun row member =>
      (keeps row (List.mem_of_mem_filter member)).alert_key]
    exact chained.live.sublist sublist
  numbered := by
    intro row member
    rw [rows] at member
    obtain ⟨before, beforeMember, rfl⟩ := List.mem_map.mp member
    rw [(keeps before beforeMember).attempt]
    exact chained.numbered before beforeMember
  earlier := by
    intro row member number positive less
    rw [rows] at member ⊢
    obtain ⟨before, beforeMember, rfl⟩ := List.mem_map.mp member
    rw [(keeps before beforeMember).attempt] at less
    obtain ⟨other, otherMember, lapsed⟩ :=
      chained.earlier before beforeMember number positive less
    rw [(keeps before beforeMember).request]
    exact ⟨change other, List.mem_map_of_mem otherMember,
      (keeps other otherMember).lapsed_attempt lapsed⟩

/-- A queued row that the schema lets in extends the chain when every earlier attempt of its
request is there. -/
theorem Chained.inserted (chained : Chained store) {row : InvestigationRow Knowledge}
    (allowed : store.refusal row = none) (rows : next.rows = store.rows ++ [row])
    (queued : row.stage = .queued) (rowMinted : row.id ∈ next.minted)
    (minted : store.minted ⊆ next.minted)
    (numbered : 1 ≤ row.attempt ∧ row.attempt ≤ maxAttempts)
    (earlier : ∀ number, 1 ≤ number → number < row.attempt →
      ∃ other ∈ store.rows, other.lapsedAttempt row.request number) : Chained next := by
  have live : row.stage.live = true := by rw [queued]; rfl
  obtain ⟨freshId, freshAttempt, freeAlert⟩ := refusal_none allowed
  refine ⟨?_, ?_, ?_, ?_, ?_, ?_⟩
  · rw [rows, List.map_append, List.nodup_append]
    refine ⟨chained.ids, by simp, ?_⟩
    intro id idMember new newMember same
    obtain ⟨other, otherMember, rfl⟩ := List.mem_map.mp idMember
    simp only [List.map_cons, List.map_nil, List.mem_singleton] at newMember
    exact freshId other otherMember (same.trans newMember)
  · intro other member
    rw [rows, List.mem_append, List.mem_singleton] at member
    rcases member with member | rfl
    · exact minted (chained.minted other member)
    · exact rowMinted
  · rw [rows, List.map_append, List.nodup_append]
    refine ⟨chained.attempts, by simp, ?_⟩
    intro key keyMember new newMember same
    obtain ⟨other, otherMember, rfl⟩ := List.mem_map.mp keyMember
    simp only [List.map_cons, List.map_nil, List.mem_singleton] at newMember
    have sameKey := same.trans newMember
    exact freshAttempt other otherMember (congrArg Prod.fst sameKey) (congrArg Prod.snd sameKey)
  · rw [rows, List.filter_append, List.map_append, List.nodup_append]
    refine ⟨chained.live, by simp [live], ?_⟩
    intro alert alertMember new newMember same
    obtain ⟨other, otherMember, rfl⟩ := List.mem_map.mp alertMember
    simp only [List.filter_cons, live, if_true, List.filter_nil, List.map_cons, List.map_nil,
      List.mem_singleton] at newMember
    obtain ⟨otherMember, otherLive⟩ := List.mem_filter.mp otherMember
    exact freeAlert live other otherMember otherLive (same.trans newMember)
  · intro other member
    rw [rows, List.mem_append, List.mem_singleton] at member
    rcases member with member | rfl
    · exact chained.numbered other member
    · exact numbered
  · intro other member number positive less
    rw [rows] at member ⊢
    rw [List.mem_append, List.mem_singleton] at member
    have found : ∃ before ∈ store.rows, before.lapsedAttempt other.request number := by
      rcases member with member | rfl
      · exact chained.earlier other member number positive less
      · exact earlier number positive less
    obtain ⟨before, beforeMember, lapsed⟩ := found
    exact ⟨before, List.mem_append_left _ beforeMember, lapsed⟩

theorem Chained.deleted (chained : Chained store) {request : (Str × Str) × Str}
    (rows : next.rows = store.rows.filter fun row => decide (row.request ≠ request))
    (minted : next.minted = store.minted) : Chained next := by
  have sublist : next.rows.Sublist store.rows := rows ▸ List.filter_sublist
  refine ⟨chained.ids.sublist (sublist.map _), ?_, chained.attempts.sublist (sublist.map _),
    chained.live.sublist ((sublist.filter _).map _), ?_, ?_⟩
  · intro row member
    rw [minted]
    exact chained.minted row (sublist.subset member)
  · exact fun row member => chained.numbered row (sublist.subset member)
  · intro row member number positive less
    obtain ⟨other, otherMember, lapsed⟩ :=
      chained.earlier row (sublist.subset member) number positive less
    refine ⟨other, ?_, lapsed⟩
    rw [rows, List.mem_filter] at member ⊢
    rw [lapsed.1]
    exact ⟨otherMember, member.2⟩

theorem StoreStep.chained (chained : Chained store) (stepped : StoreStep action store next) :
    Chained next := by
  cases stepped with
  | changed change rows minted keeps => exact chained.changed rows (minted ▸ List.Subset.refl _) keeps
  | created id tenant alert requestKey clock fresh allowed rows minted =>
    refine chained.inserted allowed rows rfl ?_ ?_ ⟨Nat.le_refl 1, Nat.le_of_ble_eq_true rfl⟩ ?_
    · simp [minted, queuedRow]
    · simp [minted]
    · intro number positive less
      simp only [queuedRow] at less
      omega
  | retried lapsed id clock failed change member capped lapses changed keeps fresh allowed rows
      minted =>
    have failedChained : Chained { failed with minted := store.minted } :=
      chained.changed changed (List.Subset.refl _) keeps
    refine failedChained.inserted allowed rows rfl ?_ ?_ ⟨by simp [queuedRow], ?_⟩ ?_
    · simp [minted, queuedRow]
    · simp [minted]
    · simp only [queuedRow]
      omega
    · intro number positive less
      simp only [queuedRow] at less
      have same : (queuedRow id lapsed.tenant lapsed.alert lapsed.requestKey (lapsed.attempt + 1)
          clock : InvestigationRow Knowledge).request = lapsed.request := rfl
      rw [same]
      simp only [changed]
      by_cases last : number = lapsed.attempt
      · exact ⟨change lapsed, List.mem_map_of_mem member, (keeps lapsed member).request,
          (keeps lapsed member).attempt.trans last.symm, lapses⟩
      · obtain ⟨other, otherMember, otherLapsed⟩ :=
          chained.earlier lapsed member number positive (by omega)
        exact ⟨change other, List.mem_map_of_mem otherMember,
          (keeps other otherMember).lapsed_attempt otherLapsed⟩
  | deleted request ended rows minted => exact chained.deleted rows minted

theorem step_chained (chained : Chained store) (action : Action Knowledge) :
    Chained (step store action) :=
  (step_cases store chained.ids action).chained chained

theorem run_chained (actions : List (Action Knowledge)) : Chained (run actions) := by
  have stepped : ∀ (actions : List (Action Knowledge)) (store : Store Knowledge),
      Chained store → Chained (actions.foldl step store) := by
    intro actions
    induction actions with
    | nil => exact fun store chained => chained
    | cons action rest ih => exact fun store chained => ih _ (step_chained chained action)
  exact stepped actions .empty empty_chained

end Preservation

section Chain

def Store.attemptsOf (store : Store Knowledge) (tenant alert requestKey : Str) :
    List (InvestigationRow Knowledge) :=
  store.rows.filter fun row =>
    row.tenant == tenant && row.alert == alert && row.requestKey == requestKey

theorem mem_attempts_of {store : Store Knowledge} {tenant alert requestKey : Str}
    {row : InvestigationRow Knowledge} :
    row ∈ store.attemptsOf tenant alert requestKey ↔
      row ∈ store.rows ∧ row.request = ((tenant, alert), requestKey) := by
  simp [Store.attemptsOf, InvestigationRow.request, InvestigationRow.alertKey]

variable {store : Store Knowledge}

theorem Chained.attempts_of_nodup (chained : Chained store) (tenant alert requestKey : Str) :
    ((store.attemptsOf tenant alert requestKey).map (·.attempt)).Nodup := by
  have keys : ((store.attemptsOf tenant alert requestKey).map
      fun row => (row.request, row.attempt)).Nodup :=
    chained.attempts.sublist (List.filter_sublist.map _)
  refine List.Nodup.map_on ?_ (List.Nodup.of_map _ keys)
  intro row member other otherMember same
  rw [mem_attempts_of] at member otherMember
  exact chained.attempt_unique member.1 otherMember.1 (member.2.trans otherMember.2.symm) same

theorem last_attempt (rows : List (InvestigationRow Knowledge)) :
    rows = [] ∨ ∃ last ∈ rows, ∀ row ∈ rows, row.attempt ≤ last.attempt := by
  induction rows with
  | nil => exact .inl rfl
  | cons row rest ih =>
    refine .inr ?_
    rcases ih with rfl | ⟨last, member, bound⟩
    · exact ⟨row, by simp, by simp⟩
    by_cases less : last.attempt ≤ row.attempt
    · refine ⟨row, by simp, ?_⟩
      intro other otherMember
      rcases List.mem_cons.mp otherMember with rfl | otherMember
      · exact Nat.le_refl _
      · exact (bound other otherMember).trans less
    · refine ⟨last, List.mem_cons_of_mem _ member, ?_⟩
      intro other otherMember
      rcases List.mem_cons.mp otherMember with rfl | otherMember
      · omega
      · exact bound other otherMember

/-- The attempts are the numbers up to the last, and those before it lapsed. -/
theorem Chained.chain (chained : Chained store) (tenant alert requestKey : Str) :
    ∃ count ≤ maxAttempts,
      ((store.attemptsOf tenant alert requestKey).map (·.attempt)).Perm (List.range' 1 count) ∧
      ∀ row ∈ store.attemptsOf tenant alert requestKey, row.attempt < count →
        row.stage = .failed ∧ row.failureReason = some ("lease_lapsed" : Str) := by
  rcases last_attempt (store.attemptsOf tenant alert requestKey) with none | found
  · exact ⟨0, Nat.zero_le _, by simp [none], by simp [none]⟩
  obtain ⟨last, lastMember, bound⟩ := found
  obtain ⟨lastRow, lastRequest⟩ := mem_attempts_of.mp lastMember
  have below : ∀ number, 1 ≤ number → number < last.attempt →
      ∃ row ∈ store.attemptsOf tenant alert requestKey,
        row.lapsedAttempt ((tenant, alert), requestKey) number := by
    intro number positive less
    obtain ⟨row, member, lapsed⟩ := chained.earlier last lastRow number positive less
    rw [lastRequest] at lapsed
    exact ⟨row, mem_attempts_of.mpr ⟨member, lapsed.1⟩, lapsed⟩
  refine ⟨last.attempt, (chained.numbered last lastRow).2, ?_, ?_⟩
  · rw [List.perm_ext_iff_of_nodup (chained.attempts_of_nodup tenant alert requestKey)
      List.nodup_range']
    intro number
    rw [List.mem_map, List.mem_range'_1]
    constructor
    · rintro ⟨row, member, rfl⟩
      have positive := (chained.numbered row (mem_attempts_of.mp member).1).1
      have atMost := bound row member
      omega
    · rintro ⟨positive, atMost⟩
      by_cases isLast : number = last.attempt
      · exact ⟨last, lastMember, isLast.symm⟩
      · obtain ⟨row, member, lapsed⟩ := below number positive (by omega)
        exact ⟨row, member, lapsed.2.1⟩
  · intro row member less
    obtain ⟨rowMember, rowRequest⟩ := mem_attempts_of.mp member
    obtain ⟨other, otherMember, same, attempt, failed⟩ :=
      below row.attempt (chained.numbered row rowMember).1 less
    have isRow : other = row := chained.attempt_unique (mem_attempts_of.mp otherMember).1
      rowMember (same.trans rowRequest.symm) attempt
    exact isRow ▸ failed

theorem Chained.retry_allowed (chained : Chained store) {lapsed : InvestigationRow Knowledge}
    (member : lapsed ∈ store.rows) (running : lapsed.stage = .running) (clock : Int)
    (fresh : Str) {constraint : Constraint}
    (refused : (store.update (fun row => row.id == lapsed.id) (failedRow clock)).1.refusal
      (queuedRow fresh lapsed.tenant lapsed.alert lapsed.requestKey (lapsed.attempt + 1) clock) =
        some constraint) :
    some constraint ≠ some .attemptKey ∧ some constraint ≠ some .oneLivePerAlert := by
  rw [← refused]
  have lapsedLive : lapsed.stage.live = true := by rw [running]; rfl
  have keeps := failed_row_step store chained.ids member running clock
    (.takeOver [] [] clock clock fresh : Action Knowledge)
  refine refusal_of_distinct ?_ ?_
  · intro row rowMember same attempt
    obtain ⟨old, oldMember, rfl⟩ := List.mem_map.mp rowMember
    have kept := keeps old oldMember
    have last := chained.live_is_last member oldMember lapsedLive (kept.request.symm.trans same)
    have next := kept.attempt.symm.trans attempt
    simp only [queuedRow] at next
    omega
  · intro row rowMember live same
    obtain ⟨old, oldMember, rfl⟩ := List.mem_map.mp rowMember
    have kept := keeps old oldMember
    have isLapsed : old = lapsed := chained.live_unique oldMember member
      (kept.stage.live_before live) lapsedLive (kept.alert_key.symm.trans same)
    simp [isLapsed, Stage.live] at live

theorem Chained.take_over_allowed (chained : Chained store) (passedOver locked : List Str)
    (now clock : Int) (fresh : Str) {outcome : TakeOver}
    (taken : (takeOverOne store passedOver locked now clock fresh).2 = some outcome) :
    outcome.refused ≠ some .attemptKey ∧ outcome.refused ≠ some .oneLivePerAlert := by
  simp only [takeOverOne] at taken
  split at taken
  · cases taken
  rename_i lapsed found
  obtain ⟨member, running, -⟩ := lapsed_row_spec found
  split at taken
  · cases taken
    simp
  split at taken
  · cases taken
    simp
  · rename_i constraint refused
    cases taken
    simp only [Store.insert] at refused
    split at refused
    · rename_i reason isReason
      cases refused
      exact chained.retry_allowed member running clock fresh isReason
    · cases refused

/-- In every reachable store a request's attempts are `1 … count` with at most three, all
but the last failed by a lapsed lease, and no retry is refused. -/
theorem attempts_form_a_chain (actions : List (Action Knowledge)) :
    (∀ tenant alert requestKey, ∃ count ≤ maxAttempts,
      (((run actions).attemptsOf tenant alert requestKey).map (·.attempt)).Perm
        (List.range' 1 count) ∧
      ∀ row ∈ (run actions).attemptsOf tenant alert requestKey, row.attempt < count →
        row.stage = .failed ∧ row.failureReason = some ("lease_lapsed" : Str)) ∧
    ∀ (passedOver locked : List Str) (now clock : Int) (fresh : Str) (outcome : TakeOver),
      (takeOverOne (run actions) passedOver locked now clock fresh).2 = some outcome →
        outcome.refused ≠ some .attemptKey ∧ outcome.refused ≠ some .oneLivePerAlert := by
  have chained := run_chained actions
  constructor
  · exact fun tenant alert requestKey => chained.chain tenant alert requestKey
  · exact fun passedOver locked now clock fresh outcome taken =>
      chained.take_over_allowed passedOver locked now clock fresh taken

/-- One request whose first two workers are lost. -/
def twiceLapsed : List (Action Unit) :=
  [.insertAlert "t" "a", .putAlertMapping "t", .create "t" "a" "k" "i1" 0, .claim [] 1 9,
    .takeOver [] [] 10 10 "i2", .claim [] 11 19, .takeOver [] [] 20 20 "i3", .claim [] 21 29]

theorem twice_lapsed_chain :
    ((run twiceLapsed).attemptsOf "t" "a" "k").map (fun row => (row.attempt, row.stage)) =
        [(1, .failed), (2, .failed), (3, .running)] ∧
      ∀ outcome, (takeOverOne (run twiceLapsed) [] [] 30 30 "i4").2 = some outcome →
        outcome.refused ≠ some .attemptKey ∧ outcome.refused ≠ some .oneLivePerAlert :=
  ⟨by decide +kernel, (attempts_form_a_chain twiceLapsed).2 [] [] 30 30 "i4"⟩

end Chain

end Defender.Jobs
