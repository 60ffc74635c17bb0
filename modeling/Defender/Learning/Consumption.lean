import Defender.Learning.BatchTick

/-!
# What a tick consumed was delivered or recorded

Consuming comes before landing. A tick that breaks off between the two has
released claims whose commits nothing names, unless none of the released ones had
a commit; which ticks do is read off the host steps' answers.
-/

namespace Defender.Learning.BatchTick

open Defender.Python Defender.Library.OrderedDict Defender.Library.HostSteps
open HostStep

/-- A served claim with a commit is still in `inflight/`, or its batch was delivered or is
recorded for delivery. -/
def ConsumedIsDelivered (batchId : Str) (tick : Tick) : Prop :=
  ∀ marker ∈ tick.served, marker.sha.isSome = true →
    tick.inflight.contains marker.claim.name = false →
      batchId ∈ tick.landed ∨ ∃ pending ∈ tick.deliveries, pending.batchId = batchId

/-- What holds up to the consumption: the served claims are in `inflight/` under distinct
names, and nothing names the batch. -/
structure Kept (batchId : Str) (tick : Tick) : Prop where
  claimed : ∀ marker ∈ tick.served, tick.inflight.contains marker.claim.name = true
  distinct : (tick.served.map (·.claim.name)).Nodup
  unlanded : tick.landed = []
  unrecorded : ∀ pending ∈ tick.deliveries, pending.batchId ≠ batchId

theorem Kept.consumed {batchId : Str} {tick : Tick} (kept : Kept batchId tick) :
    ConsumedIsDelivered batchId tick := by
  intro marker member _ gone
  rw [kept.claimed marker member] at gone
  cases gone

section Requests

variable {batchId : Str} {served : List ServedMarker} {name : Str}

/-- The invariant while one claim that is not served is handled. -/
structure Handling (batchId : Str) (served : List ServedMarker) (tick : Tick) : Prop
    extends Kept batchId tick where
  same : tick.served = served

theorem keeps_release (unlink : Unlink) (unserved : name ∉ served.map (·.claim.name)) :
    Keeps (Handling batchId served) (release unlink name) := by
  cases unlink with
  | gone =>
    refine keeps_write fun tick handling => ⟨⟨?_, handling.distinct, handling.unlanded,
      handling.unrecorded⟩, handling.same⟩
    intro marker member
    have differs : name ≠ marker.claim.name := by
      rintro rfl
      exact unserved (List.mem_map_of_mem (handling.same ▸ member))
    have held := handling.claimed marker member
    simpa only [Dict.contains, Dict.get_erase, differs, if_false] using held
  | left => exact keeps_skip
  | refused => exact keeps_raise _

theorem keeps_quarantine (answers : ClaimAnswers) (reason : Str)
    (unserved : name ∉ served.map (·.claim.name)) :
    Keeps (Handling batchId served) (quarantine answers name reason) :=
  keeps_and_then (keeps_write fun _ handling => ⟨⟨handling.claimed, handling.distinct,
    handling.unlanded, handling.unrecorded⟩, handling.same⟩) (keeps_release _ unserved)

theorem keeps_requeue (answers : ClaimAnswers) (claim : Claimed)
    (unserved : claim.name ∉ served.map (·.claim.name)) :
    Keeps (Handling batchId served) (requeueOrDrop answers claim) :=
  keeps_and_then (keeps_write fun _ handling => ⟨⟨handling.claimed, handling.distinct,
    handling.unlanded, handling.unrecorded⟩, handling.same⟩) (keeps_release _ unserved)

theorem keeps_retry (answers : ClaimAnswers) (maxRetries attempts : Nat) (claim : Claimed)
    (cause : Str) (unserved : claim.name ∉ served.map (·.claim.name)) :
    Keeps (Handling batchId served) (retryOrExhaust answers maxRetries attempts claim cause) := by
  unfold retryOrExhaust
  split
  · exact keeps_quarantine answers _ unserved
  · exact keeps_requeue answers _ unserved

theorem keeps_idle {invariant : Tick → Prop} (fault : Option Fault) :
    Keeps invariant (write fault id : Host) :=
  keeps_write fun _ holds => holds

/-- The invariant once a claim was handled: it may have been served. -/
structure Handled (batchId : Str) (served : List ServedMarker) (name : Str) (tick : Tick) : Prop
    extends Kept batchId tick where
  only : ∀ marker ∈ tick.served, marker ∈ served ∨ marker.claim.name = name

theorem Handling.handled {tick : Tick} (handling : Handling batchId served tick) :
    Handled batchId served name tick :=
  ⟨handling.toKept, fun _ member => .inl (handling.same ▸ member)⟩

theorem contains_set (dict : Dict Str Record) (key other : Str) (record : Record) :
    (dict.set key record).contains other = (decide (key = other) || dict.contains other) := by
  simp only [Dict.contains, Dict.get_set]
  by_cases same : key = other
  · simp [same]
  · simp [same]

theorem Handling.report {tick : Tick} (handling : Handling batchId served tick)
    (marker : ServedMarker) (unserved : marker.claim.name ∉ served.map (·.claim.name))
    (present : tick.inflight.contains marker.claim.name = true) :
    Handled batchId served marker.claim.name (report marker tick) where
  claimed other member := by
    rcases List.mem_append.mp member with member | member
    · exact handling.claimed other member
    · rw [List.mem_singleton.mp member]
      exact present
  distinct := by
    simp only [BatchTick.report, handling.same, List.map_append, List.map_cons, List.map_nil]
    rw [List.nodup_append]
    refine ⟨handling.same ▸ handling.distinct, List.nodup_singleton _, ?_⟩
    intro other otherMember new newMember same
    exact unserved (List.mem_singleton.mp newMember ▸ same ▸ otherMember)
  unlanded := handling.unlanded
  unrecorded := handling.unrecorded
  only other member := by
    rcases List.mem_append.mp member with member | member
    · exact .inl (handling.same ▸ member)
    · rw [List.mem_singleton.mp member]
      exact .inr rfl

/-- A run that finishes is served while its record is in `inflight/`. -/
theorem settle_handled (answers : ClaimAnswers) (maxRetries attempts : Nat) (claim : Claimed)
    (runDir : Str) (unserved : claim.name ∉ served.map (·.claim.name)) {tick : Tick}
    (handling : Handling batchId served tick)
    (present : tick.inflight.contains claim.name = true) :
    Handled batchId served claim.name
      (settleRun answers maxRetries attempts claim runDir tick).1 := by
  unfold settleRun
  cases answers.curator with
  | finished done =>
    cases answers.resetFault with
    | some fault => exact handling.handled
    | none => exact handling.report ⟨claim, runDir, _, _⟩ unserved present
  | failed cause =>
    exact (keeps_and_then (keeps_quarantine answers _ unserved) (keeps_idle _) tick
      handling).handled
  | retried cause =>
    exact (keeps_and_then (keeps_retry answers _ _ claim cause unserved) (keeps_idle _) tick
      handling).handled
  | refused cause =>
    exact (keeps_and_then (keeps_retry answers _ _ claim cause unserved) (keeps_idle _) tick
      handling).handled
  | halted fault => exact handling.handled

theorem serve_handled (answers : ClaimAnswers) (maxRetries : Nat) (claim : Claimed)
    (unserved : claim.name ∉ served.map (·.claim.name)) {tick : Tick}
    (handling : Handling batchId served tick) :
    Handled batchId served claim.name (serveClaim answers maxRetries claim tick).1 := by
  unfold serveClaim
  cases answers.run with
  | absent => exact (keeps_quarantine answers _ unserved tick handling).handled
  | unreached cause => exact (keeps_retry answers _ _ claim cause unserved tick handling).handled
  | opened runDir =>
    dsimp only
    split
    · exact (keeps_quarantine answers _ unserved tick handling).handled
    cases answers.stampFault with
    | some fault => exact handling.handled
    | none =>
      have stamped : Handling batchId served (stampClaim claim (claim.spec.attempts + 1) tick) :=
        ⟨⟨fun marker member => by
            simp [stampClaim, contains_set, handling.claimed marker member],
          handling.distinct, handling.unlanded, handling.unrecorded⟩, handling.same⟩
      refine settle_handled answers maxRetries _ claim runDir unserved stamped ?_
      simp [stampClaim, contains_set]

end Requests

section Claims

variable {batchId : Str}

def Unserved (names : List (Str × Bool)) (served : List ServedMarker) : Prop :=
  ∀ entry ∈ names, entry.2 = true → entry.1 ∉ served.map (·.claim.name)

theorem handled_unserved {names : List (Str × Bool)} {served : List ServedMarker} {name : Str}
    {tick : Tick} (unserved : Unserved names served)
    (apart : ∀ entry ∈ names, entry.2 = true → name ≠ entry.1)
    (handled : Handled batchId served name tick) : Unserved names tick.served := by
  intro entry member orphan isServed
  obtain ⟨marker, markerMember, same⟩ := List.mem_map.mp isServed
  rcases handled.only marker markerMember with old | new
  · exact unserved entry member orphan (same ▸ List.mem_map_of_mem old)
  · exact apart entry member orphan (new.symm.trans same)

theorem json_names_nodup {Value : Type} (folder : Dict Str Value) : (jsonNames folder).Nodup := by
  unfold jsonNames sorted
  exact (List.perm_insertionSort _ _).nodup_iff.mpr (folder.nodup.filter _)

theorem claim_names_apart (tick : Tick) :
    (claimNames tick).Pairwise fun first later => later.2 = true → first.1 ≠ later.1 := by
  unfold claimNames
  rw [List.pairwise_append]
  refine ⟨?_, ?_, ?_⟩
  · rw [List.pairwise_map]
    refine List.Pairwise.imp ?_ (json_names_nodup tick.inflight)
    exact fun differs _ => differs
  · rw [List.pairwise_map]
    exact List.pairwise_of_forall fun _ _ orphan => by cases orphan
  · intro first _ later laterMember orphan
    obtain ⟨name, -, rfl⟩ := List.mem_map.mp laterMember
    cases orphan

theorem handled_then {names : List (Str × Bool)} {served : List ServedMarker} {name : Str}
    {step others : Host} {tick : Tick} (unserved : Unserved names served)
    (apart : ∀ entry ∈ names, entry.2 = true → name ≠ entry.1)
    (handled : Handled batchId served name (step tick).1)
    (goOn : ∀ tick, Kept batchId tick → Unserved names tick.served → Kept batchId (others tick).1) :
    Kept batchId (step.andThen others tick).1 :=
  and_then_leads handled (fun _ handled => handled.toKept) fun tick handled =>
    goOn tick handled.toKept (handled_unserved unserved apart handled)

variable [UnicodeDatabase]

theorem handle_claim_kept (answers : Answers) (said : ClaimAnswers) (name : Str)
    {names : List (Str × Bool)} {others : Host} {tick : Tick} (kept : Kept batchId tick)
    (fresh : name ∉ tick.served.map (·.claim.name)) (unserved : Unserved names tick.served)
    (apart : ∀ entry ∈ names, entry.2 = true → name ≠ entry.1)
    (goOn : ∀ tick, Kept batchId tick → Unserved names tick.served → Kept batchId (others tick).1) :
    Kept batchId (handleClaim answers said name others tick).1 := by
  have handling : Handling batchId tick.served tick := ⟨kept, rfl⟩
  have thenOthers {step : Host} (keeps : Keeps (Handling batchId tick.served) step) :
      Kept batchId (step.andThen others tick).1 :=
    handled_then unserved apart (keeps tick handling).handled goOn
  unfold handleClaim
  split
  · exact kept
  · exact thenOthers (keeps_quarantine said _ fresh)
  · exact thenOthers (keeps_quarantine said _ fresh)
  · exact thenOthers (keeps_quarantine said _ fresh)
  · rename_i spec _ _
    split
    · exact thenOthers (keeps_quarantine said _ fresh)
    · exact thenOthers (keeps_requeue said ⟨name, spec⟩ fresh)
    · exact (keeps_requeue said ⟨name, spec⟩ fresh tick handling).toKept
    · exact handled_then unserved apart
        (serve_handled said _ ⟨name, spec⟩ fresh handling) goOn

/-- Claims are taken under distinct names: an orphan by its listing, a queued one since its slot
in `inflight/` was free. -/
theorem drain_markers_kept (answers : Answers) (names : List (Str × Bool))
    (apart : names.Pairwise fun first later => later.2 = true → first.1 ≠ later.1) (tick : Tick)
    (kept : Kept batchId tick) (unserved : Unserved names tick.served) :
    Kept batchId (drainMarkers answers names tick).1 := by
  induction names generalizing tick with
  | nil => exact kept
  | cons entry rest ih =>
    obtain ⟨name, orphan⟩ := entry
    obtain ⟨apartHead, apartRest⟩ := List.pairwise_cons.mp apart
    have unservedRest : Unserved rest tick.served := fun other member =>
      unserved other (List.mem_cons_of_mem _ member)
    have goOn := fun tick (kept : Kept batchId tick) (unserved : Unserved rest tick.served) =>
      ih apartRest tick kept unserved
    unfold drainMarkers takeClaim
    dsimp only
    cases orphan with
    | true =>
      simp only [if_true]
      exact handle_claim_kept answers _ name kept (unserved (name, true) List.mem_cons_self rfl)
        unservedRest apartHead goOn
    | false =>
      simp only [Bool.false_eq_true, if_false]
      split
      · exact kept
      split
      · exact goOn tick kept unservedRest
      rename_i free
      split
      · exact kept
      · exact goOn tick kept unservedRest
      · rename_i record _ _
        have fresh : name ∉ tick.served.map (·.claim.name) := by
          intro isServed
          obtain ⟨marker, member, rfl⟩ := List.mem_map.mp isServed
          exact free (kept.claimed marker member)
        have moved : Kept batchId { tick with
            queue := tick.queue.erase name, inflight := tick.inflight.set name record } :=
          ⟨fun marker member => by simp [contains_set, kept.claimed marker member],
            kept.distinct, kept.unlanded, kept.unrecorded⟩
        exact handle_claim_kept answers _ name moved fresh unservedRest apartHead goOn

end Claims

section Work

variable {batchId : Str}

theorem keeps_drain_pitfalls (answers : Answers) :
    Keeps (Kept batchId) (drainPitfalls answers) := by
  have handOver : ∀ disposition, Keeps (Kept batchId)
      ((write answers.curationReset id).andThen
        (write none fun tick => { tick with curated := disposition })) := fun disposition =>
    keeps_and_then (keeps_idle _) (keeps_write fun _ kept =>
      ⟨kept.claimed, kept.distinct, kept.unlanded, kept.unrecorded⟩)
  unfold drainPitfalls
  split
  · exact handOver _
  · exact keeps_and_then (keeps_idle _) (handOver _)
  · exact keeps_raise _

theorem keeps_drop_delivered (answers : Answers) (pending : PendingDelivery) :
    Keeps (Kept batchId) (dropDelivered answers pending) := by
  unfold dropDelivered
  split
  · exact keeps_write fun _ kept => ⟨kept.claimed, kept.distinct, kept.unlanded,
      fun other member => kept.unrecorded other (List.mem_of_mem_filter member)⟩
  · exact keeps_skip
  · exact keeps_raise _

variable [UnicodeDatabase]

theorem work_kept (answers : Answers) (claims : Bool) {tick : Tick} (kept : Kept batchId tick)
    (unserved : tick.served = []) : Kept batchId (work answers claims tick).1 := by
  have claimed : ∀ tick, Kept batchId tick ∧ tick.served = [] →
      Kept batchId ((if claims then drainLeadAuthorMarkers answers else skip) tick).1 := by
    rintro tick ⟨kept, unserved⟩
    split
    · refine drain_markers_kept answers _ (claim_names_apart tick) tick kept ?_
      simp [Unserved, unserved]
    · exact kept
  have stop : ∀ tick, Kept batchId tick ∧ tick.served = [] → Kept batchId tick :=
    fun _ holds => holds.1
  have finished : Keeps (Kept batchId) (inTurn [drainPitfalls answers, write answers.stopBox id]) :=
    keeps_in_turn (by simp [keeps_drain_pitfalls, keeps_idle])
  unfold work inTurn
  refine and_then_leads (keeps_idle answers.startBox tick ⟨kept, unserved⟩) stop fun tick held => ?_
  refine and_then_leads (keeps_idle answers.stopRuns tick held) stop fun tick held => ?_
  exact and_then_leads (claimed tick held) (fun _ kept => kept) finished

end Work

section Reached

/-- The tick once every retained batch is delivered, when the lane comes clear. -/
def pendingCleared (answers : Answers) : List PendingDelivery → Tick → Option Tick
  | [], tick => some tick
  | pending :: rest, tick =>
      match answers.deliver pending, dropDelivered answers pending tick with
      | none, (dropped, none) => pendingCleared answers rest dropped
      | _, _ => none

variable {batchId : Str}

theorem deliver_pending_cases (answers : Answers) (clear : Host)
    (retained : List PendingDelivery) {tick : Tick} (kept : Kept batchId tick)
    (unserved : tick.served = []) :
    match pendingCleared answers retained tick with
    | some cleared => Kept batchId cleared ∧ cleared.served = [] ∧
        deliverPending answers clear retained tick = clear cleared
    | none => Kept batchId (deliverPending answers clear retained tick).1 := by
  induction retained generalizing tick with
  | nil => exact ⟨kept, unserved, rfl⟩
  | cons pending rest ih =>
    have dropped := keeps_drop_delivered answers pending tick kept
    have still : (dropDelivered answers pending tick).1.served = [] := by
      unfold dropDelivered
      cases answers.dropRecord pending <;> exact unserved
    unfold pendingCleared deliverPending
    cases answers.deliver pending with
    | some fault => cases fault <;> exact kept
    | none =>
      dsimp only
      cases ended : dropDelivered answers pending tick with
      | mk reached fault =>
        rw [ended] at dropped still
        cases fault with
        | some fault =>
          have broken : (dropDelivered answers pending tick).2 = some fault := by rw [ended]
          rw [and_then_broken broken, ended]
          exact dropped
        | none =>
          rw [and_then_done (by rw [ended]), ended]
          exact ih dropped still

variable [UnicodeDatabase]

def beforeConsumption (answers : Answers) (claims : Bool) (state : LearningState) :
    Option Tick :=
  match pendingCleared answers (state.deliveries.filter fun pending =>
      startsWith answers.branchStart pending.branch) (Tick.start state) with
  | none => none
  | some cleared =>
      if !hasWork answers cleared then none
      else
        match answers.openPr, answers.startBatch, work answers claims cleared with
        | .ok false, none, (worked, none) => some worked
        | _, _, _ => none

/-- Either the tick consumes what it has served, or it ends with every served claim kept. -/
theorem run_opened_cases (answers : Answers) (claims : Bool) (state : LearningState)
    (fresh : ∀ pending ∈ state.deliveries, pending.batchId ≠ answers.batchId) :
    match beforeConsumption answers claims state with
    | some worked => Kept answers.batchId worked ∧
        (runOpenedBatch answers claims (Tick.start state)).1 = (consumeAndLand answers worked).1
    | none => Kept answers.batchId (runOpenedBatch answers claims (Tick.start state)).1 := by
  have started : Kept answers.batchId (Tick.start state) :=
    ⟨by simp [Tick.start], by simp [Tick.start], rfl, fresh⟩
  have cases := deliver_pending_cases answers (startAndRun answers claims)
    (state.deliveries.filter fun pending => startsWith answers.branchStart pending.branch)
    started rfl
  have unfolded : runOpenedBatch answers claims (Tick.start state) =
      deliverPending answers (startAndRun answers claims) (state.deliveries.filter fun pending =>
        startsWith answers.branchStart pending.branch) (Tick.start state) := rfl
  rw [unfolded]
  unfold beforeConsumption
  cases found : pendingCleared answers (state.deliveries.filter fun pending =>
      startsWith answers.branchStart pending.branch) (Tick.start state) with
  | none =>
    rw [found] at cases
    exact cases
  | some cleared =>
    rw [found] at cases
    obtain ⟨kept, unserved, same⟩ := cases
    rw [same]
    have worked := work_kept answers claims kept unserved
    have idle : ∀ tick : Tick, (write answers.discard id tick).1 = tick := by
      intro tick
      cases answers.discard <;> rfl
    unfold startAndRun
    dsimp only
    cases hasWork answers cleared with
    | false => exact kept
    | true =>
      simp only [Bool.not_true, Bool.false_eq_true, if_false]
      cases answers.openPr with
      | error fault => exact kept
      | ok held =>
        cases held with
        | true => exact kept
        | false =>
          cases answers.startBatch with
          | some fault => exact kept
          | none =>
            have ran : ((write none id).andThen (runBatch answers claims) cleared).1 =
                ((work answers claims).andThen (consumeAndLand answers) cleared).1 := idle _
            cases ended : work answers claims cleared with
            | mk reached fault =>
              rw [ended] at worked
              cases fault with
              | some fault =>
                rw [and_then_broken (show (work answers claims cleared).2 = some fault by
                  rw [ended]), ended] at ran
                exact ran ▸ worked
              | none =>
                rw [and_then_done (show (work answers claims cleared).2 = none by rw [ended]),
                  ended] at ran
                exact ⟨worked, ran⟩

end Reached

section Consuming

variable {batchId : Str}

def Answers.released (answers : Answers) (served : List ServedMarker) : List ServedMarker :=
  (served.takeWhile fun marker => answers.release marker != .refused).filter fun marker =>
    answers.release marker == .gone

/-- A claim whose run made a commit is among them. -/
def Answers.releasesCommit (answers : Answers) (served : List ServedMarker) : Prop :=
  ∃ marker ∈ answers.released served, marker.sha.isSome = true

/-- Nothing fails from the first release to the end of the landing, except a delivery that is
refused and recorded. -/
structure Answers.landsAll (answers : Answers) (served : List ServedMarker)
    (curated : Option PitfallsDisposition) : Prop where
  releases : ∀ marker ∈ served, answers.release marker ≠ .refused
  rotates : ∀ disposition, curated = some disposition → disposition.committedIds ≠ [] →
    answers.rotate = none
  retires : ∀ disposition, curated = some disposition → disposition.heldIds ≠ [] →
    answers.retire = none
  lands : (∃ status, answers.finish = .ok status) ∨
    answers.finish = .error .deliveryRefused ∧ answers.record = none

def Answers.strandsNothing (answers : Answers) (served : List ServedMarker)
    (curated : Option PitfallsDisposition) : Prop :=
  (∃ marker ∈ served, marker.done = true ∧ (answers.sentinel marker).isSome = true) ∨
    ¬ answers.releasesCommit served ∨ answers.landsAll served curated

/-- What the consumption leaves as it is. -/
def SameBatch (tick after : Tick) : Prop :=
  after.served = tick.served ∧ after.landed = tick.landed ∧ after.deliveries = tick.deliveries

theorem write_sentinels_spec (answers : Answers) (served : List ServedMarker) (tick : Tick) :
    (SameBatch tick (writeSentinels answers served tick).1 ∧
      (writeSentinels answers served tick).1.inflight = tick.inflight) ∧
    ((writeSentinels answers served tick).2.isSome = true ↔
      ∃ marker ∈ served, marker.done = true ∧ (answers.sentinel marker).isSome = true) := by
  constructor
  · have keeps : Keeps (fun after => SameBatch tick after ∧ after.inflight = tick.inflight)
        (writeSentinels answers served) := by
      refine keeps_in_turn fun step member => ?_
      obtain ⟨marker, -, rfl⟩ := List.mem_map.mp member
      exact keeps_write fun _ same => same
    exact keeps tick ⟨⟨rfl, rfl, rfl⟩, rfl⟩
  · unfold writeSentinels
    rw [in_turn_raises _ (fun marker => (answers.sentinel marker).isSome)
      fun marker tick => by rw [write_fault]]
    simp [List.any_filter]

theorem release_served_fault (answers : Answers) (served : List ServedMarker) (tick : Tick) :
    (releaseServed answers served tick).2 = none ↔
      ∀ marker ∈ served, answers.release marker ≠ .refused := by
  have raises : (releaseServed answers served tick).2.isSome =
      served.any fun marker => answers.release marker == .refused := by
    refine in_turn_raises _ _ (fun marker tick => ?_) served tick
    cases unlink : answers.release marker <;> rfl
  rw [← Option.not_isSome_iff_eq_none, raises]
  simp

theorem release_served_batch (answers : Answers) (served : List ServedMarker) (tick : Tick) :
    SameBatch tick (releaseServed answers served tick).1 := by
  have keeps : Keeps (SameBatch tick) (releaseServed answers served) := by
    refine keeps_in_turn fun step member => ?_
    obtain ⟨marker, -, rfl⟩ := List.mem_map.mp member
    unfold release
    split
    · exact keeps_write fun _ same => same
    · exact keeps_skip
    · exact keeps_raise _
  exact keeps tick ⟨rfl, rfl, rfl⟩

/-- A record left `inflight/` in the releases exactly if one of the released claims has its
name. -/
theorem release_served_inflight (answers : Answers) (served : List ServedMarker) (tick : Tick)
    (name : Str) :
    (releaseServed answers served tick).1.inflight.contains name =
      (tick.inflight.contains name &&
        !((answers.released served).any fun marker => marker.claim.name == name)) := by
  induction served generalizing tick with
  | nil => simp [releaseServed, inTurn, skip, Answers.released]
  | cons marker rest ih =>
    have unfolded : releaseServed answers (marker :: rest) =
        (release (answers.release marker) marker.claim.name).andThen
          (releaseServed answers rest) := rfl
    rw [unfolded]
    cases unlink : answers.release marker with
    | gone =>
      have erased : ({ tick with
          inflight := tick.inflight.erase marker.claim.name } : Tick).inflight.contains name =
          (tick.inflight.contains name && !(marker.claim.name == name)) := by
        by_cases same : marker.claim.name = name
        · simp [Dict.contains, Dict.get_erase, same]
        · simp [Dict.contains, Dict.get_erase, same]
      rw [and_then_done rfl]
      change (releaseServed answers rest { tick with
        inflight := tick.inflight.erase marker.claim.name }).1.inflight.contains name = _
      rw [ih, erased]
      simp [Answers.released, unlink, Bool.and_assoc]
    | left =>
      rw [and_then_done rfl]
      change (releaseServed answers rest tick).1.inflight.contains name = _
      rw [ih]
      simp [Answers.released, unlink]
    | refused =>
      rw [and_then_broken rfl]
      simp [Answers.released, unlink, release, raise]

theorem apply_pitfalls_batch (answers : Answers) (curated : Option PitfallsDisposition)
    (tick : Tick) :
    SameBatch tick (applyPitfalls answers curated tick).1 ∧
      (applyPitfalls answers curated tick).1.inflight = tick.inflight := by
  have keeps : Keeps (fun after => SameBatch tick after ∧ after.inflight = tick.inflight)
      (applyPitfalls answers curated) := by
    unfold applyPitfalls
    split
    · exact keeps_skip
    · refine keeps_and_then ?_ ?_
      · split
        · exact keeps_skip
        · exact keeps_write fun _ same => same
      · split
        · exact keeps_skip
        · exact keeps_write fun _ same => same
  exact keeps tick ⟨⟨rfl, rfl, rfl⟩, rfl⟩

theorem apply_pitfalls_fault (answers : Answers) (curated : Option PitfallsDisposition)
    (tick : Tick) :
    (applyPitfalls answers curated tick).2 = none ↔
      (∀ disposition, curated = some disposition → disposition.committedIds ≠ [] →
        answers.rotate = none) ∧
      ∀ disposition, curated = some disposition → disposition.heldIds ≠ [] →
        answers.retire = none := by
  cases curated with
  | none => simp [applyPitfalls, skip]
  | some disposition =>
    simp only [applyPitfalls, PitfallsDisposition.apply, Option.some.injEq, forall_eq']
    cases committed : disposition.committedIds <;> cases held : disposition.heldIds <;>
      cases answers.rotate <;> cases answers.retire <;>
      simp [andThen, write, skip]

def Delivered (batchId : Str) (tick : Tick) : Prop :=
  batchId ∈ tick.landed ∨ ∃ pending ∈ tick.deliveries, pending.batchId = batchId

theorem Kept.undelivered {tick after : Tick} (kept : Kept batchId tick)
    (same : SameBatch tick after) : ¬ Delivered batchId after := by
  rintro (landed | ⟨pending, member, isBatch⟩)
  · rw [same.2.1, kept.unlanded] at landed
    cases landed
  · rw [same.2.2] at member
    exact kept.unrecorded pending member isBatch

theorem land_batch_spec (answers : Answers) {tick : Tick}
    (undelivered : ¬ Delivered answers.batchId tick) :
    ((landBatch answers tick).1.served = tick.served ∧
      (landBatch answers tick).1.inflight = tick.inflight) ∧
    (Delivered answers.batchId (landBatch answers tick).1 ↔
      (∃ status, answers.finish = .ok status) ∨
        answers.finish = .error .deliveryRefused ∧ answers.record = none) := by
  unfold landBatch
  cases answers.finish with
  | ok status =>
    have finished : (∃ other, (Except.ok status : Except Fault DeliveryStatus) = .ok other) ∨
        (Except.ok status : Except Fault DeliveryStatus) = .error .deliveryRefused ∧
          answers.record = none := .inl ⟨status, rfl⟩
    rw [iff_true_right finished]
    cases status with
    | nothing => exact ⟨⟨rfl, rfl⟩, .inl List.mem_cons_self⟩
    | pullRequest =>
      cases answers.mergeMode with
      | none => exact ⟨⟨rfl, rfl⟩, .inl List.mem_cons_self⟩
      | some fault => exact ⟨⟨rfl, rfl⟩, .inl List.mem_cons_self⟩
  | error fault =>
    cases fault with
    | deliveryRefused =>
      cases answers.record with
      | none =>
        refine ⟨⟨rfl, rfl⟩, ?_⟩
        have recorded : Delivered answers.batchId (recordPendingDelivery answers tick) :=
          .inr ⟨answers.batchRecord, List.mem_cons_self, rfl⟩
        simpa [write] using recorded
      | some fault => exact ⟨⟨rfl, rfl⟩, by simpa [write] using undelivered⟩
    | osError | timeout | stateRefused | other =>
      exact ⟨⟨rfl, rfl⟩, by simpa [raise] using undelivered⟩

theorem unlinked_iff (answers : Answers) {tick sentineled : Tick} (kept : Kept batchId tick)
    (same : sentineled.inflight = tick.inflight) {marker : ServedMarker}
    (member : marker ∈ tick.served) :
    (releaseServed answers tick.served sentineled).1.inflight.contains marker.claim.name = false ↔
      marker ∈ answers.released tick.served := by
  rw [release_served_inflight, same, kept.claimed marker member, Bool.true_and,
    Bool.not_eq_false', List.any_eq_true]
  constructor
  · rintro ⟨other, otherMember, sameName⟩
    have otherServed : other ∈ tick.served :=
      (List.takeWhile_subset _) (List.mem_of_mem_filter otherMember)
    rw [← List.inj_on_of_nodup_map kept.distinct otherServed member (beq_iff_eq.mp sameName)]
    exact otherMember
  · exact fun released => ⟨marker, released, beq_self_eq_true _⟩

theorem consumed_iff (answers : Answers) {tick after : Tick} (served : after.served = tick.served)
    (unlinked : ∀ marker ∈ tick.served, after.inflight.contains marker.claim.name = false ↔
      marker ∈ answers.released tick.served) :
    ConsumedIsDelivered batchId after ↔
      ¬ answers.releasesCommit tick.served ∨ Delivered batchId after := by
  constructor
  · intro consumed
    by_cases releases : answers.releasesCommit tick.served
    · obtain ⟨marker, released, commit⟩ := releases
      have member : marker ∈ tick.served :=
        (List.takeWhile_subset _) (List.mem_of_mem_filter released)
      exact .inr (consumed marker (served ▸ member) commit ((unlinked marker member).mpr released))
    · exact .inl releases
  · rintro (none | delivered) marker member commit gone
    · rw [served] at member
      exact absurd ⟨marker, (unlinked marker member).mp gone, commit⟩ none
    · exact delivered

/-- With the sentinels written, what is left strands no commit exactly if it releases none or
lands the batch. -/
theorem release_and_land_iff (answers : Answers) {tick written : Tick}
    (kept : Kept answers.batchId tick) (same : SameBatch tick written)
    (sameInflight : written.inflight = tick.inflight) :
    ConsumedIsDelivered answers.batchId ((releaseServed answers tick.served).andThen
        ((applyPitfalls answers tick.curated).andThen (landBatch answers)) written).1 ↔
      ¬ answers.releasesCommit tick.served ∨ answers.landsAll tick.served tick.curated := by
  have unlinked := fun marker (member : marker ∈ tick.served) =>
    unlinked_iff answers kept sameInflight member
  have releasedBatch := release_served_batch answers tick.served written
  have released : SameBatch tick (releaseServed answers tick.served written).1 :=
    ⟨releasedBatch.1.trans same.1, releasedBatch.2.1.trans same.2.1,
      releasedBatch.2.2.trans same.2.2⟩
  have releases := release_served_fault answers tick.served written
  cases broke : (releaseServed answers tick.served written).2 with
  | some fault =>
    have notAll : ¬ answers.landsAll tick.served tick.curated := fun all => by
      rw [releases.mpr all.releases] at broke
      cases broke
    rw [and_then_broken broke, consumed_iff answers released.1 unlinked]
    simp only [kept.undelivered released, notAll]
  | none =>
    rw [and_then_done broke]
    obtain ⟨appliedBatch, appliedInflight⟩ :=
      apply_pitfalls_batch answers tick.curated (releaseServed answers tick.served written).1
    have applied : SameBatch tick (applyPitfalls answers tick.curated
        (releaseServed answers tick.served written).1).1 :=
      ⟨appliedBatch.1.trans released.1, appliedBatch.2.1.trans released.2.1,
        appliedBatch.2.2.trans released.2.2⟩
    have pitfalls := apply_pitfalls_fault answers tick.curated
      (releaseServed answers tick.served written).1
    cases stopped : (applyPitfalls answers tick.curated
        (releaseServed answers tick.served written).1).2 with
    | some fault =>
      have notAll : ¬ answers.landsAll tick.served tick.curated := fun all => by
        rw [pitfalls.mpr ⟨all.rotates, all.retires⟩] at stopped
        cases stopped
      rw [and_then_broken stopped, consumed_iff answers applied.1 (by
        rw [appliedInflight]
        exact unlinked)]
      simp only [kept.undelivered applied, notAll]
    | none =>
      rw [and_then_done stopped]
      obtain ⟨⟨landedServed, landedInflight⟩, lands⟩ :=
        land_batch_spec answers (kept.undelivered applied)
      rw [consumed_iff answers (landedServed.trans applied.1) (by
        rw [landedInflight, appliedInflight]
        exact unlinked), lands]
      have all : answers.landsAll tick.served tick.curated ↔
          ((∃ status, answers.finish = .ok status) ∨
            answers.finish = .error .deliveryRefused ∧ answers.record = none) :=
        ⟨fun all => all.lands, fun lands => ⟨releases.mp broke, (pitfalls.mp stopped).1,
          (pitfalls.mp stopped).2, lands⟩⟩
      rw [all]

/-- The consumption strands no commit exactly under the condition on its host steps. -/
theorem consume_and_land_iff (answers : Answers) {tick : Tick}
    (kept : Kept answers.batchId tick) :
    ConsumedIsDelivered answers.batchId (consumeAndLand answers tick).1 ↔
      answers.strandsNothing tick.served tick.curated := by
  obtain ⟨⟨sentinelBatch, sentinelInflight⟩, sentinelFault⟩ :=
    write_sentinels_spec answers tick.served tick
  have unfolded : consumeAndLand answers tick = (writeSentinels answers tick.served).andThen
      ((releaseServed answers tick.served).andThen
        ((applyPitfalls answers tick.curated).andThen (landBatch answers))) tick := by
    unfold consumeAndLand applyDisposition
    rw [and_then_assoc, and_then_assoc]
  rw [unfolded]
  unfold Answers.strandsNothing
  cases sentinel : (writeSentinels answers tick.served tick).2 with
  | some fault =>
    have failed := sentinelFault.mp (by rw [sentinel]; rfl)
    rw [and_then_broken sentinel]
    refine ⟨fun _ => .inl failed, fun _ marker member _ gone => ?_⟩
    rw [sentinelBatch.1] at member
    rw [sentinelInflight, kept.claimed marker member] at gone
    cases gone
  | none =>
    have written : ¬ ∃ marker ∈ tick.served, marker.done = true ∧
        (answers.sentinel marker).isSome = true := by
      rw [← sentinelFault, sentinel]
      exact Bool.false_ne_true
    rw [and_then_done sentinel, or_iff_right written]
    exact release_and_land_iff answers kept sentinelBatch sentinelInflight

variable [UnicodeDatabase]

/-- Over every tick, whatever its host steps do: a consumed claim's commit is delivered or
recorded exactly if the tick's consumption, when it gets there, strands nothing. -/
theorem consumed_is_delivered_iff (answers : Answers) (claims : Bool) (state : LearningState)
    (fresh : ∀ pending ∈ state.deliveries, pending.batchId ≠ answers.batchId) :
    ConsumedIsDelivered answers.batchId
        (runOpenedBatch answers claims (Tick.start state)).1 ↔
      ∀ tick, beforeConsumption answers claims state = some tick →
        answers.strandsNothing tick.served tick.curated := by
  have ended := run_opened_cases answers claims state fresh
  cases reached : beforeConsumption answers claims state with
  | none =>
    rw [reached] at ended
    exact iff_of_true ended.consumed (by simp)
  | some worked =>
    rw [reached] at ended
    rw [ended.2, consume_and_land_iff answers ended.1]
    simp

end Consuming

instance (batchId : Str) (tick : Tick) : Decidable (ConsumedIsDelivered batchId tick) := by
  unfold ConsumedIsDelivered
  infer_instance

def workingHost : Answers where
  tenant := some "acme"
  branchStart := "lead-author/"
  deliver _ := none
  dropRecord _ := .gone
  pitfallsOpen := false
  openPr := .ok false
  batchId := "b1"
  startBatch := none
  startBox := none
  stopRuns := none
  maxRetries := 3
  claim _ _ := {
    slotFault := none, moveFault := none, read := .found, admission := .active
    run := .opened "runs/r1", curator := .finished [some "c1"], requeueFault := none
    quarantineFault := none, stampFault := none, resetFault := none, unlink := .gone }
  curation := .curated (some ⟨["p1"], some "c1", []⟩)
  curationReset := none
  stopBox := none
  sentinel _ := none
  release _ := .gone
  maxAttempts := 3
  rotate := none
  retire := none
  finish := .ok .pullRequest
  mergeMode := none
  record := none
  discard := none

def oneRequest : LearningState where
  queue := Dict.ofList [("case-1.json", .ok ⟨some "case-1", "acme", "r1", 0⟩)]
  inflight := Dict.empty
  failed := Dict.empty
  sentinels := Dict.empty
  pitfalls := [⟨"p1", 0⟩]
  consumed := []
  deliveries := []

/-- A push that is refused and recorded strands nothing. -/
theorem recorded_batch_strands_nothing :
    let ended := (@runOpenedBatch asciiDatabase
      { workingHost with finish := .error .deliveryRefused } true (Tick.start oneRequest)).1
    ended.served.map (·.sha) = [some ("c1" : Str)] ∧ ended.inflight.keys = [] ∧
      ConsumedIsDelivered "b1" ended := by
  refine ⟨by decide +kernel, by decide +kernel, ?_⟩
  refine (@consumed_is_delivered_iff asciiDatabase
    { workingHost with finish := .error .deliveryRefused } true oneRequest (by decide)).mpr ?_
  exact fun tick _ => .inr (.inr ⟨fun _ _ => Unlink.noConfusion, fun _ _ _ => rfl, fun _ _ _ => rfl,
    .inr ⟨rfl, rfl⟩⟩)

/-- An appender that holds the pitfalls lock too long: the claim is gone, and nothing names its
batch. -/
theorem timed_out_rotation_strands_commit :
    (∀ pending ∈ oneRequest.deliveries, pending.batchId ≠ workingHost.batchId) ∧
      ¬ ConsumedIsDelivered "b1" (@runOpenedBatch asciiDatabase
        { workingHost with rotate := some .timeout } true (Tick.start oneRequest)).1 := by
  decide +kernel

end Defender.Learning.BatchTick
