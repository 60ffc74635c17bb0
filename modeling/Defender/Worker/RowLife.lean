import Defender.Jobs.AttemptChain
import Defender.Worker.EndWrites

/-!
# A row lives once and is accounted once

Only a finish could overwrite a row's accounting, on a running row that was handed
back. That row's holder decided a hand-back, and every end it may still try is a
hand-back too, so no finish of it is ever sent.
-/

namespace Defender.Worker

open Defender.Python Defender.Jobs

variable {Knowledge : Type} [DecidableEq Knowledge] {marker : Option Knowledge}

theorem lesser_ends_kind {decided attempt : End Knowledge}
    (member : attempt ∈ lesserEnds marker decided) :
    attempt.ending.isSome = decided.ending.isSome := by
  simp only [lesserEnds] at member
  split_ifs at member <;>
    simp only [List.mem_append, List.mem_cons, List.not_mem_nil, or_false] at member <;>
    grind

/-- The action is a transaction of an end that the holder may try. -/
def EndWrite (marker : Option Knowledge) (held : Held Knowledge) (action : Action Knowledge) :
    Prop :=
  ∃ decided, held.decided = some decided ∧ ∃ attempt ∈ lesserEnds marker decided,
    (∃ lapsed clock, action = attempt.write held lapsed clock) ∨
      ∃ clock, action = attempt.account held clock

theorem EndWrite.claims_nothing {held : Held Knowledge} {action : Action Knowledge}
    (sent : EndWrite marker held action) : action.claims = false := by
  obtain ⟨decided, -, attempt, -, ⟨lapsed, clock, rfl⟩ | ⟨clock, rfl⟩⟩ := sent
  · unfold End.write
    split <;> rfl
  · rfl

theorem EndWrite.finishes_own {held : Held Knowledge} {action : Action Knowledge}
    (sent : EndWrite marker held action) {row : InvestigationRow Knowledge}
    (finishes : action.finishes row = true) :
    row.id = held.id ∧ ∃ decided, held.decided = some decided ∧ decided.ending.isSome := by
  obtain ⟨decided, isDecided, attempt, member, ⟨lapsed, clock, rfl⟩ | ⟨clock, rfl⟩⟩ := sent
  · have kind := lesser_ends_kind member
    unfold End.write at finishes
    split at finishes
    · rename_i ending isEnding
      simp only [Action.finishes, Bool.and_eq_true, beq_iff_eq] at finishes
      exact ⟨finishes.1.1.2, decided, isDecided, by rw [← kind, isEnding]; rfl⟩
    · cases finishes
  · cases finishes

theorem EndWrite.hands_back_own {held : Held Knowledge} {action : Action Knowledge}
    (sent : EndWrite marker held action) {row : InvestigationRow Knowledge}
    (handsBack : action.handsBack row = true) :
    row.id = held.id ∧ ∃ decided, held.decided = some decided ∧ decided.ending = none := by
  obtain ⟨decided, isDecided, attempt, member, ⟨lapsed, clock, rfl⟩ | ⟨clock, rfl⟩⟩ := sent
  · have kind := lesser_ends_kind member
    unfold End.write at handsBack
    split at handsBack
    · cases handsBack
    · rename_i isHandBack
      simp only [Action.handsBack, Bool.and_eq_true, beq_iff_eq] at handsBack
      refine ⟨handsBack.1.2, decided, isDecided, ?_⟩
      rw [isHandBack] at kind
      exact Option.isSome_eq_false_iff.mp kind.symm |> Option.isNone_iff_eq_none.mp
  · cases handsBack

/-- An action that a world may commit outside a claim. -/
def Permitted (marker : Option Knowledge) (world : World Knowledge) (action : Action Knowledge) :
    Prop :=
  byHolder action = false ∨ ∃ held ∈ world.holds, EndWrite marker held action

theorem Permitted.claims_nothing {world : World Knowledge} {action : Action Knowledge}
    (permitted : Permitted marker world action) : action.claims = false := by
  rcases permitted with outside | ⟨held, -, sent⟩
  · cases action <;> first | rfl | cases outside
  · exact sent.claims_nothing

theorem Permitted.hands_back {world : World Knowledge} {action : Action Knowledge}
    (permitted : Permitted marker world action) {row : InvestigationRow Knowledge}
    (handsBack : action.handsBack row = true) :
    ∃ held ∈ world.holds, held.id = row.id ∧
      ∃ decided, held.decided = some decided ∧ decided.ending = none := by
  rcases permitted with outside | ⟨held, member, sent⟩
  · cases action <;> first | cases handsBack | cases outside
  · obtain ⟨same, decided⟩ := sent.hands_back_own handsBack
    exact ⟨held, member, same.symm, decided⟩

section Invariant

/-- What holds in every reachable world. -/
structure Accounted (marker : Option Knowledge) (world : World Knowledge) : Prop where
  chained : Chained world.store
  once : world.claimed.Nodup
  minted : ∀ id ∈ world.claimed, id ∈ world.store.minted
  queued : ∀ row ∈ world.store.rows, row.stage = .queued →
    row.accountingWrittenAt = none ∧ row.id ∉ world.claimed
  holders : (world.holds.map (·.id)).Nodup
  held : ∀ held ∈ world.holds, held.id ∈ world.claimed
  fresh : ∀ held ∈ world.holds, held.phase = .working → held.decided = none
  ready : ∀ held ∈ world.holds, ∀ attempt ∈ held.phase.ends,
    ∃ decided, held.decided = some decided ∧ attempt ∈ lesserEnds marker decided
  flying : ∀ action ∈ world.inFlight, ∃ held ∈ world.holds, EndWrite marker held action
  handedBack : ∀ row ∈ world.store.rows, row.stage = .running →
    row.accountingWrittenAt.isSome → ∃ held ∈ world.holds, held.id = row.id ∧
      ∃ decided, held.decided = some decided ∧ decided.ending = none

theorem empty_accounted : Accounted marker (World.empty : World Knowledge) where
  chained := empty_chained
  once := List.nodup_nil
  minted := by simp [World.empty]
  queued := by simp [World.empty, Store.empty]
  holders := List.nodup_nil
  held := by simp [World.empty]
  fresh := by simp [World.empty]
  ready := by simp [World.empty]
  flying := by simp [World.empty]
  handedBack := by simp [World.empty, Store.empty]

variable {world : World Knowledge} {action : Action Knowledge}

theorem Accounted.spares_marked (accounted : Accounted marker world)
    (permitted : Permitted marker world action) {row : InvestigationRow Knowledge}
    (member : row ∈ world.store.rows) (marked : row.accountingWrittenAt.isSome) :
    action.finishes row = false := by
  by_contra overwrites
  rw [Bool.not_eq_false] at overwrites
  rcases permitted with outside | ⟨held, heldMember, sent⟩
  · cases action <;> first | cases overwrites | cases outside
  · have running : row.stage = .running := by
      cases action <;> first | cases overwrites | skip
      simp only [Action.finishes, Bool.and_eq_true, beq_iff_eq] at overwrites
      exact overwrites.1.2
    obtain ⟨same, decided, isDecided, ending⟩ := sent.finishes_own overwrites
    obtain ⟨other, otherMember, otherSame, handBack, isHandBack, noEnding⟩ :=
      accounted.handedBack row member running marked
    have one : held = other := List.inj_on_of_nodup_map accounted.holders heldMember otherMember
      (same.symm.trans otherSame.symm)
    rw [one, isHandBack] at isDecided
    cases isDecided
    simp [noEnding] at ending

end Invariant

section Commits

variable {world : World Knowledge} {action : Action Knowledge}

/-- A committed action that the world permits keeps the invariant. -/
theorem Accounted.commit (accounted : Accounted marker world)
    (permitted : Permitted marker world action) : Accounted marker (world.commit action) := by
  have stepped := step_cases world.store accounted.chained.ids action
  have minted : ∀ id ∈ world.claimed, id ∈ (step world.store action).minted :=
    fun id claimed => stepped.minted_grows (accounted.minted id claimed)
  refine ⟨step_chained accounted.chained action, accounted.once, minted, ?_, accounted.holders,
    accounted.held, accounted.fresh, accounted.ready, accounted.flying, ?_⟩
  · intro row member isQueued
    rcases stepped.origin member with ⟨before, beforeMember, kept⟩ | ⟨-, unmarked, isNew⟩
    · have wasQueued : before.stage = .queued := (isQueued ▸ kept.stage).to_queued
      obtain ⟨unmarked, unclaimed⟩ := accounted.queued before beforeMember wasQueued
      refine ⟨?_, by rw [kept.id]; exact unclaimed⟩
      by_contra marked
      have handsBack := kept.marks unmarked (Option.isSome_iff_ne_none.mpr marked)
        (by rw [isQueued]; rfl)
      cases action <;> first | cases handsBack | skip
      simp [Action.handsBack, wasQueued] at handsBack
    · exact ⟨unmarked, fun claimed => isNew (accounted.minted _ claimed)⟩
  · intro row member running marked
    rcases stepped.origin member with ⟨before, beforeMember, kept⟩ | ⟨isQueued, -, -⟩
    · have wasRunning : before.stage = .running := by
        rcases (running ▸ kept.stage).to_running with wasRunning | wasQueued
        · exact wasRunning
        · have claims := kept.claimed wasQueued running
          rw [permitted.claims_nothing] at claims
          cases claims
      by_cases wasMarked : before.accountingWrittenAt.isSome
      · rw [kept.id]
        exact accounted.handedBack before beforeMember wasRunning wasMarked
      · have handsBack := kept.marks (by simpa using wasMarked) marked (by rw [running]; rfl)
        rw [kept.id]
        exact permitted.hands_back handsBack
    · rw [isQueued] at running
      cases running

/-- Holds may change what they still try, as long as they keep what they decided. -/
theorem Accounted.rehold (accounted : Accounted marker world)
    (change : Held Knowledge → Held Knowledge)
    (sameId : ∀ held, (change held).id = held.id)
    (sameTenant : ∀ held, (change held).tenant = held.tenant)
    (keeps : ∀ held ∈ world.holds, ∀ decided, held.decided = some decided →
      (change held).decided = some decided)
    (fresh : ∀ held ∈ world.holds, (change held).phase = .working →
      (change held).decided = none)
    (ready : ∀ held ∈ world.holds, ∀ attempt ∈ (change held).phase.ends,
      ∃ decided, (change held).decided = some decided ∧ attempt ∈ lesserEnds marker decided) :
    Accounted marker { world with holds := world.holds.map change } := by
  refine ⟨accounted.chained, accounted.once, accounted.minted, accounted.queued, ?_, ?_, ?_, ?_,
    ?_, ?_⟩
  · have ids : (world.holds.map change).map (·.id) = world.holds.map (·.id) := by
      rw [List.map_map]
      exact List.map_congr_left fun held _ => sameId held
    rw [ids]
    exact accounted.holders
  · intro after member
    obtain ⟨held, heldMember, rfl⟩ := List.mem_map.mp member
    rw [sameId]
    exact accounted.held held heldMember
  · intro after member
    obtain ⟨held, heldMember, rfl⟩ := List.mem_map.mp member
    exact fresh held heldMember
  · intro after member
    obtain ⟨held, heldMember, rfl⟩ := List.mem_map.mp member
    exact ready held heldMember
  · intro action flying
    obtain ⟨held, heldMember, decided, isDecided, attempt, attemptMember, sent⟩ :=
      accounted.flying action flying
    refine ⟨change held, List.mem_map_of_mem heldMember, decided,
      keeps held heldMember decided isDecided, attempt, attemptMember, ?_⟩
    simpa only [End.write, End.account, sameId, sameTenant] using sent
  · intro row member running marked
    obtain ⟨held, heldMember, same, decided, isDecided, handBack⟩ :=
      accounted.handedBack row member running marked
    exact ⟨change held, List.mem_map_of_mem heldMember, (sameId held).trans same, decided,
      keeps held heldMember decided isDecided, handBack⟩

theorem Accounted.set_phase (accounted : Accounted marker world) (id : Str)
    (phase : Phase Knowledge) (notWorking : phase ≠ .working)
    (ready : ∀ held ∈ world.holds, held.id = id → ∀ attempt ∈ phase.ends,
      ∃ decided, held.decided = some decided ∧ attempt ∈ lesserEnds marker decided) :
    Accounted marker (world.setPhase id phase) := by
  refine accounted.rehold _ ?_ ?_ ?_ ?_ ?_
  · intro held
    split <;> rfl
  · intro held
    split <;> rfl
  · intro held _ decided isDecided
    split <;> exact isDecided
  · intro held member working
    by_cases same : held.id = id
    · simp only [same, beq_self_eq_true, if_true] at working
      exact absurd working notWorking
    · simp only [same, beq_iff_eq, if_false] at working ⊢
      exact accounted.fresh held member working
  · intro held member attempt attemptMember
    by_cases same : held.id = id
    · simp only [same, beq_self_eq_true, if_true] at attemptMember ⊢
      exact ready held member same attempt attemptMember
    · simp only [same, beq_iff_eq, if_false] at attemptMember ⊢
      exact accounted.ready held member attempt attemptMember

theorem Accounted.release (accounted : Accounted marker world) (id : Str) :
    Accounted marker (world.setPhase id .released) :=
  accounted.set_phase id .released (by simp) (by simp [Phase.ends])

theorem held_decide_cases (id : Str) (decided : End Knowledge) (held : Held Knowledge) :
    held.decide marker id decided = held ∨ (held.phase = .working ∧
      held.decide marker id decided =
        { held with decided := some decided, phase := .ending (lesserEnds marker decided) }) := by
  simp only [Held.decide]
  split
  · rename_i working
    split
    · exact .inr ⟨working, rfl⟩
    · exact .inl rfl
  · exact .inl rfl

theorem Accounted.decide (accounted : Accounted marker world) (id : Str)
    (decided : End Knowledge) : Accounted marker (world.decide marker id decided) := by
  refine accounted.rehold _ ?_ ?_ ?_ ?_ ?_
  · intro held
    rcases held_decide_cases id decided held with same | ⟨-, same⟩ <;> rw [same]
  · intro held
    rcases held_decide_cases id decided held with same | ⟨-, same⟩ <;> rw [same]
  · intro held member before isBefore
    rcases held_decide_cases id decided held with same | ⟨working, -⟩
    · rw [same]
      exact isBefore
    · rw [accounted.fresh held member working] at isBefore
      cases isBefore
  · intro held member
    rcases held_decide_cases id decided held with same | ⟨-, same⟩ <;> rw [same]
    · exact accounted.fresh held member
    · exact fun working => by cases working
  · intro held member attempt
    rcases held_decide_cases id decided held with same | ⟨-, same⟩ <;> rw [same]
    · exact accounted.ready held member attempt
    · exact fun attemptMember => ⟨decided, rfl, attemptMember⟩

theorem Accounted.fly (accounted : Accounted marker world)
    {flights : List (Action Knowledge)}
    (flying : ∀ action ∈ flights, ∃ held ∈ world.holds, EndWrite marker held action) :
    Accounted marker { world with inFlight := flights } :=
  ⟨accounted.chained, accounted.once, accounted.minted, accounted.queued, accounted.holders,
    accounted.held, accounted.fresh, accounted.ready, flying, accounted.handedBack⟩

theorem Accounted.land (accounted : Accounted marker world) {held : Held Knowledge}
    (member : held ∈ world.holds) (sent : EndWrite marker held action) (landing : Landing) :
    Accounted marker (world.land action landing) := by
  cases landing with
  | never => exact accounted
  | now => exact accounted.commit (.inr ⟨held, member, sent⟩)
  | later =>
    refine accounted.fly fun other flying => ?_
    rcases List.mem_cons.mp flying with rfl | flying
    · exact ⟨held, member, sent⟩
    · exact accounted.flying other flying

theorem Accounted.retry {after : World Knowledge} (accounted : Accounted marker world)
    {held : Held Knowledge} (member : held ∈ world.holds)
    (afterAccounted : Accounted marker after) (sameHolds : after.holds = world.holds)
    {phase : Phase Knowledge} (notWorking : phase ≠ .working)
    (fewer : ∀ attempt ∈ phase.ends, attempt ∈ held.phase.ends) :
    Accounted marker (after.setPhase held.id phase) := by
  refine afterAccounted.set_phase held.id phase notWorking ?_
  intro other otherMember same attempt attemptMember
  rw [sameHolds] at otherMember
  have one : other = held :=
    List.inj_on_of_nodup_map accounted.holders otherMember member same
  rw [one]
  exact accounted.ready held member attempt (fewer attempt attemptMember)

end Commits

section Runs

variable {world : World Knowledge}

/-- One transaction of a try, whatever comes back. -/
theorem Accounted.end_once (accounted : Accounted marker world) {held : Held Knowledge}
    (member : held ∈ world.holds) (answer : Answer) (lapsed clock : Int) :
    Accounted marker (endOnce world held answer lapsed clock) := by
  unfold endOnce
  split
  · rename_i attempt rest phase
    obtain ⟨decided, isDecided, attemptMember⟩ :=
      accounted.ready held member attempt (by simp [phase, Phase.ends])
    have sent : EndWrite marker held (attempt.write held lapsed clock) :=
      ⟨decided, isDecided, attempt, attemptMember, .inl ⟨lapsed, clock, rfl⟩⟩
    cases answer with
    | returned =>
      refine accounted.retry member (accounted.commit (.inr ⟨held, member, sent⟩)) rfl ?_ ?_
      · split <;> simp
      · split <;> simp [phase, Phase.ends]
    | outage landing =>
      exact accounted.retry member (accounted.land member sent landing) (by simp) (by simp)
        (by simp [phase, Phase.ends])
    | refusal =>
      refine accounted.retry member accounted rfl ?_ ?_
      · cases rest <;> simp [nextEnd]
      · cases rest <;> simp +contextual [nextEnd, phase, Phase.ends]
    | fault landing => exact (accounted.land member sent landing).release held.id
  · rename_i attempt rest phase
    obtain ⟨decided, isDecided, attemptMember⟩ :=
      accounted.ready held member attempt (by simp [phase, Phase.ends])
    have sent : EndWrite marker held (attempt.account held clock) :=
      ⟨decided, isDecided, attempt, attemptMember, .inr ⟨clock, rfl⟩⟩
    cases answer with
    | returned => exact (accounted.commit (.inr ⟨held, member, sent⟩)).release held.id
    | outage landing =>
      exact accounted.retry member (accounted.land member sent landing) (by simp) (by simp)
        (by simp [phase, Phase.ends])
    | refusal =>
      refine accounted.retry member accounted rfl ?_ ?_
      · cases rest <;> simp [nextEnd]
      · cases rest <;> simp +contextual [nextEnd, phase, Phase.ends]
    | fault landing => exact (accounted.land member sent landing).release held.id
  · exact accounted

/-- A claim takes a row that was never claimed. -/
theorem Accounted.claim (accounted : Accounted marker world) (worker : Nat)
    (locked : List Str) (clock leaseEnd : Int) (answered : Bool) :
    Accounted marker (world.step marker (.claim worker locked clock leaseEnd answered)) := by
  simp only [World.step]
  split
  · exact accounted
  rename_i row isClaimed
  obtain ⟨⟨picked, pickedMember, pickedQueued, sameId⟩, others⟩ := claim_answer isClaimed
  have unclaimed : row.id ∉ world.claimed := by
    rw [sameId]
    exact (accounted.queued picked pickedMember pickedQueued).2
  have stepped := claim_step world.store locked clock leaseEnd
  have unheld : row.id ∉ world.holds.map (·.id) := by
    intro isHeld
    obtain ⟨held, heldMember, same⟩ := List.mem_map.mp isHeld
    exact unclaimed (same ▸ accounted.held held heldMember)
  have holdCases : ∀ held ∈ (if answered then
      (⟨worker, row.tenant, row.id, none, .working⟩ : Held Knowledge) :: world.holds
      else world.holds), held ∈ world.holds ∨
        held = ⟨worker, row.tenant, row.id, none, .working⟩ := by
    intro held member
    split at member
    · rcases List.mem_cons.mp member with rfl | member
      · exact .inr rfl
      · exact .inl member
    · exact .inl member
  have stillHeld : ∀ held ∈ world.holds, held ∈ (if answered then
      (⟨worker, row.tenant, row.id, none, .working⟩ : Held Knowledge) :: world.holds
      else world.holds) := by
    intro held member
    split
    · exact List.mem_cons_of_mem _ member
    · exact member
  refine ⟨stepped.chained accounted.chained, List.nodup_cons.mpr ⟨unclaimed, accounted.once⟩,
    ?_, ?_, ?_, ?_, ?_, ?_, ?_, ?_⟩
  · intro id claimed
    refine stepped.minted_grows ?_
    rcases List.mem_cons.mp claimed with rfl | claimed
    · rw [sameId]
      exact accounted.chained.minted picked pickedMember
    · exact accounted.minted id claimed
  · intro after member isQueued
    rcases stepped.origin member with ⟨before, beforeMember, kept⟩ | ⟨-, unmarked, isNew⟩
    · obtain ⟨unmarked, beforeUnclaimed⟩ :=
        accounted.queued before beforeMember (isQueued ▸ kept.stage).to_queued
      constructor
      · by_contra marked
        have handsBack := kept.marks unmarked (Option.isSome_iff_ne_none.mpr marked)
          (by rw [isQueued]; rfl)
        cases handsBack
      · rw [List.mem_cons, not_or]
        exact ⟨others after member isQueued, by rw [kept.id]; exact beforeUnclaimed⟩
    · refine ⟨unmarked, ?_⟩
      rw [List.mem_cons, not_or]
      exact ⟨others after member isQueued, fun claimed => isNew (accounted.minted _ claimed)⟩
  · split
    · exact List.nodup_cons.mpr ⟨unheld, accounted.holders⟩
    · exact accounted.holders
  · intro held member
    rcases holdCases held member with member | rfl
    · exact List.mem_cons_of_mem _ (accounted.held held member)
    · exact List.mem_cons_self
  · intro held member working
    rcases holdCases held member with member | rfl
    · exact accounted.fresh held member working
    · rfl
  · intro held member
    rcases holdCases held member with member | rfl
    · exact accounted.ready held member
    · simp [Phase.ends]
  · intro action flying
    obtain ⟨held, member, sent⟩ := accounted.flying action flying
    exact ⟨held, stillHeld held member, sent⟩
  · intro after member running marked
    rcases stepped.origin member with ⟨before, beforeMember, kept⟩ | ⟨isQueued, -, -⟩
    · have wasMarked : before.accountingWrittenAt.isSome := by
        by_contra unmarked
        have handsBack := kept.marks (by simpa using unmarked) marked (by rw [running]; rfl)
        cases handsBack
      rcases (running ▸ kept.stage).to_running with wasRunning | wasQueued
      · obtain ⟨held, heldMember, same, decided⟩ :=
          accounted.handedBack before beforeMember wasRunning wasMarked
        exact ⟨held, stillHeld held heldMember, same.trans kept.id.symm, decided⟩
      · rw [(accounted.queued before beforeMember wasQueued).1] at wasMarked
        cases wasMarked
    · rw [isQueued] at running
      cases running

theorem step_accounted (accounted : Accounted marker world) (event : Event Knowledge) :
    Accounted marker (world.step marker event) := by
  cases event with
  | transaction action =>
    simp only [World.step]
    split
    · exact accounted
    · exact accounted.commit (.inl (Bool.eq_false_iff.mpr (by assumption)))
  | claim worker locked clock leaseEnd answered =>
    exact accounted.claim worker locked clock leaseEnd answered
  | decide id decided => exact accounted.decide id decided
  | write id answer lapsed clock =>
    simp only [World.step]
    split
    · exact accounted
    · rename_i held found
      exact accounted.end_once (List.mem_of_find?_eq_some found) answer lapsed clock
  | lands place =>
    simp only [World.step]
    split
    · exact accounted
    · rename_i action found
      have committed := accounted.commit (.inr (accounted.flying action
        (List.mem_of_getElem? found)))
      exact committed.fly fun other flying =>
        accounted.flying other (List.mem_of_mem_eraseIdx flying)
  | release id => exact accounted.release id

theorem run_accounted (events : List (Event Knowledge)) :
    Accounted marker (World.run marker events) := by
  have stepped : ∀ (events : List (Event Knowledge)) (world : World Knowledge),
      Accounted marker world → Accounted marker (events.foldl (World.step marker) world) := by
    intro events
    induction events with
    | nil => exact fun world accounted => accounted
    | cons event rest ih => exact fun world accounted => ih _ (step_accounted accounted event)
  exact stepped events .empty empty_accounted

end Runs

section Lives

variable {world : World Knowledge}

/-- A row and the same row one step later. -/
structure Lives (row next : InvestigationRow Knowledge) : Prop where
  id : next.id = row.id
  stage : StageMove row.stage next.stage
  accounted : row.accountingWrittenAt.isSome → next.costUsd = row.costUsd ∧
    next.knowledge = row.knowledge ∧ next.accountingWrittenAt = row.accountingWrittenAt

/-- Every step commits nothing, one permitted action or a claim. -/
theorem step_store (accounted : Accounted marker world) (event : Event Knowledge) :
    (world.step marker event).store = world.store ∨
      ∃ action, (world.step marker event).store = Jobs.step world.store action ∧
        (Permitted marker world action ∨ action.claims = true) := by
  have landed : ∀ {action : Action Knowledge} (landing : Landing),
      (world.land action landing).store = world.store ∨
        (world.land action landing).store = Jobs.step world.store action := by
    intro action landing
    cases landing with
    | never => exact .inl rfl
    | now => exact .inr rfl
    | later => exact .inl rfl
  cases event with
  | transaction action =>
    simp only [World.step]
    split
    · exact .inl rfl
    · exact .inr ⟨action, rfl, .inl (.inl (Bool.eq_false_iff.mpr (by assumption)))⟩
  | claim worker locked clock leaseEnd answered =>
    simp only [World.step]
    split
    · exact .inl rfl
    · exact .inr ⟨.claim locked clock leaseEnd, rfl, .inr rfl⟩
  | decide id decided => exact .inl rfl
  | write id answer lapsed clock =>
    simp only [World.step]
    split
    · exact .inl rfl
    rename_i held found
    have member := List.mem_of_find?_eq_some found
    have sentBy : ∀ {action : Action Knowledge}, EndWrite marker held action →
        Permitted marker world action := fun sent => .inr ⟨held, member, sent⟩
    unfold endOnce
    split
    · rename_i attempt rest phase
      obtain ⟨decided, isDecided, attemptMember⟩ :=
        accounted.ready held member attempt (by simp [phase, Phase.ends])
      have permitted := sentBy ⟨decided, isDecided, attempt, attemptMember,
        .inl ⟨lapsed, clock, rfl⟩⟩
      cases answer with
      | returned => exact .inr ⟨_, rfl, .inl permitted⟩
      | outage landing | fault landing =>
        exact (landed landing).imp_right fun same => ⟨_, same, .inl permitted⟩
      | refusal => exact .inl rfl
    · rename_i attempt rest phase
      obtain ⟨decided, isDecided, attemptMember⟩ :=
        accounted.ready held member attempt (by simp [phase, Phase.ends])
      have permitted := sentBy ⟨decided, isDecided, attempt, attemptMember, .inr ⟨clock, rfl⟩⟩
      cases answer with
      | returned => exact .inr ⟨_, rfl, .inl permitted⟩
      | outage landing | fault landing =>
        exact (landed landing).imp_right fun same => ⟨_, same, .inl permitted⟩
      | refusal => exact .inl rfl
    · exact .inl rfl
  | lands place =>
    simp only [World.step]
    split
    · exact .inl rfl
    · rename_i action found
      exact .inr ⟨action, rfl, .inl (.inr (accounted.flying action
        (List.mem_of_getElem? found)))⟩
  | release id => exact .inl rfl

theorem step_lives (accounted : Accounted marker world) (event : Event Knowledge) :
    (∀ next ∈ (world.step marker event).store.rows,
      (∃ row ∈ world.store.rows, Lives row next) ∨
        (next.stage = .queued ∧ next.id ∉ world.store.minted)) ∧
      world.store.minted ⊆ (world.step marker event).store.minted := by
  rcases step_store accounted event with same | ⟨action, same, allowed⟩
  · rw [same]
    refine ⟨fun next member => .inl ⟨next, member, rfl, .stay _, fun _ => ⟨rfl, rfl, rfl⟩⟩,
      List.Subset.refl _⟩
  · rw [same]
    have stepped := step_cases world.store accounted.chained.ids action
    refine ⟨?_, stepped.minted_grows⟩
    intro next member
    rcases stepped.origin member with ⟨row, rowMember, kept⟩ | ⟨queued, -, isNew⟩
    · refine .inl ⟨row, rowMember, kept.id, kept.stage, fun marked => kept.marked marked ?_⟩
      rcases allowed with permitted | claims
      · exact accounted.spares_marked permitted rowMember marked
      · exact claims_spares claims row
    · exact .inr ⟨queued, isNew⟩

theorem run_snoc (events : List (Event Knowledge)) (event : Event Knowledge) :
    World.run marker (events ++ [event]) = (World.run marker events).step marker event := by
  simp [World.run, List.foldl_append]

theorem run_minted_grows (events later : List (Event Knowledge)) :
    (World.run marker events).store.minted ⊆ (World.run marker (events ++ later)).store.minted := by
  induction later using List.reverseRecOn with
  | nil => simp
  | append_singleton later event ih =>
    rw [← List.append_assoc, run_snoc]
    exact List.Subset.trans ih (step_lives (run_accounted _) event).2

/-- A row seen again later is past no terminal stage, and its accounting stands. -/
theorem run_lives (events later : List (Event Knowledge)) {row next : InvestigationRow Knowledge}
    (member : row ∈ (World.run marker events).store.rows)
    (nextMember : next ∈ (World.run marker (events ++ later)).store.rows)
    (same : next.id = row.id) :
    (row.stage.live = false → next.stage = row.stage) ∧
      (row.accountingWrittenAt.isSome → next.costUsd = row.costUsd ∧
        next.knowledge = row.knowledge ∧ next.accountingWrittenAt = row.accountingWrittenAt) := by
  induction later using List.reverseRecOn generalizing next with
  | nil =>
    rw [List.append_nil] at nextMember
    have isRow : next = row := List.inj_on_of_nodup_map (run_accounted events).chained.ids
      nextMember member same
    rw [isRow]
    exact ⟨fun _ => rfl, fun _ => ⟨rfl, rfl, rfl⟩⟩
  | append_singleton later event ih =>
    rw [← List.append_assoc, run_snoc] at nextMember
    rcases (step_lives (run_accounted _) event).1 next nextMember with
      ⟨before, beforeMember, lives⟩ | ⟨-, isNew⟩
    · obtain ⟨ended, accounted⟩ := ih beforeMember (lives.id.symm.trans same)
      constructor
      · intro terminal
        have beforeEnded := ended terminal
        rw [lives.stage.terminal_stays (by rw [beforeEnded]; exact terminal), beforeEnded]
      · intro marked
        obtain ⟨cost, knowledge, mark⟩ := accounted marked
        obtain ⟨nextCost, nextKnowledge, nextMark⟩ := lives.accounted (by rw [mark]; exact marked)
        exact ⟨nextCost.trans cost, nextKnowledge.trans knowledge, nextMark.trans mark⟩
    · -- the id was minted when the row was there, so no new row can carry it
      have minted := run_minted_grows events later ((run_accounted events).chained.minted row member)
      rw [same] at isNew
      exact absurd minted isNew

/-- Over every interleaving a row is claimed at most once, moves only forward through its
stages from `queued`, stays in its terminal stage, and keeps its accounting once marked. -/
theorem row_lives_once (marker : Option Knowledge) (events : List (Event Knowledge)) :
    (World.run marker events).claimed.Nodup ∧
    (∀ (event : Event Knowledge),
      ∀ next ∈ (World.run marker (events ++ [event])).store.rows,
        (∃ row ∈ (World.run marker events).store.rows, row.id = next.id ∧
          StageMove row.stage next.stage) ∨
        ((∀ row ∈ (World.run marker events).store.rows, row.id ≠ next.id) ∧
          next.stage = .queued)) ∧
    ∀ (later : List (Event Knowledge)), ∀ row ∈ (World.run marker events).store.rows,
      ∀ next ∈ (World.run marker (events ++ later)).store.rows, next.id = row.id →
        (row.stage.live = false → next.stage = row.stage) ∧
        (row.accountingWrittenAt.isSome → next.costUsd = row.costUsd ∧
          next.knowledge = row.knowledge ∧
          next.accountingWrittenAt = row.accountingWrittenAt) := by
  have accounted : Accounted marker (World.run marker events) := run_accounted events
  refine ⟨accounted.once, ?_, ?_⟩
  · intro event next member
    rw [run_snoc] at member
    rcases (step_lives accounted event).1 next member with
      ⟨row, rowMember, lives⟩ | ⟨queued, isNew⟩
    · exact .inl ⟨row, rowMember, lives.id.symm, lives.stage⟩
    · refine .inr ⟨?_, queued⟩
      intro row rowMember same
      exact isNew (same ▸ accounted.chained.minted row rowMember)
  · exact fun later row member next nextMember same =>
      run_lives events later member nextMember same

/-- A hand-back that commits but is answered as an outage, tried again, then taken over. -/
def handedBackTwice : List (Event Unit) :=
  [.transaction (.insertAlert "t" "a"), .transaction (.putAlertMapping "t"),
    .transaction (.create "t" "a" "k" "i1" 0), .claim 1 [] 1 9 true,
    .decide "i1" ⟨none, some 2, some ()⟩, .write "i1" (.outage .now) 4 5,
    .write "i1" .returned 6 7]

theorem handed_back_twice_accounted_once :
    ((World.run none handedBackTwice).store.rows.map fun row =>
        (row.stage, row.costUsd, row.accountingWrittenAt)) =
        [(.running, some 2, some 5)] ∧
      ∀ row ∈ (World.run none handedBackTwice).store.rows,
        ∀ next ∈ (World.run none (handedBackTwice ++
          [.write "i1" .returned 8 9, .transaction (.takeOver [] [] 10 11 "i2")])).store.rows,
          next.id = row.id → (row.stage.live = false → next.stage = row.stage) ∧
            (row.accountingWrittenAt.isSome → next.costUsd = row.costUsd ∧
              next.knowledge = row.knowledge ∧
              next.accountingWrittenAt = row.accountingWrittenAt) :=
  ⟨by decide +kernel, (row_lives_once none handedBackTwice).2.2 _⟩

end Lives

end Defender.Worker
