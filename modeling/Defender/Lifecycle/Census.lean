import Defender.Lifecycle.Workers

/-!
# The census of a tenant's generations

How many generations a job's step has pending and live. A step's region says it: before
`names` nothing is pending, up to `sweep` one generation is, later one is live. A commit
moves the census as it moves the step.
-/

namespace Defender.Lifecycle

open Defender.Python Defender.Tenancy Defender.Library.Programs

/-- The steps of an action from one of them on, as `NEXT` links them. -/
def chainFrom (action : PendingAction) : Nat → StepName → List StepName
  | 0, _ => []
  | fuel + 1, step =>
    match nextOf action step with
    | none => []
    | some none => [step]
    | some (some (next, _)) => step :: chainFrom action fuel next

/-- The steps of create or rotate, `names` first. -/
def stepsOf (action : PendingAction) : List StepName := chainFrom action 18 .names

/-- The steps after `names` and up to `sweep`. -/
def buildingSteps (action : PendingAction) : List StepName :=
  ((stepsOf action).takeWhile (· ≠ StepName.sweep) ++ [StepName.sweep]).drop 1

/-- The steps after `sweep`. -/
def laterSteps (action : PendingAction) : List StepName :=
  ((stepsOf action).dropWhile (· ≠ StepName.sweep)).drop 1

inductive Region where
  | unnamed | building | later | ending | gone
  deriving DecidableEq

def regionOf : PendingAction → StepName → Option Region
  | .create, .names | .rotate, .names => some .unnamed
  | .create, .provider | .create, .repo | .create, .bot | .create, .integration
  | .create, .template | .create, .wrap | .create, .install | .create, .sweep => some .building
  | .rotate, .provider | .rotate, .bot | .rotate, .protect | .rotate, .integration
  | .rotate, .wrap | .rotate, .install | .rotate, .sweep => some .building
  | .create, .prepare | .create, .activate => some .later
  | .rotate, .retire | .rotate, .removeOldFile => some .later
  | .offboard, .offboard => some .ending
  | .offboard, .teardown | .offboard, .finish => some .gone
  | .deleteRepo, .deleteRepo => some .gone
  | _, _ => none

theorem building_region {action : PendingAction} {step : StepName}
    (member : step ∈ buildingSteps action)
    (builds : action = .create ∨ action = .rotate) : regionOf action step = some .building := by
  cases builds with
  | inl create =>
    subst create
    have listed : buildingSteps .create = [.provider, .repo, .bot, .integration, .template, .wrap,
      .install, .sweep] := by decide
    rw [listed] at member
    simp only [List.mem_cons, List.not_mem_nil, or_false] at member
    rcases member with rfl | rfl | rfl | rfl | rfl | rfl | rfl | rfl <;> rfl
  | inr rotate =>
    subst rotate
    have listed : buildingSteps .rotate = [.provider, .bot, .protect, .integration, .wrap,
      .install, .sweep] := by decide
    rw [listed] at member
    simp only [List.mem_cons, List.not_mem_nil, or_false] at member
    rcases member with rfl | rfl | rfl | rfl | rfl | rfl | rfl <;> rfl

theorem later_region {action : PendingAction} {step : StepName}
    (member : step ∈ laterSteps action)
    (builds : action = .create ∨ action = .rotate) : regionOf action step = some .later := by
  cases builds with
  | inl create =>
    subst create
    have listed : laterSteps .create = [.prepare, .activate] := by decide
    rw [listed] at member
    simp only [List.mem_cons, List.not_mem_nil, or_false] at member
    rcases member with rfl | rfl <;> rfl
  | inr rotate =>
    subst rotate
    have listed : laterSteps .rotate = [.retire, .removeOldFile] := by decide
    rw [listed] at member
    simp only [List.mem_cons, List.not_mem_nil, or_false] at member
    rcases member with rfl | rfl <;> rfl

section Counts

def countOf (status : GenerationStatus) (generations : List Generation) : Nat :=
  (generations.filter (·.status = status)).length

def allDestroyed (generations : List Generation) : Prop :=
  ∀ held ∈ generations, held.status = .destroyed

/-- What is live before a rotation's `sweep`; a creation has nothing live yet. -/
def liveBefore : PendingAction → Nat
  | .rotate => 1
  | _ => 0

def Counted (action : PendingAction) (generations : List Generation) : Region → Prop
  | .unnamed => countOf .pending generations = 0 ∧ countOf .live generations = liveBefore action
  | .building => countOf .pending generations = 1 ∧ countOf .live generations = liveBefore action
  | .later => countOf .pending generations = 0 ∧ countOf .live generations = 1
  | .ending => True
  | .gone => allDestroyed generations

/-- The census of a tenant's row. -/
structure Census (record : TenantRecord) (generations : List Generation) : Prop where
  pair : allowedPair record.state record.pendingAction = true
  apart : (saltsOf generations).Nodup
  job : ∀ action, record.pendingAction = some action →
    ∃ step region, record.step = some step ∧ regionOf action step = some region ∧
      Counted action generations region
  active : record.state = .active → record.pendingAction = none →
    countOf .pending generations = 0 ∧ countOf .live generations = 1
  offboarded : record.state = .offboarded → allDestroyed generations

theorem count_perm {status : GenerationStatus} {left right : List Generation}
    (same : left.Perm right) : countOf status left = countOf status right :=
  (same.filter _).length_eq

theorem count_append (status : GenerationStatus) (left right : List Generation) :
    countOf status (left ++ right) = countOf status left + countOf status right := by
  unfold countOf
  rw [List.filter_append, List.length_append]

theorem count_map {status : GenerationStatus} {change : Generation → Generation}
    {generations : List Generation} {named : Generation → Prop} [DecidablePred named]
    (is : ∀ held ∈ generations, (change held).status = status ↔ named held) :
    countOf status (generations.map change) = (generations.filter named).length := by
  unfold countOf
  rw [List.filter_map, List.length_map]
  congr 1
  apply List.filter_congr
  intro held member
  exact decide_eq_decide.mpr (is held member)

theorem count_map_same {status : GenerationStatus} {change : Generation → Generation}
    {generations : List Generation}
    (same : ∀ held ∈ generations, (change held).status = status ↔ held.status = status) :
    countOf status (generations.map change) = countOf status generations :=
  count_map same

theorem salt_once {generations : List Generation} {found : Generation}
    (apart : (saltsOf generations).Nodup) (member : found ∈ generations) :
    (generations.filter (·.salt = found.salt)).length = 1 := by
  have counted : (saltsOf generations).count found.salt = 1 :=
    List.count_eq_one_of_mem apart (List.mem_map_of_mem member)
  unfold saltsOf List.count at counted
  rw [List.countP_map] at counted
  rw [← List.countP_eq_length_filter, ← counted]
  apply List.countP_congr
  intro held _
  simp

theorem only_ok {status : GenerationStatus} {generations : List Generation}
    (one : countOf status generations = 1) :
    ∃ found, only generations status = .ok found ∧ found ∈ generations ∧
      found.status = status := by
  unfold countOf at one
  obtain ⟨found, alone⟩ := List.length_eq_one_iff.mp one
  have member : found ∈ generations.filter (·.status = status) := by
    rw [alone]
    exact List.mem_singleton_self found
  refine ⟨found, ?_, (List.mem_filter.mp member).1, of_decide_eq_true (List.mem_filter.mp member).2⟩
  unfold only
  rw [alone]

theorem counted_once {status : GenerationStatus} {generations : List Generation}
    (one : countOf status generations = 1) {left right : Generation}
    (here : left ∈ generations) (there : right ∈ generations) (left_is : left.status = status)
    (right_is : right.status = status) : left = right := by
  unfold countOf at one
  obtain ⟨found, alone⟩ := List.length_eq_one_iff.mp one
  have only_found : ∀ held ∈ generations, held.status = status → held = found := by
    intro held member is
    have listed : held ∈ generations.filter (·.status = status) :=
      List.mem_filter.mpr ⟨member, decide_eq_true is⟩
    rw [alone] at listed
    exact List.mem_singleton.mp listed
  rw [only_found left here left_is, only_found right there right_is]

end Counts

section Commits

variable {rows after : TenantRows} {seen : TenantRecord} {records : Commit}

theorem row_after_idle (goes : records.goLive = none) (spares : records.destroy = .named [])
    (held : Generation) : (Memory.rowAfter records held).status = held.status := by
  unfold Memory.rowAfter
  rw [goes, spares]
  simp [Memory.destroyed]

theorem grown_none (none_added : records.addGeneration = none) :
    Memory.grown seen.id rows.generations records = rows.generations := by
  unfold Memory.grown
  rw [none_added]
  exact List.append_nil _

theorem landed_salts (landed : Memory.Landed rows seen records after) :
    saltsOf after.generations = saltsOf (Memory.grown seen.id rows.generations records) := by
  rw [landed.generations]
  exact Memory.salts_map (Memory.row_after_salt records) _

theorem landed_apart (landed : Memory.Landed rows seen records after)
    (apart : (saltsOf rows.generations).Nodup) : (saltsOf after.generations).Nodup := by
  rw [landed_salts landed]
  unfold Memory.grown saltsOf
  rw [List.map_append]
  cases adds : records.addGeneration with
  | none =>
    rw [Option.map_none]
    exact (List.append_nil _).symm ▸ apart
  | some add =>
    apply List.nodup_append.mpr
    refine ⟨apart, List.nodup_singleton _, ?_⟩
    intro salt held other new same
    rw [same, List.mem_singleton.mp new] at held
    exact landed.fresh add adds held

/-- A commit of nothing but fields and the step. -/
structure Idle (records : Commit) : Prop where
  adds : records.addGeneration = none
  goes : records.goLive = none
  spares : records.destroy = .named []

theorem idle_count (idle : Idle records) (landed : Memory.Landed rows seen records after)
    (status : GenerationStatus) :
    countOf status after.generations = countOf status rows.generations := by
  rw [landed.generations, grown_none idle.adds]
  apply count_map_same
  intro held _
  rw [row_after_idle idle.goes idle.spares]

theorem opened_counts {add : Generation} (landed : Memory.Landed rows seen records after)
    (adds : records.addGeneration = some add) (goes : records.goLive = none)
    (spares : records.destroy = .named []) (pending : add.status = .pending) :
    countOf .pending after.generations = countOf .pending rows.generations + 1 ∧
      countOf .live after.generations = countOf .live rows.generations := by
  have same : ∀ status, countOf status after.generations =
      countOf status (Memory.grown seen.id rows.generations records) := by
    intro status
    rw [landed.generations]
    apply count_map_same
    intro held _
    rw [row_after_idle goes spares]
  have entered : Memory.grown seen.id rows.generations records =
      rows.generations ++ [{ add with tenantId := seen.id }] := by
    unfold Memory.grown
    rw [adds]
    rfl
  rw [same, same, entered, count_append, count_append]
  simp [countOf, pending]

theorem row_after_live {salt : Str} (goes : records.goLive = some salt)
    (spares : records.destroy = .named []) (held : Generation) :
    (Memory.rowAfter records held).status =
      if held.salt = salt then .live
      else if held.status = .live then .retiring else held.status := by
  unfold Memory.rowAfter
  rw [goes, spares]
  simp only [Memory.destroyed, List.not_mem_nil, if_false, Memory.wentLive,
    Memory.fields_set_salt, Memory.fields_set_status]
  split_ifs
  · rfl
  · rfl
  · exact Memory.fields_set_status held

/-- The one pending generation gone live. -/
theorem went_live_counts {found : Generation} (landed : Memory.Landed rows seen records after)
    (adds : records.addGeneration = none) (goes : records.goLive = some found.salt)
    (spares : records.destroy = .named []) (apart : (saltsOf rows.generations).Nodup)
    (one : countOf .pending rows.generations = 1) (member : found ∈ rows.generations)
    (pending : found.status = .pending) :
    countOf .pending after.generations = 0 ∧ countOf .live after.generations = 1 := by
  rw [landed.generations, grown_none adds]
  constructor
  · have none_left : ∀ held ∈ rows.generations,
        (Memory.rowAfter records held).status = .pending ↔ False := by
      intro held here
      rw [row_after_live goes spares]
      constructor
      · intro is
        split_ifs at is with salt live
        have same := counted_once one here member is pending
        exact salt (congrArg Generation.salt same)
      · exact False.elim
    rw [count_map none_left]
    simp
  · have the_one : ∀ held ∈ rows.generations,
        (Memory.rowAfter records held).status = .live ↔ held.salt = found.salt := by
      intro held _
      rw [row_after_live goes spares]
      split_ifs with salt live
      · exact iff_of_true rfl salt
      · exact iff_of_false (fun is => by cases is) salt
      · exact iff_of_false live salt
    rw [count_map the_one]
    exact salt_once apart member

theorem retired_count {salts : List Str} {status : GenerationStatus}
    (landed : Memory.Landed rows seen records after) (adds : records.addGeneration = none)
    (goes : records.goLive = none) (named : records.destroy = .named salts)
    (retiring : ∀ held ∈ rows.generations, held.salt ∈ salts → held.status = .retiring)
    (not_destroyed : status ≠ .destroyed) (not_retiring : status ≠ .retiring) :
    countOf status after.generations = countOf status rows.generations := by
  rw [landed.generations, grown_none adds]
  apply count_map_same
  intro held member
  unfold Memory.rowAfter
  rw [goes, named]
  simp only [Memory.destroyed, Memory.fields_set_salt]
  split_ifs with listed
  · rw [retiring held member listed]
    exact iff_of_false (Ne.symm not_destroyed) (Ne.symm not_retiring)
  · rw [Memory.fields_set_status]

theorem all_destroyed (landed : Memory.Landed rows seen records after)
    (all : records.destroy = .all) : allDestroyed after.generations := by
  rw [landed.generations]
  intro held member
  obtain ⟨was, _, rfl⟩ := List.mem_map.mp member
  unfold Memory.rowAfter
  rw [all]
  rfl

theorem idle_destroyed (idle : Idle records) (landed : Memory.Landed rows seen records after)
    (all : allDestroyed rows.generations) : allDestroyed after.generations := by
  rw [landed.generations, grown_none idle.adds]
  intro held member
  obtain ⟨was, here, rfl⟩ := List.mem_map.mp member
  rw [row_after_idle idle.goes idle.spares]
  exact all was here

theorem idle_counted (idle : Idle records) (landed : Memory.Landed rows seen records after)
    {action : PendingAction} {region : Region}
    (counted : Counted action rows.generations region) :
    Counted action after.generations region := by
  cases region with
  | unnamed | building | later =>
    unfold Counted at counted ⊢
    rw [idle_count idle landed, idle_count idle landed]
    exact counted
  | ending => trivial
  | gone => exact idle_destroyed idle landed counted

end Commits

end Defender.Lifecycle
