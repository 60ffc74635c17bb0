import Defender.Lifecycle.Census
import Defender.Lifecycle.QuietSteps

/-!
# The census through a step

What a hold knows is its record and the tenant's generations. From a census that has the
tenant at a step, the step's body commits to a census, finds the one generation it asks
for, and fails where a restart has the census too.
-/

namespace Defender.Lifecycle

open Defender.Python Defender.Tenancy Defender.Library.Programs

/-- What a hold knows of its tenant. -/
structure Held where
  record : TenantRecord
  generations : List Generation

def Held.Counts (held : Held) : Prop := Census held.record held.generations

def Held.Retries (back : StepName) (held : Held) : Prop :=
  Census { held.record with step := some back } held.generations

def censusBefore : (operation : Operation) → (Answer operation → Held → Prop) → Held → Prop
  | .generations, post, held => ∀ listed : List Generation,
    listed.Perm held.generations → post listed held
  | .record, post, held => post held.record held
  | .only found status, post, held => ∃ one, only found status = .ok one ∧ post (.ok one) held
  | .commit records, post, held =>
    (∀ said, post (.error said) held) ∧
    ∀ rows after : TenantRows, rows.record.state = held.record.state →
      rows.generations = held.generations → Memory.Landed rows held.record records after →
      Census after.record after.generations ∧
        post (.ok after.record) ⟨after.record, after.generations⟩
  | _, post, held => ∀ answer, post answer held

theorem census_mono (operation : Operation) {weaker stronger : Answer operation → Held → Prop}
    {held : Held} (weaker_of : ∀ answer after, stronger answer after → weaker answer after)
    (checked : censusBefore operation stronger held) : censusBefore operation weaker held := by
  cases operation with
  | generations => exact fun listed same => weaker_of _ _ (checked listed same)
  | record => exact weaker_of _ _ checked
  | only found status =>
    obtain ⟨one, answered, kept⟩ := checked
    exact ⟨one, answered, weaker_of _ _ kept⟩
  | commit records =>
    refine ⟨fun said => weaker_of _ _ (checked.1 said), ?_⟩
    intro rows after state generations landed
    obtain ⟨census, kept⟩ := checked.2 rows after state generations landed
    exact ⟨census, weaker_of _ _ kept⟩
  | _ => exact fun answer => weaker_of _ _ (checked answer)

def censusSpec : Spec Operation Answer Held where
  before := censusBefore
  mono := census_mono

theorem census_calls : CallsQuiet censusSpec where
  generations := fun _ _ all listed _ => all listed
  forgeWiring := fun _ _ all => all
  record := fun _ _ all => all _
  clock := fun _ _ all => all
  draw := fun _ _ all => all
  call := fun _ _ _ _ all => all
  collaborators := fun _ _ _ all => all
  runIntegration := fun _ _ _ all => all
  act := fun _ _ _ all => all

theorem census_things : ThingsQuiet censusSpec where
  read := fun _ _ _ all => all
  write := fun _ _ _ all => all
  remove := fun _ _ _ all => all

section Stands

/-- The tenant is at `step`, whose region `back` shares: a failure there restarts at `back`. -/
structure Stands (step back : StepName) (region : Region) (held : Held) : Prop where
  census : held.Counts
  here : held.record.step = some step
  job : ∃ action, held.record.pendingAction = some action ∧
    regionOf action step = some region ∧ regionOf action back = some region

variable {step back next : StepName} {region : Region} {held : Held} {records : Commit}
  {rows after : TenantRows}

theorem counted_at (census : held.Counts) {action : PendingAction}
    (here : held.record.step = some step) (pending : held.record.pendingAction = some action)
    (named : regionOf action step = some region) : Counted action held.generations region := by
  obtain ⟨other, place, at_other, other_named, counted⟩ := census.job action pending
  have same : other = step := Option.some.inj (at_other.symm.trans here)
  subst same
  have placed : place = region := Option.some.inj (other_named.symm.trans named)
  subst placed
  exact counted

theorem Stands.retries (stands : Stands step back region held) : held.Retries back := by
  obtain ⟨action, pending, named, back_named⟩ := stands.job
  have counted := counted_at stands.census stands.here pending named
  exact {
    pair := stands.census.pair
    apart := stands.census.apart
    job := by
      intro other other_pending
      have same : other = action := Option.some.inj (other_pending.symm.trans pending)
      subst same
      exact ⟨back, region, rfl, back_named, counted⟩
    active := by
      intro _ nothing
      have pending : held.record.pendingAction = some action := pending
      rw [pending] at nothing
      cases nothing
    offboarded := stands.census.offboarded }

/-- A step's failure keeps its own restart point, and the census has the tenant there. -/
def Failing (back : StepName) (why : Failed) (held : Held) : Prop :=
  Plain why ∧ held.Retries back

abbrev Keeps (step back : StepName) (region : Region) {Result : Type} (program : Body Result) :
    Prop :=
  Triple censusSpec (Stands step back region) program (fun _ => Stands step back region)
    (Failing back)

theorem quiet_keeps {Result : Type} {program : Body Result}
    (quiet : QuietBody censusSpec program) : Keeps step back region program :=
  Triple.quiet quiet fun _ _ plain stands => ⟨plain, stands.retries⟩

/-- A commit that keeps the tenant's state and its pending action. -/
structure KeepsJob (records : Commit) : Prop where
  state : records.state = .keep
  pendingAction : records.pendingAction = .keep

theorem landed_action (landed : Memory.Landed rows held.record records after) :
    rows.record.pendingAction = held.record.pendingAction := by
  have fence := landed.fence
  unfold fenceHolds at fence
  simp only [Bool.and_eq_true, decide_eq_true_eq] at fence
  exact fence.1.1.1

theorem landed_state (landed : Memory.Landed rows held.record records after)
    (state : rows.record.state = held.record.state) :
    after.record.state = records.state.over held.record.state := by
  rw [landed.record, ← state]
  rfl

theorem landed_pending (landed : Memory.Landed rows held.record records after) :
    after.record.pendingAction = records.pendingAction.over held.record.pendingAction := by
  rw [landed.record, ← landed_action landed]
  rfl

theorem landed_step (landed : Memory.Landed rows held.record records after) :
    after.record.step = records.step := by
  rw [landed.record]
  rfl

theorem not_offboarded {record : TenantRecord} {action : PendingAction}
    (pair : allowedPair record.state record.pendingAction = true)
    (pending : record.pendingAction = some action) (kept : action ≠ .deleteRepo) :
    record.state ≠ .offboarded := by
  intro gone
  rw [gone, pending] at pair
  have listed : some action ∈ [none, some PendingAction.deleteRepo] := of_decide_eq_true pair
  simp only [List.mem_cons, reduceCtorEq, Option.some.injEq, List.not_mem_nil, or_false,
    false_or] at listed
  exact kept listed

/-- The census after a commit that moves the job to a step, its generations counted there. -/
theorem census_moved {action : PendingAction} (census : held.Counts)
    (state : rows.record.state = held.record.state)
    (generations : rows.generations = held.generations)
    (landed : Memory.Landed rows held.record records after) (keeps : KeepsJob records)
    (pending : held.record.pendingAction = some action) (moves : records.step = some next)
    (named : regionOf action next = some region)
    (counted : Counted action after.generations region)
    (offboarded : held.record.state = .offboarded → allDestroyed after.generations) :
    Census after.record after.generations := by
  have action_after : after.record.pendingAction = some action := by
    rw [landed_pending landed, keeps.pendingAction]
    exact pending
  have state_after : after.record.state = held.record.state := by
    rw [landed_state landed state, keeps.state]
    rfl
  exact {
    pair := landed.pair
    apart := landed_apart landed (generations ▸ census.apart)
    job := by
      intro other other_pending
      have same : other = action := Option.some.inj (other_pending.symm.trans action_after)
      subst same
      exact ⟨next, region, (landed_step landed).trans moves, named, counted⟩
    active := by
      intro _ nothing
      rw [action_after] at nothing
      cases nothing
    offboarded := fun gone => offboarded (state_after.symm.trans gone) }

theorem idle_lands {action : PendingAction} (stands : Stands step back region held)
    (pending : held.record.pendingAction = some action)
    (state : rows.record.state = held.record.state)
    (generations : rows.generations = held.generations)
    (landed : Memory.Landed rows held.record records after) (idle : Idle records)
    (keeps : KeepsJob records) (moves : records.step = some next)
    (named : regionOf action next = some region) :
    Stands next back region ⟨after.record, after.generations⟩ := by
  obtain ⟨other, other_pending, here, there⟩ := stands.job
  have same : other = action := Option.some.inj (other_pending.symm.trans pending)
  subst same
  have counted : Counted other after.generations region := by
    apply idle_counted idle landed
    rw [generations]
    exact counted_at stands.census stands.here pending here
  exact {
    census := census_moved stands.census state generations landed keeps pending moves
      named counted fun gone =>
        idle_destroyed idle landed (generations ▸ stands.census.offboarded gone)
    here := (landed_step landed).trans moves
    job := by
      refine ⟨other, ?_, named, there⟩
      show after.record.pendingAction = some other
      rw [landed_pending landed, keeps.pendingAction]
      exact pending }

end Stands

section Commits

variable {step back : StepName} {region : Region} {before : Held → Prop}
  {post : Unit → Held → Prop}

theorem commit_triple (records : Commit) {last : TenantRecord → Held → Prop}
    (retries : ∀ held, before held → held.Retries back)
    (lands : ∀ held rows after, before held → rows.record.state = held.record.state →
      rows.generations = held.generations → Memory.Landed rows held.record records after →
      Census after.record after.generations ∧
        last after.record ⟨after.record, after.generations⟩) :
    Triple censusSpec before (commit records) last (Failing back) := by
  intro held start
  refine ⟨fun said => ⟨rfl, retries held start⟩, ?_⟩
  intro rows after state generations landed
  exact lands held rows after start state generations landed

/-- The commit of a step's end, given where `NEXT` leads from it. -/
theorem holds_held {Result : Type} {next : TenantRecord → Body Result} {last : Result → Held → Prop}
    {fails : Failed → Held → Prop} {held : Held}
    (checked : holds censusSpec last fails (next held.record) held) :
    holds censusSpec last fails (heldRecord >>= next) held := checked

theorem commit_next_triple (records : Commit)
    (retries : ∀ held, before held → held.Retries back)
    (lands : ∀ held action next actor rows after, before held →
      held.record.pendingAction = some action → held.record.step = some step →
      nextOf action step = some (some (next, actor)) →
      rows.record.state = held.record.state → rows.generations = held.generations →
      Memory.Landed rows held.record { records with step := some next, actor := some actor }
        after →
      Census after.record after.generations ∧ post () ⟨after.record, after.generations⟩)
    (led : ∀ held, before held → held.record.step = some step ∧
      ∃ action, held.record.pendingAction = some action ∧
        ∃ next actor, nextOf action step = some (some (next, actor))) :
    Triple censusSpec before (commitNext records) post (Failing back) := by
  intro held start
  obtain ⟨here, action, pending, next, actor, leads⟩ := led held start
  apply holds_bind
  have steps : holds censusSpec (fun result after => result = some (next, actor) ∧ after = held)
      (Failing back) nextStep held := by
    unfold nextStep
    apply holds_held
    rw [pending, here]
    simp only [leads]
    exact ⟨rfl, rfl⟩
  refine holds_mono ?_ (fun _ _ failed => failed) steps
  rintro result after ⟨rfl, rfl⟩
  apply holds_bind
  refine ⟨fun said => ⟨rfl, retries after start⟩, ?_⟩
  intro rows last state generations landed
  exact lands after action next actor rows last start pending here leads state generations landed

end Commits

end Defender.Lifecycle
