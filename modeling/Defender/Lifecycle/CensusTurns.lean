import Defender.Lifecycle.CensusSteps

/-!
# The steps that change the census

`names`, `sweep`, `activate`, `retire`, `remove_old_file` and the offboarding, then the
host's steps under its lock, and the census through the body of whatever step a tenant
is at.

The steps that build and prepare keep their region. `names` opens the generation, `sweep`
makes it the live one, `retire` and the offboarding destroy; each has its own count.
-/

namespace Defender.Lifecycle

open Defender.Python Defender.Tenancy Defender.Library.Programs
open Defender.Library.OrderedDict

section Building

variable {step back : StepName} {region : Region}

def Moved (back : StepName) (region : Region) (held : Held) : Prop :=
  ∃ step, Stands step back region held

theorem fields_idle (salt : Str) (fields : GenerationFields) (next : Option StepName)
    (actor : Option StepActor) :
    Idle { step := next, actor, updateGenerations := .ofList [(salt, fields)] } where
  adds := rfl
  goes := rfl
  spares := rfl

theorem commit_next_idle (records : Commit) (idle : Idle records) (keeps : KeepsJob records)
    (onward : ∀ action, regionOf action step = some region →
      ∃ next actor, nextOf action step = some (some (next, actor)) ∧
        regionOf action next = some region) :
    Triple censusSpec (Stands step back region) (commitNext records)
      (fun _ => Moved back region) (Failing back) := by
  apply commit_next_triple records fun _ stands => stands.retries
  · intro held action next actor rows after stands pending _ leads state generations landed
    obtain ⟨other, other_pending, named, _⟩ := stands.job
    have same : other = action := Option.some.inj (other_pending.symm.trans pending)
    subst same
    obtain ⟨found, found_actor, found_leads, found_named⟩ := onward other named
    rw [leads] at found_leads
    obtain ⟨rfl, rfl⟩ := Prod.mk.inj (Option.some.inj (Option.some.inj found_leads))
    have lands := idle_lands stands pending state generations landed
      ⟨idle.adds, idle.goes, idle.spares⟩ ⟨keeps.state, keeps.pendingAction⟩ rfl found_named
    exact ⟨lands.census, next, lands⟩
  · intro held stands
    obtain ⟨action, pending, named, _⟩ := stands.job
    obtain ⟨next, actor, leads, _⟩ := onward action named
    exact ⟨stands.here, action, pending, next, actor, leads⟩

theorem building_onward (action : PendingAction) (named : regionOf action step = some .building)
    (before_sweep : step ≠ .sweep) :
    ∃ next actor, nextOf action step = some (some (next, actor)) ∧
      regionOf action next = some .building := by
  cases action with
  | create | rotate =>
    cases step <;>
      first
      | exact absurd rfl before_sweep
      | exact ⟨_, _, rfl, rfl⟩
      | cases named
  | offboard | deleteRepo => cases step <;> cases named

theorem one_pending {held : Held} (stands : Stands step back .building held) :
    countOf .pending held.generations = 1 := by
  obtain ⟨action, pending, named, _⟩ := stands.job
  exact (counted_at stands.census stands.here pending named).1

theorem only_pending {Result : Type} {held : Held} {listed : List Generation}
    {next : Generation → Body Result} {post : Result → Held → Prop}
    {fails : Failed → Held → Prop} (one : countOf .pending held.generations = 1)
    (same : listed.Perm held.generations)
    (onward : ∀ found ∈ held.generations, found.status = .pending →
      holds censusSpec post fails (next found) held) :
    holds censusSpec post fails (onlyOne listed .pending >>= next) held := by
  have one_listed : countOf .pending listed = 1 := (count_perm same).trans one
  obtain ⟨found, answered, member, pending⟩ := only_ok one_listed
  exact ⟨found, answered, onward found (same.mem_iff.mp member) pending⟩

theorem building_finds :
    Triple censusSpec (Stands step back .building) Service.building
      (fun found held => Stands step back .building held ∧ found ∈ held.generations ∧
        found.status = .pending) (Failing back) := by
  intro held stands listed same
  have one_listed : countOf .pending listed = 1 := (count_perm same).trans (one_pending stands)
  obtain ⟨found, answered, member, pending⟩ := only_ok one_listed
  exact ⟨found, answered, stands, same.mem_iff.mp member, pending⟩

theorem building_keeps : Keeps step back .building Service.building :=
  building_finds.weaken (fun _ stands => stands) (fun _ _ found => found.1)
    fun _ _ failed => failed

theorem commit_here_keeps (salt : Str) (fields : GenerationFields) :
    Keeps step back region (Service.commitHere salt fields) := by
  intro held stands
  obtain ⟨action, pending, named, _⟩ := stands.job
  refine ⟨fun said => ⟨rfl, stands.retries⟩, ?_⟩
  intro rows after state generations landed
  have lands := idle_lands stands pending state generations landed (fields_idle _ _ _ _)
    ⟨rfl, rfl⟩ stands.here named
  exact ⟨lands.census, lands⟩

theorem with_sign_names_keeps (tenant : Str) (generation : Generation) :
    Keeps step back .building (Service.withSignNames tenant generation) := by
  unfold Service.withSignNames
  split_ifs
  · exact quiet_keeps (quiet_done _)
  · exact Triple.bind (commit_here_keeps _ _) fun _ => building_keeps

theorem with_sign_chain_keeps (tenant : Str) (generation : Generation) :
    Keeps step back .building (Service.withSignChain tenant generation) := by
  unfold Service.withSignChain
  split_ifs
  · exact quiet_keeps (quiet_done _)
  · apply Triple.bind (with_sign_names_keeps _ _)
    intro named
    apply Triple.bind (quiet_keeps (quiet_approle_accessor census_calls))
    intro accessor
    apply Triple.bind (quiet_keeps (quiet_sign_chain census_things census_calls _ _ _))
    intro role
    exact Triple.bind (commit_here_keeps _ _) fun _ => building_keeps

abbrev Builds (step : StepName) (program : Body Unit) : Prop :=
  Triple censusSpec (Stands step step .building) program (fun _ => Moved step .building)
    (Failing step)

theorem commit_builds (records : Commit) (idle : Idle records) (keeps : KeepsJob records)
    (before_sweep : step ≠ .sweep) : Builds step (commitNext records) :=
  commit_next_idle records idle keeps fun action named =>
    building_onward action named before_sweep

theorem next_idle : Idle { step := none, actor := none } := ⟨rfl, rfl, rfl⟩

theorem provider_builds (tenant : Str) : Builds .provider (Service.provider tenant) := by
  apply Triple.bind building_keeps
  intro pending
  apply Triple.bind (with_sign_names_keeps _ _)
  intro generation
  apply Triple.bind (quiet_keeps (quiet_write_role census_things _))
  intro _
  apply Triple.bind (quiet_keeps (quiet_approle_accessor census_calls))
  intro accessor
  apply Triple.bind (quiet_keeps (quiet_approle census_things census_calls _))
  intro role
  apply Triple.bind (quiet_keeps (quiet_entity census_things census_calls _ _ _))
  intro _
  apply Triple.bind (quiet_keeps (quiet_sign_chain census_things census_calls _ _ _))
  intro signRole
  exact commit_builds _ (fields_idle _ _ _ _) ⟨rfl, rfl⟩ (by decide)

theorem repo_builds : Builds .repo Service.repo := by
  apply Triple.bind (quiet_keeps (quiet_wiring census_calls))
  intro held
  apply Triple.bind (quiet_keeps (quiet_call census_calls _ _ _))
  intro found
  split_ifs
  · split
    · apply Triple.bind (quiet_keeps (quiet_call census_calls _ _ _))
      exact fun _ => commit_builds _ next_idle ⟨rfl, rfl⟩ (by decide)
    · exact fun _ stands => ⟨rfl, stands.retries⟩
  · exact commit_builds _ next_idle ⟨rfl, rfl⟩ (by decide)
  · exact fun _ stands => ⟨rfl, stands.retries⟩

theorem bot_builds : Builds .bot Service.bot := by
  intro known stands found same
  apply only_pending (one_pending stands) same
  intro generation _ _
  refine Triple.bind (quiet_keeps (quiet_wiring census_calls)) (fun held => ?_) known stands
  apply Triple.bind (quiet_keeps (quiet_ensure_thing census_things _))
  intro _
  apply Triple.bind (quiet_keeps (quiet_call census_calls _ _ _))
  intro _
  apply Triple.bind (quiet_keeps (quiet_collaborators census_calls _))
  intro listed
  apply Triple.bind (quiet_keeps (quiet_each_call census_calls _ _ _ _))
  intro _
  exact commit_builds _ next_idle ⟨rfl, rfl⟩ (by decide)

theorem protect_builds : Builds .protect Service.protect := by
  apply Triple.bind (quiet_keeps (quiet_wiring census_calls))
  intro held
  apply Triple.bind (quiet_keeps (quiet_protect_main census_calls _))
  intro _
  exact commit_builds _ next_idle ⟨rfl, rfl⟩ (by decide)

theorem integration_builds : Builds .integration Service.integration := by
  apply Triple.bind building_keeps
  intro generation
  apply Triple.bind (quiet_keeps (quiet_run_integration census_calls _))
  intro ended
  split_ifs
  · exact fun _ stands => ⟨rfl, stands.retries⟩
  · split
    · apply Triple.bind (quiet_keeps (quiet_write_role census_things _))
      exact fun _ => commit_builds _ (fields_idle _ _ _ _) ⟨rfl, rfl⟩ (by decide)
    · exact fun _ stands => ⟨rfl, stands.retries⟩

theorem template_builds : Builds .template Service.template := by
  apply Triple.bind building_keeps
  intro generation
  apply Triple.bind (quiet_keeps (quiet_wiring census_calls))
  intro held
  apply Triple.bind (quiet_keeps (quiet_call census_calls _ _ _))
  intro found
  apply Triple.bind (quiet_keeps (quiet_push_if_empty census_calls _ _ _))
  intro _
  apply Triple.bind (quiet_keeps (quiet_await_main census_calls _ _))
  intro _
  apply Triple.bind (quiet_keeps (quiet_protect_main census_calls _))
  intro _
  exact commit_builds _ next_idle ⟨rfl, rfl⟩ (by decide)

theorem wrap_builds (tenant : Str) : Builds .wrap (Service.wrap tenant) := by
  apply Triple.bind (quiet_keeps (quiet_wiring census_calls))
  intro held
  apply Triple.bind (quiet_keeps (quiet_protect_main census_calls _))
  intro _
  apply Triple.bind building_keeps
  intro pending
  apply Triple.bind (with_sign_chain_keeps _ _)
  intro generation
  apply Triple.bind (quiet_keeps (quiet_wrapped_secret census_calls _))
  intro wrapped
  apply Triple.bind (quiet_keeps (quiet_wrapped_secret census_calls _))
  intro signWrapped
  exact commit_builds _ (fields_idle _ _ _ _) ⟨rfl, rfl⟩ (by decide)

end Building

abbrev Turns (step : StepName) (region : Region) (program : Body Unit) : Prop :=
  Triple censusSpec (Stands step step region) program (fun _ => Held.Counts) (Failing step)

theorem moved_counts {back : StepName} {region : Region} {held : Held}
    (moved : Moved back region held) : held.Counts := by
  obtain ⟨step, stands⟩ := moved
  exact stands.census

theorem moved_retries {back : StepName} {region : Region} {held : Held}
    (moved : Moved back region held) : held.Retries back := by
  obtain ⟨step, stands⟩ := moved
  exact stands.retries

theorem Builds.turns {step : StepName} {program : Body Unit} (builds : Builds step program) :
    Turns step .building program :=
  builds.weaken (fun _ stands => stands) (fun _ _ moved => moved_counts moved)
    fun _ _ failed => failed

/-- The commit of a step whose region ends with it. -/
theorem commit_next_turns {step : StepName} {region onward : Region} {before : Held → Prop}
    (records : Commit) (keeps : KeepsJob records)
    (starts : ∀ held, before held → Stands step step region held)
    (leads : ∀ action, regionOf action step = some region → action ≠ .deleteRepo ∧
      ∃ next actor, nextOf action step = some (some (next, actor)) ∧
        regionOf action next = some onward)
    (counts : ∀ held action next actor rows after, before held →
      Counted action held.generations region → rows.generations = held.generations →
      Memory.Landed rows held.record { records with step := some next, actor := some actor }
        after →
      Counted action after.generations onward) :
    Triple censusSpec before (commitNext records) (fun _ => Held.Counts) (Failing step) := by
  apply @commit_next_triple step step
  · exact fun held start => (starts held start).retries
  · intro held action next actor rows after start pending here led state generations landed
    have stands := starts held start
    obtain ⟨other, other_pending, named, _⟩ := stands.job
    have same : other = action := Option.some.inj (other_pending.symm.trans pending)
    subst same
    obtain ⟨kept, found, found_actor, found_led, found_named⟩ := leads other named
    rw [led] at found_led
    obtain ⟨rfl, rfl⟩ := Prod.mk.inj (Option.some.inj (Option.some.inj found_led))
    have counted := counts held other next actor rows after start
      (counted_at stands.census here pending named) generations landed
    have moved := census_moved stands.census state generations landed
      ⟨keeps.state, keeps.pendingAction⟩ pending rfl found_named counted
      fun gone => absurd gone (not_offboarded stands.census.pair pending kept)
    exact ⟨moved, moved⟩
  · intro held start
    have stands := starts held start
    obtain ⟨action, pending, named, _⟩ := stands.job
    obtain ⟨_, next, actor, led, _⟩ := leads action named
    exact ⟨stands.here, action, pending, next, actor, led⟩

theorem names_turns (config : Config) (tenant : Str) :
    Turns .names .unnamed (Service.names config tenant) := by
  apply Triple.bind (quiet_keeps (quiet_request census_calls.forgeWiring))
  intro wiring
  apply Triple.bind (quiet_keeps (quiet_request census_calls.draw))
  intro salt
  apply Triple.bind (quiet_keeps (quiet_request census_calls.record))
  intro record
  apply @commit_next_turns .names .unnamed .building _ _ ⟨rfl, rfl⟩ fun _ stands => stands
  · intro action named
    cases action with
    | create | rotate => exact ⟨by decide, _, _, rfl, rfl⟩
    | offboard | deleteRepo => cases named
  · intro held action next actor rows after _ counted generations landed
    have opened := opened_counts landed rfl rfl rfl rfl
    rw [generations, counted.1, counted.2] at opened
    exact opened

/-- The tenant under `sweep` with the generation it found pending. -/
def SweepFinds (found : Generation) (held : Held) : Prop :=
  Stands .sweep .sweep .building held ∧ found ∈ held.generations ∧ found.status = .pending

theorem sweep_finds_quiet {found : Generation} {Result : Type} {program : Body Result}
    (quiet : QuietBody censusSpec program) :
    Triple censusSpec (SweepFinds found) program (fun _ => SweepFinds found) (Failing .sweep) :=
  Triple.quiet quiet fun _ _ plain sweeps => ⟨plain, sweeps.1.retries⟩

theorem back_to_wrap {step back : StepName} :
    Triple censusSpec (Stands step back .building)
      (commit { step := some .wrap, actor := some .service })
      (fun _ => Moved back .building) (Failing back) := by
  apply commit_triple _ fun _ stands => stands.retries
  intro held rows after stands state generations landed
  obtain ⟨action, pending, named, _⟩ := stands.job
  have wraps : regionOf action .wrap = some .building := by
    cases action with
    | create | rotate => rfl
    | offboard | deleteRepo => cases step <;> cases named
  have lands := idle_lands stands pending state generations landed ⟨rfl, rfl, rfl⟩ ⟨rfl, rfl⟩
    rfl wraps
  exact ⟨lands.census, .wrap, lands⟩

theorem go_live_turns (found : Generation) :
    Triple censusSpec (SweepFinds found)
      (commitNext { step := none, actor := none, goLive := some found.salt })
      (fun _ => Held.Counts) (Failing .sweep) := by
  apply @commit_next_turns .sweep .building .later _ _ ⟨rfl, rfl⟩ fun _ sweeps => sweeps.1
  · intro action named
    cases action with
    | create | rotate => exact ⟨by decide, _, _, rfl, rfl⟩
    | offboard | deleteRepo => cases named
  · intro held action next actor rows after sweeps counted generations landed
    obtain ⟨stands, member, is⟩ := sweeps
    exact went_live_counts landed rfl rfl rfl (generations ▸ stands.census.apart)
      (generations ▸ counted.1) (generations ▸ member) is

theorem sweep_turns : Turns .sweep .building Service.sweep := by
  apply Triple.bind building_finds
  intro generation
  split_ifs
  · exact fun _ sweeps => ⟨rfl, sweeps.1.retries⟩
  · exact back_to_wrap.ignore.weaken (fun _ sweeps => sweeps.1)
      (fun _ _ moved => moved_counts moved) fun _ _ failed => failed
  · apply Triple.bind (sweep_finds_quiet (quiet_sweep_secret_ids census_calls _ _))
    intro _
    apply Triple.bind (sweep_finds_quiet (quiet_sweep_secret_ids census_calls _ _))
    intro _
    exact go_live_turns generation

theorem census_idle_end {held : Held} {rows after : TenantRows} {records : Commit}
    (census : held.Counts) (generations : rows.generations = held.generations)
    (landed : Memory.Landed rows held.record records after)
    (ends : after.record.pendingAction = none)
    (active : after.record.state = .active →
      countOf .pending after.generations = 0 ∧ countOf .live after.generations = 1)
    (offboarded : after.record.state = .offboarded → allDestroyed after.generations) :
    Census after.record after.generations where
  pair := landed.pair
  apart := landed_apart landed (generations ▸ census.apart)
  job := by
    intro action pending
    rw [ends] at pending
    cases pending
  active := fun is _ => active is
  offboarded := offboarded

theorem later_counts {held : Held} {step : StepName} (stands : Stands step step .later held)
    {rows after : TenantRows} {records : Commit}
    (generations : rows.generations = held.generations)
    (landed : Memory.Landed rows held.record records after) (idle : Idle records) :
    countOf .pending after.generations = 0 ∧ countOf .live after.generations = 1 := by
  obtain ⟨action, pending, named, _⟩ := stands.job
  have counted : Counted action held.generations .later :=
    counted_at stands.census stands.here pending named
  rw [idle_count idle landed, idle_count idle landed, generations]
  exact counted

theorem activate_turns : Turns .activate .later Service.activate := by
  apply Triple.ignore
  apply commit_triple _ fun _ stands => stands.retries
  intro held rows after stands state generations landed
  have ends : after.record.pendingAction = none := landed_pending landed
  have is : after.record.state = .active := landed_state landed state
  have settled := census_idle_end stands.census generations landed ends
    (fun _ => later_counts stands generations landed ⟨rfl, rfl, rfl⟩)
    (fun gone => by rw [is] at gone; cases gone)
  exact ⟨settled, settled⟩

theorem retiring_named {held : Held} {listed : List Generation}
    (apart : (saltsOf held.generations).Nodup) (same : listed.Perm held.generations) :
    ∀ other ∈ held.generations,
      other.salt ∈ (listed.filter (·.status = .retiring)).map Generation.salt →
      other.status = .retiring := by
  intro other member named
  obtain ⟨old, filtered, salt⟩ := List.mem_map.mp named
  obtain ⟨old_listed, old_retiring⟩ := List.mem_filter.mp filtered
  have one : old = other :=
    List.inj_on_of_nodup_map apart (same.mem_iff.mp old_listed) member salt
  rw [← one]
  exact of_decide_eq_true old_retiring

theorem retire_turns : Turns .retire .later Service.retire := by
  intro known stands listed same
  have listing : Triple censusSpec
      (fun held => Stands .retire .retire .later held ∧ listed.Perm held.generations)
      (do
        let old := listed.filter (·.status = .retiring)
        let repo ← Service.repoOf
        Service.destroy old repo
        commitNext { step := none, actor := none, destroy := .named (old.map Generation.salt) })
      (fun _ => Held.Counts) (Failing .retire) := by
    apply Triple.bind (Triple.quiet (quiet_repo_of census_calls)
      fun _ _ plain start => ⟨plain, start.1.retries⟩)
    intro repo
    apply Triple.bind (Triple.quiet (quiet_destroy census_things census_calls _ _)
      fun _ _ plain start => ⟨plain, start.1.retries⟩)
    intro _
    apply @commit_next_turns .retire .later .later _ _ ⟨rfl, rfl⟩ fun _ start => start.1
    · intro action named
      cases action with
      | rotate => exact ⟨by decide, _, _, rfl, rfl⟩
      | create | offboard | deleteRepo => cases named
    · intro held action next actor rows after start counted generations landed
      have retiring := retiring_named start.1.census.apart start.2
      rw [← generations] at retiring counted
      have count : ∀ status, status ≠ .destroyed → status ≠ .retiring →
          countOf status after.generations = countOf status rows.generations :=
        fun status => retired_count landed rfl rfl rfl retiring
      exact ⟨(count .pending (by decide) (by decide)).trans counted.1,
        (count .live (by decide) (by decide)).trans counted.2⟩
  exact listing known ⟨stands, same⟩

theorem offboard_turns (tenant : Str) :
    Turns .offboard .ending (Service.offboard tenant) := by
  apply Triple.bind (quiet_keeps (quiet_request census_calls.clock))
  intro now
  apply Triple.bind (quiet_keeps (quiet_act census_calls _))
  intro _
  apply Triple.bind (quiet_keeps (quiet_repo_of census_calls))
  intro repo
  apply Triple.bind (quiet_keeps (quiet_request census_calls.generations))
  intro found
  apply Triple.bind (quiet_keeps (quiet_revoke census_things census_calls _ _))
  intro bots
  apply Triple.bind (quiet_keeps (quiet_destroy_key census_things census_calls _))
  intro _
  apply Triple.bind (quiet_keeps (quiet_archive census_calls _))
  intro _
  apply Triple.bind (quiet_keeps (quiet_remove_all census_things _))
  intro _
  apply @commit_next_turns .offboard .ending .gone _ _ ⟨rfl, rfl⟩ fun _ stands => stands
  · intro action named
    cases action with
    | offboard => exact ⟨by decide, _, _, rfl, rfl⟩
    | create | rotate | deleteRepo => cases named
  · intro held action next actor rows after _ _ _ landed
    exact all_destroyed landed rfl

theorem gone_destroyed {held : Held} {step : StepName} (stands : Stands step step .gone held)
    {rows after : TenantRows} {records : Commit}
    (generations : rows.generations = held.generations)
    (landed : Memory.Landed rows held.record records after) (idle : Idle records) :
    allDestroyed after.generations := by
  obtain ⟨action, pending, named, _⟩ := stands.job
  have all : allDestroyed held.generations :=
    counted_at stands.census stands.here pending named
  exact idle_destroyed idle landed (generations ▸ all)

theorem finish_turns (tenant : Str) : Turns .finish .gone (Service.finish tenant) := by
  apply Triple.bind (quiet_keeps (quiet_request census_calls.generations))
  intro found
  apply Triple.bind (quiet_keeps (quiet_repo_of census_calls))
  intro repo
  apply Triple.bind (quiet_keeps (quiet_revoke census_things census_calls _ _))
  intro bots
  apply Triple.bind (quiet_keeps (quiet_destroy_key census_things census_calls _))
  intro _
  apply Triple.bind (quiet_keeps (quiet_remove_all census_things _))
  intro _
  apply Triple.bind (quiet_keeps (quiet_request census_calls.clock))
  intro now
  apply Triple.ignore
  apply commit_triple _ fun _ stands => stands.retries
  intro held rows after stands state generations landed
  have all := gone_destroyed stands generations landed ⟨rfl, rfl, rfl⟩
  have deletes : after.record.pendingAction = some .deleteRepo := landed_pending landed
  have settled : Census after.record after.generations := {
    pair := landed.pair
    apart := landed_apart landed (generations ▸ stands.census.apart)
    job := by
      intro action pending
      have same : action = .deleteRepo := Option.some.inj (pending.symm.trans deletes)
      subst same
      exact ⟨.deleteRepo, .gone, landed_step landed, rfl, all⟩
    active := by
      intro _ nothing
      rw [deletes] at nothing
      cases nothing
    offboarded := fun _ => all }
  exact ⟨settled, settled⟩

theorem delete_repo_commit :
    Triple censusSpec (Stands .deleteRepo .deleteRepo .gone)
      (commit { step := none, actor := none, pendingAction := .to none, repoUrl := .to none,
                dropWiring := true })
      (fun _ held => held.Counts ∧ held.Retries .deleteRepo) (Failing .deleteRepo) := by
  apply commit_triple _ fun _ stands => stands.retries
  intro held rows after stands state generations landed
  have all := gone_destroyed stands generations landed ⟨rfl, rfl, rfl⟩
  have ends : after.record.pendingAction = none := landed_pending landed
  have gone : after.record.state = .offboarded := by
    obtain ⟨action, pending, named, _⟩ := stands.job
    have pair := stands.census.pair
    rw [landed_state landed state]
    show held.record.state = .offboarded
    cases action with
    | deleteRepo =>
      rw [pending] at pair
      cases is : held.record.state with
      | offboarded => rfl
      | creating | active | offboarding =>
        rw [is] at pair
        exact absurd pair (by decide)
    | create | rotate | offboard => cases named
  have settled := census_idle_end stands.census generations landed ends
    (fun active => by rw [gone] at active; cases active) fun _ => all
  have retries : Census { after.record with step := some .deleteRepo } after.generations :=
    { settled with
      job := by
        intro action pending
        have nothing : (some action : Option PendingAction) = none := pending.symm.trans ends
        cases nothing }
  exact ⟨settled, settled, retries⟩

theorem delete_repo_turns : Turns .deleteRepo .gone Service.deleteRepo := by
  apply Triple.bind (quiet_keeps (quiet_repo_of census_calls))
  intro repo
  apply Triple.bind (quiet_keeps (quiet_request census_calls.generations))
  intro found
  apply Triple.bind (quiet_keeps (quiet_destroy census_things census_calls _ _))
  intro _
  apply Triple.bind (quiet_keeps (quiet_drop_repo census_calls _))
  intro _
  apply delete_repo_commit.bind
  intro _
  apply Triple.bind (Triple.quiet (quiet_act census_calls .auditEmit)
    fun _ _ plain last => ⟨plain, last.2⟩)
  exact fun _ _ last => last.1

end Defender.Lifecycle
