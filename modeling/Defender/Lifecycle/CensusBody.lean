import Defender.Lifecycle.CensusTurns

/-!
# The census through the body of any step

The host's steps run under its lock, given back after the commit: a lock that fails to be
given back restarts a step whose census still holds. The body of the step a tenant is at
keeps the census, whatever actor runs it.
-/

namespace Defender.Lifecycle

open Defender.Python Defender.Tenancy Defender.Library.Programs
open Defender.Library.OrderedDict

section Lock

variable {step back : StepName} {region : Region} {before after : Held → Prop}
  {program : Body Unit}

theorem quiet_mends {Result : Type} {cleanup : Body Result}
    (quiet : QuietBody censusSpec cleanup) (why : Failed) :
    Triple censusSpec (Failing back why) cleanup (fun _ => Failing back why) (Failing back) :=
  Triple.quiet quiet fun _ _ plain failing => ⟨plain, failing.2⟩

theorem under_lock (config : Config) (exclusive : Bool)
    (checked : Triple censusSpec before program (fun _ => after) (Failing back))
    (starts : ∀ held, before held → held.Retries back)
    (ends : ∀ held, after held → held.Retries back) :
    Triple censusSpec before (Host.underHostLock config exclusive program) (fun _ => after)
      (Failing back) := by
  apply Triple.bind (Triple.quiet (quiet_act census_calls _)
    fun _ held plain start => ⟨plain, starts held start⟩)
  intro lock
  cases lock with
  | none => exact fun held start => ⟨rfl, starts held start⟩
  | some _ =>
    apply checked.ensure
    · intro _
      exact Triple.quiet (quiet_release_lock census_calls)
        fun _ held plain kept => ⟨plain, ends held kept⟩
    · exact quiet_mends (quiet_release_lock census_calls)

end Lock

theorem install_secrets_builds (tenant : Str) (generation : Generation)
    (repo accessor signAccessor : Str) :
    Triple censusSpec (Stands .install .wrap .building)
      (Host.installSecrets tenant generation repo accessor signAccessor)
      (fun _ => Moved .wrap .building) (Failing .wrap) := by
  apply Triple.bind (quiet_keeps (quiet_write_secret census_calls _ _))
  intro path
  apply Triple.bind ((quiet_keeps (quiet_write_secret census_calls _ _)).on_failure
    (quiet_mends (quiet_unlink census_calls _)))
  intro signPath
  have recorded : Triple censusSpec (Stands .install .wrap .building)
      (Host.proveAndRecord tenant generation repo accessor signAccessor path signPath)
      (fun _ => Moved .wrap .building) (Failing .wrap) := by
    apply Triple.bind (quiet_keeps (quiet_log_in census_calls))
    intro _
    apply Triple.bind (quiet_keeps (quiet_mint census_calls _))
    intro _
    apply Triple.bind (quiet_keeps (quiet_check_branch census_calls _))
    intro _
    apply Triple.bind (quiet_keeps (quiet_prove_sign census_calls _))
    intro _
    exact commit_next_idle _ (fields_idle _ _ _ _) ⟨rfl, rfl⟩ fun action named =>
      building_onward action named (by decide)
  apply recorded.on_failure
  apply quiet_mends
  exact quiet_bind (quiet_unlink census_calls _) fun _ => quiet_unlink census_calls _

theorem install_under_lock_builds (tenant : Str) :
    Triple censusSpec (Stands .install .wrap .building) (Host.installUnderLock tenant)
      (fun _ => Moved .wrap .building) (Failing .wrap) := by
  intro known stands found same
  apply only_pending (one_pending stands) same
  intro generation _ _
  refine Triple.bind (quiet_keeps (quiet_request census_calls.forgeWiring)) (fun held => ?_)
    known stands
  cases held with
  | none => exact fun _ stands => ⟨rfl, stands.retries⟩
  | some wiring =>
    simp only
    split_ifs
    · exact back_to_wrap.ignore
    · exact fun _ stands => ⟨rfl, stands.retries⟩
    · apply Triple.bind (quiet_keeps (quiet_unwrap census_calls _))
      intro delivery
      apply Triple.bind (quiet_keeps (quiet_unwrap census_calls _))
      intro sign
      exact install_secrets_builds _ _ _ _ _

/-- Any failure of the install restarts at `wrap`. -/
theorem install_turns (config : Config) (tenant : Str) :
    Triple censusSpec (Stands .install .wrap .building) (Host.install config tenant)
      (fun _ => Held.Counts)
      (fun why held => why.restart = some Host.rewrap ∧ held.Retries .wrap) := by
  apply Triple.map_failure
  apply (under_lock config false (install_under_lock_builds tenant)
    (fun _ stands => stands.retries) (fun _ moved => moved_retries moved)).weaken
  · exact fun _ stands => stands
  · exact fun _ _ moved => moved_counts moved
  · exact fun _ _ failing => ⟨rfl, failing.2⟩

theorem prepare_turns (config : Config) : Turns .prepare .later (Host.prepare config) := by
  intro known stands found same
  have one : countOf .live known.generations = 1 := by
    obtain ⟨action, pending, named, _⟩ := stands.job
    exact (counted_at stands.census stands.here pending named).2
  obtain ⟨generation, answered, _, _⟩ := only_ok ((count_perm same).trans one)
  refine ⟨generation, answered, ?_⟩
  refine Triple.bind (quiet_keeps (quiet_request census_calls.forgeWiring)) (fun held => ?_)
    known stands
  have prepared : ∀ path origin oidcRole,
      Triple censusSpec (Stands .prepare .prepare .later)
        (Host.prepareUnderLock found path origin oidcRole) (fun _ => Moved .prepare .later)
        (Failing .prepare) := by
    intro path origin oidcRole
    apply Triple.bind (quiet_keeps (quiet_act census_calls _))
    intro _
    apply Triple.bind (quiet_keeps (quiet_ensure_clone census_calls _ _ _))
    intro _
    apply Triple.bind (quiet_keeps (quiet_act census_calls _))
    intro _
    apply Triple.bind (quiet_keeps (quiet_act census_calls _))
    intro published
    simp only
    split_ifs
    · apply commit_next_idle _ next_idle ⟨rfl, rfl⟩
      intro action named
      cases action with
      | create => exact ⟨_, _, rfl, rfl⟩
      | rotate | offboard | deleteRepo => cases named
    · exact fun _ stands => ⟨rfl, stands.retries⟩
  split
  · exact (under_lock config true (prepared _ _ _) (fun _ stands => stands.retries)
      (fun _ moved => moved_retries moved)).weaken (fun _ stands => stands)
      (fun _ _ moved => moved_counts moved) fun _ _ failed => failed
  · exact fun _ stands => ⟨rfl, stands.retries⟩

theorem remove_old_file_turns (config : Config) :
    Turns .removeOldFile .later (Host.removeOldFile config) := by
  apply Triple.bind (quiet_keeps (quiet_request census_calls.generations))
  intro found
  apply Triple.bind (under_lock config false (quiet_keeps (quiet_bind (quiet_act census_calls _)
    fun _ => quiet_done ())) (fun _ stands => stands.retries) fun _ stands => stands.retries)
  intro _
  apply Triple.ignore
  apply commit_triple _ fun _ stands => stands.retries
  intro held rows after stands state generations landed
  have ends : after.record.pendingAction = none := landed_pending landed
  have kept : after.record.state = held.record.state := landed_state landed state
  have here : held.record.state ≠ .offboarded := by
    obtain ⟨action, pending, named, _⟩ := stands.job
    apply not_offboarded stands.census.pair pending
    intro gone
    subst gone
    cases named
  have settled := census_idle_end stands.census generations landed ends
    (fun _ => later_counts stands generations landed ⟨rfl, rfl, rfl⟩)
    fun gone => absurd (kept.symm.trans gone) here
  exact ⟨settled, settled⟩

theorem teardown_turns : Turns .teardown .gone Host.teardown := by
  apply Triple.bind (quiet_keeps (quiet_act census_calls _))
  intro _
  have torn : Triple censusSpec (Stands .teardown .teardown .gone)
      (do
        let _ ← act .removeTenantFiles
        commitNext { step := none, actor := none })
      (fun _ => Moved .teardown .gone) (Failing .teardown) := by
    apply Triple.bind (quiet_keeps (quiet_act census_calls _))
    intro _
    apply commit_next_idle _ next_idle ⟨rfl, rfl⟩
    intro action named
    cases action with
    | offboard => exact ⟨_, _, rfl, rfl⟩
    | create | rotate | deleteRepo => cases named
  apply torn.ensure
  · intro _
    exact (Triple.quiet (quiet_release_lock census_calls)
      fun _ _ plain moved => ⟨plain, moved_retries moved⟩).weaken (fun _ moved => moved)
      (fun _ _ moved => moved_counts moved) fun _ _ failed => failed
  · exact quiet_mends (quiet_release_lock census_calls)

/-- A failure whose restart point is recorded leaves a census. -/
def Restarts (step : StepName) (actor : StepActor) (why : Failed) (held : Held) : Prop :=
  held.Retries (why.restart.getD (step, actor)).1

theorem one_region {step : StepName} {left right : PendingAction} {here there : Region}
    (named : regionOf left step = some here) (also : regionOf right step = some there) :
    here = there := by
  cases step <;> cases left <;> cases right <;> cases named <;> cases also <;> rfl

theorem Turns.restarts {step : StepName} {region here : Region} {program : Body Unit}
    (turns : Turns step region program) (actor : StepActor) (known : PendingAction)
    (named : regionOf known step = some region) {held : Held}
    (stands : Stands step step here held) :
    holds censusSpec (fun _ => Held.Counts) (Restarts step actor) program held := by
  obtain ⟨action, _, here_named, _⟩ := stands.job
  have same : here = region := one_region here_named named
  subst same
  apply holds_mono (fun _ _ counts => counts) _ (turns held stands)
  intro why after failing
  have own : why.restart = none := failing.1
  unfold Restarts
  rw [own]
  exact failing.2

theorem install_restarts (config : Config) (tenant : Str) {here : Region} {held : Held}
    (stands : Stands .install .install here held) :
    holds censusSpec (fun _ => Held.Counts) (Restarts .install .host) (Host.install config tenant)
      held := by
  obtain ⟨action, pending, named, _⟩ := stands.job
  have same : here = .building := one_region named (rfl : regionOf .create .install = some _)
  subst same
  have wraps : regionOf action .wrap = some .building := by
    cases action with
    | create | rotate => rfl
    | offboard | deleteRepo => cases named
  have from_wrap : Stands .install .wrap .building held :=
    ⟨stands.census, stands.here, action, pending, named, wraps⟩
  apply holds_mono (fun _ _ counts => counts) _ (install_turns config tenant held from_wrap)
  intro why after failing
  unfold Restarts
  rw [failing.1]
  exact failing.2

theorem unknown_restarts {step : StepName} {here : Region} (actor : StepActor) (text : Str)
    {held : Held} (stands : Stands step step here held) :
    holds censusSpec (fun _ => Held.Counts) (Restarts step actor) (fail text : Body Unit) held :=
  stands.retries

theorem body_counts (config : Config) (tenant : Str) (actor : StepActor) {step : StepName}
    {held : Held} (census : held.Counts) (here : held.record.step = some step)
    (pending : held.record.pendingAction.isSome = true) :
    holds censusSpec (fun _ => Held.Counts) (Restarts step actor)
      (bodyOf config tenant actor step) held := by
  obtain ⟨action, is⟩ := Option.isSome_iff_exists.mp pending
  obtain ⟨other, region, at_other, named, _⟩ := census.job action is
  have same : other = step := Option.some.inj (at_other.symm.trans here)
  subst same
  have stands : Stands other other region held := ⟨census, here, action, is, named, named⟩
  cases actor with
  | service =>
    cases other with
    | names =>
      exact (names_turns config tenant).restarts .service .create rfl stands
    | provider => exact (provider_builds tenant).turns.restarts .service .create rfl stands
    | repo => exact repo_builds.turns.restarts .service .create rfl stands
    | bot => exact bot_builds.turns.restarts .service .create rfl stands
    | protect => exact protect_builds.turns.restarts .service .rotate rfl stands
    | integration =>
      exact integration_builds.turns.restarts .service .create rfl stands
    | template => exact template_builds.turns.restarts .service .create rfl stands
    | wrap => exact (wrap_builds tenant).turns.restarts .service .create rfl stands
    | sweep => exact sweep_turns.restarts .service .create rfl stands
    | activate => exact activate_turns.restarts .service .create rfl stands
    | retire => exact retire_turns.restarts .service .rotate rfl stands
    | offboard => exact (offboard_turns tenant).restarts .service .offboard rfl stands
    | finish => exact (finish_turns tenant).restarts .service .offboard rfl stands
    | deleteRepo => exact delete_repo_turns.restarts .service .deleteRepo rfl stands
    | install | prepare | removeOldFile | teardown | other =>
      exact unknown_restarts .service _ stands
  | host =>
    cases other with
    | install => exact install_restarts config tenant stands
    | prepare => exact (prepare_turns config).restarts .host .create rfl stands
    | removeOldFile => exact (remove_old_file_turns config).restarts .host .rotate rfl stands
    | teardown => exact teardown_turns.restarts .host .offboard rfl stands
    | _ => exact unknown_restarts .host _ stands
  | other name => exact unknown_restarts (.other name) _ stands

end Defender.Lifecycle
