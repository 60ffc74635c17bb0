import Defender.Lifecycle.SweepBodies

/-!
# Every step body does outside only what it may

The builders, then the steps that revoke: `retire` what is retiring, the offboarding all
that its tenant has. The host's steps touch nothing of it.
-/

namespace Defender.Lifecycle

open Defender.Python Defender.Tenancy Defender.Library.Programs
open Defender.Library.OrderedDict

variable {tenant : Str}

abbrev Clean (tenant : Str) (before : Sure → Prop) (program : Body Unit) : Prop :=
  Sweeps tenant before program (fun _ _ => True)

section Builders

variable {generation : Generation}

theorem erects_base (sure : Sure) (erects : Erects tenant generation sure) :
    Base tenant sure := erects.ready.base

theorem ready_base (sure : Sure) (ready : Ready tenant sure) : Base tenant sure := ready.base

theorem no_names (next : Option StepName) (actor : Option StepActor) :
    NamesNothing { step := next, actor } := no_fields_keep rfl

theorem fields_idle_names {salt : Str} {fields : GenerationFields} (next : Option StepName)
    (actor : Option StepActor)
    (same : ∀ held, naming (fields.apply held) = naming held) :
    NamesNothing { step := next, actor, updateGenerations := .ofList [(salt, fields)] } :=
  fields_keep salt fields rfl same

theorem provider_clean : Clean tenant (Ready tenant) (Service.provider tenant) := by
  apply building_sweeps.bind
  intro pending
  apply with_sign_names_sweeps.bind
  rintro generation sure ⟨erects, signed⟩
  refine Triple.bind write_role_sweeps (fun _ => ?_) sure erects
  apply (quiet_sweeps (quiet_approle_accessor (sweep_calls tenant))).bind
  intro accessor
  have approle : Made tenant generation (.approle generation.approle) := by
    right
    simp [thingsOf, Service.grantsOf]
  apply (approle_sweeps approle).bind
  intro roleId
  have entity : Made tenant generation (.entity generation.entity) := by
    right
    simp [thingsOf, Service.grantsOf]
  apply (entity_sweeps entity _ _).bind
  intro _
  apply (sign_chain_sweeps signed accessor).bind
  intro signRoleId
  apply commit_next_idle_sweeps erects_base ⟨rfl, rfl, rfl⟩ _ (.inl rfl)
  apply fields_idle_names
  exact fun _ => rfl

theorem next_clean {before : Sure → Prop} (starts : ∀ sure, before sure → Base tenant sure) :
    Clean tenant before (commitNext { step := none, actor := none }) :=
  commit_next_idle_sweeps starts ⟨rfl, rfl, rfl⟩ (no_names _ _) (.inl rfl)

theorem failed_clean {before : Sure → Prop} (text : Str) :
    Clean tenant before (fail text : Body Unit) := fun _ _ => trivial

theorem repo_clean : Clean tenant (Ready tenant) Service.repo := by
  apply (quiet_sweeps (quiet_wiring (sweep_calls tenant))).bind
  intro held
  apply (quiet_sweeps (quiet_call (sweep_calls tenant) _ _ _)).bind
  intro found
  split_ifs
  · split
    · apply (quiet_sweeps (quiet_call (sweep_calls tenant) _ _ _)).bind
      exact fun _ => next_clean ready_base
    · exact failed_clean _
  · exact next_clean ready_base
  · exact failed_clean _

theorem bot_clean : Clean tenant (Ready tenant) Service.bot := by
  apply listing_sweeps.bind
  intro found
  apply only_pending_sweeps.bind
  intro generation
  apply (quiet_sweeps (quiet_wiring (sweep_calls tenant))).bind
  intro held
  have bot : Made tenant generation (.bot generation.botLogin) := .inr List.mem_cons_self
  apply (ensure_thing_sweeps bot).bind
  intro _
  apply (quiet_sweeps (quiet_call (sweep_calls tenant) _ _ _)).bind
  intro _
  apply (quiet_sweeps (quiet_collaborators (sweep_calls tenant) _)).bind
  intro listed
  apply (quiet_sweeps (quiet_each_call (sweep_calls tenant) _ _ _ _)).bind
  intro _
  exact next_clean erects_base

theorem protect_clean : Clean tenant (Ready tenant) Service.protect := by
  apply (quiet_sweeps (quiet_wiring (sweep_calls tenant))).bind
  intro held
  apply (quiet_sweeps (quiet_protect_main (sweep_calls tenant) _)).bind
  intro _
  exact next_clean ready_base

theorem integration_clean : Clean tenant (Ready tenant) Service.integration := by
  apply building_sweeps.bind
  intro generation
  apply (quiet_sweeps (quiet_run_integration (sweep_calls tenant) _)).bind
  intro ended
  split_ifs
  · exact failed_clean _
  · split
    · apply write_role_sweeps.bind
      intro _
      apply commit_next_idle_sweeps erects_base ⟨rfl, rfl, rfl⟩ _ (.inl rfl)
      apply fields_idle_names
      exact fun _ => rfl
    · exact failed_clean _

theorem template_clean : Clean tenant (Ready tenant) Service.template := by
  apply building_sweeps.bind
  intro generation
  apply (quiet_sweeps (quiet_wiring (sweep_calls tenant))).bind
  intro held
  apply (quiet_sweeps (quiet_call (sweep_calls tenant) _ _ _)).bind
  intro found
  apply (quiet_sweeps (quiet_push_if_empty (sweep_calls tenant) _ _ _)).bind
  intro _
  apply (quiet_sweeps (quiet_await_main (sweep_calls tenant) _ _)).bind
  intro _
  apply (quiet_sweeps (quiet_protect_main (sweep_calls tenant) _)).bind
  intro _
  exact next_clean erects_base

theorem wrap_clean : Clean tenant (Ready tenant) (Service.wrap tenant) := by
  apply (quiet_sweeps (quiet_wiring (sweep_calls tenant))).bind
  intro held
  apply (quiet_sweeps (quiet_protect_main (sweep_calls tenant) _)).bind
  intro _
  apply building_sweeps.bind
  intro pending
  apply with_sign_chain_sweeps.bind
  intro generation
  apply (quiet_sweeps (quiet_wrapped_secret (sweep_calls tenant) _)).bind
  intro wrapped
  apply (quiet_sweeps (quiet_wrapped_secret (sweep_calls tenant) _)).bind
  intro signWrapped
  apply commit_next_idle_sweeps erects_base ⟨rfl, rfl, rfl⟩ _ (.inl rfl)
  apply fields_idle_names
  exact fun _ => rfl

theorem names_clean (config : Config) :
    Clean tenant (Ready tenant) (Service.names config tenant) := by
  apply (quiet_sweeps (quiet_request (sweep_calls tenant).forgeWiring)).bind
  intro wiring
  have draws : Sweeps tenant (Ready tenant) tokenHex
      (fun salt sure => Ready tenant sure ∧ salt.length = saltLength) :=
    fun _ ready _ length => ⟨ready, length⟩
  apply draws.bind
  intro salt
  apply (quiet_sweeps (quiet_request (sweep_calls tenant).record)).bind
  intro record
  apply commit_next_sweeps
  intro sure rows after step actor start state generations landed
  apply commit_leaves generations landed (start.1.base.kept (no_fields_keep rfl))
  · intro add added
    rw [← Option.some.inj added]
    constructor
    · apply (new_well_named config _ start.2).renamed
      rw [row_after_naming, start.1.base.id]
      rfl
    · rw [row_after_idle rfl rfl]
      exact fun gone => by cases gone
  · intro was _ gone
    rw [row_after_idle rfl rfl] at gone
    exact .inl gone
  · intro gone
    rw [landed.record] at gone
    exact .inl (state.symm.trans gone)

theorem sweep_clean : Clean tenant (Ready tenant) Service.sweep := by
  apply building_sweeps.bind
  intro generation
  split_ifs
  · exact failed_clean _
  · exact (commit_idle_sweeps erects_base ⟨rfl, rfl, rfl⟩ (no_names _ _) (.inl rfl)).ignore
  · apply (quiet_sweeps (quiet_sweep_secret_ids (sweep_calls tenant) _ _)).bind
    intro _
    apply (quiet_sweeps (quiet_sweep_secret_ids (sweep_calls tenant) _ _)).bind
    intro _
    apply commit_next_sweeps
    intro sure rows after step actor erects state generations landed
    apply commit_leaves generations landed (erects.ready.base.kept (no_fields_keep rfl))
    · exact fun add added => nomatch added
    · intro was _ gone
      rw [row_after_live rfl rfl] at gone
      split_ifs at gone
      exact .inl gone
    · intro gone
      rw [landed.record] at gone
      exact .inl (state.symm.trans gone)

theorem activate_clean : Clean tenant (Base tenant) Service.activate :=
  (commit_idle_sweeps (fun _ base => base) ⟨rfl, rfl, rfl⟩ (no_fields_keep rfl)
    (.inr rfl)).ignore

end Builders

section Revokers

theorem base_steady : Steady (Base tenant) := fun _ _ base => ⟨base.id, base.apart, base.named⟩

/-- `retire` with the generations it listed. -/
theorem retire_clean : Clean tenant (Base tenant) Service.retire := by
  apply listing_sweeps.bind
  intro listed
  apply (quiet_sweeps (quiet_repo_of (sweep_calls tenant))).bind
  intro repo
  have steady : Steady fun sure : Sure => Base tenant sure ∧ listed.Perm sure.generations :=
    fun sure absent start => ⟨base_steady sure absent start.1, start.2⟩
  apply (destroy_clears steady.grows repo ?_).bind
  · intro _
    apply commit_next_sweeps
    rintro sure rows after step actor ⟨⟨base, same⟩, gone⟩ state generations landed
    apply commit_leaves generations landed (base.kept (no_fields_keep rfl))
    · exact fun add added => nomatch added
    · intro was stored is
      unfold Memory.rowAfter at is
      simp only [Memory.destroyed, Memory.fields_set_salt] at is
      split_ifs at is with old
      · obtain ⟨retired, filtered, salt⟩ := List.mem_map.mp old
        have member : retired ∈ sure.generations :=
          same.mem_iff.mp (List.mem_filter.mp filtered).1
        have one : retired = was := List.inj_on_of_nodup_map base.apart member stored salt
        exact .inr (gone was (one ▸ filtered))
      · rw [Memory.fields_set_status] at is
        exact .inl is
    · intro ended
      rw [landed.record] at ended
      exact .inl (state.symm.trans ended)
  · intro held filtered thing listed_thing sure start
    obtain ⟨member, retiring⟩ := List.mem_filter.mp filtered
    have stored : held ∈ sure.generations := start.2.mem_iff.mp member
    exact ⟨.inr ⟨held, stored, listed_thing⟩,
      .inr (.inr ⟨held, stored, of_decide_eq_true retiring, listed_thing⟩)⟩

/-- A tenant whose offboarding is under way, with the generations a step listed. -/
structure Leaving (tenant : Str) (listed : List Generation) (sure : Sure) : Prop where
  base : Base tenant sure
  same : listed.Perm sure.generations
  state : sure.record.state = .offboarding ∨ sure.record.state = .offboarded

theorem leaving_grows {listed : List Generation} : Grows (Leaving tenant listed) :=
  fun sure _ leaving =>
    ⟨base_steady sure _ leaving.base, leaving.same, leaving.state⟩

theorem Leaving.may {listed : List Generation} {sure : Sure}
    (leaving : Leaving tenant listed sure) {thing : Thing} (owns : sure.Owns tenant thing) :
    sure.MayRemove tenant thing :=
  ⟨owns, leaving.state.imp_right .inl⟩

theorem leaving_may {listed some_of : List Generation} (part : ∀ held ∈ some_of, held ∈ listed) :
    ∀ held ∈ some_of, ∀ thing ∈ thingsOf held, ∀ sure, Leaving tenant listed sure →
      sure.MayRemove tenant thing :=
  fun held member _ thing_listed _ leaving =>
    leaving.may (.inr ⟨held, leaving.same.mem_iff.mp (part held member), thing_listed⟩)

theorem leaving_may_key {listed : List Generation} :
    ∀ sure, Leaving tenant listed sure → sure.MayRemove tenant (.signingKey tenant) :=
  fun _ leaving => leaving.may (.inl rfl)

/-- A tenant of which an offboarding step has listed nothing yet. -/
structure Parting (tenant : Str) (sure : Sure) : Prop where
  base : Base tenant sure
  state : sure.record.state = .offboarding ∨ sure.record.state = .offboarded

theorem parting_lists :
    Sweeps tenant (Parting tenant) generations (fun listed => Leaving tenant listed) :=
  fun _ parting _ same => ⟨parting.base, same, parting.state⟩

theorem keyed_grows {listed : List Generation} :
    Grows fun sure : Sure => Leaving tenant listed sure ∧ sure.absent (.signingKey tenant) :=
  fun sure thing start => ⟨leaving_grows sure thing start.1, .inr start.2⟩

theorem revoked_grows {listed gone : List Generation} {bots : List Str} :
    Grows fun sure : Sure => Leaving tenant listed sure ∧ Revoked gone bots sure :=
  fun sure thing start => ⟨leaving_grows sure thing start.1, start.2.lacking thing⟩

theorem bots_last_clears {listed gone : List Generation} {bots : List Str}
    (part : ∀ held ∈ gone, held ∈ listed) :
    Sweeps tenant
      (fun sure => (Leaving tenant listed sure ∧ Revoked gone bots sure) ∧
        sure.absent (.signingKey tenant))
      (Service.deleteBots bots)
      (fun _ sure => (Leaving tenant listed sure ∧ sure.absent (.signingKey tenant)) ∧
        ∀ held ∈ gone, ∀ thing ∈ thingsOf held, sure.absent thing) := by
  have deleted := @delete_bots_clears tenant _ keyed_grows gone bots
    fun held member thing listed_thing sure start =>
      leaving_may part held member thing listed_thing sure start.1
  exact deleted.weaken (fun _ start => ⟨⟨start.1.1, start.2⟩, start.1.2⟩)
    (fun _ _ emptied => emptied) fun _ _ failed => failed

theorem offboard_clean : Clean tenant (Parting tenant) (Service.offboard tenant) := by
  apply (quiet_sweeps (quiet_request (sweep_calls tenant).clock)).bind
  intro now
  apply (quiet_sweeps (quiet_act (sweep_calls tenant) _)).bind
  intro _
  apply (quiet_sweeps (quiet_repo_of (sweep_calls tenant))).bind
  intro repo
  apply parting_lists.bind
  intro listed
  have part : ∀ held ∈ listed.filter (·.status ≠ .destroyed), held ∈ listed :=
    fun held filtered => (List.mem_filter.mp filtered).1
  apply (revoke_clears leaving_grows repo (leaving_may part)).bind
  intro bots
  apply (destroy_key_clears revoked_grows fun sure start => leaving_may_key sure start.1).bind
  intro _
  apply (quiet_sweeps (quiet_archive (sweep_calls tenant) _)).bind
  intro _
  apply (bots_last_clears part).bind
  intro _
  apply commit_next_sweeps
  rintro sure rows after step actor ⟨⟨leaving, key⟩, gone⟩ state generations landed
  apply commit_leaves generations landed (leaving.base.kept (no_fields_keep rfl))
  · exact fun add added => nomatch added
  · intro was stored _
    by_cases already : was.status = .destroyed
    · exact .inl already
    · right
      exact gone was (List.mem_filter.mpr
        ⟨leaving.same.mem_iff.mpr stored, decide_eq_true already⟩)
  · exact fun _ => .inr key

theorem finish_clean : Clean tenant (Parting tenant) (Service.finish tenant) := by
  apply parting_lists.bind
  intro listed
  apply (quiet_sweeps (quiet_repo_of (sweep_calls tenant))).bind
  intro repo
  have part : ∀ held ∈ listed, held ∈ listed := fun _ member => member
  apply (revoke_clears leaving_grows repo (leaving_may part)).bind
  intro bots
  apply (destroy_key_clears revoked_grows fun sure start => leaving_may_key sure start.1).bind
  intro _
  apply (bots_last_clears part).bind
  intro _
  apply (quiet_sweeps (quiet_request (sweep_calls tenant).clock)).bind
  intro now
  apply Triple.ignore
  apply commit_sweeps
  rintro sure rows after ⟨⟨leaving, key⟩, gone⟩ state generations landed
  apply commit_leaves generations landed (leaving.base.kept (no_fields_keep rfl))
  · exact fun add added => nomatch added
  · intro was stored _
    exact .inr (gone was (leaving.same.mem_iff.mpr stored))
  · exact fun _ => .inr key

theorem delete_repo_clean : Clean tenant (Parting tenant) Service.deleteRepo := by
  apply (quiet_sweeps (quiet_repo_of (sweep_calls tenant))).bind
  intro repo
  apply parting_lists.bind
  intro listed
  apply (destroy_clears leaving_grows repo (leaving_may fun _ member => member)).bind
  intro _
  apply (quiet_sweeps (quiet_drop_repo (sweep_calls tenant) _)).bind
  intro _
  apply (commit_idle_sweeps (fun _ start => start.1.base) ⟨rfl, rfl, rfl⟩ (no_fields_keep rfl)
    (.inl rfl)).bind
  intro _
  apply (quiet_sweeps (quiet_act (sweep_calls tenant) _)).bind
  exact fun _ _ _ => trivial

end Revokers

section Host

variable {before : Sure → Prop} {program : Body Unit}

theorem cleanup_clean {Result : Type} {cleanup : Body Result}
    (quiet : QuietBody (sweepSpec tenant) cleanup) :
    Sweeps tenant (fun _ => True) cleanup (fun _ _ => True) :=
  quiet_sweeps quiet

theorem under_lock_sweeps {after : Sure → Prop} (config : Config) (exclusive : Bool)
    (sweeps : Sweeps tenant before program (fun _ => after)) :
    Sweeps tenant before (Host.underHostLock config exclusive program) (fun _ => after) := by
  apply (quiet_sweeps (quiet_act (sweep_calls tenant) _)).bind
  intro lock
  cases lock with
  | none => exact fun _ _ => trivial
  | some _ =>
    exact sweeps.ensure (fun _ => quiet_sweeps (quiet_release_lock (sweep_calls tenant)))
      fun _ => cleanup_clean (quiet_release_lock (sweep_calls tenant))

theorem install_secrets_clean (generation : Generation) (repo accessor signAccessor : Str) :
    Clean tenant (Ready tenant)
      (Host.installSecrets tenant generation repo accessor signAccessor) := by
  apply (quiet_sweeps (quiet_write_secret (sweep_calls tenant) _ _)).bind
  intro path
  have written : Sweeps tenant (Ready tenant)
      ((Host.writeSecret Host.signFile signAccessor).onFailure (Host.unlink path))
      (fun _ => Ready tenant) :=
    (quiet_sweeps (quiet_write_secret (sweep_calls tenant) _ _)).on_failure
      fun _ => cleanup_clean (quiet_unlink (sweep_calls tenant) _)
  apply written.bind
  intro signPath
  have recorded : Clean tenant (Ready tenant)
      (Host.proveAndRecord tenant generation repo accessor signAccessor path signPath) := by
    apply (quiet_sweeps (quiet_log_in (sweep_calls tenant))).bind
    intro _
    apply (quiet_sweeps (quiet_mint (sweep_calls tenant) _)).bind
    intro _
    apply (quiet_sweeps (quiet_check_branch (sweep_calls tenant) _)).bind
    intro _
    apply (quiet_sweeps (quiet_prove_sign (sweep_calls tenant) _)).bind
    intro _
    apply commit_next_idle_sweeps ready_base ⟨rfl, rfl, rfl⟩ _ (.inl rfl)
    apply fields_idle_names
    exact fun _ => rfl
  apply recorded.on_failure
  intro _
  apply cleanup_clean
  exact quiet_bind (quiet_unlink (sweep_calls tenant) _) fun _ =>
    quiet_unlink (sweep_calls tenant) _

theorem install_clean (config : Config) :
    Clean tenant (Ready tenant) (Host.install config tenant) := by
  apply Triple.map_failure
  apply under_lock_sweeps
  apply listing_sweeps.bind
  intro found
  apply only_pending_sweeps.bind
  intro generation
  apply (quiet_sweeps (quiet_request (sweep_calls tenant).forgeWiring)).bind
  intro held
  cases held with
  | none => exact failed_clean _
  | some wiring =>
    simp only
    split_ifs
    · exact (commit_idle_sweeps erects_base ⟨rfl, rfl, rfl⟩ (no_names _ _) (.inl rfl)).ignore
    · exact failed_clean _
    · apply (quiet_sweeps (quiet_unwrap (sweep_calls tenant) _)).bind
      intro delivery
      apply (quiet_sweeps (quiet_unwrap (sweep_calls tenant) _)).bind
      intro sign
      exact (install_secrets_clean _ _ _ _).weaken (fun _ erects => erects.ready)
        (fun _ _ done => done) fun _ _ failed => failed

theorem prepare_clean (config : Config) : Clean tenant (Base tenant) (Host.prepare config) := by
  apply (quiet_sweeps (quiet_request (sweep_calls tenant).generations)).bind
  intro found
  have one : Sweeps tenant (Base tenant) (onlyOne found .live) (fun _ => Base tenant) := by
    intro sure base
    show holds _ _ _ (orFailed (only found .live)) sure
    cases only found .live with
    | error why => exact trivial
    | ok one => exact base
  apply one.bind
  intro generation
  apply (quiet_sweeps (quiet_request (sweep_calls tenant).forgeWiring)).bind
  intro held
  split
  · apply under_lock_sweeps
    apply (quiet_sweeps (quiet_act (sweep_calls tenant) _)).bind
    intro _
    apply (quiet_sweeps (quiet_ensure_clone (sweep_calls tenant) _ _ _)).bind
    intro _
    apply (quiet_sweeps (quiet_act (sweep_calls tenant) _)).bind
    intro _
    apply (quiet_sweeps (quiet_act (sweep_calls tenant) _)).bind
    intro published
    simp only
    split_ifs
    · exact next_clean fun _ base => base
    · exact failed_clean _
  · exact failed_clean _

theorem remove_old_file_clean (config : Config) :
    Clean tenant (Base tenant) (Host.removeOldFile config) := by
  apply (quiet_sweeps (quiet_request (sweep_calls tenant).generations)).bind
  intro found
  apply (under_lock_sweeps config false (quiet_sweeps (quiet_bind (quiet_act (sweep_calls tenant) _)
    fun _ => quiet_done ()))).bind
  intro _
  exact (commit_idle_sweeps (fun _ base => base) ⟨rfl, rfl, rfl⟩ (no_fields_keep rfl)
    (.inl rfl)).ignore

theorem teardown_clean : Clean tenant (Base tenant) Host.teardown := by
  apply (quiet_sweeps (quiet_act (sweep_calls tenant) _)).bind
  intro _
  have torn : Clean tenant (Base tenant) (do
      let _ ← act .removeTenantFiles
      commitNext { step := none, actor := none }) := by
    apply (quiet_sweeps (quiet_act (sweep_calls tenant) _)).bind
    exact fun _ => next_clean fun _ base => base
  exact torn.ensure (fun _ => cleanup_clean (quiet_release_lock (sweep_calls tenant)))
    fun _ => cleanup_clean (quiet_release_lock (sweep_calls tenant))

end Host

theorem standing_at {step : StepName} {action : PendingAction} {region : Region}
    {record : TenantRecord} (pair : allowedPair record.state record.pendingAction = true)
    (pending : record.pendingAction = some action) (named : regionOf action step = some region)
    (kept : step ≠ .deleteRepo) : record.state ≠ .offboarded := by
  apply not_offboarded pair pending
  intro gone
  subst gone
  cases step <;> first | exact kept rfl | cases named

theorem leaving_at {action : PendingAction} {record : TenantRecord}
    (pair : allowedPair record.state record.pendingAction = true)
    (pending : record.pendingAction = some action)
    (leaving : action = .offboard ∨ action = .deleteRepo) :
    record.state = .offboarding ∨ record.state = .offboarded := by
  rw [pending] at pair
  cases leaving with
  | inl offboard =>
    subst offboard
    cases is : record.state with
    | offboarding => exact .inl rfl
    | offboarded => exact .inr rfl
    | creating | active =>
      rw [is] at pair
      exact absurd pair (by decide)
  | inr deletes =>
    subst deletes
    cases is : record.state with
    | offboarding => exact .inl rfl
    | offboarded => exact .inr rfl
    | creating | active =>
      rw [is] at pair
      exact absurd pair (by decide)

/-- The body of the step that a tenant is at, run by any actor. -/
theorem body_clean (config : Config) (actor : StepActor) {step : StepName} {sure : Sure}
    (base : Base tenant sure) (census : Census sure.record sure.generations)
    (here : sure.record.step = some step)
    (pending : sure.record.pendingAction.isSome = true) :
    holds (sweepSpec tenant) (fun _ _ => True) (fun _ _ => True)
      (bodyOf config tenant actor step) sure := by
  obtain ⟨action, is⟩ := Option.isSome_iff_exists.mp pending
  obtain ⟨other, region, at_other, named, _⟩ := census.job action is
  have same : other = step := Option.some.inj (at_other.symm.trans here)
  subst same
  have ready : other ≠ .deleteRepo → Ready tenant sure := fun kept =>
    ⟨base, standing_at census.pair is named kept⟩
  have parting : other = .offboard ∨ other = .finish ∨ other = .deleteRepo →
      Parting tenant sure := by
    intro last
    refine ⟨base, leaving_at census.pair is ?_⟩
    rcases last with rfl | rfl | rfl <;> cases action <;>
      first | exact .inl rfl | exact .inr rfl | cases named
  cases actor with
  | service =>
    cases other with
    | names => exact names_clean config sure (ready (by decide))
    | provider => exact provider_clean sure (ready (by decide))
    | repo => exact repo_clean sure (ready (by decide))
    | bot => exact bot_clean sure (ready (by decide))
    | protect => exact protect_clean sure (ready (by decide))
    | integration => exact integration_clean sure (ready (by decide))
    | template => exact template_clean sure (ready (by decide))
    | wrap => exact wrap_clean sure (ready (by decide))
    | sweep => exact sweep_clean sure (ready (by decide))
    | activate => exact activate_clean sure base
    | retire => exact retire_clean sure base
    | offboard => exact offboard_clean sure (parting (.inl rfl))
    | finish => exact finish_clean sure (parting (.inr (.inl rfl)))
    | deleteRepo => exact delete_repo_clean sure (parting (.inr (.inr rfl)))
    | install | prepare | removeOldFile | teardown | other => exact trivial
  | host =>
    cases other with
    | install => exact install_clean config sure (ready (by decide))
    | prepare => exact prepare_clean config sure base
    | removeOldFile => exact remove_old_file_clean config sure base
    | teardown => exact teardown_clean sure base
    | _ => exact trivial
  | other name => exact trivial

end Defender.Lifecycle
