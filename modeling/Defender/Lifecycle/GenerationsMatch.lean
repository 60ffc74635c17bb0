import Defender.Lifecycle.CensusBody
import Defender.Lifecycle.LockedRows

/-!
# A tenant's generations match its step

In every state the system reaches, each row has its census and each worker goes on from
what it knows of its row. A request moves the row under a hold, and the fence then refuses
the hold's commit, so what a worker knows of the generations stays true until it writes.
-/

namespace Defender.Lifecycle

open Defender.Python Defender.Tenancy Defender.Library.Programs

def RowCounted (rows : TenantRows) : Prop := Census rows.record rows.generations

/-- The row under a hold and the record the hold last saw: only an offboarding request has
come between their states. -/
structure Follows (row seen : TenantRecord) : Prop where
  row_pair : allowedPair row.state row.pendingAction = true
  seen_pair : allowedPair seen.state seen.pendingAction = true
  state : row.state = seen.state ∨
    (row.state = .offboarding ∧ (seen.state = .creating ∨ seen.state = .active))

structure Fits (worker : Worker) (rows : TenantRows) : Prop where
  follows : Follows rows.record worker.record
  continues : holds censusSpec (fun _ => Held.Counts) (Restarts worker.step worker.actor)
    worker.program ⟨worker.record, rows.generations⟩

theorem offboarding_pending {record : TenantRecord}
    (pair : allowedPair record.state record.pendingAction = true)
    (is : record.state = .offboarding) : record.pendingAction = some .offboard := by
  rw [is] at pair
  exact List.mem_singleton.mp (of_decide_eq_true pair)

theorem Follows.fenced {row seen : TenantRecord} (follows : Follows row seen)
    (fence : fenceHolds row seen = true) : row.state = seen.state := by
  cases follows.state with
  | inl same => exact same
  | inr asked =>
    obtain ⟨offboarding, before⟩ := asked
    unfold fenceHolds at fence
    simp only [Bool.and_eq_true, decide_eq_true_eq] at fence
    have pending : seen.pendingAction = some .offboard :=
      fence.1.1.1.symm.trans (offboarding_pending follows.row_pair offboarding)
    have pair := follows.seen_pair
    rw [pending] at pair
    cases before with
    | inl creating =>
      rw [creating] at pair
      exact absurd pair (by decide)
    | inr active =>
      rw [active] at pair
      exact absurd pair (by decide)

theorem census_same {record other : TenantRecord} {generations : List Generation}
    (census : Census record generations) (state : other.state = record.state)
    (pendingAction : other.pendingAction = record.pendingAction)
    (step : other.step = record.step) : Census other generations where
  pair := by
    rw [state, pendingAction]
    exact census.pair
  apart := census.apart
  job := by
    rw [pendingAction, step]
    exact census.job
  active := by
    rw [state, pendingAction]
    exact census.active
  offboarded := by
    rw [state]
    exact census.offboarded

section Requests

variable {rows after : TenantRows} {worker : Worker}

theorem new_tenant_counted (tenant : Str) (now : Time) :
    RowCounted (Memory.newTenant tenant now) where
  pair := (by decide : allowedPair .creating (some .create) = true)
  apart := List.nodup_nil
  job := by
    intro action pending
    rw [← Option.some.inj pending]
    exact ⟨.names, .unnamed, rfl, rfl, rfl, rfl⟩
  active := fun is => by cases is
  offboarded := fun is => by cases is

theorem resume_counted (asked : Memory.requestResume rows = some after)
    (counted : RowCounted rows) : RowCounted after := by
  unfold Memory.requestResume at asked
  split_ifs at asked
  rw [← Option.some.inj asked]
  exact census_same counted rfl rfl rfl

theorem resume_fits (asked : Memory.requestResume rows = some after)
    (fits : Fits worker rows) : Fits worker after := by
  unfold Memory.requestResume at asked
  split_ifs at asked
  rw [← Option.some.inj asked]
  exact ⟨⟨fits.follows.row_pair, fits.follows.seen_pair, fits.follows.state⟩, fits.continues⟩

theorem offboard_counted (asked : Memory.requestOffboard rows = some after)
    (counted : RowCounted rows) : RowCounted after := by
  unfold Memory.requestOffboard at asked
  split_ifs at asked
  rw [← Option.some.inj asked]
  exact {
    pair := (by decide : allowedPair .offboarding (some .offboard) = true)
    apart := counted.apart
    job := by
      intro action pending
      rw [← Option.some.inj pending]
      exact ⟨.offboard, .ending, rfl, rfl, trivial⟩
    active := fun is => by cases is
    offboarded := fun is => by cases is }

theorem offboard_fits (asked : Memory.requestOffboard rows = some after)
    (fits : Fits worker rows) : Fits worker after := by
  unfold Memory.requestOffboard at asked
  split_ifs at asked with before
  rw [← Option.some.inj asked]
  have came_before : worker.record.state = .creating ∨ worker.record.state = .active := by
    cases fits.follows.state with
    | inl same => exact same ▸ before
    | inr earlier => exact earlier.2
  exact ⟨⟨(by decide : allowedPair .offboarding (some .offboard) = true),
    fits.follows.seen_pair, .inr ⟨rfl, came_before⟩⟩, fits.continues⟩

theorem rotate_counted (asked : Memory.requestRotate rows = some after)
    (counted : RowCounted rows) : RowCounted after := by
  unfold Memory.requestRotate at asked
  split_ifs at asked with idle
  rw [← Option.some.inj asked]
  obtain ⟨active, nothing⟩ := idle
  exact {
    pair := by
      show allowedPair rows.record.state (some .rotate) = true
      rw [active]
      decide
    apart := counted.apart
    job := by
      intro action pending
      rw [← Option.some.inj pending]
      exact ⟨.names, .unnamed, rfl, rfl, counted.active active nothing⟩
    active := fun _ pending => by cases pending
    offboarded := counted.offboarded }

theorem rotate_fits (asked : Memory.requestRotate rows = some after)
    (fits : Fits worker rows) : Fits worker after := by
  unfold Memory.requestRotate at asked
  split_ifs at asked with idle
  rw [← Option.some.inj asked]
  have pair : allowedPair rows.record.state (some .rotate) = true := by
    rw [idle.1]
    decide
  exact ⟨⟨pair, fits.follows.seen_pair, fits.follows.state⟩, fits.continues⟩

end Requests

section Workers

variable {config : Config} {system : System} {id : Nat} {worker : Worker}

abbrev Sound (system : System) : Prop := Consistent (fun _ => RowCounted) Fits system

theorem Sound.things {things : List Thing} (sound : Sound system) :
    Sound { system with things } := ⟨sound.rows, sound.workers, sound.alone⟩

theorem start_fits (actor : StepActor) {seen : TenantRecord} {rows : TenantRows}
    (tenant : Str) {now : Time} (follows : Follows rows.record seen)
    (counts : Census seen rows.generations) (claimable : claimableNow seen actor now = true) :
    Fits (startStep config actor tenant seen) rows := by
  have pending : seen.pendingAction.isSome = true := by
    unfold claimableNow at claimable
    simp only [Bool.and_eq_true] at claimable
    exact claimable.1.1.1
  obtain ⟨action, is⟩ := Option.isSome_iff_exists.mp pending
  obtain ⟨step, region, here, _⟩ := counts.job action is
  have begun : startStep config actor tenant seen =
      { actor, tenant, record := seen, step,
        program := bodyOf config tenant actor step } := by
    unfold startStep
    rw [here]
    rfl
  rw [begun]
  have checked : holds censusSpec (fun _ => Held.Counts) (Restarts step actor)
      (bodyOf config tenant actor step) ⟨seen, rows.generations⟩ :=
    body_counts config tenant actor counts here pending
  exact ⟨follows, checked⟩

section Committed

variable {rows : TenantRows} {records : Commit} {next : Except Str TenantRecord → Body Unit}

theorem committed_counted {after : TenantRows}
    (follows : Follows rows.record worker.record)
    (checked : censusSpec.before (.commit records) (fun answer known =>
      holds censusSpec (fun _ => Held.Counts) (Restarts worker.step worker.actor) (next answer)
        known) ⟨worker.record, rows.generations⟩)
    (committed : Memory.commit rows worker.record records = .ok after) :
    RowCounted after ∧ holds censusSpec (fun _ => Held.Counts)
      (Restarts worker.step worker.actor) (next (.ok after.record))
      ⟨after.record, after.generations⟩ := by
  have landed := Memory.commit_landed committed
  exact checked.2 rows after (follows.fenced landed.fence) rfl landed

theorem land_sound (sound : Sound system) (here : system.workers id = some worker)
    (stored : system.store worker.tenant = some rows)
    (follows : Follows rows.record worker.record)
    (checked : censusSpec.before (.commit records) (fun answer known =>
      holds censusSpec (fun _ => Held.Counts) (Restarts worker.step worker.actor) (next answer)
        known) ⟨worker.record, rows.generations⟩) :
    Sound (system.landCommit id worker records next) := by
  unfold System.landCommit
  simp only [stored]
  cases committed : Memory.commit rows worker.record records with
  | ok after =>
    obtain ⟨counted, continues⟩ := committed_counted follows checked committed
    have fits : Fits { worker with record := after.record, program := next (.ok after.record) }
        after := ⟨⟨counted.pair, counted.pair, .inl rfl⟩, continues⟩
    exact sound.written here rfl counted fits
  | error why =>
    cases why with
    | fenceMissed said => exact sound.stopped here
    | valueError said => exact sound.moved here rfl stored ⟨follows, checked.1 _⟩
    | keyError salt => exact sound.moved here rfl stored ⟨follows, checked.1 _⟩

theorem lose_sound (sound : Sound system) (here : system.workers id = some worker)
    (stored : system.store worker.tenant = some rows)
    (follows : Follows rows.record worker.record)
    (checked : censusSpec.before (.commit records) (fun answer known =>
      holds censusSpec (fun _ => Held.Counts) (Restarts worker.step worker.actor) (next answer)
        known) ⟨worker.record, rows.generations⟩) :
    Sound (system.loseCommit id worker records) := by
  unfold System.loseCommit
  simp only [stored]
  cases committed : Memory.commit rows worker.record records with
  | ok after => exact sound.written_stopped here (committed_counted follows checked committed).1
  | error why => exact sound.stopped here

theorem fail_sound {failed : Failed} (sound : Sound system)
    (here : system.workers id = some worker) (runs : worker.program = .failed failed) :
    Sound (system.landFailure id worker failed) := by
  obtain ⟨_, rows, stored, fits⟩ := sound.workers id worker here
  have restarts := fits.continues
  rw [runs] at restarts
  unfold System.landFailure
  simp only [stored]
  cases recorded : Memory.fail rows worker.record (failureText worker.step failed)
      (restartPoint worker failed).1 (restartPoint worker failed).2 with
  | error why => exact sound.stopped here
  | ok after =>
    apply sound.written_stopped here
    unfold Memory.fail at recorded
    split_ifs at recorded with fence
    have action : rows.record.pendingAction = worker.record.pendingAction := by
      unfold fenceHolds at fence
      simp only [Bool.and_eq_true, decide_eq_true_eq] at fence
      exact fence.1.1.1
    rw [← Except.ok.inj recorded]
    exact census_same restarts (fits.follows.fenced fence) action rfl

end Committed

variable {operation : Operation} {next : Answer operation → Body Unit}

theorem performed_sound (sound : Sound system) (here : system.workers id = some worker)
    (runs : worker.program = .perform operation next) (reaction : Reaction) :
    Sound (system.performed id worker operation next reaction) := by
  obtain ⟨_, rows, stored, fits⟩ := sound.workers id worker here
  have checked := fits.continues
  rw [runs] at checked
  have goes : ∀ program : Body Unit, holds censusSpec (fun _ => Held.Counts)
      (Restarts worker.step worker.actor) program ⟨worker.record, rows.generations⟩ →
      Sound (system.goOn id worker program) := fun program continues =>
    sound.moved here rfl stored ⟨fits.follows, continues⟩
  cases operation with
  | generations =>
    cases reaction with
    | plain =>
      unfold System.performed
      rw [stored]
      exact goes _ (checked _ (List.perm_insertionSort _ _))
    | _ => exact sound
  | forgeWiring =>
    cases reaction with
    | plain =>
      unfold System.performed
      rw [stored]
      exact goes _ (checked _)
    | _ => exact sound
  | record =>
    cases reaction with
    | plain => exact goes _ checked
    | _ => exact sound
  | clock =>
    cases reaction with
    | clocked now => exact goes _ (checked now)
    | _ => exact sound
  | draw =>
    cases reaction with
    | drawn salt =>
      show Sound (if _ then _ else _)
      split_ifs
      · exact goes _ (checked salt)
      · exact sound
    | _ => exact sound
  | only found status =>
    cases reaction with
    | plain =>
      obtain ⟨one, answered, continues⟩ := checked
      show Sound (system.goOn id worker (next (only found status)))
      rw [answered]
      exact goes _ continues
    | _ => exact sound
  | commit records =>
    cases reaction with
    | lands => exact land_sound sound here stored fits.follows checked
    | lost => exact lose_sound sound here stored fits.follows checked
    | missed => exact sound.stopped here
    | refused said => exact goes _ (checked.1 said)
    | _ => exact sound
  | read thing =>
    cases reaction with
    | replied took reply =>
      show Sound (if _ then _ else _)
      split_ifs
      · exact goes _ (checked reply)
      · exact sound
    | _ => exact sound
  | write thing =>
    cases reaction with
    | replied took reply => exact Sound.things (goes _ (checked reply))
    | _ => exact sound
  | remove thing =>
    cases reaction with
    | replied took reply => exact Sound.things (goes _ (checked reply))
    | _ => exact sound
  | call method path =>
    cases reaction with
    | replied took reply => exact goes _ (checked reply)
    | _ => exact sound
  | collaborators repo =>
    cases reaction with
    | listed pages => exact goes _ (checked pages)
    | _ => exact sound
  | runIntegration args =>
    cases reaction with
    | ended completed => exact goes _ (checked completed)
    | _ => exact sound
  | act action =>
    cases reaction with
    | acted outcome => exact goes _ (checked outcome)
    | _ => exact sound

theorem advance_sound (sound : Sound system) (here : system.workers id = some worker)
    (reaction : Reaction) : Sound (system.advance config id worker reaction) := by
  unfold System.advance
  cases runs : worker.program with
  | perform operation next => exact performed_sound sound here runs reaction
  | failed why =>
    cases reaction with
    | lands | lost => exact fail_sound sound here runs
    | missed => exact sound.stopped here
    | _ => exact sound
  | done result =>
    cases reaction with
    | clocked now =>
      obtain ⟨_, rows, stored, fits⟩ := sound.workers id worker here
      have counts := fits.continues
      rw [runs] at counts
      show Sound (if _ then _ else _)
      split_ifs with claimable
      · exact sound.moved here rfl stored
          (start_fits worker.actor worker.tenant fits.follows counts claimable)
      · exact sound.stopped here
    | _ => exact sound

theorem request_sound (sound : Sound system) (tenant : Str)
    {change : TenantRows → Option TenantRows}
    (counted : ∀ rows after, change rows = some after → RowCounted rows → RowCounted after)
    (fits : ∀ worker rows after, change rows = some after → Fits worker rows →
      Fits worker after) :
    Sound (system.request tenant change) := by
  unfold System.request
  cases stored : system.store tenant with
  | none => exact sound
  | some rows =>
    cases asked : change rows with
    | none =>
      simp only [Option.bind_some, asked]
      exact sound
    | some after =>
      simp only [Option.bind_some, asked]
      exact sound.requested stored (counted rows after asked (sound.rows tenant rows stored))
        fun worker fit => fits worker rows after asked fit

theorem act_sound (sound : Sound system) (event : Event) : Sound (system.act config event) := by
  cases event with
  | requestCreate tenant now =>
    show Sound (if _ then _ else _)
    split_ifs with fresh
    · exact sound.created (Option.isNone_iff_eq_none.mp fresh.1) (new_tenant_counted tenant now)
    · exact sound
  | requestResume tenant =>
    exact request_sound sound tenant (fun _ _ => resume_counted) fun _ _ _ => resume_fits
  | requestOffboard tenant =>
    exact request_sound sound tenant (fun _ _ => offboard_counted) fun _ _ _ => offboard_fits
  | requestRotate tenant =>
    exact request_sound sound tenant (fun _ _ => rotate_counted) fun _ _ _ => rotate_fits
  | take id actor tenant now =>
    cases busy : system.workers id with
    | some worker =>
      simp only [System.act, busy]
      exact sound
    | none =>
      cases stored : system.store tenant with
      | none =>
        simp only [System.act, busy, stored]
        exact sound
      | some rows =>
        simp only [System.act, busy, stored]
        split_ifs with free
        · obtain ⟨unlocked, claimable⟩ := Bool.and_eq_true_iff.mp free
          have counted := sound.rows tenant rows stored
          have unheld : system.locked tenant = false := by simpa using unlocked
          have fits := @start_fits config actor _ rows tenant now
            ⟨counted.pair, counted.pair, .inl rfl⟩ counted claimable
          exact sound.taken unheld stored fits
        · exact sound
  | go id reaction =>
    cases here : system.workers id with
    | none =>
      simp only [System.act, here]
      exact sound
    | some worker =>
      simp only [System.act, here]
      exact advance_sound sound here reaction
  | crash id =>
    cases here : system.workers id with
    | none =>
      simp only [System.act, here]
      exact sound
    | some worker =>
      simp only [System.act, here]
      exact sound.stopped here

theorem run_sound (config : Config) (events : List Event) : Sound (System.run config events) := by
  have from_sound : ∀ (rest : List Event) (system : System), Sound system →
      Sound (rest.foldl (System.act config) system) := by
    intro rest
    induction rest with
    | nil => exact fun _ sound => sound
    | cons event rest ih => exact fun system sound => ih _ (act_sound sound event)
  exact from_sound events System.empty consistent_empty

end Workers

/-- The generations of a row as the step of its job has them. -/
structure MatchesStep (rows : TenantRows) : Prop where
  building : ∀ action step, (action = .create ∨ action = .rotate) →
    rows.record.pendingAction = some action → rows.record.step = some step →
    step ∈ buildingSteps action → countOf .pending rows.generations = 1
  later : ∀ action step, (action = .create ∨ action = .rotate) →
    rows.record.pendingAction = some action → rows.record.step = some step →
    step ∈ laterSteps action →
    countOf .pending rows.generations = 0 ∧ countOf .live rows.generations = 1
  rotating : rows.record.pendingAction = some .rotate → countOf .live rows.generations = 1
  active : rows.record.state = .active → rows.record.pendingAction = none →
    countOf .live rows.generations = 1
  offboarded : rows.record.state = .offboarded → allDestroyed rows.generations

theorem matches_step {rows : TenantRows} (counted : RowCounted rows) : MatchesStep rows where
  building := by
    intro action step builds pending here member
    have at_step : Held.Counts ⟨rows.record, rows.generations⟩ := counted
    exact (counted_at at_step here pending (building_region member builds)).1
  later := by
    intro action step builds pending here member
    have at_step : Held.Counts ⟨rows.record, rows.generations⟩ := counted
    exact counted_at at_step here pending (later_region member builds)
  rotating := by
    intro pending
    obtain ⟨step, region, _, named, here⟩ := counted.job .rotate pending
    cases region with
    | unnamed | building | later => exact here.2
    | ending | gone => cases step <;> cases named
  active := fun is nothing => (counted.active is nothing).2
  offboarded := counted.offboarded

/-- Every row matches its step, and a worker that asks for the one generation of a status
finds it. -/
structure System.GenerationsMatch (system : System) : Prop where
  rows : ∀ tenant rows, system.store tenant = some rows → MatchesStep rows
  only : ∀ id worker found status next, system.workers id = some worker →
    worker.program = .perform (.only found status) next →
    ∃ one, Lifecycle.only found status = .ok one

theorem generations_match (config : Config) (events : List Event) :
    (System.run config events).GenerationsMatch where
  rows := fun tenant rows stored =>
    matches_step ((run_sound config events).rows tenant rows stored)
  only := by
    intro id worker found status next here runs
    obtain ⟨_, rows, _, fits⟩ := (run_sound config events).workers id worker here
    have checked := fits.continues
    rw [runs] at checked
    obtain ⟨one, answered, _⟩ := checked
    exact ⟨one, answered⟩

end Defender.Lifecycle
