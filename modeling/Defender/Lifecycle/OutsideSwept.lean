import Defender.Lifecycle.OutsideRecorded

/-!
# What exists outside is swept

The calls that make and remove things keep what is recorded of them, and so does every
event of a run. Two tenants whose ids begin alike can draw one salt and so name one bot:
the runs in which they do are set apart.
-/

namespace Defender.Lifecycle

open Defender.Python Defender.Tenancy Defender.Library.Programs

section Calls

variable {system : System} {id : Nat} {worker : Worker} {rows : TenantRows} {thing : Thing}

theorem mem_after_write {things : List Thing} {other : Thing} {took : Bool}
    {reply : Except Str Response} (there : other ∈ afterWrite things thing took reply) :
    other = thing ∨ other ∈ things := by
  unfold afterWrite keepThing at there
  split_ifs at there
  · exact .inr there
  · exact List.mem_cons.mp there
  · exact .inr there

theorem mem_after_remove {things : List Thing} {other : Thing} {took : Bool}
    {reply : Except Str Response} (there : other ∈ afterRemove things thing took reply) :
    other ∈ things := by
  unfold afterRemove dropThing at there
  split_ifs at there
  · exact (List.mem_filter.mp there).1
  · exact there

theorem removed {things : List Thing} {took : Bool} {reply : Except Str Response}
    (told : (succeeded reply || absentAnswer reply) = true) :
    thing ∉ afterRemove things thing took reply := by
  intro there
  unfold afterRemove dropThing at there
  rw [Bool.or_assoc, told, Bool.or_true, if_pos rfl] at there
  exact of_decide_eq_true (List.mem_filter.mp there).2 rfl

theorem told_knows (sure : Sure) (thing : Thing) (gone : Bool) :
    ∃ absent, sure.told thing gone = { sure with absent } ∧
      ∀ other, absent other → (gone = true ∧ other = thing) ∨ sure.absent other := by
  cases gone with
  | false => exact ⟨sure.absent, rfl, fun _ earlier => .inr earlier⟩
  | true =>
    refine ⟨(sure.lacking thing).absent, rfl, ?_⟩
    intro other missing
    exact missing.imp_left fun same => ⟨rfl, same⟩

/-- What a worker writes is in no other tenant's hands, and of no destroyed generation. -/
theorem write_kept (kept : Kept system) (bots : system.BotsApart)
    (here : system.workers id = some worker) {next : Except Str Response → Body Unit}
    (runs : worker.program = .perform (.write thing) next) (took : Bool)
    (reply : Except Str Response)
    (sound : Sound ({ system with things := afterWrite system.things thing took reply }.goOn id
      worker (next reply))) :
    Kept ({ system with things := afterWrite system.things thing took reply }.goOn id worker
      (next reply)) := by
  obtain ⟨_, rows, stored, fits⟩ := kept.sound.workers id worker here
  obtain ⟨_, other, other_stored, certain⟩ := kept.certain.workers id worker here
  have same : other = rows := Option.some.inj (other_stored.symm.trans stored)
  subst same
  obtain ⟨worker_id, absent, gone, continues⟩ := certain
  rw [runs] at continues
  obtain ⟨⟨standing, made⟩, goes⟩ := continues
  have named := kept.certain.rows worker.tenant other stored
  have own : Own worker.tenant other.generations thing :=
    made.imp_right fun ⟨held, member, _, listed⟩ => ⟨held, member, listed⟩
  have foreign : ∀ tenant found, system.store tenant = some found →
      Own tenant found.generations thing → tenant = worker.tenant :=
    fun tenant found found_stored found_own => own_apart bots found_stored stored
      (kept.certain.rows tenant found found_stored) named found_own own
  have fit : Certain (afterWrite system.things thing took reply)
      { worker with program := next reply } other := by
    refine ⟨worker_id, _, ?_, goes reply⟩
    rintro missing ⟨different, earlier⟩
    obtain ⟨not_there, missing_own⟩ := gone missing earlier
    refine ⟨?_, missing_own⟩
    intro there
    exact (mem_after_write there).elim different not_there
  have closer : ∀ other_id running found, system.workers other_id = some running →
      running.tenant ≠ worker.tenant → system.store running.tenant = some found →
      Certain system.things running found →
      Certain (afterWrite system.things thing took reply) running found := by
    rintro _ running found _ apart found_stored ⟨running_id, unseen, unseen_gone, onward⟩
    refine ⟨running_id, unseen, ?_, onward⟩
    intro missing is
    obtain ⟨not_there, missing_own⟩ := unseen_gone missing is
    refine ⟨?_, missing_own⟩
    intro there
    cases mem_after_write there with
    | inl same =>
      subst same
      exact apart (foreign running.tenant found found_stored missing_own)
    | inr earlier => exact not_there earlier
  have moved : Consistent NamedRow (Certain (afterWrite system.things thing took reply))
      { system with
        workers := put system.workers id (some { worker with program := next reply }) } :=
    kept.certain.remoted here rfl stored fit closer
  exact {
    sound
    certain := ⟨moved.rows, moved.workers, moved.alone⟩
    recorded := by
      intro there is
      cases mem_after_write is with
      | inl same =>
        subst same
        cases own with
        | inl key => exact .inl ⟨worker.tenant, key⟩
        | inr listed =>
          obtain ⟨held, member, listed⟩ := listed
          exact .inr ⟨worker.tenant, other, held, stored, member, listed⟩
      | inr earlier => exact kept.recorded there earlier
    destroyed := by
      intro tenant found held found_stored member is there listed now
      cases mem_after_write now with
      | inr earlier =>
        exact kept.destroyed tenant found held found_stored member is there listed earlier
      | inl same =>
        subst same
        have tenant_is := foreign tenant found found_stored (.inr ⟨held, member, listed⟩)
        subst tenant_is
        have rows_same : found = other := Option.some.inj (found_stored.symm.trans stored)
        subst rows_same
        cases made with
        | inl key =>
          subst key
          exact key_not_named (named.named held member) _ listed
        | inr pending =>
          obtain ⟨built, built_member, built_pending, built_listed⟩ := pending
          have salt := own_salt named member built_member listed built_listed
          have one : held = built := List.inj_on_of_nodup_map
            (kept.sound.rows _ found stored).apart member built_member salt
          rw [one, built_pending] at is
          cases is
    keys := by
      intro tenant found found_stored is there
      cases mem_after_write there with
      | inr earlier => exact kept.keys tenant found found_stored is earlier
      | inl same =>
        have found_own : Own tenant found.generations thing := .inl same.symm
        have tenant_is := foreign tenant found found_stored found_own
        subst tenant_is
        have rows_same : found = other := Option.some.inj (found_stored.symm.trans stored)
        subst rows_same
        cases fits.follows.state with
        | inl state => exact standing (state.symm.trans is)
        | inr asked =>
          rw [is] at asked
          cases asked.1 }

theorem remove_kept (kept : Kept system) (here : system.workers id = some worker)
    {next : Except Str Response → Body Unit}
    (runs : worker.program = .perform (.remove thing) next) (took : Bool)
    (reply : Except Str Response)
    (sound : Sound ({ system with things := afterRemove system.things thing took reply }.goOn id
      worker (next reply))) :
    Kept ({ system with things := afterRemove system.things thing took reply }.goOn id worker
      (next reply)) := by
  obtain ⟨_, rows, stored, certain⟩ := kept.certain.workers id worker here
  obtain ⟨worker_id, absent, gone, continues⟩ := certain
  rw [runs] at continues
  obtain ⟨may, goes⟩ := continues
  have fit : Certain (afterRemove system.things thing took reply)
      { worker with program := next reply } rows := by
    have onward : holds (sweepSpec worker.tenant) (fun _ _ => True) (fun _ _ => True)
        (next reply) _ := goes reply
    obtain ⟨known, told, known_is⟩ := told_knows ⟨worker.record, rows.generations, absent⟩
      thing (succeeded reply || absentAnswer reply)
    rw [told] at onward
    refine ⟨worker_id, known, ?_, onward⟩
    intro missing is
    cases known_is missing is with
    | inl told =>
      obtain ⟨answered, same⟩ := told
      subst same
      exact ⟨removed answered, may.1⟩
    | inr earlier =>
      exact ⟨fun there => (gone missing earlier).1 (mem_after_remove there),
        (gone missing earlier).2⟩
  have moved : Consistent NamedRow (Certain (afterRemove system.things thing took reply))
      { system with
        workers := put system.workers id (some { worker with program := next reply }) } :=
    kept.certain.remoted here rfl stored fit (by
      rintro _ running found _ _ _ ⟨running_id, unseen, unseen_gone, onward⟩
      refine ⟨running_id, unseen, ?_, onward⟩
      intro missing is
      exact ⟨fun there => (unseen_gone missing is).1 (mem_after_remove there),
        (unseen_gone missing is).2⟩)
  exact {
    sound
    certain := ⟨moved.rows, moved.workers, moved.alone⟩
    recorded := fun other there => kept.recorded other (mem_after_remove there)
    destroyed := fun tenant found held stored member is other listed there =>
      kept.destroyed tenant found held stored member is other listed (mem_after_remove there)
    keys := fun tenant found stored is there =>
      kept.keys tenant found stored is (mem_after_remove there) }

theorem go_on_kept (kept : Kept system) (here : system.workers id = some worker)
    (stored : system.store worker.tenant = some rows) {program : Body Unit}
    (worker_id : worker.record.id = worker.tenant) {absent : Thing → Prop}
    (gone : ∀ thing, absent thing →
      thing ∉ system.things ∧ Own worker.tenant rows.generations thing)
    (continues : holds (sweepSpec worker.tenant) (fun _ _ => True) (fun _ _ => True) program
      ⟨worker.record, rows.generations, absent⟩)
    (sound : Sound (system.goOn id worker program)) :
    Kept (system.goOn id worker program) where
  sound
  certain := kept.certain.moved here rfl stored ⟨worker_id, absent, gone, continues⟩
  recorded := kept.recorded
  destroyed := kept.destroyed
  keys := kept.keys

variable {operation : Operation} {next : Answer operation → Body Unit}

theorem performed_kept (kept : Kept system) (bots : system.BotsApart)
    (here : system.workers id = some worker) (runs : worker.program = .perform operation next)
    (reaction : Reaction) : Kept (system.performed id worker operation next reaction) := by
  have sound := performed_sound kept.sound here runs reaction
  obtain ⟨_, rows, stored, worker_id, absent, gone, continues⟩ :=
    kept.certain.workers id worker here
  rw [runs] at continues
  have goes : ∀ program : Body Unit, Sound (system.goOn id worker program) →
      holds (sweepSpec worker.tenant) (fun _ _ => True) (fun _ _ => True) program
        ⟨worker.record, rows.generations, absent⟩ →
      Kept (system.goOn id worker program) := fun _ sound continues =>
    go_on_kept kept here stored worker_id gone continues sound
  cases operation with
  | generations =>
    cases reaction with
    | plain =>
      unfold System.performed at sound ⊢
      rw [stored] at sound ⊢
      exact goes _ sound (continues _ (List.perm_insertionSort _ _))
    | _ => exact kept
  | forgeWiring =>
    cases reaction with
    | plain =>
      unfold System.performed at sound ⊢
      rw [stored] at sound ⊢
      exact goes _ sound (continues _)
    | _ => exact kept
  | record =>
    cases reaction with
    | plain => exact goes _ sound continues
    | _ => exact kept
  | clock =>
    cases reaction with
    | clocked now => exact goes _ sound (continues now)
    | _ => exact kept
  | draw =>
    cases reaction with
    | drawn salt =>
      change Sound (if _ then _ else _) at sound
      show Kept (if _ then _ else _)
      split_ifs at sound ⊢ with length
      · exact goes _ sound (continues salt length)
      · exact kept
    | _ => exact kept
  | only found status =>
    cases reaction with
    | plain => exact goes _ sound continues
    | _ => exact kept
  | commit records =>
    cases reaction with
    | lands =>
      have refused : ∀ said, Kept (system.goOn id worker (next (.error said))) := by
        intro said
        have still := performed_sound kept.sound here runs (.refused said)
        exact goes _ still (continues.1 said)
      exact land_kept kept here runs refused sound
    | lost => exact lose_kept kept here runs sound
    | missed => exact stop_kept kept here
    | refused said => exact goes _ sound (continues.1 said)
    | _ => exact kept
  | read thing =>
    cases reaction with
    | replied took reply =>
      change Sound (if _ then _ else _) at sound
      show Kept (if _ then _ else _)
      split_ifs at sound ⊢ with answers
      · obtain ⟨owns, goes_on⟩ := continues
        have onward : holds (sweepSpec worker.tenant) (fun _ _ => True) (fun _ _ => True)
            (next reply) _ := goes_on reply
        obtain ⟨known, told, known_is⟩ := told_knows ⟨worker.record, rows.generations, absent⟩
          thing (absentAnswer reply)
        rw [told] at onward
        apply go_on_kept kept here stored worker_id _ onward sound
        intro missing is
        cases known_is missing is with
        | inl told =>
          obtain ⟨answered, same⟩ := told
          subst same
          refine ⟨?_, owns⟩
          intro there
          cases reply with
          | error said => cases answered
          | ok response =>
            have is_missing : response.status = 404 := of_decide_eq_true answered
            simp [readAnswers, is_missing, there] at answers
        | inr earlier => exact gone missing earlier
      · exact kept
    | _ => exact kept
  | write thing =>
    cases reaction with
    | replied took reply => exact write_kept kept bots here runs took reply sound
    | _ => exact kept
  | remove thing =>
    cases reaction with
    | replied took reply => exact remove_kept kept here runs took reply sound
    | _ => exact kept
  | call method path =>
    cases reaction with
    | replied took reply => exact goes _ sound (continues reply)
    | _ => exact kept
  | collaborators repo =>
    cases reaction with
    | listed pages => exact goes _ sound (continues pages)
    | _ => exact kept
  | runIntegration args =>
    cases reaction with
    | ended completed => exact goes _ sound (continues completed)
    | _ => exact kept
  | act action =>
    cases reaction with
    | acted outcome => exact goes _ sound (continues outcome)
    | _ => exact kept

end Calls

section Runs

variable {config : Config} {system : System} {id : Nat} {worker : Worker}

theorem start_certain (actor : StepActor) {tenant : Str} {seen : TenantRecord}
    {rows : TenantRows} {now : Time} {things : List Thing} (named : NamedRow tenant rows)
    (id : seen.id = tenant) (counts : Census seen rows.generations)
    (claimable : claimableNow seen actor now = true) :
    Certain things (startStep config actor tenant seen) rows := by
  have pending : seen.pendingAction.isSome = true := by
    unfold claimableNow at claimable
    simp only [Bool.and_eq_true] at claimable
    exact claimable.1.1.1
  obtain ⟨action, is⟩ := Option.isSome_iff_exists.mp pending
  obtain ⟨step, region, here, _⟩ := counts.job action is
  have begun : startStep config actor tenant seen =
      { actor, tenant, record := seen, step,
        program := bodyOf config tenant actor step } := by
    unfold startStep
    rw [here]
    rfl
  rw [begun]
  refine ⟨id, fun _ => False, fun _ none_sure => none_sure.elim, ?_⟩
  exact @body_clean tenant config actor step ⟨seen, rows.generations, fun _ => False⟩
    ⟨id, counts.apart, named.named⟩ counts here pending

theorem advance_kept (kept : Kept system) (bots : system.BotsApart)
    (here : system.workers id = some worker) (reaction : Reaction) :
    Kept (system.advance config id worker reaction) := by
  have sound := @advance_sound config _ _ _ kept.sound here reaction
  unfold System.advance at sound ⊢
  cases runs : worker.program with
  | perform operation next => exact performed_kept kept bots here runs reaction
  | failed why =>
    simp only [runs] at sound
    cases reaction with
    | lands | lost => exact fail_kept kept here sound
    | missed => exact stop_kept kept here
    | _ => exact kept
  | done result =>
    simp only [runs] at sound
    cases reaction with
    | clocked now =>
      obtain ⟨_, rows, stored, fits⟩ := kept.sound.workers id worker here
      have counts := fits.continues
      rw [runs] at counts
      obtain ⟨_, other, other_stored, certain⟩ := kept.certain.workers id worker here
      have named := kept.certain.rows worker.tenant rows stored
      show Kept (if _ then _ else _)
      simp only at sound
      split_ifs at sound ⊢ with claimable
      · have begun : Certain system.things
            (startStep config worker.actor worker.tenant worker.record) rows :=
          start_certain worker.actor named certain.id counts claimable
        exact {
          sound
          certain := kept.certain.moved here rfl stored begun
          recorded := kept.recorded
          destroyed := kept.destroyed
          keys := kept.keys }
      · exact stop_kept kept here
    | _ => exact kept

theorem act_kept (kept : Kept system) (bots : system.BotsApart) (event : Event) :
    Kept (system.act config event) := by
  have sound := @act_sound config _ kept.sound event
  cases event with
  | requestCreate tenant now =>
    unfold System.act at sound ⊢
    simp only at sound ⊢
    split_ifs at sound ⊢ with fresh
    · exact create_kept kept now (Option.isNone_iff_eq_none.mp fresh.1) fresh.2 sound
    · exact kept
  | requestResume tenant => exact request_kept kept (fun _ _ => resume_requested) sound
  | requestOffboard tenant => exact request_kept kept (fun _ _ => offboard_requested) sound
  | requestRotate tenant => exact request_kept kept (fun _ _ => rotate_requested) sound
  | take id actor tenant now =>
    cases busy : system.workers id with
    | some worker =>
      simp only [System.act, busy]
      exact kept
    | none =>
      cases stored : system.store tenant with
      | none =>
        simp only [System.act, busy, stored]
        exact kept
      | some rows =>
        simp only [System.act, busy, stored] at sound ⊢
        split_ifs at sound ⊢ with free
        · obtain ⟨unlocked, claimable⟩ := Bool.and_eq_true_iff.mp free
          have unheld : system.locked tenant = false := by simpa using unlocked
          have named := kept.certain.rows tenant rows stored
          have begun : Certain system.things (startStep config actor tenant rows.record) rows :=
            start_certain actor named named.id (kept.sound.rows tenant rows stored) claimable
          exact {
            sound
            certain := kept.certain.taken unheld stored begun
            recorded := kept.recorded
            destroyed := kept.destroyed
            keys := kept.keys }
        · exact kept
  | go id reaction =>
    cases here : system.workers id with
    | none =>
      simp only [System.act, here]
      exact kept
    | some worker =>
      simp only [System.act, here]
      exact advance_kept kept bots here reaction
  | crash id =>
    cases here : system.workers id with
    | none =>
      simp only [System.act, here]
      exact kept
    | some worker =>
      simp only [System.act, here]
      exact stop_kept kept here

theorem run_snoc (config : Config) (start : System) (events : List Event) (event : Event) :
    System.runFrom config start (events ++ [event]) =
      (System.runFrom config start events).act config event :=
  List.foldl_concat _ _ _ _

/-- In no state of the run do two tenants' generations have one bot. -/
def BotsApartAlong (config : Config) (start : System) (events : List Event) : Prop :=
  ∀ earlier, earlier <+: events → (System.runFrom config start earlier).BotsApart

theorem run_kept (config : Config) {start : System} (rest : start.AtRest) (events : List Event)
    (bots : BotsApartAlong config start events) : Kept (System.runFrom config start events) := by
  induction events using List.reverseRecOn with
  | nil => exact rest.kept
  | append_singleton events event ih =>
    have shorter : BotsApartAlong config start events := fun earlier is =>
      bots earlier (is.trans (List.prefix_append events [event]))
    rw [run_snoc]
    exact act_kept (ih shorter) (bots events (List.prefix_append events [event])) event

end Runs

end Defender.Lifecycle
