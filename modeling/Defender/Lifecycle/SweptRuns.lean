import Defender.Lifecycle.OutsideSwept

/-!
# Runs in which what exists outside is swept

A removal is the only thing that makes something outside go, and it is never of a live
generation before its tenant is being offboarded. With the states of a run swept, the
property holds of every run in which no two tenants share a bot's name; with one shared,
a bot outlives the generation that was destroyed.
-/

namespace Defender.Lifecycle

open Defender.Python Defender.Tenancy Defender.Library.Programs

section Frames

/-- The same tenants after as before, and nothing gone but what `removed` says. -/
structure Framed (system after : System) (removed : Thing → Prop) : Prop where
  tenants : ∀ tenant, (after.store tenant).isSome = (system.store tenant).isSome
  things : ∀ thing ∈ system.things, thing ∉ after.things → removed thing

variable {system : System} {id : Nat} {worker : Worker} {removed : Thing → Prop}
  {rows after : TenantRows}

theorem framed_same : Framed system system removed :=
  ⟨fun _ => rfl, fun _ there gone => absurd there gone⟩

theorem framed_workers (workers : Nat → Option Worker) (locked : Str → Bool) :
    Framed system { system with workers, locked } removed :=
  ⟨fun _ => rfl, fun _ there gone => absurd there gone⟩

theorem framed_written {tenant : Str} (stored : system.store tenant = some rows)
    (workers : Nat → Option Worker) (locked : Str → Bool) :
    Framed system { system.writeRows tenant after with workers, locked } removed where
  tenants := by
    intro other
    show (put system.store tenant (some after) other).isSome = _
    by_cases same : other = tenant
    · rw [same, put_here, stored]
      rfl
    · rw [put_other same]
  things := fun _ there gone => absurd there gone

theorem performed_framed {operation : Operation} {next : Answer operation → Body Unit}
    (reaction : Reaction) :
    Framed system (system.performed id worker operation next reaction)
      (fun thing => operation = .remove thing) := by
  cases operation with
  | generations =>
    cases reaction with
    | plain =>
      unfold System.performed
      cases system.store worker.tenant with
      | none => exact framed_same
      | some rows => exact framed_workers _ _
    | _ => exact framed_same
  | forgeWiring =>
    cases reaction with
    | plain =>
      unfold System.performed
      cases system.store worker.tenant with
      | none => exact framed_same
      | some rows => exact framed_workers _ _
    | _ => exact framed_same
  | draw =>
    cases reaction with
    | drawn salt =>
      show Framed _ (if _ then _ else _) _
      split_ifs
      · exact framed_workers _ _
      · exact framed_same
    | _ => exact framed_same
  | commit records =>
    cases reaction with
    | lands =>
      show Framed _ (system.landCommit id worker records next) _
      unfold System.landCommit
      cases stored : system.store worker.tenant with
      | none => exact framed_workers _ _
      | some rows =>
        simp only
        cases Memory.commit rows worker.record records with
        | ok after => exact framed_written stored _ _
        | error why => cases why <;> exact framed_workers _ _
    | lost =>
      show Framed _ (system.loseCommit id worker records) _
      unfold System.loseCommit
      cases stored : system.store worker.tenant with
      | none => exact framed_workers _ _
      | some rows =>
        simp only
        cases Memory.commit rows worker.record records with
        | ok after => exact framed_written stored _ _
        | error why => exact framed_workers _ _
    | missed | refused => exact framed_workers _ _
    | _ => exact framed_same
  | read thing =>
    cases reaction with
    | replied took reply =>
      show Framed _ (if _ then _ else _) _
      split_ifs
      · exact framed_workers _ _
      · exact framed_same
    | _ => exact framed_same
  | write thing =>
    cases reaction with
    | replied took reply =>
      refine ⟨fun _ => rfl, ?_⟩
      intro other there gone
      refine absurd ?_ gone
      show other ∈ afterWrite system.things thing took reply
      unfold afterWrite keepThing
      split_ifs
      · exact there
      · exact List.mem_cons_of_mem _ there
      · exact there
    | _ => exact framed_same
  | remove thing =>
    cases reaction with
    | replied took reply =>
      refine ⟨fun _ => rfl, ?_⟩
      intro other there gone
      by_contra different
      refine absurd ?_ gone
      show other ∈ afterRemove system.things thing took reply
      unfold afterRemove dropThing
      split_ifs
      · exact List.mem_filter.mpr ⟨there, decide_eq_true fun same =>
          different (congrArg Operation.remove same.symm)⟩
      · exact there
    | _ => exact framed_same
  | record | only | clock | call | collaborators | runIntegration | act =>
    cases reaction <;> first | exact framed_same | exact framed_workers _ _

theorem advance_framed (config : Config) (reaction : Reaction) :
    Framed system (system.advance config id worker reaction)
      (fun thing => ∃ next, worker.program = .perform (.remove thing) next) := by
  unfold System.advance
  cases runs : worker.program with
  | perform operation next =>
    have framed := @performed_framed system id worker operation next reaction
    refine ⟨framed.tenants, ?_⟩
    intro thing there gone
    have same := framed.things thing there gone
    subst same
    exact ⟨next, rfl⟩
  | failed why =>
    cases reaction with
    | lands | lost =>
      show Framed _ (system.landFailure id worker why) _
      unfold System.landFailure
      cases stored : system.store worker.tenant with
      | none => exact framed_workers _ _
      | some rows =>
        simp only
        cases Memory.fail rows worker.record (failureText worker.step why)
            (restartPoint worker why).1 (restartPoint worker why).2 with
        | ok after => exact framed_written stored _ _
        | error why => exact framed_workers _ _
    | missed => exact framed_workers _ _
    | _ => exact framed_same
  | done result =>
    cases reaction with
    | clocked now =>
      show Framed _ (if _ then _ else _) _
      split_ifs
      · exact framed_workers _ _
      · exact framed_workers _ _
    | _ => exact framed_same

theorem request_framed (tenant : Str) (change : TenantRows → Option TenantRows) :
    Framed system (system.request tenant change) removed := by
  unfold System.request
  cases stored : system.store tenant with
  | none => exact framed_same
  | some rows =>
    cases asked : change rows with
    | none =>
      simp only [Option.bind_some, asked]
      exact framed_same
    | some after =>
      simp only [Option.bind_some, asked]
      exact framed_written stored _ _

/-- What one event of a run can make go: what the worker it moves asked to remove. -/
theorem act_framed (config : Config) (event : Event)
    (not_created : ∀ tenant now, event ≠ .requestCreate tenant now) :
    Framed system (system.act config event) (fun thing => ∃ id worker next,
      system.workers id = some worker ∧ worker.program = .perform (.remove thing) next) := by
  cases event with
  | requestCreate tenant now => exact absurd rfl (not_created tenant now)
  | requestResume tenant => exact request_framed tenant _
  | requestOffboard tenant => exact request_framed tenant _
  | requestRotate tenant => exact request_framed tenant _
  | take id actor tenant now =>
    cases busy : system.workers id with
    | some worker =>
      simp only [System.act, busy]
      exact framed_same
    | none =>
      cases stored : system.store tenant with
      | none =>
        simp only [System.act, busy, stored]
        exact framed_same
      | some rows =>
        simp only [System.act, busy, stored]
        split_ifs
        · exact framed_workers _ _
        · exact framed_same
  | go id reaction =>
    cases here : system.workers id with
    | none =>
      simp only [System.act, here]
      exact framed_same
    | some worker =>
      simp only [System.act, here]
      have framed := @advance_framed system id worker config reaction
      refine ⟨framed.tenants, ?_⟩
      intro thing there gone
      obtain ⟨next, runs⟩ := framed.things thing there gone
      exact ⟨id, worker, next, here, runs⟩
  | crash id =>
    cases here : system.workers id with
    | none =>
      simp only [System.act, here]
      exact framed_same
    | some worker =>
      simp only [System.act, here]
      exact framed_workers _ _

end Frames

section Spared

variable {system : System}

/-- From one state to the next, nothing that a live generation names goes unless its tenant
is being offboarded. -/
def Spares (system after : System) : Prop :=
  ∀ tenant rows held thing, system.store tenant = some rows → held ∈ rows.generations →
    held.status = .live → thing ∈ thingsOf held → thing ∈ system.things →
    thing ∉ after.things →
    rows.record.state = .offboarding ∨ rows.record.state = .offboarded

theorem act_spares (config : Config) (kept : Kept system) (bots : system.BotsApart)
    (event : Event) : Spares system (system.act config event) := by
  intro tenant rows held thing stored member live listed there gone
  by_cases created : ∃ tenant now, event = .requestCreate tenant now
  · obtain ⟨new, now, rfl⟩ := created
    refine absurd ?_ gone
    unfold System.act
    simp only
    split_ifs
    · exact there
    · exact there
  have framed := @act_framed system config event fun new now same =>
    created ⟨new, now, same⟩
  obtain ⟨id, worker, next, here, runs⟩ := framed.things thing there gone
  obtain ⟨_, found, found_stored, worker_id, absent, _, continues⟩ :=
    kept.certain.workers id worker here
  rw [runs] at continues
  obtain ⟨⟨own, right⟩, _⟩ := continues
  have named := kept.certain.rows tenant rows stored
  have same : worker.tenant = tenant := own_apart bots found_stored stored
    (kept.certain.rows worker.tenant found found_stored) named own
    (.inr ⟨held, member, listed⟩)
  obtain ⟨_, seen, seen_stored, fits⟩ := kept.sound.workers id worker here
  rw [same] at found_stored seen_stored
  have rows_same : found = rows := Option.some.inj (found_stored.symm.trans stored)
  subst rows_same
  have seen_same : seen = found := Option.some.inj (seen_stored.symm.trans stored)
  subst seen_same
  have follows : worker.record.state = .offboarding ∨ worker.record.state = .offboarded →
      seen.record.state = .offboarding ∨ seen.record.state = .offboarded := by
    intro leaving
    cases fits.follows.state with
    | inl state => exact state ▸ leaving
    | inr asked => exact .inl asked.1
  rcases right with offboarding | offboarded | retiring
  · exact follows (.inl offboarding)
  · exact follows (.inr offboarded)
  · -- a retiring generation that names the thing would be the live one itself
    obtain ⟨old, old_member, old_retiring, old_listed⟩ := retiring
    have salt := own_salt named member old_member listed old_listed
    have one : held = old := List.inj_on_of_nodup_map (kept.sound.rows tenant seen stored).apart
      member old_member salt
    rw [← one, live] at old_retiring
    cases old_retiring

/-- Every state of the run swept, and every step of it sparing what is live. -/
structure RunSwept (config : Config) (start : System) (events : List Event) : Prop where
  states : ∀ earlier, earlier <+: events → (System.runFrom config start earlier).Swept
  steps : ∀ earlier event, earlier ++ [event] <+: events →
    Spares (System.runFrom config start earlier) (System.runFrom config start (earlier ++ [event]))

theorem run_swept (config : Config) (start : System) (rest : start.AtRest)
    (events : List Event) (bots : BotsApartAlong config start events) :
    RunSwept config start events where
  states := by
    intro earlier is
    have along : BotsApartAlong config start earlier := fun first is_first =>
      bots first (is_first.trans is)
    exact (run_kept config rest earlier along).swept
  steps := by
    intro earlier event is
    have before : earlier <+: events := (List.prefix_append earlier [event]).trans is
    have along : BotsApartAlong config start earlier := fun first is_first =>
      bots first (is_first.trans before)
    rw [run_snoc]
    exact act_spares config (run_kept config rest earlier along) (bots earlier before) event

end Spared

theorem act_created (config : Config) {system : System} {event : Event} {tenant : Str}
    (stored : ((system.act config event).store tenant).isSome = true) :
    (system.store tenant).isSome = true ∨ ∃ now, event = .requestCreate tenant now := by
  by_cases created : ∃ new now, event = .requestCreate new now
  · obtain ⟨new, now, rfl⟩ := created
    by_cases same : new = tenant
    · exact .inr ⟨now, by rw [same]⟩
    · left
      unfold System.act at stored
      simp only at stored
      split_ifs at stored
      · change (put system.store new (some _) tenant).isSome = true at stored
        rw [put_other (Ne.symm same)] at stored
        exact stored
      · exact stored
  · have framed := @act_framed system config event fun new now same =>
      created ⟨new, now, same⟩
    rw [framed.tenants] at stored
    exact .inl stored

theorem run_created (config : Config) (start : System) (events : List Event) {tenant : Str}
    (stored : ((System.runFrom config start events).store tenant).isSome = true) :
    (start.store tenant).isSome = true ∨ ∃ now, Event.requestCreate tenant now ∈ events := by
  induction events using List.reverseRecOn with
  | nil => exact .inl stored
  | append_singleton events event ih =>
    rw [run_snoc] at stored
    cases act_created config stored with
    | inl earlier =>
      refine (ih earlier).imp_right ?_
      rintro ⟨now, member⟩
      exact ⟨now, List.mem_append_left _ member⟩
    | inr here =>
      obtain ⟨now, same⟩ := here
      exact .inr ⟨now, List.mem_append_right _ (List.mem_singleton.mpr same.symm)⟩

theorem one_tenant_apart (config : Config) {start : System} {events : List Event} (tenant : Str)
    (alone : ∀ other, (start.store other).isSome = true → other = tenant)
    (one : ∀ other now, Event.requestCreate other now ∈ events → other = tenant) :
    BotsApartAlong config start events := by
  intro earlier is left right some_rows other_rows left_stored right_stored _ _ _ _ _
  have is_it : ∀ other rows, (System.runFrom config start earlier).store other = some rows →
      other = tenant := by
    intro other rows stored
    cases run_created config start earlier (Option.isSome_of_eq_some stored) with
    | inl started => exact alone other started
    | inr created =>
      obtain ⟨now, member⟩ := created
      exact one other now (is.subset member)
  exact (is_it left some_rows left_stored).trans (is_it right other_rows right_stored).symm

namespace Sample

def config : Config :=
  { forgeUrl := ("https://forge" : Str), issuerUrl := ("https://bao" : Str),
    teardownWait := ("60" : Str) }

def elder : Str := List.replicate 35 'a' ++ ("b" : Str)

def younger : Str := List.replicate 36 'a'

def salt : Str := List.replicate 8 'c'

def ok : Reaction := .replied true (.ok { status := 200 })

def missing : Reaction := .replied false (.ok { status := 404 })

def answers (body : Json) : Reaction := .replied false (.ok { status := 200, body := some body })

def data (entries : List (Str × Json)) : Json := .object [(("data" : Str), .object entries)]

def named : List Reaction := [.plain, .drawn salt, .plain, .plain, .lands]

def namesOf (tenant : Str) : List Event :=
  .requestCreate tenant 0 :: .take 0 .service tenant 0 :: named.map (.go 0)

def offboards (tenant : Str) : List Event :=
  .requestOffboard tenant :: .take 0 .service tenant 0 ::
    ([.clocked 0, .acted (.ok none), .plain, .plain, missing] ++
      List.replicate 6 missing ++ [ok, .plain, .lands]).map (.go 0)

def roleId : Reaction := answers (data [(("role_id" : Str), .string ("role" : Str))])

def entityFound : Reaction := answers (data [(("id" : Str), .string ("entity" : Str)),
  (("aliases" : Str), .array [.object [(("mount_accessor" : Str), .string ("mount" : Str)),
    (("name" : Str), .string ("role" : Str))]])])

def accessor : Reaction :=
  answers (data [(("approle/" : Str), .object [(("accessor" : Str), .string ("mount" : Str))])])

/-- From `provider` to the bot's making. -/
def builds : List Event :=
  ([.clocked 0, .plain, .plain, ok, accessor, ok, roleId, ok, entityFound, ok, roleId, ok,
    entityFound, missing, ok, .plain, .lands, .clocked 0, .plain,
    answers (.object [(("private" : Str), .bool true)]), .plain, .lands, .clocked 0, .plain,
    .plain, .plain, missing, ok] : List Reaction).map (.go 0)

/-- Two tenants whose ids begin alike and whose salts are one. -/
def collide : List Event :=
  namesOf elder ++ [.crash 0] ++ offboards elder ++ [.crash 0] ++ namesOf younger ++ builds

theorem collide_leaves_bot :
    ((System.runFrom config .empty collide).store elder).any (fun rows => rows.generations.any fun held =>
      decide (held.status = .destroyed) && (thingsOf held).any fun thing =>
        decide (thing ∈ (System.runFrom config .empty collide).things)) = true := by
  decide +kernel

/-- The younger tenant's bot has the name of the elder's, whose generation was destroyed. -/
theorem shared_bot_stays : ¬ ∀ config start events, start.AtRest →
    RunSwept config start events := by
  intro all
  have swept := (all config .empty collide empty_at_rest).states collide (List.prefix_refl collide)
  obtain ⟨rows, stored, any_held⟩ := (Option.any_eq_true _ _).mp collide_leaves_bot
  obtain ⟨held, member, left⟩ := List.any_eq_true.mp any_held
  obtain ⟨destroyed, any_thing⟩ := Bool.and_eq_true_iff.mp left
  obtain ⟨thing, listed, there⟩ := List.any_eq_true.mp any_thing
  exact swept.destroyed elder rows held stored member (of_decide_eq_true destroyed) thing listed
    (of_decide_eq_true there)

/-- A pending generation of before there was a sign login. -/
def unsigned : Generation :=
  { Service.newGeneration config elder salt (Service.wiringOf config elder).repo with
    signApprole := none
    signEntity := none }

def unsignedRows : TenantRows where
  record :=
    { id := elder, createdAt := 0, state := .creating, pendingAction := some .create,
      step := some .provider, stepActor := some .service }
  generations := [unsigned]
  wiring := some (Service.wiringOf config elder)

def earlierRelease : System :=
  { System.empty with store := put System.empty.store elder (some unsignedRows) }

theorem earlier_store {tenant : Str} {rows : TenantRows}
    (stored : earlierRelease.store tenant = some rows) : tenant = elder ∧ rows = unsignedRows := by
  change put System.empty.store elder (some unsignedRows) tenant = some rows at stored
  unfold put at stored
  split_ifs at stored with same
  exacts [⟨same, (Option.some.inj stored).symm⟩, nomatch stored]

theorem earlier_at_rest : earlierRelease.AtRest where
  idle := fun _ => rfl
  rows := by
    intro tenant rows stored
    obtain ⟨rfl, rfl⟩ := earlier_store stored
    constructor
    · exact {
        pair := by decide
        apart := List.nodup_singleton _
        job := by
          intro action pending
          rw [← Option.some.inj pending]
          exact ⟨.provider, .building, rfl, rfl, rfl, rfl⟩
        active := fun is => by cases is
        offboarded := fun is => by cases is }
    · refine ⟨by decide, rfl, ?_⟩
      intro held member
      rw [List.mem_singleton.mp member]
      exact {
        owner := rfl, salt := rfl, botLogin := rfl, oidcRole := rfl, approle := rfl, entity := rfl,
        signApprole := fun _ none_yet => nomatch none_yet
        signEntity := fun _ none_yet => nomatch none_yet }
  swept := {
    recorded := fun _ there => nomatch there
    destroyed := fun _ _ _ _ _ _ _ _ there => nomatch there
    offboarded := fun _ _ _ _ => ⟨fun _ _ _ _ => List.not_mem_nil, List.not_mem_nil⟩ }

/-- The sign names recorded, then everything made up to the bot. -/
def signs : List Event :=
  .take 0 .service elder 0 :: ([.plain, .plain, .plain, .lands, .plain, .plain, ok, accessor, ok,
    roleId, ok, entityFound, ok, roleId, ok, entityFound, missing, ok, .plain, .lands, .clocked 0,
    .plain, answers (.object [(("private" : Str), .bool true)]), .plain, .lands, .clocked 0,
    .plain, .plain, .plain, missing, ok] : List Reaction).map (.go 0)

theorem unsigned_swept :
    RunSwept config earlierRelease signs ∧
      (System.runFrom config earlierRelease signs).things.length = 7 := by
  have alone : ∀ other, (earlierRelease.store other).isSome = true → other = elder := by
    intro other stored
    obtain ⟨rows, is⟩ := Option.isSome_iff_exists.mp stored
    exact (earlier_store is).1
  have none_new : ∀ other now, Event.requestCreate other now ∈ signs → other = elder := by
    intro other now member
    cases List.mem_cons.mp member with
    | inl same => cases same
    | inr moves =>
      obtain ⟨reaction, _, same⟩ := List.mem_map.mp moves
      cases same
  exact ⟨run_swept config earlierRelease earlier_at_rest signs
    (one_tenant_apart config elder alone none_new), by decide +kernel⟩

end Sample

end Defender.Lifecycle
