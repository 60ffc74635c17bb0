import Defender.Lifecycle.GenerationsMatch
import Defender.Lifecycle.SweepTurns

/-!
# What exists outside is recorded

A bot, a role, an AppRole or an entity exists only under a name that a generation of its
tenant records; nothing of a destroyed generation exists, and an offboarded tenant has no
signing key. Here that is stated of a system, and kept by what writes rows: the requests,
the commits and the failures.
-/

namespace Defender.Lifecycle

open Defender.Python Defender.Tenancy Defender.Library.Programs

section Owning

def Own (tenant : Str) (generations : List Generation) (thing : Thing) : Prop :=
  thing = .signingKey tenant ∨ ∃ held ∈ generations, thing ∈ thingsOf held

/-- A row whose names are in order. -/
structure NamedRow (tenant : Str) (rows : TenantRows) : Prop where
  length : tenant.length = idLength
  id : rows.record.id = tenant
  named : ∀ held ∈ rows.generations, WellNamed tenant held

def System.BotsApart (system : System) : Prop :=
  ∀ left right one other, system.store left = some one → system.store right = some other →
    ∀ held ∈ one.generations, ∀ also ∈ other.generations, held.botLogin = also.botLogin →
    left = right

variable {system : System} {left right : Str} {one other : TenantRows}

theorem own_apart (bots : system.BotsApart) (one_stored : system.store left = some one)
    (other_stored : system.store right = some other) (one_named : NamedRow left one)
    (other_named : NamedRow right other) {thing : Thing}
    (here : Own left one.generations thing) (there : Own right other.generations thing) :
    left = right := by
  cases here with
  | inl key =>
    subst key
    cases there with
    | inl same => exact Thing.signingKey.inj same
    | inr named =>
      obtain ⟨held, member, listed⟩ := named
      exact absurd listed (key_not_named (other_named.named held member) left)
  | inr named =>
    obtain ⟨held, member, listed⟩ := named
    have held_named := one_named.named held member
    cases there with
    | inl key =>
      subst key
      exact absurd listed (key_not_named held_named right)
    | inr also_named =>
      obtain ⟨also, also_member, also_listed⟩ := also_named
      have also_well := other_named.named also also_member
      cases things_apart held_named also_well one_named.length other_named.length listed
          also_listed with
      | inl same => exact same.1
      | inr bot =>
        have logins : held.botLogin = also.botLogin := by
          rw [held_named.botLogin, also_well.botLogin]
          exact bot
        exact bots left right one other one_stored other_stored held member also also_member
          logins

theorem own_salt {tenant : Str} {rows : TenantRows} (named : NamedRow tenant rows)
    {held also : Generation} (member : held ∈ rows.generations)
    (also_member : also ∈ rows.generations) {thing : Thing} (listed : thing ∈ thingsOf held)
    (also_listed : thing ∈ thingsOf also) : held.salt = also.salt := by
  cases things_apart (named.named held member) (named.named also also_member) named.length
      named.length listed also_listed with
  | inl same => exact same.2
  | inr bot => exact bot_salt bot

end Owning

section Outside

/-- What a worker is sure of, and goes on from, given what exists. -/
structure Certain (things : List Thing) (worker : Worker) (rows : TenantRows) : Prop where
  id : worker.record.id = worker.tenant
  continues : ∃ absent : Thing → Prop,
    (∀ thing, absent thing → thing ∉ things ∧ Own worker.tenant rows.generations thing) ∧
    holds (sweepSpec worker.tenant) (fun _ _ => True) (fun _ _ => True) worker.program
      ⟨worker.record, rows.generations, absent⟩

/-- Everything outside is named by a generation that is not destroyed, keys apart. -/
structure System.Swept (system : System) : Prop where
  recorded : ∀ thing ∈ system.things, (∀ tenant, thing ≠ .signingKey tenant) →
    ∃ tenant rows held, system.store tenant = some rows ∧ held ∈ rows.generations ∧
      held.tenantId = tenant ∧ thing ∈ thingsOf held
  destroyed : ∀ tenant rows held, system.store tenant = some rows → held ∈ rows.generations →
    held.status = .destroyed → ∀ thing ∈ thingsOf held, thing ∉ system.things
  offboarded : ∀ tenant rows, system.store tenant = some rows →
    rows.record.state = .offboarded →
    (∀ held ∈ rows.generations, ∀ thing ∈ thingsOf held, thing ∉ system.things) ∧
      .signingKey tenant ∉ system.things

structure Kept (system : System) : Prop where
  sound : Sound system
  certain : Consistent NamedRow (Certain system.things) system
  recorded : ∀ thing ∈ system.things, (∃ tenant, thing = .signingKey tenant) ∨
    ∃ tenant rows held, system.store tenant = some rows ∧ held ∈ rows.generations ∧
      thing ∈ thingsOf held
  destroyed : ∀ tenant rows held, system.store tenant = some rows → held ∈ rows.generations →
    held.status = .destroyed → ∀ thing ∈ thingsOf held, thing ∉ system.things
  keys : ∀ tenant rows, system.store tenant = some rows → rows.record.state = .offboarded →
    .signingKey tenant ∉ system.things

variable {system : System}

theorem Kept.swept (kept : Kept system) : system.Swept where
  recorded := by
    intro thing there not_key
    cases kept.recorded thing there with
    | inl key =>
      obtain ⟨tenant, is⟩ := key
      exact absurd is (not_key tenant)
    | inr named =>
      obtain ⟨tenant, rows, held, stored, member, listed⟩ := named
      have owner := ((kept.certain.rows tenant rows stored).named held member).owner
      exact ⟨tenant, rows, held, stored, member, owner, listed⟩
  destroyed := kept.destroyed
  offboarded := by
    intro tenant rows stored gone
    have all := (kept.sound.rows tenant rows stored).offboarded gone
    exact ⟨fun held member => kept.destroyed tenant rows held stored member (all held member),
      kept.keys tenant rows stored gone⟩

/-- A system nobody works in: each row has its census and its names in order, and what
exists outside is swept. Sign names may be yet to record, as an earlier release left them. -/
structure System.AtRest (system : System) : Prop where
  idle : ∀ id, system.workers id = none
  rows : ∀ tenant rows, system.store tenant = some rows →
    RowCounted rows ∧ NamedRow tenant rows
  swept : system.Swept

theorem consistent_idle {good : Str → TenantRows → Prop} {fits : Worker → TenantRows → Prop}
    (rows : ∀ tenant rows, system.store tenant = some rows → good tenant rows)
    (idle : ∀ id, system.workers id = none) : Consistent good fits system where
  rows := rows
  workers := by
    intro id worker running
    rw [idle] at running
    cases running
  alone := by
    intro left right one other running
    rw [idle] at running
    cases running

theorem System.AtRest.kept (rest : system.AtRest) : Kept system where
  sound := consistent_idle (fun tenant rows stored => (rest.rows tenant rows stored).1) rest.idle
  certain := consistent_idle (fun tenant rows stored => (rest.rows tenant rows stored).2) rest.idle
  recorded := by
    intro thing there
    by_cases key : ∃ tenant, thing = .signingKey tenant
    · exact .inl key
    · right
      obtain ⟨tenant, rows, held, stored, member, -, listed⟩ :=
        rest.swept.recorded thing there fun tenant is => key ⟨tenant, is⟩
      exact ⟨tenant, rows, held, stored, member, listed⟩
  destroyed := rest.swept.destroyed
  keys := fun tenant rows stored is => (rest.swept.offboarded tenant rows stored is).2

theorem empty_at_rest : System.empty.AtRest where
  idle := fun _ => rfl
  rows := fun _ _ stored => nomatch stored
  swept := {
    recorded := fun _ there => nomatch there
    destroyed := fun _ _ _ stored => nomatch stored
    offboarded := fun _ _ stored => nomatch stored }

end Outside

section Rows

variable {system : System} {tenant : Str} {rows after : TenantRows}

theorem recorded_written (recorded : ∀ thing ∈ system.things,
      (∃ tenant, thing = .signingKey tenant) ∨
      ∃ tenant rows held, system.store tenant = some rows ∧ held ∈ rows.generations ∧
        thing ∈ thingsOf held)
    (stays : ∀ rows held thing, system.store tenant = some rows → held ∈ rows.generations →
      thing ∈ thingsOf held → ∃ next ∈ after.generations, thing ∈ thingsOf next) :
    ∀ thing ∈ system.things, (∃ tenant, thing = .signingKey tenant) ∨
      ∃ other rows held, put system.store tenant (some after) other = some rows ∧
        held ∈ rows.generations ∧ thing ∈ thingsOf held := by
  intro thing there
  cases recorded thing there with
  | inl key => exact .inl key
  | inr named =>
    right
    obtain ⟨other, rows, held, stored, member, listed⟩ := named
    by_cases is : other = tenant
    · rw [is] at stored
      obtain ⟨next, next_member, next_listed⟩ := stays rows held thing stored member listed
      exact ⟨tenant, after, next, put_here _ _ _, next_member, next_listed⟩
    · exact ⟨other, rows, held, (put_other is).trans stored, member, listed⟩

theorem stored_written {other : Str} {found : TenantRows}
    (stored : put system.store tenant (some after) other = some found) :
    (other = tenant ∧ found = after) ∨ system.store other = some found := by
  unfold put at stored
  split_ifs at stored with is
  · exact .inl ⟨is, (Option.some.inj stored).symm⟩
  · exact .inr stored

/-- A request leaves the generations and does not offboard at once. -/
structure Requested (rows after : TenantRows) : Prop where
  generations : after.generations = rows.generations
  id : after.record.id = rows.record.id
  state : after.record.state = .offboarded → rows.record.state = .offboarded

theorem resume_requested (asked : Memory.requestResume rows = some after) :
    Requested rows after := by
  unfold Memory.requestResume at asked
  split_ifs at asked
  rw [← Option.some.inj asked]
  exact ⟨rfl, rfl, fun gone => gone⟩

theorem offboard_requested (asked : Memory.requestOffboard rows = some after) :
    Requested rows after := by
  unfold Memory.requestOffboard at asked
  split_ifs at asked
  rw [← Option.some.inj asked]
  exact ⟨rfl, rfl, fun gone => by cases gone⟩

theorem rotate_requested (asked : Memory.requestRotate rows = some after) :
    Requested rows after := by
  unfold Memory.requestRotate at asked
  split_ifs at asked
  rw [← Option.some.inj asked]
  exact ⟨rfl, rfl, fun gone => gone⟩

theorem certain_same {things : List Thing} {worker : Worker}
    (same : after.generations = rows.generations) (certain : Certain things worker rows) :
    Certain things worker after := by
  obtain ⟨id, absent, gone, continues⟩ := certain
  refine ⟨id, absent, ?_, ?_⟩
  · rw [same]
    exact gone
  · rw [same]
    exact continues

end Rows

section Requests

variable {system : System} {tenant : Str}

theorem request_kept (kept : Kept system) {change : TenantRows → Option TenantRows}
    (requested : ∀ rows after, change rows = some after → Requested rows after)
    (sound : Sound (system.request tenant change)) :
    Kept (system.request tenant change) := by
  cases stored : system.store tenant with
  | none =>
    have same : system.request tenant change = system := by
      unfold System.request
      rw [stored]
      rfl
    rw [same]
    exact kept
  | some rows =>
    cases asked : change rows with
    | none =>
      have same : system.request tenant change = system := by
        unfold System.request
        simp only [stored, Option.bind_some, asked]
      rw [same]
      exact kept
    | some after =>
      have written : system.request tenant change = system.writeRows tenant after := by
        unfold System.request
        simp only [stored, Option.bind_some, asked]
      rw [written] at sound ⊢
      have only_record := requested rows after asked
      have named := kept.certain.rows tenant rows stored
      have fine : NamedRow tenant after := {
        length := named.length
        id := only_record.id.trans named.id
        named := by
          rw [only_record.generations]
          exact named.named }
      exact {
        sound
        certain := kept.certain.requested stored fine fun worker certain =>
          certain_same only_record.generations certain
        recorded := by
          apply recorded_written kept.recorded
          intro found held thing there member listed
          have same : found = rows := Option.some.inj (there.symm.trans stored)
          subst same
          exact ⟨held, only_record.generations ▸ member, listed⟩
        destroyed := by
          intro other found held there member gone
          cases stored_written there with
          | inl here =>
            obtain ⟨rfl, rfl⟩ := here
            exact kept.destroyed other rows held stored (only_record.generations ▸ member) gone
          | inr earlier => exact kept.destroyed other found held earlier member gone
        keys := by
          intro other found there gone
          cases stored_written there with
          | inl here =>
            obtain ⟨rfl, rfl⟩ := here
            exact kept.keys other rows stored (only_record.state gone)
          | inr earlier => exact kept.keys other found earlier gone }

theorem create_kept (kept : Kept system) (now : Time) (fresh : system.store tenant = none)
    (length : tenant.length = idLength)
    (sound : Sound (system.writeRows tenant (Memory.newTenant tenant now))) :
    Kept (system.writeRows tenant (Memory.newTenant tenant now)) where
  sound
  certain := kept.certain.created fresh
    ⟨length, rfl, fun _ none_yet => nomatch none_yet⟩
  recorded := by
    apply recorded_written kept.recorded
    intro found held thing there
    rw [fresh] at there
    cases there
  destroyed := by
    intro other found held there member gone
    cases stored_written there with
    | inl here =>
      obtain ⟨rfl, rfl⟩ := here
      cases member
    | inr earlier => exact kept.destroyed other found held earlier member gone
  keys := by
    intro other found there gone
    cases stored_written there with
    | inl here =>
      obtain ⟨rfl, rfl⟩ := here
      cases gone
    | inr earlier => exact kept.keys other found earlier gone

end Requests

section Commits

variable {system : System} {id : Nat} {worker : Worker} {rows after : TenantRows}
  {records : Commit} {next : Except Str TenantRecord → Body Unit}

/-- What the rows a commit leaves have, for everything that exists. -/
structure Committed (system : System) (worker : Worker) (after : TenantRows)
    (program : Body Unit) : Prop where
  named : NamedRow worker.tenant after
  certain : Certain system.things { worker with record := after.record, program } after
  stays : ∀ rows held thing, system.store worker.tenant = some rows → held ∈ rows.generations →
    thing ∈ thingsOf held → ∃ next ∈ after.generations, thing ∈ thingsOf next
  destroyed : ∀ held ∈ after.generations, held.status = .destroyed →
    ∀ thing ∈ thingsOf held, thing ∉ system.things
  keys : after.record.state = .offboarded → .signingKey worker.tenant ∉ system.things

theorem committed (kept : Kept system) (here : system.workers id = some worker)
    (stored : system.store worker.tenant = some rows)
    (runs : worker.program = .perform (.commit records) next)
    (lands : Memory.commit rows worker.record records = .ok after) :
    Committed system worker after (next (.ok after.record)) := by
  obtain ⟨_, found, found_stored, fits⟩ := kept.sound.workers id worker here
  have same : found = rows := Option.some.inj (found_stored.symm.trans stored)
  subst same
  obtain ⟨_, other, other_stored, certain⟩ := kept.certain.workers id worker here
  have same : other = found := Option.some.inj (other_stored.symm.trans stored)
  subst same
  obtain ⟨worker_id, absent, gone, continues⟩ := certain
  rw [runs] at continues
  have named := kept.certain.rows worker.tenant other stored
  have landed := Memory.commit_landed lands
  have state := fits.follows.fenced landed.fence
  obtain ⟨leaves, goes⟩ := continues.2 other after (named.id.trans worker_id.symm) state rfl landed
  have after_id : after.record.id = worker.tenant := by
    rw [landed.record]
    exact named.id
  exact {
    named := ⟨named.length, after_id, leaves.named⟩
    certain := by
      refine ⟨after_id, absent, ?_, goes⟩
      intro thing missing
      obtain ⟨not_there, own⟩ := gone thing missing
      refine ⟨not_there, own.imp_right ?_⟩
      rintro ⟨held, member, listed⟩
      obtain ⟨next, next_member, stays⟩ := leaves.kept held member
      exact ⟨next, next_member, stays thing listed⟩
    stays := by
      intro rows held thing rows_stored member listed
      have same : rows = other := Option.some.inj (rows_stored.symm.trans stored)
      subst same
      obtain ⟨next, next_member, stays⟩ := leaves.kept held member
      exact ⟨next, next_member, stays thing listed⟩
    destroyed := by
      intro held member is thing listed
      cases leaves.destroyed held member is with
      | inl already =>
        obtain ⟨was, was_member, was_destroyed, same⟩ := already
        exact kept.destroyed worker.tenant other was stored was_member was_destroyed thing
          (same ▸ listed)
      | inr missing => exact (gone thing (missing thing listed)).1
    keys := by
      intro is
      cases leaves.offboarded is with
      | inl already => exact kept.keys worker.tenant other stored (state.trans already)
      | inr missing => exact (gone _ missing).1 }

theorem Committed.recorded {program : Body Unit} (kept : Kept system)
    (committed : Committed system worker after program) :
    ∀ thing ∈ system.things, (∃ tenant, thing = .signingKey tenant) ∨
      ∃ other rows held, put system.store worker.tenant (some after) other = some rows ∧
        held ∈ rows.generations ∧ thing ∈ thingsOf held :=
  recorded_written kept.recorded committed.stays

theorem Committed.destroyed_written {program : Body Unit} (kept : Kept system)
    (committed : Committed system worker after program) :
    ∀ other rows held, put system.store worker.tenant (some after) other = some rows →
      held ∈ rows.generations → held.status = .destroyed →
      ∀ thing ∈ thingsOf held, thing ∉ system.things := by
  intro other rows held there member is
  cases stored_written there with
  | inl here =>
    obtain ⟨rfl, rfl⟩ := here
    exact committed.destroyed held member is
  | inr earlier => exact kept.destroyed other rows held earlier member is

theorem Committed.keys_written {program : Body Unit} (kept : Kept system)
    (committed : Committed system worker after program) :
    ∀ other rows, put system.store worker.tenant (some after) other = some rows →
      rows.record.state = .offboarded → .signingKey other ∉ system.things := by
  intro other rows there is
  cases stored_written there with
  | inl here =>
    obtain ⟨rfl, rfl⟩ := here
    exact committed.keys is
  | inr earlier => exact kept.keys other rows earlier is

theorem stop_kept (kept : Kept system) (here : system.workers id = some worker) :
    Kept (system.stop id worker) where
  sound := kept.sound.stopped here
  certain := kept.certain.stopped here
  recorded := kept.recorded
  destroyed := kept.destroyed
  keys := kept.keys

theorem land_kept (kept : Kept system) (here : system.workers id = some worker)
    (runs : worker.program = .perform (.commit records) next)
    (goes : ∀ said, Kept (system.goOn id worker (next (.error said))))
    (sound : Sound (system.landCommit id worker records next)) :
    Kept (system.landCommit id worker records next) := by
  obtain ⟨_, rows, stored, _⟩ := kept.certain.workers id worker here
  unfold System.landCommit at sound ⊢
  simp only [stored] at sound ⊢
  cases lands : Memory.commit rows worker.record records with
  | ok after =>
    simp only [lands] at sound
    have made := committed kept here stored runs lands
    exact {
      sound
      certain := kept.certain.written here rfl made.named made.certain
      recorded := made.recorded kept
      destroyed := made.destroyed_written kept
      keys := made.keys_written kept }
  | error why =>
    cases why with
    | fenceMissed said => exact stop_kept kept here
    | valueError said => exact goes _
    | keyError salt => exact goes _

theorem lose_kept (kept : Kept system) (here : system.workers id = some worker)
    (runs : worker.program = .perform (.commit records) next)
    (sound : Sound (system.loseCommit id worker records)) :
    Kept (system.loseCommit id worker records) := by
  obtain ⟨_, rows, stored, _⟩ := kept.certain.workers id worker here
  unfold System.loseCommit at sound ⊢
  simp only [stored] at sound ⊢
  cases lands : Memory.commit rows worker.record records with
  | ok after =>
    simp only [lands] at sound
    have made := committed kept here stored runs lands
    exact {
      sound
      certain := kept.certain.written_stopped here made.named
      recorded := made.recorded kept
      destroyed := made.destroyed_written kept
      keys := made.keys_written kept }
  | error why => exact stop_kept kept here

/-- A failure's record moves the step alone. -/
theorem fail_kept {failed : Failed} (kept : Kept system)
    (here : system.workers id = some worker)
    (sound : Sound (system.landFailure id worker failed)) :
    Kept (system.landFailure id worker failed) := by
  obtain ⟨_, rows, stored, _⟩ := kept.certain.workers id worker here
  unfold System.landFailure at sound ⊢
  simp only [stored] at sound ⊢
  cases recorded : Memory.fail rows worker.record (failureText worker.step failed)
      (restartPoint worker failed).1 (restartPoint worker failed).2 with
  | error why => exact stop_kept kept here
  | ok after =>
    simp only [recorded] at sound
    unfold Memory.fail at recorded
    split_ifs at recorded
    have same := Except.ok.inj recorded
    subst same
    have named := kept.certain.rows worker.tenant rows stored
    exact {
      sound
      certain := kept.certain.written_stopped here ⟨named.length, named.id, named.named⟩
      recorded := by
        apply recorded_written kept.recorded
        intro found held thing there member listed
        have same : found = rows := Option.some.inj (there.symm.trans stored)
        subst same
        exact ⟨held, member, listed⟩
      destroyed := by
        intro other found held there member is
        cases stored_written there with
        | inl at_here =>
          obtain ⟨rfl, rfl⟩ := at_here
          exact kept.destroyed _ rows held stored member is
        | inr earlier => exact kept.destroyed other found held earlier member is
      keys := by
        intro other found there is
        cases stored_written there with
        | inl at_here =>
          obtain ⟨rfl, rfl⟩ := at_here
          exact kept.keys _ rows stored is
        | inr earlier => exact kept.keys other found earlier is }

end Commits

end Defender.Lifecycle
