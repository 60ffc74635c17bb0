import Defender.Lifecycle.HostSteps

/-!
# Pieces of step bodies that learn nothing

Under a specification that promises nothing of a call's answer, the pieces made of such
calls are quiet: they fail plainly or go on, and what was known stays known. The pieces
on named things are quiet when their calls are too.
-/

namespace Defender.Lifecycle

open Defender.Python Defender.Tenancy Defender.Library.Programs

universe u

/-- A failure that restarts at its own step. -/
def Plain (why : Failed) : Prop := why.restart = none

/-- Nothing is promised of what the held tenant and calls outside answer. -/
structure CallsQuiet {Known : Type u} (spec : Spec Operation Answer Known) : Prop where
  generations : spec.Quiet .generations
  forgeWiring : spec.Quiet .forgeWiring
  record : spec.Quiet .record
  clock : spec.Quiet .clock
  draw : spec.Quiet .draw
  call : ∀ method path, spec.Quiet (.call method path)
  collaborators : ∀ repo, spec.Quiet (.collaborators repo)
  runIntegration : ∀ args, spec.Quiet (.runIntegration args)
  act : ∀ action, spec.Quiet (.act action)

/-- Nor of calls on named things. -/
structure ThingsQuiet {Known : Type u} (spec : Spec Operation Answer Known) : Prop where
  read : ∀ thing, spec.Quiet (.read thing)
  write : ∀ thing, spec.Quiet (.write thing)
  remove : ∀ thing, spec.Quiet (.remove thing)

abbrev QuietBody {Known : Type u} (spec : Spec Operation Answer Known) {Result : Type}
    (program : Body Result) : Prop :=
  QuietProgram spec Plain program

section Pieces

variable {Known : Type u} {spec : Spec Operation Answer Known}

theorem quiet_done {Result : Type} (result : Result) :
    QuietBody spec (pure result : Body Result) := .done result

theorem quiet_fail {Result : Type} (text : Str) : QuietBody spec (fail text : Body Result) :=
  .failed _ rfl

theorem quiet_bind {Result Final : Type} {program : Body Result} {next : Result → Body Final}
    (quiet : QuietBody spec program) (onward : ∀ result, QuietBody spec (next result)) :
    QuietBody spec (program >>= next) :=
  QuietProgram.bind quiet onward

theorem quiet_request {operation : Operation} (quiet : spec.Quiet operation) :
    QuietBody spec (Program.request operation : Body (Answer operation)) :=
  .perform operation _ quiet fun answer => .done answer

theorem quiet_or_said {Result : Type} (answer : Except Str Result) :
    QuietBody spec (orSaid answer) := by
  cases answer with
  | ok result => exact .done result
  | error said => exact quiet_fail said

theorem quiet_answered (line : Str) (ok : List Nat) (reply : Except Str Response) :
    QuietBody spec (answered line ok reply) := by
  cases reply with
  | error said => exact quiet_fail said
  | ok response =>
    show QuietBody spec (if _ then _ else _)
    split_ifs
    · exact .done response
    · exact quiet_fail _

theorem quiet_field (line : Str) (response : Response) (path : List Str) :
    QuietBody spec (fieldOf line response path) := by
  unfold fieldOf
  split
  · exact quiet_fail _
  · exact quiet_fail _
  · exact .done _

theorem quiet_rule (response : Response) (repo : Str) :
    QuietBody spec (Service.ruleOf response repo) := by
  unfold Service.ruleOf
  simp only
  split
  · split_ifs
    · exact quiet_done _
    · exact quiet_fail _
  · exact quiet_fail _

theorem quiet_keys (path : Str) (listed : Response) :
    QuietBody spec (Service.keysOf path listed) := by
  unfold Service.keysOf
  split_ifs
  · exact quiet_done _
  · exact quiet_field _ _ _

section Calls

variable (calls : CallsQuiet spec)

include calls

theorem quiet_call (method : Method) (path : Str) (ok : List Nat) :
    QuietBody spec (call method path ok) :=
  .perform _ _ (calls.call method path) fun reply => quiet_answered _ ok reply

theorem quiet_call_field (method : Method) (path : Str) (ok : List Nat) (field : List Str) :
    QuietBody spec (callField method path ok field) :=
  quiet_bind (quiet_call calls method path ok) fun response => quiet_field _ response field

theorem quiet_act (action : Action) : QuietBody spec (act action) :=
  .perform _ _ (calls.act action) quiet_or_said

theorem quiet_run_integration (args : List Str) :
    QuietBody spec (.perform (.runIntegration args) orSaid : Body Completed) :=
  .perform _ _ (calls.runIntegration args) quiet_or_said

theorem quiet_log_in : QuietBody spec logIn :=
  quiet_bind (quiet_call_field calls _ _ _ _) fun _ => quiet_done _

theorem quiet_mint (oidcRole : Str) : QuietBody spec (mint oidcRole) :=
  quiet_bind (quiet_call_field calls _ _ _ _) fun _ => quiet_done _

theorem quiet_wiring : QuietBody spec Service.wiring := by
  apply quiet_bind (quiet_request calls.forgeWiring)
  intro held
  cases held with
  | none => exact quiet_fail _
  | some wiring => exact quiet_done wiring

theorem quiet_next_step : QuietBody spec nextStep := by
  apply quiet_bind (quiet_request calls.record)
  intro record
  split
  · split
    · exact quiet_done _
    · exact quiet_fail _
  · exact quiet_fail _
  · exact quiet_fail _

theorem quiet_approle_accessor : QuietBody spec Service.approleAccessor := by
  apply quiet_bind (quiet_call_field calls _ _ _ _)
  intro mounts
  split
  · exact quiet_fail _
  · split_ifs
    · exact quiet_done _
    · exact quiet_fail _

theorem quiet_collaborators (repo : Str) : QuietBody spec (Service.collaborators repo) := by
  apply QuietProgram.perform _ _ (calls.collaborators repo)
  intro pages
  cases pages with
  | error said => exact quiet_fail said
  | ok pages =>
    have plain : ∀ pages found why, Service.loginsOfPages repo found pages = .error why →
        Plain why := by
      intro pages
      induction pages with
      | nil =>
        intro found why ended
        cases ended
      | cons page rest ih =>
        intro found why ended
        unfold Service.loginsOfPages at ended
        split at ended
        · split_ifs at ended
          exact ih _ why ended
        · rw [← Except.error.inj ended]
          rfl
    simp only
    split
    · exact .done _
    · rename_i why ended
      exact .failed why (plain pages [] why ended)

theorem quiet_mend_main (repo rules : Str) (bots : List Str) (kept : Response) :
    QuietBody spec (Service.mendMain repo rules bots kept) := by
  unfold Service.mendMain
  split_ifs
  · exact quiet_bind (quiet_call calls _ _ _) fun _ => quiet_done _
  · apply quiet_bind (quiet_rule _ _)
    intro rule
    split
    · exact quiet_done _
    · exact quiet_bind (quiet_call calls _ _ _) fun _ => quiet_done _

theorem quiet_protect_main (held : ForgeWiring) : QuietBody spec (Service.protectMain held) := by
  apply quiet_bind (quiet_request calls.generations)
  intro found
  apply quiet_bind (quiet_call calls _ _ _)
  intro kept
  apply quiet_bind (quiet_mend_main calls _ _ _ _)
  intro _
  apply quiet_bind (quiet_call calls _ _ _)
  intro stored
  apply quiet_bind (quiet_rule _ _)
  intro rule
  split
  · exact quiet_done _
  · exact quiet_fail _

theorem quiet_await_main (repo : Str) (tries : Nat) :
    QuietBody spec (Service.awaitMain repo tries) := by
  induction tries with
  | zero => exact quiet_fail _
  | succ tries ih =>
    apply quiet_bind (quiet_call calls _ _ _)
    intro found
    split_ifs
    · exact quiet_bind (quiet_act calls _) fun _ => ih
    · exact quiet_done _

theorem quiet_bot_jwt (generation : Generation) : QuietBody spec (Service.botJwt generation) := by
  apply quiet_bind (quiet_call_field calls _ _ _ _)
  intro _
  apply quiet_bind (quiet_log_in calls)
  intro _
  exact quiet_mint calls _

theorem quiet_wrapped_secret (approle : Str) :
    QuietBody spec (Service.wrappedSecret approle) :=
  quiet_bind (quiet_call_field calls _ _ _ _) fun _ => quiet_done _

theorem quiet_each_call {Item : Type} (items : List Item) (method : Method) (path : Item → Str)
    (ok : List Nat) :
    QuietBody spec (Program.forEach (fun item => do
      let _ ← call method (path item) ok
      pure ()) items : Body Unit) :=
  QuietProgram.for_each items fun item _ =>
    quiet_bind (quiet_call calls method (path item) ok) fun _ => quiet_done ()

theorem quiet_sweep_secret_ids (approle keep : Str) :
    QuietBody spec (Service.sweepSecretIds approle keep) := by
  apply quiet_bind (quiet_call calls _ _ _)
  intro listed
  apply quiet_bind (quiet_keys _ _)
  intro keys
  exact quiet_each_call calls _ _ _ _

theorem quiet_push_if_empty (generation : Generation) (origin : Str) (found : Response) :
    QuietBody spec (Service.pushIfEmpty generation origin found) := by
  unfold Service.pushIfEmpty
  split_ifs
  · apply quiet_bind (quiet_bot_jwt calls _)
    intro _
    exact quiet_bind (quiet_act calls _) fun _ => quiet_done _
  · exact quiet_done _

theorem quiet_drop_collaborator (repo : Option Str) (login : Str) :
    QuietBody spec (Service.dropCollaborator repo login) := by
  cases repo with
  | none => exact quiet_done _
  | some repo => exact quiet_bind (quiet_call calls _ _ _) fun _ => quiet_done _

theorem quiet_repo_of : QuietBody spec Service.repoOf :=
  quiet_bind (quiet_request calls.forgeWiring) fun _ => quiet_done _

theorem quiet_archive (repo : Option Str) : QuietBody spec (Service.archive repo) := by
  cases repo with
  | none => exact quiet_done ()
  | some repo => exact quiet_bind (quiet_call calls _ _ _) fun _ => quiet_done _

theorem quiet_drop_repo (repo : Option Str) : QuietBody spec (Service.dropRepo repo) := by
  cases repo with
  | none => exact quiet_done ()
  | some repo =>
    apply quiet_bind (quiet_call calls _ _ _)
    intro found
    split_ifs
    · exact quiet_done _
    · exact quiet_bind (quiet_call calls _ _ _) fun _ => quiet_done _

theorem quiet_unwrap (which : Str) : QuietBody spec (Host.unwrap which) := by
  apply quiet_bind
  · apply QuietProgram.perform _ _ (calls.call _ _)
    intro reply
    cases reply with
    | error said => exact quiet_fail said
    | ok response =>
      simp only
      split_ifs
      · exact .done response
      · exact quiet_fail _
  · intro response
    apply quiet_bind (quiet_field _ _ _)
    intro secret
    exact quiet_bind (quiet_field _ _ _) fun _ => quiet_done _

theorem quiet_write_secret (marked accessor : Str) :
    QuietBody spec (Host.writeSecret marked accessor) := by
  unfold Host.writeSecret
  split_ifs
  · exact quiet_fail _
  · apply quiet_bind (quiet_act calls _)
    intro outcome
    cases outcome with
    | none => exact quiet_done _
    | some path => exact quiet_done _

theorem quiet_unlink (path : Str) : QuietBody spec (Host.unlink path) :=
  quiet_bind (quiet_act calls _) fun _ => quiet_done _

theorem quiet_release_lock : QuietBody spec Host.releaseLock :=
  quiet_bind (quiet_act calls _) fun _ => quiet_done _

theorem quiet_check_branch (repo : Str) : QuietBody spec (Host.checkBranch repo) := by
  apply quiet_bind (quiet_call calls _ _ _)
  intro _
  apply quiet_bind (quiet_call calls _ _ _)
  intro branch
  simp only
  split_ifs
  · exact quiet_done _
  · exact quiet_fail _

theorem quiet_prove_sign (tenant : Str) : QuietBody spec (Host.proveSign tenant) := by
  apply quiet_bind (quiet_log_in calls)
  intro _
  apply quiet_bind (quiet_call_field calls _ _ _ _)
  intro signature
  split
  · exact quiet_done _
  · exact quiet_fail _

theorem quiet_read_secret (path : Str) : QuietBody spec (Host.readSecret path) := by
  apply quiet_bind (quiet_act calls _)
  intro outcome
  cases outcome with
  | none => exact quiet_fail _
  | some secret => exact quiet_done _

theorem quiet_ensure_clone (path origin oidcRole : Str) :
    QuietBody spec (Host.ensureClone path origin oidcRole) := by
  apply quiet_bind (quiet_act calls _)
  intro outcome
  cases outcome with
  | some _ => exact quiet_done _
  | none =>
    apply quiet_bind (quiet_read_secret calls _)
    intro _
    apply quiet_bind (quiet_log_in calls)
    intro _
    apply quiet_bind (quiet_mint calls _)
    intro _
    exact quiet_bind (quiet_act calls _) fun _ => quiet_done _

end Calls

section Things

variable (things : ThingsQuiet spec)

include things

theorem quiet_read_thing (thing : Thing) (ok : List Nat) :
    QuietBody spec (readThing thing ok) :=
  .perform _ _ (things.read thing) fun reply => quiet_answered _ ok reply

theorem quiet_write_thing (thing : Thing) : QuietBody spec (writeThing thing) :=
  .perform _ _ (things.write thing) fun reply => quiet_answered _ [] reply

theorem quiet_remove_thing (thing : Thing) : QuietBody spec (removeThing thing) :=
  .perform _ _ (things.remove thing) fun reply => quiet_answered _ [404] reply

theorem quiet_write_role (generation : Generation) :
    QuietBody spec (Service.writeRole generation) :=
  quiet_bind (quiet_write_thing things _) fun _ => quiet_done _

theorem quiet_ensure_thing (thing : Thing) : QuietBody spec (Service.ensureThing thing) := by
  apply quiet_bind (quiet_read_thing things _ _)
  intro found
  split_ifs
  · exact quiet_bind (quiet_write_thing things _) fun _ => quiet_done _
  · exact quiet_done _

theorem quiet_remove_all (removed : List Thing) : QuietBody spec (Service.removeAll removed) :=
  QuietProgram.for_each removed fun thing _ =>
    quiet_bind (quiet_remove_thing things thing) fun _ => quiet_done ()

variable (calls : CallsQuiet spec)

include calls

theorem quiet_destroy_key (tenant : Str) : QuietBody spec (Service.destroyKey tenant) := by
  apply quiet_bind (quiet_read_thing things _ _)
  intro found
  split_ifs
  · exact quiet_done _
  · apply quiet_bind (quiet_call calls _ _ _)
    intro _
    exact quiet_bind (quiet_remove_thing things _) fun _ => quiet_done _

theorem quiet_approle (name : Str) : QuietBody spec (Service.approle name) := by
  apply quiet_bind (quiet_write_thing things _)
  intro _
  exact quiet_bind (quiet_call_field calls _ _ _ _) fun _ => quiet_done _

theorem quiet_entity (name roleId accessor : Str) :
    QuietBody spec (Service.entity name roleId accessor) := by
  apply quiet_bind (quiet_write_thing things _)
  intro _
  apply quiet_bind (quiet_read_thing things _ _)
  intro response
  apply quiet_bind (quiet_field _ _ _)
  intro found
  split
  · exact quiet_fail _
  · simp only
    split_ifs
    · exact quiet_done _
    · exact quiet_fail _
    · exact quiet_bind (quiet_call calls _ _ _) fun _ => quiet_done _

theorem quiet_sign_chain (tenant : Str) (generation : Generation) (accessor : Str) :
    QuietBody spec (Service.signChain tenant generation accessor) := by
  apply quiet_bind (quiet_approle things calls _)
  intro _
  apply quiet_bind (quiet_entity things calls _ _ _)
  intro _
  exact quiet_bind (quiet_ensure_thing things _) fun _ => quiet_done _

theorem quiet_bot_left (repo : Option Str) (login : Str) :
    QuietBody spec (Service.botLeft repo login) := by
  apply quiet_bind (quiet_read_thing things _ _)
  intro user
  split_ifs
  · exact quiet_done _
  · exact quiet_bind (quiet_drop_collaborator calls _ _) fun _ => quiet_done _

theorem quiet_revoke (repo : Option Str) (generations : List Generation) :
    QuietBody spec (Service.revoke repo generations) := by
  induction generations with
  | nil => exact quiet_done _
  | cons generation rest ih =>
    apply quiet_bind (quiet_bot_left things calls _ _)
    intro here
    apply quiet_bind (quiet_remove_all things _)
    intro _
    exact quiet_bind ih fun _ => quiet_done _

theorem quiet_destroy (generations : List Generation) (repo : Option Str) :
    QuietBody spec (Service.destroy generations repo) :=
  quiet_bind (quiet_revoke things calls repo generations) fun _ =>
    quiet_remove_all things _

end Things

end Pieces

end Defender.Lifecycle
