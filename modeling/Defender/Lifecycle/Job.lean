import Defender.Library.Programs
import Defender.Python.Json
import Defender.Tenancy.MemoryStore

/-!
# The job both actors work

The step tables, and the operations a step body is made of: reads of the held tenant,
its commits, and calls outside. The forge and OpenBao keep named objects (`Thing`) that
steps make and destroy; every other call, and the work done on the host, answers what it
answers. Request bodies are left out: no answer is read back from them.
-/

namespace Defender.Lifecycle

open Defender.Python Defender.Tenancy Defender.Library.Programs

/-- `NEXT`: the step after each of an action's steps and its actor; `none` inside ends it. -/
def nextOf : PendingAction → StepName → Option (Option (StepName × StepActor))
  | .create, .names => some (some (.provider, .service))
  | .create, .provider => some (some (.repo, .service))
  | .create, .repo => some (some (.bot, .service))
  | .create, .bot => some (some (.integration, .service))
  | .create, .integration => some (some (.template, .service))
  | .create, .template => some (some (.wrap, .service))
  | .create, .wrap => some (some (.install, .host))
  | .create, .install => some (some (.sweep, .service))
  | .create, .sweep => some (some (.prepare, .host))
  | .create, .prepare => some (some (.activate, .service))
  | .create, .activate => some none
  | .rotate, .names => some (some (.provider, .service))
  | .rotate, .provider => some (some (.bot, .service))
  | .rotate, .bot => some (some (.protect, .service))
  | .rotate, .protect => some (some (.integration, .service))
  | .rotate, .integration => some (some (.wrap, .service))
  | .rotate, .wrap => some (some (.install, .host))
  | .rotate, .install => some (some (.sweep, .service))
  | .rotate, .sweep => some (some (.retire, .service))
  | .rotate, .retire => some (some (.removeOldFile, .host))
  | .rotate, .removeOldFile => some none
  | .offboard, .offboard => some (some (.teardown, .host))
  | .offboard, .teardown => some (some (.finish, .service))
  | .offboard, .finish => some (some (.deleteRepo, .service))
  | .deleteRepo, .deleteRepo => some none
  | _, _ => none

/-- A step's exception: the failure's text, and its restart point when that is not the step
itself. -/
structure Failed where
  text : Str
  restart : Option (StepName × StepActor) := none
  deriving DecidableEq, Repr

/-- What the forge and OpenBao hold under a name that a step gave it. -/
inductive Thing where
  | bot (login : Str)
  | oidcRole (name : Str)
  | approle (name : Str)
  | entity (name : Str)
  | signingKey (tenant : Str)
  deriving DecidableEq, Repr

inductive Method where
  | get | post | put | patch | delete
  deriving DecidableEq, Repr

def Method.text : Method → Str
  | .get => ("GET" : Str)
  | .post => ("POST" : Str)
  | .put => ("PUT" : Str)
  | .patch => ("PATCH" : Str)
  | .delete => ("DELETE" : Str)

/-- Work done outside the database that is no HTTP call. -/
inductive Action where
  | hostLock (exclusive : Bool)
  | takeExclusive
  | releaseLock
  | pushTemplate (origin : Str)
  | sleep
  | endTenant (now : Time)
  | writeSecret (name : Str)
  | unlink (path : Str)
  | dropUnrecordedSecrets (keep : List Str)
  | existingClone (origin : Str)
  | readSecret (path : Str)
  | clone (origin : Str)
  | learning
  | publish
  | removeTenantFiles
  | auditEmit
  deriving DecidableEq, Repr

structure Response where
  status : Nat
  body : Option Json := none
  deriving Repr

def Response.isSuccess (response : Response) : Bool :=
  200 ≤ response.status && response.status < 300

/-- What the integration command ended with. -/
structure Completed where
  returncode : Nat
  stdout : Str
  stderr : Str
  deriving DecidableEq, Repr

inductive Operation where
  | generations
  | forgeWiring
  | record
  | clock
  | draw
  | only (generations : List Generation) (status : GenerationStatus)
  | commit (commit : Commit)
  | read (thing : Thing)
  | write (thing : Thing)
  | remove (thing : Thing)
  | call (method : Method) (path : Str)
  | collaborators (repo : Str)
  | runIntegration (args : List Str)
  | act (action : Action)

def Answer : Operation → Type
  | .generations => List Generation
  | .forgeWiring => Option ForgeWiring
  | .record => TenantRecord
  | .clock => Time
  | .draw => Str
  | .only _ _ => Except Failed Generation
  | .commit _ => Except Str TenantRecord
  | .read _ | .write _ | .remove _ | .call _ _ => Except Str Response
  | .collaborators _ => Except Str (List Response)
  | .runIntegration _ => Except Str Completed
  | .act _ => Except Str (Option Str)

abbrev Body (Result : Type) := Program Operation Answer Failed Result

def fail {Result : Type} (text : Str) : Body Result := .failed { text }

/-- `found`'s one generation in `status`, or `StepFailed`. -/
def only (generations : List Generation) (status : GenerationStatus) :
    Except Failed Generation :=
  match generations.filter (·.status = status) with
  | [found] => .ok found
  | found =>
    let said := ("expected one " : Str) ++ status.text ++ (" generation, found " : Str) ++
      decimalText found.length
    .error { text := said }

section Reads

def generations : Body (List Generation) := Program.request Operation.generations

def forgeWiring : Body (Option ForgeWiring) := Program.request Operation.forgeWiring

def heldRecord : Body TenantRecord := Program.request Operation.record

def clock : Body Time := Program.request Operation.clock

def tokenHex : Body Str := Program.request Operation.draw

def orFailed {Result : Type} : Except Failed Result → Body Result
  | .ok result => .done result
  | .error why => .failed why

def orSaid {Result : Type} : Except Str Result → Body Result
  | .ok result => .done result
  | .error said => fail said

def onlyOne (generations : List Generation) (status : GenerationStatus) : Body Generation :=
  .perform (.only generations status) orFailed

def act (action : Action) : Body (Option Str) := .perform (.act action) orSaid

def commit (records : Commit) : Body TenantRecord := .perform (.commit records) orSaid

def reprWord (text : Str) : Str := @reprText asciiDatabase text

/-- The text of a `KeyError` for a key that reads as `key`. -/
def keyErrorText (key : Str) : Str := ("KeyError: " : Str) ++ key

def nextStep : Body (Option (StepName × StepActor)) := do
  let record ← heldRecord
  match record.pendingAction, record.step with
  | some action, some step =>
    match nextOf action step with
    | some next => pure next
    | none => fail (keyErrorText (reprWord step.text))
  | some _, none | none, _ => fail (keyErrorText (reprWord ("None" : Str)))

def commitNext (records : Commit) : Body Unit := do
  let next ← nextStep
  let _ ← commit { records with step := next.map Prod.fst, actor := next.map Prod.snd }
  pure ()

end Reads

section Calls

def truthy : Json → Bool
  | .null => false
  | .bool value => value
  | .number literal => literal ≠ ("0" : Str)
  | .string text => !text.isEmpty
  | .array items => !items.isEmpty
  | .object entries => !entries.isEmpty

mutual

/-- `repr` of a decoded value, a number as it is spelled. -/
def reprJson : Json → Str
  | .null => ("None" : Str)
  | .bool true => ("True" : Str)
  | .bool false => ("False" : Str)
  | .number literal => literal
  | .string text => reprWord text
  | .array items => '[' :: (join (", " : Str) (reprItems items) ++ [']'])
  | .object entries => '\x7b' :: (join (", " : Str) (reprEntries entries) ++ ['\x7d'])

def reprItems : List Json → List Str
  | [] => []
  | item :: rest => reprJson item :: reprItems rest

def reprEntries : List (Str × Json) → List Str
  | [] => []
  | (key, value) :: rest =>
    (reprWord key ++ (": " : Str) ++ reprJson value) :: reprEntries rest

end

/-- `str` of a decoded value. -/
def textOf : Json → Str
  | .string text => text
  | value => reprJson value

/-- A key and the `repr` of its value, `None` without one. -/
def spelled (value : Option Json) (key : Str) : Str :=
  key ++ ("=" : Str) ++ reprJson ((value.bind (Json.get? key)).getD .null)

/-- `_message`: what an answer says of its failure. -/
def messageOf (response : Response) : Str :=
  let field (key : Str) : Option Json := (response.body.bind (Json.get? key)).filter truthy
  match (field ("message" : Str)).or (field ("errors" : Str)) with
  | none => []
  | some (.array items) => (": " : Str) ++ join ("; " : Str) (items.map textOf)
  | some said => (": " : Str) ++ textOf said

/-- `answered`: a success or one of `ok`, else `StepFailed` naming the call and its answer. -/
def answered (line : Str) (ok : List Nat) : Except Str Response → Body Response
  | .ok response =>
    if response.isSuccess ∨ response.status ∈ ok then .done response
    else fail (line ++ (" answered " : Str) ++ decimalText response.status ++ messageOf response)
  | .error said => fail said

def valueAt : List Str → Option Json → Option Json
  | [], value => value
  | key :: rest, value => valueAt rest (value.bind (Json.get? key))

/-- `field_of`. -/
def fieldOf (line : Str) (response : Response) (path : List Str) : Body Json :=
  match valueAt path response.body with
  | none | some .null => fail (line ++ (" answered no " : Str) ++ join ("." : Str) path)
  | some value => .done value

def keyPath (tenant : Str) : Str := ("/v1/transit/keys/request-token-" : Str) ++ tenant

def Thing.path : Thing → Method → Str
  | .bot login, .get => ("/api/v1/users/" : Str) ++ login
  | .bot _, .post => ("/api/v1/admin/users" : Str)
  | .bot login, _ => ("/api/v1/admin/users/" : Str) ++ login
  | .oidcRole name, _ => ("/v1/identity/oidc/role/" : Str) ++ name
  | .approle name, _ => ("/v1/auth/approle/role/" : Str) ++ name
  | .entity name, _ => ("/v1/identity/entity/name/" : Str) ++ name
  | .signingKey tenant, _ => keyPath tenant

def lineOf (method : Method) (path : Str) : Str := method.text ++ (" " : Str) ++ path

def readThing (thing : Thing) (ok : List Nat) : Body Response :=
  .perform (.read thing) (answered (lineOf .get (thing.path .get)) ok)

def writeThing (thing : Thing) : Body Response :=
  .perform (.write thing) (answered (lineOf .post (thing.path .post)) [])

def removeThing (thing : Thing) : Body Response :=
  .perform (.remove thing) (answered (lineOf .delete (thing.path .delete)) [404])

def call (method : Method) (path : Str) (ok : List Nat) : Body Response :=
  .perform (.call method path) (answered (lineOf method path) ok)

/-- A call's answer and the field of it that the step goes on with. -/
def callField (method : Method) (path : Str) (ok : List Nat) (field : List Str) : Body Json := do
  let response ← call method path ok
  fieldOf (lineOf method path) response field

def repoPath (repo : Str) : Str := ("/api/v1/repos/" : Str) ++ repo

end Calls

/-- `log_in`: an OpenBao client token for the AppRole pair. -/
def logIn : Body Str := do
  let token ← callField .post ("/v1/auth/approle/login" : Str) []
    [("auth" : Str), ("client_token" : Str)]
  pure (textOf token)

/-- `mint`: a JWT of the OIDC role. -/
def mint (oidcRole : Str) : Body Str := do
  let token ← callField .get (("/v1/identity/oidc/token/" : Str) ++ oidcRole) []
    [("data" : Str), ("token" : Str)]
  pure (textOf token)

end Defender.Lifecycle
