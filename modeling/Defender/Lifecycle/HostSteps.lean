import Defender.Lifecycle.ServiceSteps

/-!
# The execution host's steps

The bodies of the host's half of every tenant's job, and the step table of either actor.
-/

namespace Defender.Lifecycle

open Defender.Python Defender.Tenancy Defender.Library.Programs
open Defender.Library.OrderedDict

namespace Host

/-- `_REWRAP`: where an install that failed restarts. -/
def rewrap : StepName × StepActor := (.wrap, .service)

def notFree (config : Config) (exclusive : Bool) : Str :=
  ("the tenant's host lock was not free (" : Str) ++
    (if exclusive then ("exclusive" : Str) else ("shared" : Str)) ++ (") within " : Str) ++
    config.teardownWait ++ ("s" : Str)

def releaseLock : Body Unit := do
  let _ ← act .releaseLock
  pure ()

/-- `_host_lock`: the body under the host lock, given back however it ends. -/
def underHostLock (config : Config) (exclusive : Bool) (body : Body Unit) : Body Unit := do
  match ← act (.hostLock exclusive) with
  | none => fail (notFree config exclusive)
  | some _ => body.ensure releaseLock

/-- `_unwrap`: the secret id and its accessor that `wrapped` wraps. -/
def unwrap (which : Str) : Body (Str × Str) := do
  let line := lineOf .post ("/v1/sys/wrapping/unwrap" : Str)
  let response ← .perform (.call .post ("/v1/sys/wrapping/unwrap" : Str)) fun answer =>
    match answer with
    | .error said => fail said
    | .ok response =>
      if response.status = 200 then .done response
      else fail (("the wrapped " : Str) ++ which ++
        (" secret could not be unwrapped (HTTP " : Str) ++ decimalText response.status ++
        ("): it was spent or has expired" : Str))
  let secret ← fieldOf line response [("data" : Str), ("secret_id" : Str)]
  let accessor ← fieldOf line response [("data" : Str), ("secret_id_accessor" : Str)]
  pure (textOf secret, textOf accessor)

/-- `_write_secret`: the file of one secret; its path. -/
def writeSecret (marked accessor : Str) : Body Str :=
  if accessor.isEmpty || accessor.contains '/' || accessor.head? = some '.' then
    fail ("OpenBao answered an unusable secret accessor" : Str)
  else do
    match ← act (.writeSecret (marked ++ accessor)) with
    | some path => pure path
    | none => pure (marked ++ accessor)

def signFile : Str := ("sign-" : Str)

def unlink (path : Str) : Body Unit := do
  let _ ← act (.unlink path)
  pure ()

/-- The bot can read the repository, and `main` refuses its pushes and merges. -/
def checkBranch (repo : Str) : Body Unit := do
  let _ ← call .get (repoPath repo) []
  let branch ← call .get (repoPath repo ++ ("/branches/main" : Str)) []
  let isFalse (key : Str) : Bool := match branch.body.bind (Json.get? key) with
    | some (.bool value) => !value
    | _ => false
  if Service.isTrue branch ("protected" : Str) && isFalse ("user_can_push" : Str) &&
      isFalse ("user_can_merge" : Str) then pure ()
  else
    let said := [("protected" : Str), ("user_can_push" : Str), ("user_can_merge" : Str)].map
      (spelled branch.body)
    fail (("the bot could push to or merge main of " : Str) ++ repo ++ (" (" : Str) ++
      join (", " : Str) said ++ (")" : Str))

/-- `_prove_sign`: the installed sign pair signs. -/
def proveSign (tenant : Str) : Body Unit := do
  let _ ← logIn
  let signature ← callField .post (("/v1/transit/sign/request-token-" : Str) ++ tenant) []
    [("data" : Str), ("signature" : Str)]
  match signature with
  | .string (_ :: _) => pure ()
  | _ => fail ("the sign proof answered no signature" : Str)

/-- What `_install_under_lock` does once both secret files are written. -/
def proveAndRecord (tenant : Str) (generation : Generation) (repo : Str)
    (accessor signAccessor path signPath : Str) : Body Unit := do
  let _ ← logIn
  let _ ← mint generation.oidcRole
  checkBranch repo
  proveSign tenant
  commitNext
    { step := none, actor := none
      updateGenerations := .ofList [(generation.salt,
        { wrappedSecret := .to none, secretAccessor := .to (some accessor),
          hostSecretFile := .to (some path), signWrappedSecret := .to none,
          signSecretAccessor := .to (some signAccessor),
          signSecretFile := .to (some signPath) })] }

/-- The files are written one after the other; a failure removes those that are there. -/
def installSecrets (tenant : Str) (generation : Generation) (repo : Str)
    (accessor signAccessor : Str) : Body Unit := do
  let path ← writeSecret [] accessor
  let signPath ← (writeSecret signFile signAccessor).onFailure (unlink path)
  (proveAndRecord tenant generation repo accessor signAccessor path signPath).onFailure (do
    unlink path
    unlink signPath)

def installUnderLock (tenant : Str) : Body Unit := do
  let found ← generations
  let generation ← onlyOne found .pending
  let held ← forgeWiring
  let wrapped := Service.isSet generation.wrappedSecret
  let signWrapped := Service.isSet generation.signWrappedSecret
  match held with
  | none => fail ("there is no wrapped secret or forge wiring to install" : Str)
  | some wiring =>
    if wrapped && !signWrapped then do
      let _ ← commit { step := some .wrap, actor := some .service }
      pure ()
    else if !wrapped || !signWrapped then
      fail ("there is no wrapped secret or forge wiring to install" : Str)
    else do
      let (_, accessor) ← unwrap ("delivery" : Str)
      let (_, signAccessor) ← unwrap ("sign" : Str)
      installSecrets tenant generation wiring.repo accessor signAccessor

/-- `_install`: any failure restarts at `wrap`. -/
def install (config : Config) (tenant : Str) : Body Unit :=
  (underHostLock config false (installUnderLock tenant)).mapFailure fun failed =>
    { text := failed.text, restart := some rewrap }

/-- The files `_drop_unrecorded_secrets` keeps: those a generation not destroyed records. -/
def recordedFiles (generations : List Generation) : List Str :=
  (generations.filter (·.status ≠ .destroyed)).flatMap fun held =>
    (held.hostSecretFile.toList ++ held.signSecretFile.toList).filter (!·.isEmpty)

def readSecret (path : Str) : Body Str := do
  match ← act (.readSecret path) with
  | some secret => pure secret
  | none => fail (("the secret file " : Str) ++ path ++ (" is empty" : Str))

/-- Whether a publish report reads `fresh <commit>`. -/
def isFresh (line : Str) : Bool :=
  match splitOn ' ' line with
  | [head, commit] => head = ("fresh" : Str) && !commit.isEmpty
  | _ => false

def ensureClone (path origin oidcRole : Str) : Body Unit := do
  match ← act (.existingClone origin) with
  | some _ => pure ()
  | none => do
    let _ ← readSecret path
    let _ ← logIn
    let _ ← mint oidcRole
    let _ ← act (.clone origin)
    pure ()

def prepareUnderLock (found : List Generation) (path origin oidcRole : Str) : Body Unit := do
  let _ ← act (.dropUnrecordedSecrets (recordedFiles found))
  ensureClone path origin oidcRole
  let _ ← act .learning
  let published ← act .publish
  let line := strip (published.getD [])
  if isFresh line then
    commitNext { step := none, actor := none }
  else
    fail (("the first publish answered " : Str) ++ reprWord line ++ (", not 'fresh <commit>'" : Str))

def prepare (config : Config) : Body Unit := do
  let found ← generations
  let generation ← onlyOne found .live
  let held ← forgeWiring
  match held, generation.hostSecretFile with
  | some wiring, some path =>
    underHostLock config true (prepareUnderLock found path wiring.origin generation.oidcRole)
  | _, _ => fail ("there is no forge wiring or installed secret to prepare with" : Str)

def removeOldFile (config : Config) : Body Unit := do
  let found ← generations
  underHostLock config false (do
    let _ ← act (.dropUnrecordedSecrets (recordedFiles found))
    pure ())
  let _ ← commit { step := none, actor := none, pendingAction := .to none }
  pure ()

def teardown : Body Unit := do
  let _ ← act .takeExclusive
  Program.ensure (do
    let _ ← act .removeTenantFiles
    commitNext { step := none, actor := none }) releaseLock

/-- `HostActor.steps`. -/
def steps (config : Config) (tenant : Str) : StepName → Option (Body Unit)
  | .install => some (install config tenant)
  | .prepare => some (prepare config)
  | .removeOldFile => some (removeOldFile config)
  | .teardown => some teardown
  | _ => none

end Host

/-- The body `_run` calls for a step: an actor without the step fails it. -/
def bodyOf (config : Config) (tenant : Str) (actor : StepActor) (step : StepName) : Body Unit :=
  let found := match actor with
    | .service => Service.steps config tenant step
    | .host => Host.steps config tenant step
    | .other _ => none
  found.getD (fail (("the " : Str) ++ actor.text ++ (" has no step " : Str) ++
    reprWord step.text))

end Defender.Lifecycle
