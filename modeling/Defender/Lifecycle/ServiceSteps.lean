import Defender.Lifecycle.Job

/-!
# The management service's steps

The bodies of the service's half of every tenant's job, in the order its class has them.
-/

namespace Defender.Lifecycle

open Defender.Python Defender.Tenancy Defender.Library.Programs
open Defender.Library.OrderedDict

/-- The settings a step's names and texts are made from; `teardownWait` as `:g` prints it. -/
structure Config where
  forgeUrl : Str
  issuerUrl : Str
  teardownWait : Str

namespace Service

section Names

def rstripSlash (text : Str) : Str := text.rdropWhile (· = '/')

def botName (tenant salt : Str) : Str :=
  ("bot-" : Str) ++ tenant.take 8 ++ ("-" : Str) ++ salt

/-- The name of both the OIDC role and the entity. -/
def chainName (tenant salt : Str) : Str := ("tenant-" : Str) ++ tenant ++ ("-" : Str) ++ salt

def deliveryName (tenant salt : Str) : Str :=
  ("delivery-" : Str) ++ tenant ++ ("-" : Str) ++ salt

def signApproleName (tenant salt : Str) : Str :=
  ("sign-" : Str) ++ tenant ++ ("-" : Str) ++ salt

def signEntityName (tenant salt : Str) : Str :=
  chainName tenant salt ++ ("-sign" : Str)

/-- `_sign_names`. -/
def signNames (tenant salt : Str) : GenerationFields where
  signApprole := .to (some (signApproleName tenant salt))
  signEntity := .to (some (signEntityName tenant salt))

def newGeneration (config : Config) (tenant salt repo : Str) : Generation :=
  { tenantId := tenant
    salt
    status := .pending
    botLogin := botName tenant salt
    oidcRole := chainName tenant salt
    approle := deliveryName tenant salt
    entity := chainName tenant salt
    signApprole := some (signApproleName tenant salt)
    signEntity := some (signEntityName tenant salt)
    integrationArgs := some [("--username" : Str), botName tenant salt, ("--name" : Str),
      ("defender-" : Str) ++ salt, ("--issuer" : Str), config.issuerUrl, ("--claim-eq" : Str),
      ("tenant_id=" : Str) ++ tenant, ("--scope" : Str), ("write:repository" : Str),
      ("--repo" : Str), repo] }

def wiringOf (config : Config) (tenant : Str) : ForgeWiring :=
  let repo := ("tenants/" : Str) ++ tenant
  { tenantId := tenant, repo,
    origin := rstripSlash config.forgeUrl ++ ("/" : Str) ++ repo ++ (".git" : Str) }

/-- `_names`: everything's name, committed before anything is made. -/
def names (config : Config) (tenant : Str) : Body Unit := do
  let held ← forgeWiring
  let wiring := held.getD (wiringOf config tenant)
  let salt ← tokenHex
  let record ← heldRecord
  let repoUrl := match record.repoUrl with
    | some (first :: rest) => first :: rest
    | _ => rstripSlash config.forgeUrl ++ ("/" : Str) ++ wiring.repo
  commitNext
    { step := none, actor := none
      addGeneration := some (newGeneration config tenant salt wiring.repo)
      wiring := some wiring
      repoUrl := .to (some repoUrl) }

def building : Body Generation := do
  let found ← generations
  onlyOne found .pending

def wiring : Body ForgeWiring := do
  match ← forgeWiring with
  | some held => pure held
  | none => fail ("the tenant has no forge wiring" : Str)

def commitHere (salt : Str) (fields : GenerationFields) : Body Unit := do
  let record ← heldRecord
  let _ ← commit
    { step := record.step, actor := some .service, updateGenerations := .ofList [(salt, fields)] }
  pure ()

end Names

section Provider

/-- `_with_sign_names`: a generation recorded before the sign login existed gets its names. -/
def withSignNames (tenant : Str) (generation : Generation) : Body Generation :=
  if generation.signApprole.isSome ∧ generation.signEntity.isSome then pure generation
  else do
    commitHere generation.salt (signNames tenant generation.salt)
    building

def approleAccessor : Body Str := do
  let mounts ← callField .get ("/v1/sys/auth" : Str) [] [("data" : Str)]
  match (mounts.get? ("approle/" : Str)).bind (Json.get? ("accessor" : Str)) with
  | none => fail ("OpenBao has no approle/ auth mount" : Str)
  | some accessor =>
    if truthy accessor then pure (textOf accessor)
    else fail ("OpenBao has no approle/ auth mount" : Str)

def approlePath (name : Str) : Str := ("/v1/auth/approle/role/" : Str) ++ name

/-- `_approle`: the AppRole written, and its role id. -/
def approle (name : Str) : Body Str := do
  let _ ← writeThing (.approle name)
  let roleId ← callField .get (approlePath name ++ ("/role-id" : Str)) []
    [("data" : Str), ("role_id" : Str)]
  pure (textOf roleId)

def itemsOf : Option Json → List Json
  | some (.array items) => items
  | _ => []

/-- `_entity`: the entity written, and aliased by the role id unless it is already. -/
def entity (name roleId accessor : Str) : Body Unit := do
  let _ ← writeThing (.entity name)
  let response ← readThing (.entity name) []
  let found ← fieldOf (lineOf .get ((Thing.entity name).path .get)) response [("data" : Str)]
  match (found.get? ("id" : Str)).filter truthy with
  | none => fail (("OpenBao answered no id for the entity " : Str) ++ name)
  | some _ =>
    let aliases := (itemsOf (found.get? ("aliases" : Str))).filter fun held =>
      ((held.get? ("mount_accessor" : Str)).map textOf) = some accessor
    if aliases.any fun held => ((held.get? ("name" : Str)).map textOf) = some roleId then
      pure ()
    else if !aliases.isEmpty then
      fail (("the entity " : Str) ++ name ++
        (" is aliased on the AppRole mount by another role id" : Str))
    else do
      let _ ← call .post ("/v1/identity/entity-alias" : Str) []
      pure ()

/-- A thing made when it reads as absent. -/
def ensureThing (thing : Thing) : Body Unit := do
  let found ← readThing thing [404]
  if found.status = 404 then do
    let _ ← writeThing thing
    pure ()
  else
    pure ()

/-- `_ensure_key`: the signing key, made only when absent. -/
def ensureKey (tenant : Str) : Body Unit := ensureThing (.signingKey tenant)

/-- `_destroy_key`: read, made deletable, deleted; absent is done. -/
def destroyKey (tenant : Str) : Body Unit := do
  let found ← readThing (.signingKey tenant) [404]
  if found.status = 404 then
    pure ()
  else do
    let _ ← call .post (keyPath tenant ++ ("/config" : Str)) []
    let _ ← removeThing (.signingKey tenant)
    pure ()

/-- `_sign_chain`: the sign-only AppRole, its entity and the tenant's key; the role id. -/
def signChain (tenant : Str) (generation : Generation) (accessor : Str) : Body Str := do
  let signRoleId ← approle (generation.signApprole.getD ("None" : Str))
  entity (generation.signEntity.getD ("None" : Str)) signRoleId accessor
  ensureKey tenant
  pure signRoleId

def writeRole (generation : Generation) : Body Unit := do
  let _ ← writeThing (.oidcRole generation.oidcRole)
  pure ()

def provider (tenant : Str) : Body Unit := do
  let pending ← building
  let generation ← withSignNames tenant pending
  writeRole generation
  let accessor ← approleAccessor
  let roleId ← approle generation.approle
  entity generation.entity roleId accessor
  let signRoleId ← signChain tenant generation accessor
  commitNext
    { step := none, actor := none
      updateGenerations := .ofList [(generation.salt,
        { roleId := .to (some roleId), signRoleId := .to (some signRoleId) })] }

end Provider

def isTrue (response : Response) (key : Str) : Bool :=
  match response.body.bind (Json.get? key) with
  | some (.bool value) => value
  | _ => false

/-- `_repo`: the private repository, made empty if absent. -/
def repo : Body Unit := do
  let held ← wiring
  let found ← call .get (repoPath held.repo) [404]
  if found.status = 404 then
    match splitOn '/' held.repo with
    | org :: _ :: _ => do
      let _ ← call .post (("/api/v1/orgs/" : Str) ++ org ++ ("/repos" : Str)) []
      commitNext { step := none, actor := none }
    | _ => fail ("ValueError: not enough values to unpack (expected 2, got 1)" : Str)
  else if isTrue found ("private" : Str) then
    commitNext { step := none, actor := none }
  else
    fail (("the repository " : Str) ++ held.repo ++ (" exists and is not private" : Str))

def loginsOf (page : Response) : List Str :=
  (itemsOf page.body).filterMap fun listed => match listed with
    | .object entries =>
      some (((Json.object entries).get? ("login" : Str)).elim ("None" : Str) textOf)
    | _ => none

/-- `_collaborators`: the logins of the pages, up to one that adds nobody. -/
def loginsOfPages (repo : Str) (found : List Str) : List Response → Except Failed (List Str)
  | [] => .ok found
  | page :: rest =>
    match page.body with
    | some (.array _) =>
      if (loginsOf page).all (· ∈ found) then .ok found
      else loginsOfPages repo (found ++ loginsOf page) rest
    | _ =>
      let said := ("the collaborators of " : Str) ++ repo ++ (" are not a list" : Str)
      .error { text := said }

def collaborators (repo : Str) : Body (List Str) :=
  .perform (.collaborators repo) fun answer => match answer with
    | .error said => fail said
    | .ok pages =>
      match loginsOfPages repo [] pages with
      | .ok found => .done found
      | .error why => .failed why

def collaboratorPath (repo login : Str) : Str :=
  repoPath repo ++ ("/collaborators/" : Str) ++ login

/-- `_bot`: the bot, made if absent, a collaborator beside the live one alone. -/
def bot : Body Unit := do
  let found ← generations
  let generation ← onlyOne found .pending
  let held ← wiring
  ensureThing (.bot generation.botLogin)
  let _ ← call .put (collaboratorPath held.repo generation.botLogin) []
  let keep := generation.botLogin :: (liveOf found).map Generation.botLogin
  let listed ← collaborators held.repo
  Program.forEach (fun login => do
    let _ ← call .delete (collaboratorPath held.repo login) [404]
    pure ()) (listed.filter fun login => !decide (login ∈ keep))
  commitNext { step := none, actor := none }

/-- `_integration`: the command with the recorded arguments, and the audience it printed. -/
def integration : Body Unit := do
  let generation ← building
  let ended ← .perform (.runIntegration (generation.integrationArgs.getD [])) orSaid
  if ended.returncode ≠ 0 then
    fail (("the integration command failed (exit " : Str) ++ decimalText ended.returncode ++
      ("): " : Str) ++ strip (ended.stderr ++ ended.stdout))
  else
    match (Json.loads ended.stdout).bind (Json.get? ("audience" : Str)) with
    | some (.string (first :: rest)) => do
      writeRole generation
      commitNext
        { step := none, actor := none
          updateGenerations := .ofList [(generation.salt,
            { audience := .to (some (first :: rest)) })] }
    | _ => fail ("the integration command printed no audience" : Str)

section Main

def owners : Str := ("Owners" : Str)

/-- `_rule`: the protection of `main` as it reads back. -/
def ruleOf (response : Response) (repo : Str) : Body Json :=
  let named (key : Str) : Bool :=
    (response.body.bind (Json.get? key)).map textOf = some ("main" : Str)
  match response.body with
  | some (.object entries) =>
    if named ("rule_name" : Str) || named ("branch_name" : Str) then pure (.object entries)
    else fail (("the protection of main on " : Str) ++ repo ++ (" does not read back" : Str))
  | _ => fail (("the protection of main on " : Str) ++ repo ++ (" does not read back" : Str))

def namesIn (rule : Json) (key : Str) : List Str := (itemsOf (rule.get? key)).map textOf

/-- `_breaks_invariant`: what of the invariant of `main` the rule breaks. -/
def breaksInvariant (rule : Json) (bots : List Str) : Option Str :=
  let is (key : Str) (value : Bool) : Bool := match rule.get? key with
    | some (.bool held) => held = value
    | _ => false
  let on := (namesIn rule ("merge_whitelist_usernames" : Str)).filter (· ∈ bots)
  let teams := namesIn rule ("merge_whitelist_teams" : Str)
  if !is ("enable_push" : Str) false then some (spelled (some rule) ("enable_push" : Str))
  else if !is ("enable_merge_whitelist" : Str) true then
    some (spelled (some rule) ("enable_merge_whitelist" : Str))
  else if !decide (owners ∈ teams) then
    some (("merge_whitelist_teams=" : Str) ++ @reprList asciiDatabase teams ++
      (", without " : Str) ++ owners)
  else if !on.isEmpty then
    some (("the bot logins " : Str) ++ @reprList asciiDatabase (sorted (dedup on)) ++
      (" on the merge whitelist" : Str))
  else none

def mendMain (repo rules : Str) (bots : List Str) (kept : Response) : Body Unit :=
  if kept.status = 404 then do
    let _ ← call .post rules []
    pure ()
  else do
    let rule ← ruleOf kept repo
    match breaksInvariant rule bots with
    | none => pure ()
    | some _ => do
      let _ ← call .patch (rules ++ ("/main" : Str)) []
      pure ()

/-- `_protect_main`: `main`'s rule made or mended, then read back. -/
def protectMain (held : ForgeWiring) : Body Unit := do
  let found ← generations
  let bots := found.map Generation.botLogin
  let rules := repoPath held.repo ++ ("/branch_protections" : Str)
  let kept ← call .get (rules ++ ("/main" : Str)) [404]
  mendMain held.repo rules bots kept
  let stored ← call .get (rules ++ ("/main" : Str)) []
  let rule ← ruleOf stored held.repo
  match breaksInvariant rule bots with
  | none => pure ()
  | some broken => fail (("the protection of main on " : Str) ++ held.repo ++
      (" reads back with " : Str) ++ broken)

/-- `_await_main`: `main` waited for, a bounded number of tries. -/
def awaitMain (repo : Str) : Nat → Body Unit
  | 0 => fail (repo ++ (" is still empty after the template push" : Str))
  | tries + 1 => do
    let found ← call .get (repoPath repo) []
    if isTrue found ("empty" : Str) then do
      let _ ← act .sleep
      awaitMain repo tries
    else
      pure ()

def mainWaitTries : Nat := 40

/-- `_bot_jwt`: the bot's JWT, through a short-lived secret id of the recorded AppRole. -/
def botJwt (generation : Generation) : Body Str := do
  let _ ← callField .post (approlePath generation.approle ++ ("/secret-id" : Str)) []
    [("data" : Str), ("secret_id" : Str)]
  let _ ← logIn
  mint generation.oidcRole

def pushIfEmpty (generation : Generation) (origin : Str) (found : Response) : Body Unit :=
  if isTrue found ("empty" : Str) then do
    let _ ← botJwt generation
    let _ ← act (.pushTemplate origin)
    pure ()
  else
    pure ()

def template : Body Unit := do
  let generation ← building
  let held ← wiring
  let found ← call .get (repoPath held.repo) []
  pushIfEmpty generation held.origin found
  awaitMain held.repo mainWaitTries
  protectMain held
  commitNext { step := none, actor := none }

def protect : Body Unit := do
  let held ← wiring
  protectMain held
  commitNext { step := none, actor := none }

end Main

def wrappedSecret (approle : Str) : Body Str := do
  let token ← callField .post (approlePath approle ++ ("/secret-id" : Str)) []
    [("wrap_info" : Str), ("token" : Str)]
  pure (textOf token)

/-- The sign chain of a generation that `provider` left without one. -/
def withSignChain (tenant : Str) (generation : Generation) : Body Generation :=
  if generation.signRoleId.isSome then pure generation
  else do
    let named ← withSignNames tenant generation
    let accessor ← approleAccessor
    let signRoleId ← signChain tenant named accessor
    commitHere named.salt { signRoleId := .to (some signRoleId) }
    building

def wrap (tenant : Str) : Body Unit := do
  let held ← wiring
  protectMain held
  let pending ← building
  let generation ← withSignChain tenant pending
  let wrapped ← wrappedSecret generation.approle
  let signWrapped ← wrappedSecret (generation.signApprole.getD ("None" : Str))
  commitNext
    { step := none, actor := none
      updateGenerations := .ofList [(generation.salt,
        { wrappedSecret := .to (some wrapped), signWrappedSecret := .to (some signWrapped) })] }

/-- The secret ids a listing answered; an absent AppRole has none. -/
def keysOf (path : Str) (listed : Response) : Body Json :=
  if listed.status = 404 then pure (.array [])
  else fieldOf (lineOf .get path) listed [("data" : Str), ("keys" : Str)]

/-- `_sweep_secret_ids`: every secret id of the AppRole but the kept one destroyed. -/
def sweepSecretIds (approle keep : Str) : Body Unit := do
  let path := approlePath approle ++ ("/secret-id" : Str)
  let listed ← call .get path [404]
  let keys ← keysOf path listed
  Program.forEach (fun _ => do
    let _ ← call .post (approlePath approle ++ ("/secret-id-accessor/destroy" : Str)) [404]
    pure ()) (((itemsOf (some keys)).map textOf).filter (· ≠ keep))

def isSet : Option Str → Bool
  | some (_ :: _) => true
  | _ => false

def sweep : Body Unit := do
  let generation ← building
  if !isSet generation.secretAccessor then
    fail ("the host recorded no installed secret" : Str)
  else if !isSet generation.signApprole || !isSet generation.signSecretAccessor then do
    let _ ← commit { step := some .wrap, actor := some .service }
    pure ()
  else do
    sweepSecretIds generation.approle (generation.secretAccessor.getD [])
    sweepSecretIds (generation.signApprole.getD []) (generation.signSecretAccessor.getD [])
    commitNext { step := none, actor := none, goLive := some generation.salt }

def activate : Body Unit := do
  let _ ← commit
    { step := none, actor := none, state := .to .active, pendingAction := .to none }
  pure ()

section Revocation

def repoOf : Body (Option Str) := do
  let held ← forgeWiring
  pure (held.map ForgeWiring.repo)

/-- What `_revoke` deletes of a generation on OpenBao. -/
def grantsOf (generation : Generation) : List Thing :=
  [.oidcRole generation.oidcRole, .approle generation.approle, .entity generation.entity] ++
    (generation.signApprole.map Thing.approle).toList ++
    (generation.signEntity.map Thing.entity).toList

def removeAll (things : List Thing) : Body Unit :=
  Program.forEach (fun thing => do
    let _ ← removeThing thing
    pure ()) things

def dropCollaborator (repo : Option Str) (login : Str) : Body Unit :=
  match repo with
  | none => pure ()
  | some repo => do
    let _ ← call .delete (collaboratorPath repo login) [404]
    pure ()

/-- The bot, off the tenant repo, when it still exists. -/
def botLeft (repo : Option Str) (login : Str) : Body (List Str) := do
  let user ← readThing (.bot login) [404]
  if user.status = 404 then pure []
  else do
    dropCollaborator repo login
    pure [login]

/-- `_revoke`: everything that grants access goes; the bots that still exist. -/
def revoke (repo : Option Str) : List Generation → Body (List Str)
  | [] => pure []
  | generation :: rest => do
    let here ← botLeft repo generation.botLogin
    removeAll (grantsOf generation)
    let others ← revoke repo rest
    pure (here ++ others)

/-- `_delete_bots`. -/
def deleteBots (bots : List Str) : Body Unit := removeAll (bots.map Thing.bot)

def destroy (generations : List Generation) (repo : Option Str) : Body Unit := do
  let bots ← revoke repo generations
  deleteBots bots

def retire : Body Unit := do
  let found ← generations
  let old := found.filter (·.status = .retiring)
  let repo ← repoOf
  destroy old repo
  commitNext { step := none, actor := none, destroy := .named (old.map Generation.salt) }

def archive (repo : Option Str) : Body Unit :=
  match repo with
  | none => pure ()
  | some repo => do
    let _ ← call .patch (repoPath repo) [404]
    pure ()

def offboard (tenant : Str) : Body Unit := do
  let now ← clock
  let _ ← act (.endTenant now)
  let repo ← repoOf
  let found ← generations
  let bots ← revoke repo (found.filter (·.status ≠ .destroyed))
  destroyKey tenant
  archive repo
  deleteBots bots
  commitNext { step := none, actor := none, destroy := .all }

/-- `REPO_WINDOW`: thirty days, in microseconds. -/
def repoWindow : Time := 30 * 86400 * 1000000

def finish (tenant : Str) : Body Unit := do
  let found ← generations
  let repo ← repoOf
  let bots ← revoke repo found
  destroyKey tenant
  deleteBots bots
  let now ← clock
  let _ ← commit
    { step := some .deleteRepo, actor := some .service, state := .to .offboarded
      pendingAction := .to (some .deleteRepo), offboardedAt := .to (some now)
      repoDeleteAfter := .to (some (now + repoWindow)), dropPublishStatus := true }
  pure ()

def dropRepo (repo : Option Str) : Body Unit :=
  match repo with
  | none => pure ()
  | some repo => do
    let found ← call .get (repoPath repo) [404]
    if found.status = 404 then pure ()
    else do
      let _ ← call .delete (repoPath repo) [404]
      pure ()

def deleteRepo : Body Unit := do
  let repo ← repoOf
  let found ← generations
  destroy found repo
  dropRepo repo
  let _ ← commit
    { step := none, actor := none, pendingAction := .to none, repoUrl := .to none
      dropWiring := true }
  let _ ← act .auditEmit
  pure ()

end Revocation

/-- `ManagementService.steps`. -/
def steps (config : Config) (tenant : Str) : StepName → Option (Body Unit)
  | .names => some (names config tenant)
  | .provider => some (provider tenant)
  | .repo => some repo
  | .bot => some bot
  | .protect => some protect
  | .integration => some integration
  | .template => some template
  | .wrap => some (wrap tenant)
  | .sweep => some sweep
  | .activate => some activate
  | .retire => some retire
  | .offboard => some (offboard tenant)
  | .finish => some (finish tenant)
  | .deleteRepo => some deleteRepo
  | _ => none

end Service

end Defender.Lifecycle
