import Defender.Library.OrderedDict
import Defender.Python.Text

/-!
# Tenancy records

The tenant row, its generations, its forge wiring and its publish status, as both
stores hand them out. A text column without a CHECK is a text; a column with one is
an enumeration, with `other` where a commit may carry a value that only the database
refuses. A state or pending action outside its table is refused by both stores, so
these two enumerations have no such case.
-/

namespace Defender.Tenancy

open Defender.Python Defender.Library.OrderedDict

inductive TenantState where
  | creating | active | offboarding | offboarded
  deriving DecidableEq, Repr

inductive PendingAction where
  | create | rotate | offboard | deleteRepo
  deriving DecidableEq, Repr

inductive StepActor where
  | service | host
  | other (name : Str)
  deriving DecidableEq, Repr

inductive StepName where
  | names | provider | repo | bot | protect | integration | template | wrap | install | sweep
  | prepare | activate | retire | removeOldFile | offboard | teardown | finish | deleteRepo
  | other (name : Str)
  deriving DecidableEq, Repr

inductive GenerationStatus where
  | pending | live | retiring | destroyed
  | other (name : Str)
  deriving DecidableEq, Repr

abbrev Time := Nat

/-- `ALLOWED_ACTIONS`: each state with the pending actions it allows. -/
def allowedActions : TenantState → List (Option PendingAction)
  | .creating => [some .create]
  | .active => [none, some .rotate]
  | .offboarding => [some .offboard]
  | .offboarded => [none, some .deleteRepo]

def TenantState.text : TenantState → Str
  | .creating => ("creating" : Str)
  | .active => ("active" : Str)
  | .offboarding => ("offboarding" : Str)
  | .offboarded => ("offboarded" : Str)

def PendingAction.text : PendingAction → Str
  | .create => ("create" : Str)
  | .rotate => ("rotate" : Str)
  | .offboard => ("offboard" : Str)
  | .deleteRepo => ("delete_repo" : Str)

def StepActor.text : StepActor → Str
  | .service => ("service" : Str)
  | .host => ("host" : Str)
  | .other name => name

def StepName.text : StepName → Str
  | .names => ("names" : Str)
  | .provider => ("provider" : Str)
  | .repo => ("repo" : Str)
  | .bot => ("bot" : Str)
  | .protect => ("protect" : Str)
  | .integration => ("integration" : Str)
  | .template => ("template" : Str)
  | .wrap => ("wrap" : Str)
  | .install => ("install" : Str)
  | .sweep => ("sweep" : Str)
  | .prepare => ("prepare" : Str)
  | .activate => ("activate" : Str)
  | .retire => ("retire" : Str)
  | .removeOldFile => ("remove_old_file" : Str)
  | .offboard => ("offboard" : Str)
  | .teardown => ("teardown" : Str)
  | .finish => ("finish" : Str)
  | .deleteRepo => ("delete_repo" : Str)
  | .other name => name

/-- The pair `_check_pair` and the CHECK `state_allows_pending_action` let through. -/
def allowedPair (state : TenantState) (pendingAction : Option PendingAction) : Bool :=
  pendingAction ∈ allowedActions state

def StepActor.known : StepActor → Bool
  | .service | .host => true
  | .other _ => false

def GenerationStatus.known : GenerationStatus → Bool
  | .pending | .live | .retiring | .destroyed => true
  | .other _ => false

def GenerationStatus.text : GenerationStatus → Str
  | .pending => ("pending" : Str)
  | .live => ("live" : Str)
  | .retiring => ("retiring" : Str)
  | .destroyed => ("destroyed" : Str)
  | .other name => name

structure TenantRecord where
  id : Str
  createdAt : Time
  state : TenantState
  pendingAction : Option PendingAction := none
  step : Option StepName := none
  stepActor : Option StepActor := none
  failure : Option Str := none
  repoUrl : Option Str := none
  offboardedAt : Option Time := none
  repoDeleteAfter : Option Time := none
  deriving DecidableEq, Repr

structure ForgeWiring where
  tenantId : Str
  repo : Str
  origin : Str
  deriving DecidableEq, Repr

structure Generation where
  tenantId : Str
  salt : Str
  status : GenerationStatus := .pending
  botLogin : Str
  oidcRole : Str
  approle : Str
  entity : Str
  integrationArgs : Option (List Str) := none
  roleId : Option Str := none
  audience : Option Str := none
  hostSecretFile : Option Str := none
  wrappedSecret : Option Str := none
  secretAccessor : Option Str := none
  signApprole : Option Str := none
  signEntity : Option Str := none
  signRoleId : Option Str := none
  signSecretFile : Option Str := none
  signWrappedSecret : Option Str := none
  signSecretAccessor : Option Str := none
  deriving DecidableEq, Repr

structure PublishStatus where
  recordedBy : Str
  published : Option Str
  refused : Option Str
  kind : Option Str
  deriving DecidableEq, Repr

/-- Everything one tenant has in the store. -/
structure TenantRows where
  record : TenantRecord
  generations : List Generation := []
  wiring : Option ForgeWiring := none
  publish : Option PublishStatus := none
  deriving DecidableEq, Repr

def saltsOf (generations : List Generation) : List Str := generations.map Generation.salt

def liveOf (generations : List Generation) : List Generation :=
  generations.filter (·.status = .live)

/-- A column a commit leaves as it is (`KEEP`, or a field not named), or the value it writes. -/
inductive Change (Value : Type) where
  | keep
  | to (value : Value)
  deriving DecidableEq, Repr

def Change.over {Value : Type} (change : Change Value) (held : Value) : Value :=
  match change with
  | .keep => held
  | .to value => value

def Change.written {Value : Type} : Change Value → List Value
  | .keep => []
  | .to value => [value]

/-- The fields a commit changes of one generation; its key and its status have their own
keywords (`go_live`, `destroy`). -/
structure GenerationFields where
  botLogin : Change Str := .keep
  oidcRole : Change Str := .keep
  approle : Change Str := .keep
  entity : Change Str := .keep
  integrationArgs : Change (Option (List Str)) := .keep
  roleId : Change (Option Str) := .keep
  audience : Change (Option Str) := .keep
  hostSecretFile : Change (Option Str) := .keep
  wrappedSecret : Change (Option Str) := .keep
  secretAccessor : Change (Option Str) := .keep
  signApprole : Change (Option Str) := .keep
  signEntity : Change (Option Str) := .keep
  signRoleId : Change (Option Str) := .keep
  signSecretFile : Change (Option Str) := .keep
  signWrappedSecret : Change (Option Str) := .keep
  signSecretAccessor : Change (Option Str) := .keep
  deriving DecidableEq, Repr

def GenerationFields.apply (fields : GenerationFields) (generation : Generation) : Generation :=
  { generation with
    botLogin := fields.botLogin.over generation.botLogin
    oidcRole := fields.oidcRole.over generation.oidcRole
    approle := fields.approle.over generation.approle
    entity := fields.entity.over generation.entity
    integrationArgs := fields.integrationArgs.over generation.integrationArgs
    roleId := fields.roleId.over generation.roleId
    audience := fields.audience.over generation.audience
    hostSecretFile := fields.hostSecretFile.over generation.hostSecretFile
    wrappedSecret := fields.wrappedSecret.over generation.wrappedSecret
    secretAccessor := fields.secretAccessor.over generation.secretAccessor
    signApprole := fields.signApprole.over generation.signApprole
    signEntity := fields.signEntity.over generation.signEntity
    signRoleId := fields.signRoleId.over generation.signRoleId
    signSecretFile := fields.signSecretFile.over generation.signSecretFile
    signWrappedSecret := fields.signWrappedSecret.over generation.signWrappedSecret
    signSecretAccessor := fields.signSecretAccessor.over generation.signSecretAccessor }

section Apply

variable (fields : GenerationFields) (generation : Generation)

@[simp] theorem apply_salt : (fields.apply generation).salt = generation.salt := rfl

end Apply

/-- Which generations a commit marks destroyed: `ALL` not yet destroyed, or those named. -/
inductive Destroy where
  | all
  | named (salts : List Str)
  deriving DecidableEq, Repr

/-- The keywords of `HeldTenant.commit`. -/
structure Commit where
  step : Option StepName
  actor : Option StepActor
  state : Change TenantState := .keep
  pendingAction : Change (Option PendingAction) := .keep
  repoUrl : Change (Option Str) := .keep
  offboardedAt : Change (Option Time) := .keep
  repoDeleteAfter : Change (Option Time) := .keep
  addGeneration : Option Generation := none
  updateGenerations : Dict Str GenerationFields := .empty
  goLive : Option Str := none
  destroy : Destroy := .named []
  wiring : Option ForgeWiring := none
  dropWiring : Bool := false
  dropPublishStatus : Bool := false

def Commit.recordAfter (commit : Commit) (row : TenantRecord) : TenantRecord :=
  { row with
    step := commit.step
    stepActor := commit.actor
    failure := none
    state := commit.state.over row.state
    pendingAction := commit.pendingAction.over row.pendingAction
    repoUrl := commit.repoUrl.over row.repoUrl
    offboardedAt := commit.offboardedAt.over row.offboardedAt
    repoDeleteAfter := commit.repoDeleteAfter.over row.repoDeleteAfter }

def fenceHolds (row seen : TenantRecord) : Bool :=
  row.pendingAction = seen.pendingAction && row.step = seen.step &&
    row.stepActor = seen.stepActor && row.failure = none

/-- Whether `actor` may take up the tenant's current step now. -/
def claimableNow (record : TenantRecord) (actor : StepActor) (now : Time) : Bool :=
  record.pendingAction.isSome && record.stepActor = some actor && record.failure = none &&
    (record.pendingAction ≠ some .deleteRepo ||
      record.repoDeleteAfter.any fun due => decide (due ≤ now))

inductive Refusal where
  | fenceMissed (said : Str)
  | valueError (said : Str)
  | keyError (salt : Str)
  deriving DecidableEq, Repr

end Defender.Tenancy
