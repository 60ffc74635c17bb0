import Defender.Identity.Service
import Defender.Library.Interference

/-!
# Requests and sender passes side by side

What the running programs share: what is stored, the emails sent so far, and where each
request of an email stood when it was recorded. The marks are a record for the statements;
no program reads them. A reaction is what the outside does at one operation.
-/

namespace Defender.Identity

open Defender.Python Defender.Library.OrderedDict Defender.Library.Programs
open Defender.Library.Interference
open Defender.Tenancy (Time TenantState)

/-- How many emails had been sent, and how many memberships there were. -/
structure Mark where
  position : Nat
  rows : Nat
  deriving DecidableEq, Repr

structure Shared where
  store : MemoryRepository
  outbox : List Email := []
  passwordMarks : UserId → Nat → Option Mark := fun _ _ => none
  notificationMarks : MembershipId → Nat → Option Mark := fun _ _ => none

def mark (marks : Nat → Nat → Option Mark) (id seq : Nat) (here : Mark) :
    Nat → Nat → Option Mark :=
  fun other number => if other = id ∧ number = seq then some here else marks other number

namespace Shared

def here (shared : Shared) : Mark :=
  { position := shared.outbox.length, rows := shared.store.memberships.entries.length }

def noted (shared : Shared) : (call : Call) → Except Refusal call.Answer → Shared
  | .requestSetPassword user _, .ok seq =>
    { shared with passwordMarks := mark shared.passwordMarks user seq shared.here }
  | .requestNotification membership _, .ok seq =>
    { shared with
      notificationMarks := mark shared.notificationMarks membership seq shared.here }
  | _, _ => shared

end Shared

inductive Fate where
  | works | lost | breaks
  deriving DecidableEq, Repr

structure Reaction where
  fate : Fate := .works
  minted : Nat := 0
  time : Time := 0
  text : Str := []
  flag : Bool := false
  verified : Option VerifiedSignIn := none

/-- An id no row has. -/
def MemoryRepository.fresh (store : MemoryRepository) (minted : Nat) : Prop :=
  store.users.contains minted = false ∧ store.memberships.contains minted = false

instance (store : MemoryRepository) (minted : Nat) : Decidable (store.fresh minted) := by
  unfold MemoryRepository.fresh
  infer_instance

section Performing

variable [UnicodeDatabase] [SessionDigest]

def answered {Value : Type} : Except Refusal Value → Except Fault Value
  | .ok value => .ok value
  | .error .dataRule => .error .dataRule

def effect : (operation : Operation) → Reaction → Shared → operation.Answer × Shared
  | .repo call, reaction, shared =>
    let reached := shared.store.run reaction.minted call
    (answered reached.1, { shared.noted call reached.1 with store := reached.2 })
  | .clock, reaction, shared => (.ok reaction.time, shared)
  | .createAccount .., reaction, shared => (.ok reaction.text, shared)
  | .send email, _, shared => (.ok (), { shared with outbox := shared.outbox ++ [email] })
  | .hasOtp _, reaction, shared => (.ok reaction.flag, shared)
  | .requireOtpSetup _, _, shared => (.ok (), shared)
  | .finishSignin .., reaction, shared => (.ok reaction.verified, shared)
  | .mintSessionValue, reaction, shared => (.ok reaction.text, shared)

def perform (operation : Operation) (reaction : Reaction) (shared : Shared) :
    operation.Answer × Shared :=
  match reaction.fate with
  | .works => effect operation reaction shared
  | .lost => (.error .broken, (effect operation reaction shared).2)
  | .breaks => (.error .broken, shared)

end Performing

/-- What the API or the background loop starts. -/
inductive Request where
  | invite (inviter : UserId) (tenant : TenantId) (email : Str)
  | adminInvite (administrator : Bool) (inviter : UserId) (tenant : TenantId) (email : Str)
  | revoke (tenant : TenantId) (invitation : MembershipId)
  | remove (actor : UserId) (tenant : TenantId) (user : UserId)
  | accept (caller : User) (invitation : MembershipId)
  | signIn (code state : Str) (prelogin : Option Str)
  | sendPending (passwordRounds notificationRounds : Nat)
  | endTenant (tenant : TenantId) (now : Time)

inductive Finish where
  | invited (invited : Service.Invited)
  | ended (tenant : TenantId)
  | other
  deriving DecidableEq, Repr

def Request.flow (listed : List Str) : Request → Flow Finish
  | .invite inviter tenant email => do
    let invited ← Service.invitePerson inviter tenant email
    pure (.invited invited)
  | .adminInvite administrator inviter tenant email => do
    let invited ← Service.adminInvite administrator inviter tenant email
    pure (.invited invited)
  | .revoke tenant invitation => do
    Service.revoke tenant invitation
    pure .other
  | .remove actor tenant user => do
    Service.remove actor tenant user
    pure .other
  | .accept caller invitation => do
    let _ ← Service.accept caller invitation
    pure .other
  | .signIn code state prelogin => do
    let _ ← Service.completeSignin code state prelogin
    pure .other
  | .sendPending passwordRounds notificationRounds => do
    Service.sendPending listed passwordRounds notificationRounds
    pure .other
  | .endTenant tenant now => do
    Service.endTenant tenant now
    pure (.ended tenant)

/-- Whether the request may start: the job ends a tenant's people once it has left `active`. -/
def Request.mayStart (store : MemoryRepository) : Request → Bool
  | .endTenant tenant _ => !store.isActive tenant
  | _ => true

structure System where
  pool : Pool Operation Operation.Answer Fault Shared Finish
  finished : List Finish := []

inductive Event where
  | start (request : Request)
  | go (index : Nat) (reaction : Reaction)
  | leave (tenant : TenantId) (state : TenantState)

namespace System

/-- A system before anything was started. -/
def opened (store : MemoryRepository) : System :=
  { pool := { state := { store := store }, programs := [] } }

def finish : Flow Finish → List Finish
  | .done finish => [finish]
  | .failed _ | .perform .. => []

def left (store : MemoryRepository) (tenant : TenantId) (state : TenantState) : MemoryRepository :=
  if store.isActive tenant ∧ state ≠ .active then
    { store with tenants := store.tenants.set tenant state }
  else store

variable [UnicodeDatabase] [SessionDigest] (listed : List Str)

def go (system : System) (index : Nat) (reaction : Reaction) : System :=
  match system.pool.programs[index]? with
  | some (.perform operation next) =>
    if system.pool.state.store.fresh reaction.minted then
      let reached := perform operation reaction system.pool.state
      { pool := { state := reached.2, programs := system.pool.programs.set index (next reached.1) },
        finished := system.finished ++ finish (next reached.1) }
    else system
  | _ => system

def step (system : System) : Event → System
  | .start request =>
    if request.mayStart system.pool.state.store then
      { system with pool := { system.pool with
        programs := system.pool.programs ++ [request.flow listed] } }
    else system
  | .go index reaction => system.go index reaction
  | .leave tenant state =>
    { system with pool := { system.pool with
      state := { system.pool.state with store := left system.pool.state.store tenant state } } }

def run (system : System) (events : List Event) : System :=
  events.foldl (step listed) system

end System

end Defender.Identity
