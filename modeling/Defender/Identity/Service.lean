import Defender.Identity.Memory
import Defender.Library.Programs

/-!
# The identity service

The requests of the API and the passes of the sender as programs over the repository, the
clock, the sign-in provider and the mail. Every operation may break, with or without its
effect; what breaks raises. Audit lines and logs are left out. An email's deadline is one
more way for an operation to break.
-/

namespace Defender.Identity

open Defender.Python Defender.Library.OrderedDict Defender.Library.Programs
open Defender.Tenancy (Time TenantState)

/-- `INVITATION_LIFETIME` and `SESSION_LIFETIME`. -/
def lifetime : Time := 7 * 24 * 60 * 60 * second

/-- `_SEND_HOLD`. -/
def sendHold : Time := 5 * 60 * second

/-- `_RETRY_FIRST` and `_RETRY_LAST`. -/
def retryFirst : Time := 30 * second

def retryLast : Time := 60 * 60 * second

inductive CallbackReason where
  | preloginMissing | loginAttemptInvalid | unknownAccount | otpRequired
  deriving DecidableEq, Repr

/-- What a request or a pass raises. -/
inductive Fault where
  | dataRule
  | broken
  | conflict
  | forbidden
  | notFound
  | callbackRefused (reason : CallbackReason)
  deriving DecidableEq, Repr

structure VerifiedSignIn where
  accountId : Str
  name : Str
  amr : List Str
  deriving DecidableEq, Repr

/-- The user of a set-password email is the one whose account it goes to. -/
inductive Email where
  | setPassword (user : UserId) (account : Str)
  | notification (address : Str) (tenant : TenantId) (invitation : MembershipId)
  deriving DecidableEq, Repr

inductive Operation where
  | repo (call : Call)
  | clock
  | createAccount (username : UserId) (email : Str) (setUpOtp : Bool)
  | send (email : Email)
  | hasOtp (account : Str)
  | requireOtpSetup (account : Str)
  | finishSignin (code verifier nonce : Str)
  | mintSessionValue

@[reducible] def Operation.Value : Operation → Type
  | .repo call => call.Answer
  | .clock => Time
  | .createAccount .. => Str
  | .send _ | .requireOtpSetup _ => Unit
  | .hasOtp _ => Bool
  | .finishSignin .. => Option VerifiedSignIn
  | .mintSessionValue => Str

@[reducible] def Operation.Answer (operation : Operation) : Type := Except Fault operation.Value

abbrev Flow := Program Operation Operation.Answer Fault

def ask (operation : Operation) : Flow operation.Value :=
  .perform operation fun answer =>
    match answer with
    | .ok value => .done value
    | .error why => .failed why

def repo (call : Call) : Flow call.Answer := ask (.repo call)

def refuseUnless (allowed : Bool) (why : Fault) : Flow Unit :=
  if allowed then .done () else .failed why

namespace Service

/-- What a request of an email asked for: the number is the repository's answer. -/
inductive Asked where
  | setPassword (user : UserId) (seq : Nat)
  | notification (invitation : MembershipId) (seq : Nat)
  deriving DecidableEq, Repr

def requestSend (user : User) (row : Membership) (now : Time) : Flow Asked :=
  if user.status = .invited then do
    let seq ← repo (.requestSetPassword user.id now)
    pure (.setPassword user.id seq)
  else do
    let seq ← repo (.requestNotification row.id now)
    pure (.notification row.id seq)

/-- The second half of `_invite`'s request: the kind a sign-in made the right one meanwhile. -/
def requestAgain (user : User) (row : Membership) (now : Time) (asked : Asked) :
    Option User → Flow Asked
  | some current => if current.status = user.status then pure asked else requestSend current row now
  | none => pure asked

structure InvitationView where
  id : MembershipId
  email : Str
  createdAt : Time
  deriving DecidableEq, Repr

/-- The view with what was asked for the person; nothing is for an administrator. -/
structure Invited where
  view : InvitationView
  asked : Option Asked
  deriving DecidableEq, Repr

def requestFor (user : User) (row : Membership) (now : Time) : Flow (Option Asked) :=
  if user.isPlatformAdmin then pure none
  else do
    let asked ← requestSend user row now
    let current ← repo (.user user.id)
    some <$> requestAgain user row now asked current

def inviteUser (user : User) (now : Time) :
    Option Membership → Flow Invited
  | none => .failed .conflict
  | some row => do
    let asked ← requestFor user row now
    pure { view := { id := row.id, email := user.email, createdAt := row.createdAt }, asked := asked }

/-- `_invite`. -/
def invitePerson (inviter : UserId) (tenant : TenantId) (email : Str) : Flow Invited := do
  let now ← ask .clock
  let user ← repo (.ensureUser email now)
  let expiresAt := if user.isPlatformAdmin then some (now + lifetime) else none
  let row ← repo (.ensureInvitation user.id tenant (some inviter) now expiresAt)
  inviteUser user now row

def adminInvite (administrator : Bool) (inviter : UserId) (tenant : TenantId) (email : Str) :
    Flow Invited := do
  refuseUnless administrator .forbidden
  let known ← repo (.tenantExists tenant)
  refuseUnless known .notFound
  let joined ← repo (.tenantHasActiveMembers tenant)
  refuseUnless (!joined) .conflict
  invitePerson inviter tenant email

def revokeFound (tenant : TenantId) (invitation : MembershipId) : Option Membership → Flow Unit
  | none => .failed .notFound
  | some row =>
    if row.tenantId = tenant then do
      let revoked ← repo (.revokeInvitation invitation)
      refuseUnless revoked .notFound
    else .failed .notFound

def revoke (tenant : TenantId) (invitation : MembershipId) : Flow Unit := do
  let row ← repo (.membership invitation)
  revokeFound tenant invitation row

def removeFound (actor : UserId) : Option Membership → Flow Unit
  | none => .failed .notFound
  | some row => do
    let now ← ask .clock
    let ended ← repo (.endMembership row.id (some actor) now)
    refuseUnless ended .notFound

def remove (actor : UserId) (tenant : TenantId) (user : UserId) : Flow Unit := do
  let row ← repo (.activeMembership user tenant)
  removeFound actor row

def acceptFound (caller : User) (invitation : MembershipId) : Option Membership → Flow TenantId
  | none => .failed .notFound
  | some row =>
    if row.userId = caller.id ∧ caller.isPlatformAdmin = false then do
      let known ← repo (.tenantExists row.tenantId)
      refuseUnless known .notFound
      let now ← ask .clock
      let accepted ← repo (.acceptInvitation invitation now)
      refuseUnless accepted .notFound
      pure row.tenantId
    else .failed .notFound

/-- The caller is as its request read it. -/
def accept (caller : User) (invitation : MembershipId) : Flow TenantId := do
  let row ← repo (.membership invitation)
  acceptFound caller invitation row

def endRow (now : Time) (row : Membership) : Flow Unit :=
  match row.status with
  | .active => do
    let _ ← repo (.endMembership row.id none now)
    pure ()
  | .invited => do
    let _ ← repo (.revokeInvitation row.id)
    pure ()
  | .ended | .revoked => pure ()

def endTenant (tenant : TenantId) (now : Time) : Flow Unit := do
  let rows ← repo (.membershipsOfTenant tenant)
  Program.forEach (endRow now) rows

def acceptKnown (row : Membership) (now : Time) (known : Bool) : Flow Unit :=
  if known then do
    let _ ← repo (.acceptInvitation row.id now)
    pure ()
  else pure ()

def acceptOpen (now : Time) (row : Membership) : Flow Unit :=
  if row.status = .invited then do
    let known ← repo (.tenantExists row.tenantId)
    acceptKnown row now known
  else pure ()

def acceptOpenInvitations (user : User) (now : Time) : Flow Unit := do
  let rows ← repo (.membershipsOfUser user.id)
  Program.forEach (acceptOpen now) rows

def requireOtp (account : Str) (has : Bool) : Flow Unit :=
  if has then pure () else ask (.requireOtpSetup account)

def checkOtp (user : User) (verified : VerifiedSignIn) : Flow Unit :=
  if user.isPlatformAdmin ∧ ("otp" : Str) ∉ verified.amr then do
    let has ← ask (.hasOtp verified.accountId)
    requireOtp verified.accountId has
    .failed (.callbackRefused .otpRequired)
  else pure ()

def afterActivation (user : User) (name : Str) (now : Time) (activated : Bool) : Flow Unit :=
  if activated then
    if user.isPlatformAdmin then pure () else acceptOpenInvitations user now
  else repo (.setDisplayName user.id name now)

def signInUser (verified : VerifiedSignIn) : Option User → Flow Str
  | none => .failed (.callbackRefused .unknownAccount)
  | some user => do
    checkOtp user verified
    let now ← ask .clock
    let activated ← repo (.activateUser user.id verified.name now)
    afterActivation user verified.name now activated
    let value ← ask .mintSessionValue
    let _ ← repo (.addSession value user.id now (now + lifetime) (("otp" : Str) ∈ verified.amr))
    pure value

def signInVerified : Option VerifiedSignIn → Flow Str
  | none => .failed (.callbackRefused .loginAttemptInvalid)
  | some verified => do
    let user ← repo (.userBySigninAccount verified.accountId)
    signInUser verified user

def completeSignin (code state : Str) (prelogin : Option Str) : Flow Str :=
  match splitOn '.' (prelogin.getD []) with
  | [expectedState, nonce, verifier] =>
    if expectedState = [] ∨ nonce = [] ∨ verifier = [] then
      .failed (.callbackRefused .preloginMissing)
    else if state = expectedState then do
      let verified ← ask (.finishSignin code verifier nonce)
      signInVerified verified
    else .failed (.callbackRefused .loginAttemptInvalid)
  | _ => .failed (.callbackRefused .preloginMissing)

/-- `_retry_at` after the clock's reading. -/
def retryAt (now : Time) (failedBefore : Nat) : Time :=
  now + min (retryFirst * 2 ^ failedBefore) retryLast

/-- The sender's loop for one kind of email, stopped after some rounds or when none is due. -/
def sendEach {Row : Type} (rowId : Row → Nat) (claim : Time → List Nat → Flow (Option Row))
    (send defer : Row → Flow Unit) : Nat → List Nat → Flow Unit
  | 0, _ => pure ()
  | rounds + 1, tried => do
    let now ← ask .clock
    let row ← claim now tried
    match row with
    | none => pure ()
    | some row => do
      (send row).rescue fun _ => defer row
      sendEach rowId claim send defer rounds (rowId row :: tried)

def signinAccount (user : User) : Flow Str :=
  match user.signinAccountId with
  | some account => pure account
  | none => do
    let account ← ask (.createAccount user.id user.email user.isPlatformAdmin)
    let _ ← repo (.recordSigninAccount user.id account)
    pure account

/-- `_still_wanted`; the listed emails are the bootstrap file's administrators. -/
def stillWanted (listed : List Str) (user : User) : Flow Bool :=
  if user.status = .invited then
    if user.email ∈ listed then pure true
    else do
      let rows ← repo (.membershipsOfUser user.id)
      pure (rows.any fun row => row.status == .invited)
  else pure false

def wantedNow (listed : List Str) : Option User → Flow Bool
  | none => pure false
  | some fresh => stillWanted listed fresh

def deliverSetPassword (user : User) (account : Str) (fresh : Option User) :
    Bool → Flow Unit
  | false => do
    let _ ← repo (.settleSetPassword user.id user.setPasswordRequestedSeq none none)
    pure ()
  | true => do
    ask (.send (.setPassword user.id ((fresh.bind User.signinAccountId).getD account)))
    let sent ← ask .clock
    let _ ← repo (.settleSetPassword user.id user.setPasswordRequestedSeq (some sent)
      (some (sent + lifetime)))
    pure ()

def sendSetPassword (listed : List Str) (user : User) : Flow Unit := do
  let account ← signinAccount user
  let fresh ← repo (.user user.id)
  let wanted ← wantedNow listed fresh
  deliverSetPassword user account fresh wanted

def deferSetPassword (user : User) : Flow Unit := do
  let now ← ask .clock
  repo (.deferSetPassword user.id (retryAt now user.setPasswordAttempts))

def freshUser : Option Membership → Flow (Option User)
  | none => pure none
  | some fresh => repo (.user fresh.userId)

def deliverNotification (row : Membership) : Option Membership → Option User → Flow Unit
  | some fresh, some user =>
    if fresh.status ≠ .invited ∨ user.isPlatformAdmin then do
      let _ ← repo (.settleNotification row.id row.notifyRequestedSeq none none)
      pure ()
    else do
      ask (.send (.notification user.email fresh.tenantId fresh.id))
      let sent ← ask .clock
      let _ ← repo (.settleNotification row.id row.notifyRequestedSeq (some sent)
        (some (sent + lifetime)))
      pure ()
  | _, _ => do
    let _ ← repo (.settleNotification row.id row.notifyRequestedSeq none none)
    pure ()

def sendNotification (row : Membership) : Flow Unit := do
  let fresh ← repo (.membership row.id)
  let user ← freshUser fresh
  deliverNotification row fresh user

def deferNotification (row : Membership) : Flow Unit := do
  let now ← ask .clock
  repo (.deferNotification row.id (retryAt now row.notifyAttempts))

/-- A pass of the sender; the rounds are how often each loop claims before it is stopped. -/
def sendPending (listed : List Str) (passwordRounds notificationRounds : Nat) : Flow Unit := do
  sendEach User.id (fun now tried => repo (.claimSetPassword now (now + sendHold) tried))
    (sendSetPassword listed) deferSetPassword passwordRounds []
  sendEach Membership.id (fun now tried => repo (.claimNotification now (now + sendHold) tried))
    sendNotification deferNotification notificationRounds []

end Service

end Defender.Identity
