import Defender.Tenancy.Records

/-!
# The in-memory identity repository

Each operation is a function of what is stored, with its answer or refusal. It never
yields partway, so it applies whole; a refused one changes nothing.

Users, memberships and sessions as both stores hand them out, and the operations of the
repository port with what each answers. An id is its UUID read as a number. Every write
that the data rules refuse is one refusal, whatever its text.
-/

namespace Defender.Identity

open Defender.Python Defender.Library.OrderedDict
open Defender.Tenancy (Time TenantState)

abbrev UserId := Nat

abbrev MembershipId := Nat

abbrev TenantId := Str

inductive UserStatus where
  | invited | active
  deriving DecidableEq, Repr

inductive MembershipStatus where
  | invited | active | ended | revoked
  deriving DecidableEq, Repr

/-- `_LIVE`. -/
def MembershipStatus.live : MembershipStatus → Bool
  | .invited | .active => true
  | .ended | .revoked => false

structure User where
  id : UserId
  email : Str
  displayName : Str := []
  status : UserStatus := .invited
  signinAccountId : Option Str := none
  isPlatformAdmin : Bool := false
  setPasswordRequestedSeq : Nat := 0
  setPasswordSentSeq : Nat := 0
  setPasswordRequestedAt : Option Time := none
  setPasswordSentAt : Option Time := none
  setPasswordAttempts : Nat := 0
  setPasswordNextTryAt : Option Time := none
  createdAt : Time
  updatedAt : Time
  activatedAt : Option Time := none
  deriving DecidableEq, Repr

structure Membership where
  id : MembershipId
  userId : UserId
  tenantId : TenantId
  status : MembershipStatus
  invitedBy : Option UserId
  createdAt : Time
  notifyRequestedSeq : Nat := 0
  notifySentSeq : Nat := 0
  notifyRequestedAt : Option Time := none
  notifiedAt : Option Time := none
  notifyAttempts : Nat := 0
  notifyNextTryAt : Option Time := none
  expiresAt : Option Time := none
  acceptedAt : Option Time := none
  endedAt : Option Time := none
  endedBy : Option UserId := none
  deriving DecidableEq, Repr

structure Session where
  tokenHash : Str
  userId : UserId
  usedOtp : Bool
  createdAt : Time
  lastSeenAt : Time
  expiresAt : Time
  deriving DecidableEq, Repr

/-- `DataRuleViolation`. -/
inductive Refusal where
  | dataRule
  deriving DecidableEq, Repr

def postgresCanHold (text : Str) : Bool := !text.contains (Char.ofNat 0)

def normalizeEmail [UnicodeDatabase] (raw : Str) : Except Refusal Str :=
  let email := lower (strip raw)
  if email = [] then .error .dataRule
  else if postgresCanHold email then .ok email
  else .error .dataRule

/-- `User.new` for an `invited` user, which normalizes the email once more. -/
def User.new [UnicodeDatabase] (id : UserId) (email : Str) (createdAt : Time) :
    Except Refusal User :=
  (normalizeEmail email).map fun email =>
    { id := id, email := email, createdAt := createdAt, updatedAt := createdAt }

def second : Time := 1000000

/-- `TOUCH_AFTER`. -/
def touchAfter : Time := 5 * 60 * second

/-- The lowercase hex SHA-256 of a session value. -/
class SessionDigest where
  sessionHash : Str → Str

/-- For the tests. -/
@[reducible] def plainDigest : SessionDigest where
  sessionHash value := value

/-- The operations of `IdentityRepository`. -/
inductive Call where
  | tenantExists (tenant : TenantId)
  | activeTenants (tenants : List TenantId)
  | tenantHasActiveMembers (tenant : TenantId)
  | ensureUser (email : Str) (now : Time)
  | user (user : UserId)
  | userByEmail (email : Str)
  | userBySigninAccount (account : Str)
  | platformAdmins
  | recordSigninAccount (user : UserId) (account : Str)
  | activateUser (user : UserId) (displayName : Str) (now : Time)
  | setDisplayName (user : UserId) (displayName : Str) (now : Time)
  | setPlatformAdmin (user : UserId) (flag : Bool)
  | ensureInvitation (user : UserId) (tenant : TenantId) (invitedBy : Option UserId) (now : Time)
      (expiresAt : Option Time)
  | acceptInvitation (membership : MembershipId) (now : Time)
  | endMembership (membership : MembershipId) (endedBy : Option UserId) (now : Time)
  | revokeInvitation (membership : MembershipId)
  | membership (membership : MembershipId)
  | membershipsOfUser (user : UserId)
  | membershipsOfTenant (tenant : TenantId)
  | peopleOfTenant (tenant : TenantId) (status : MembershipStatus)
  | activeMembership (user : UserId) (tenant : TenantId)
  | requestSetPassword (user : UserId) (now : Time)
  | requestNotification (membership : MembershipId) (now : Time)
  | claimSetPassword (now holdUntil : Time) (skip : List UserId)
  | claimNotification (now holdUntil : Time) (skip : List MembershipId)
  | deferSetPassword (user : UserId) (nextTry : Time)
  | deferNotification (membership : MembershipId) (nextTry : Time)
  | settleSetPassword (user : UserId) (readSeq : Nat) (sentAt expiresAt : Option Time)
  | settleNotification (membership : MembershipId) (readSeq : Nat) (sentAt expiresAt : Option Time)
  | addSession (value : Str) (user : UserId) (now expiresAt : Time) (usedOtp : Bool)
  | sessionByValue (value : Str)
  | deleteSession (value : Str)
  | touchSession (value : Str) (now : Time)
  | purgeExpiredSessions (now idleSince : Time)
  deriving DecidableEq, Repr

/-- What a call answers when it is not refused. -/
@[reducible] def Call.Answer : Call → Type
  | .tenantExists _ | .tenantHasActiveMembers _ | .recordSigninAccount .. | .activateUser ..
  | .acceptInvitation .. | .endMembership .. | .revokeInvitation _ | .settleSetPassword ..
  | .settleNotification .. | .deleteSession _ | .touchSession .. => Bool
  | .activeTenants _ => List TenantId
  | .ensureUser .. => User
  | .user _ | .userByEmail _ | .userBySigninAccount _ | .claimSetPassword .. => Option User
  | .platformAdmins => List User
  | .setDisplayName .. | .setPlatformAdmin .. | .deferSetPassword .. | .deferNotification .. => Unit
  | .ensureInvitation .. | .membership _ | .activeMembership .. | .claimNotification .. =>
    Option Membership
  | .membershipsOfUser _ | .membershipsOfTenant _ => List Membership
  | .peopleOfTenant .. => List (Membership × User)
  | .requestSetPassword .. | .requestNotification .. | .purgeExpiredSessions .. => Nat
  | .addSession .. => Session
  | .sessionByValue _ => Option Session

structure MemoryRepository where
  tenants : Dict TenantId TenantState := Dict.empty
  users : Dict UserId User := Dict.empty
  byEmail : Dict Str UserId := Dict.empty
  byAccount : Dict Str UserId := Dict.empty
  memberships : Dict MembershipId Membership := Dict.empty
  sessions : Dict Str Session := Dict.empty

namespace MemoryRepository

variable (store : MemoryRepository)

def isActive (tenant : TenantId) : Bool := store.tenants.get? tenant == some .active

def tenantHasActiveMembers (tenant : TenantId) : Bool :=
  store.memberships.values.any fun row => row.tenantId == tenant && row.status == .active

/-- `_new_user` for an email that no user has. -/
def newUser [UnicodeDatabase] (email : Str) (createdAt : Time) (minted : UserId) :
    Except Refusal User × MemoryRepository :=
  match User.new minted email createdAt with
  | .error why => (.error why, store)
  | .ok user =>
    (.ok user, { store with
      users := store.users.set user.id user, byEmail := store.byEmail.set email user.id })

def ensureUser [UnicodeDatabase] (email : Str) (now : Time) (minted : UserId) :
    Except Refusal User × MemoryRepository :=
  match normalizeEmail email with
  | .error why => (.error why, store)
  | .ok email =>
    match (store.byEmail.get? email).bind store.users.get? with
    | some existing => (.ok existing, store)
    | none => store.newUser email now minted

def userByEmail [UnicodeDatabase] (email : Str) : Except Refusal (Option User) :=
  (normalizeEmail email).map fun email => (store.byEmail.get? email).bind store.users.get?

def userBySigninAccount (account : Str) : Option User :=
  (store.byAccount.get? account).bind store.users.get?

def platformAdmins : List User := store.users.values.filter User.isPlatformAdmin

/-- `_update_user` of a user that is there. -/
def putUser (user : User) : MemoryRepository :=
  { store with users := store.users.set user.id user }

def recordSigninAccount (user : UserId) (account : Str) : Bool × MemoryRepository :=
  match store.users.get? user with
  | none => (false, store)
  | some found =>
    if found.signinAccountId.isSome || store.byAccount.contains account then (false, store)
    else
      (true, { store.putUser { found with signinAccountId := some account } with
        byAccount := store.byAccount.set account user })

def activateUser (user : UserId) (displayName : Str) (now : Time) : Bool × MemoryRepository :=
  match store.users.get? user with
  | none => (false, store)
  | some found =>
    if found.status = .invited then
      (true, store.putUser { found with
        status := .active, activatedAt := some now, displayName := displayName, updatedAt := now })
    else (false, store)

def setDisplayName (user : UserId) (displayName : Str) (now : Time) : MemoryRepository :=
  match store.users.get? user with
  | none => store
  | some found =>
    if found.displayName = displayName then store
    else store.putUser { found with displayName := displayName, updatedAt := now }

def setPlatformAdmin (user : UserId) (flag : Bool) : MemoryRepository :=
  match store.users.get? user with
  | none => store
  | some found => store.putUser { found with isPlatformAdmin := flag }

def liveRow (user : UserId) (tenant : TenantId) : Option Membership :=
  store.memberships.values.find? fun row =>
    row.userId == user && row.tenantId == tenant && row.status.live

/-- `_refuse_dangling`. -/
def dangling (user : UserId) (tenant : TenantId) : Bool :=
  !store.users.contains user || !store.tenants.contains tenant

/-- `_refuse_unknown_actor`: an actor is a user, or nobody for the system. -/
def unknownActor (actor : Option UserId) : Bool :=
  actor.any fun actor => !store.users.contains actor

/-- `_update_membership` of a row that is there, and `_insert_membership` of a new one. -/
def putMembership (row : Membership) : MemoryRepository :=
  { store with memberships := store.memberships.set row.id row }

def newInvitation (user : UserId) (tenant : TenantId) (invitedBy : Option UserId) (now : Time)
    (expiresAt : Option Time) (minted : MembershipId) : Membership :=
  { id := minted, userId := user, tenantId := tenant, status := .invited, invitedBy := invitedBy,
    createdAt := now, expiresAt := expiresAt }

def ensureInvitation (user : UserId) (tenant : TenantId) (invitedBy : Option UserId) (now : Time)
    (expiresAt : Option Time) (minted : MembershipId) :
    Except Refusal (Option Membership) × MemoryRepository :=
  if store.dangling user tenant then (.error .dataRule, store)
  else
    match store.liveRow user tenant with
    | some live => (.ok (if live.status = .active then none else some live), store)
    | none =>
      if store.unknownActor invitedBy then (.error .dataRule, store)
      else
        let row := newInvitation user tenant invitedBy now expiresAt minted
        (.ok (some row), store.putMembership row)

def expired (row : Membership) (now : Time) : Bool := row.expiresAt.any (· ≤ now)

def acceptInvitation (membership : MembershipId) (now : Time) : Bool × MemoryRepository :=
  match store.memberships.get? membership with
  | none => (false, store)
  | some row =>
    if row.status = .invited ∧ expired row now = false ∧ store.isActive row.tenantId then
      (true, store.putMembership { row with status := .active, acceptedAt := some now })
    else (false, store)

def endMembership (membership : MembershipId) (endedBy : Option UserId) (now : Time) :
    Except Refusal Bool × MemoryRepository :=
  match store.memberships.get? membership with
  | none => (.ok false, store)
  | some row =>
    if row.status = .active then
      if store.unknownActor endedBy then (.error .dataRule, store)
      else
        (.ok true, store.putMembership
          { row with status := .ended, endedAt := some now, endedBy := endedBy })
    else (.ok false, store)

def revokeInvitation (membership : MembershipId) : Bool × MemoryRepository :=
  match store.memberships.get? membership with
  | none => (false, store)
  | some row =>
    if row.status = .invited then (true, store.putMembership { row with status := .revoked })
    else (false, store)

def membershipsOfUser (user : UserId) : List Membership :=
  store.memberships.values.filter fun row => row.userId == user

def membershipsOfTenant (tenant : TenantId) : List Membership :=
  store.memberships.values.filter fun row => row.tenantId == tenant

def peopleOfTenant (tenant : TenantId) (status : MembershipStatus) : List (Membership × User) :=
  ((store.membershipsOfTenant tenant).filter fun row => row.status == status).filterMap
    fun row => (store.users.get? row.userId).map fun user => (row, user)

def activeMembership (user : UserId) (tenant : TenantId) : Option Membership :=
  (store.liveRow user tenant).filter fun row => row.status == .active

def requestSetPassword (user : UserId) (now : Time) : Except Refusal Nat × MemoryRepository :=
  match store.users.get? user with
  | none => (.error .dataRule, store)
  | some found =>
    let seq := found.setPasswordRequestedSeq + 1
    (.ok seq, store.putUser { found with
      setPasswordRequestedSeq := seq, setPasswordRequestedAt := some now })

def requestNotification (membership : MembershipId) (now : Time) :
    Except Refusal Nat × MemoryRepository :=
  match store.memberships.get? membership with
  | none => (.error .dataRule, store)
  | some row =>
    let seq := row.notifyRequestedSeq + 1
    (.ok seq, store.putMembership { row with
      notifyRequestedSeq := seq, notifyRequestedAt := some now })

/-- `_due`. -/
def due (nextTryAt : Option Time) (now : Time) : Bool := nextTryAt.all (· ≤ now)

def setPasswordClaimable (user : User) : Bool :=
  user.status == .invited && decide (user.setPasswordSentSeq < user.setPasswordRequestedSeq)

def notificationClaimable (row : Membership) : Bool :=
  row.status == .invited && decide (row.notifySentSeq < row.notifyRequestedSeq)

def claimSetPassword (now holdUntil : Time) (skip : List UserId) :
    Option User × MemoryRepository :=
  match store.users.values.find? fun user =>
      setPasswordClaimable user && due user.setPasswordNextTryAt now && !skip.contains user.id with
  | none => (none, store)
  | some found =>
    let held := { found with setPasswordNextTryAt := some holdUntil }
    (some held, store.putUser held)

def claimNotification (now holdUntil : Time) (skip : List MembershipId) :
    Option Membership × MemoryRepository :=
  match store.memberships.values.find? fun row =>
      notificationClaimable row && due row.notifyNextTryAt now && !skip.contains row.id with
  | none => (none, store)
  | some found =>
    let held := { found with notifyNextTryAt := some holdUntil }
    (some held, store.putMembership held)

def deferSetPassword (user : UserId) (nextTry : Time) : MemoryRepository :=
  match store.users.get? user with
  | none => store
  | some found => store.putUser { found with
      setPasswordAttempts := found.setPasswordAttempts + 1, setPasswordNextTryAt := some nextTry }

def deferNotification (membership : MembershipId) (nextTry : Time) : MemoryRepository :=
  match store.memberships.get? membership with
  | none => store
  | some row => store.putMembership { row with
      notifyAttempts := row.notifyAttempts + 1, notifyNextTryAt := some nextTry }

/-- The `invited` rows of a user under a new expiry, when both times of the send are given. -/
def expireRows (user : UserId) (sentAt expiresAt : Option Time) : MemoryRepository :=
  match sentAt, expiresAt with
  | some _, some expiry =>
    (store.memberships.values.filter fun row =>
        row.userId == user && row.status == .invited).foldl
      (fun store row => store.putMembership { row with expiresAt := some expiry }) store
  | _, _ => store

def settleSetPassword (user : UserId) (readSeq : Nat) (sentAt expiresAt : Option Time) :
    Bool × MemoryRepository :=
  match store.users.get? user with
  | none => (false, store)
  | some found =>
    if found.setPasswordSentSeq < readSeq ∧ readSeq ≤ found.setPasswordRequestedSeq then
      (true, (store.putUser { found with
        setPasswordSentSeq := readSeq, setPasswordAttempts := 0, setPasswordNextTryAt := none,
        setPasswordSentAt := sentAt.or found.setPasswordSentAt }).expireRows user sentAt expiresAt)
    else (false, store)

/-- The row of a notification that was sent, or dropped. -/
def settledRow (row : Membership) (readSeq : Nat) (sentAt expiresAt : Option Time) : Membership :=
  { row with
    notifySentSeq := readSeq, notifyAttempts := 0, notifyNextTryAt := none,
    notifiedAt := sentAt.or row.notifiedAt,
    expiresAt :=
      if sentAt.isSome ∧ row.status = .invited then expiresAt.or row.expiresAt else row.expiresAt }

def settleNotification (membership : MembershipId) (readSeq : Nat)
    (sentAt expiresAt : Option Time) : Bool × MemoryRepository :=
  match store.memberships.get? membership with
  | none => (false, store)
  | some row =>
    if row.notifySentSeq < readSeq ∧ readSeq ≤ row.notifyRequestedSeq then
      (true, store.putMembership (settledRow row readSeq sentAt expiresAt))
    else (false, store)

section Sessions

variable [SessionDigest]

def addSession (value : Str) (user : UserId) (now expiresAt : Time) (usedOtp : Bool) :
    Except Refusal Session × MemoryRepository :=
  let hash := SessionDigest.sessionHash value
  if store.users.contains user = false ∨ store.sessions.contains hash then
    (.error .dataRule, store)
  else
    let row : Session :=
      { tokenHash := hash, userId := user, usedOtp := usedOtp, createdAt := now, lastSeenAt := now,
        expiresAt := expiresAt }
    (.ok row, { store with sessions := store.sessions.set hash row })

def sessionByValue (value : Str) : Option Session :=
  store.sessions.get? (SessionDigest.sessionHash value)

def deleteSession (value : Str) : Bool × MemoryRepository :=
  let hash := SessionDigest.sessionHash value
  (store.sessions.contains hash, { store with sessions := store.sessions.erase hash })

def touchSession (value : Str) (now : Time) : Bool × MemoryRepository :=
  match store.sessionByValue value with
  | none => (false, store)
  | some row =>
    if now ≤ row.lastSeenAt + touchAfter then (false, store)
    else
      (true, { store with sessions :=
        store.sessions.set (SessionDigest.sessionHash value) { row with lastSeenAt := now } })

end Sessions

def refusedSession (now idleSince : Time) (row : Session) : Bool :=
  row.expiresAt ≤ now || row.lastSeenAt < idleSince

def purgeExpiredSessions (now idleSince : Time) : Nat × MemoryRepository :=
  let gone := (store.sessions.entries.filter fun entry =>
    refusedSession now idleSince entry.2).map Prod.fst
  (gone.length, { store with sessions := gone.foldl Dict.erase store.sessions })

def run [UnicodeDatabase] [SessionDigest] (minted : Nat) : (call : Call) → MemoryRepository →
    Except Refusal call.Answer × MemoryRepository
  | .tenantExists tenant, store => (.ok (store.isActive tenant), store)
  | .activeTenants tenants, store => (.ok ((dedup tenants).filter store.isActive), store)
  | .tenantHasActiveMembers tenant, store => (.ok (store.tenantHasActiveMembers tenant), store)
  | .ensureUser email now, store => store.ensureUser email now minted
  | .user user, store => (.ok (store.users.get? user), store)
  | .userByEmail email, store => (store.userByEmail email, store)
  | .userBySigninAccount account, store => (.ok (store.userBySigninAccount account), store)
  | .platformAdmins, store => (.ok store.platformAdmins, store)
  | .recordSigninAccount user account, store => (store.recordSigninAccount user account).map .ok id
  | .activateUser user name now, store => (store.activateUser user name now).map .ok id
  | .setDisplayName user name now, store => (.ok (), store.setDisplayName user name now)
  | .setPlatformAdmin user flag, store => (.ok (), store.setPlatformAdmin user flag)
  | .ensureInvitation user tenant invitedBy now expiresAt, store =>
    store.ensureInvitation user tenant invitedBy now expiresAt minted
  | .acceptInvitation membership now, store => (store.acceptInvitation membership now).map .ok id
  | .endMembership membership endedBy now, store => store.endMembership membership endedBy now
  | .revokeInvitation membership, store => (store.revokeInvitation membership).map .ok id
  | .membership membership, store => (.ok (store.memberships.get? membership), store)
  | .membershipsOfUser user, store => (.ok (store.membershipsOfUser user), store)
  | .membershipsOfTenant tenant, store => (.ok (store.membershipsOfTenant tenant), store)
  | .peopleOfTenant tenant status, store => (.ok (store.peopleOfTenant tenant status), store)
  | .activeMembership user tenant, store => (.ok (store.activeMembership user tenant), store)
  | .requestSetPassword user now, store => store.requestSetPassword user now
  | .requestNotification membership now, store => store.requestNotification membership now
  | .claimSetPassword now hold skip, store => (store.claimSetPassword now hold skip).map .ok id
  | .claimNotification now hold skip, store => (store.claimNotification now hold skip).map .ok id
  | .deferSetPassword user nextTry, store => (.ok (), store.deferSetPassword user nextTry)
  | .deferNotification membership nextTry, store =>
    (.ok (), store.deferNotification membership nextTry)
  | .settleSetPassword user readSeq sentAt expiresAt, store =>
    (store.settleSetPassword user readSeq sentAt expiresAt).map .ok id
  | .settleNotification membership readSeq sentAt expiresAt, store =>
    (store.settleNotification membership readSeq sentAt expiresAt).map .ok id
  | .addSession value user now expiresAt usedOtp, store =>
    store.addSession value user now expiresAt usedOtp
  | .sessionByValue value, store => (.ok (store.sessionByValue value), store)
  | .deleteSession value, store => (store.deleteSession value).map .ok id
  | .touchSession value now, store => (store.touchSession value now).map .ok id
  | .purgeExpiredSessions now idleSince, store =>
    (store.purgeExpiredSessions now idleSince).map .ok id

end MemoryRepository

end Defender.Identity
