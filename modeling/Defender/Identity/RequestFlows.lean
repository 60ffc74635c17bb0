import Defender.Identity.SenderFlows

/-!
# What every request ends with

An offboarding ends with no active membership of its tenant left. An invitation returns
with what it asked for: by then a set-password request is for a person still `invited`, and
a notification for one who is active. The other requests leave nothing to know.
-/

namespace Defender.Identity

open Defender.Python Defender.Library.OrderedDict Defender.Library.Programs
open Defender.Library.Interference
open Defender.Tenancy (Time TenantState)
open MemoryRepository

def MemoryRepository.ended (store : MemoryRepository) (tenant : TenantId) : Prop :=
  store.isActive tenant = false ∧ ∀ id row, store.memberships.get? id = some row →
    row.tenantId = tenant → row.status ≠ .active

def EndKnown (tenant : TenantId) (remaining : List Membership) (shared : Shared) : Prop :=
  shared.store.isActive tenant = false ∧ ∀ id row, shared.store.memberships.get? id = some row →
    row.tenantId = tenant → row.status = .active →
    ∃ read ∈ remaining, read.id = id ∧ read.status = .active

/-- The request is recorded, for the invitation among those it was made for. -/
def PasswordAsked (user : UserId) (seq : Nat) (invitation : MembershipId) (shared : Shared) :
    Prop :=
  ∃ mark, shared.passwordMarks user seq = some mark ∧
    mark.rows ≤ shared.store.memberships.keys.length ∧
    invitation ∈ shared.store.memberships.keys.take mark.rows

def NotificationAsked (invitation : MembershipId) (seq : Nat) (shared : Shared) : Prop :=
  ∃ mark, shared.notificationMarks invitation seq = some mark

def Requested (user : User) (row : Membership) (shared : Shared) : Service.Asked → Prop
  | .setPassword id seq =>
    id = user.id ∧ user.status = .invited ∧ PasswordAsked id seq row.id shared
  | .notification id seq => id = row.id ∧ user.status = .active ∧ NotificationAsked id seq shared

def Standing (invitation : MembershipId) (asked : Option Service.Asked) (shared : Shared) :
    Prop :=
  ∃ row person, shared.store.memberships.get? invitation = some row ∧
    shared.store.users.get? row.userId = some person ∧ row.id = invitation ∧
    match asked with
    | none => person.isPlatformAdmin = true
    | some asked => Requested person row shared asked

def Finish.known : Finish → Shared → Prop
  | .invited returned, shared => Standing returned.view.id returned.asked shared
  | .ended tenant, shared => shared.store.ended tenant
  | .other, _ => True

section Lasting

variable {shared after : Shared}

theorem MemoryRepository.ended.later {tenant : TenantId} {store next : MemoryRepository}
    (ended : store.ended tenant) (grown : Grown store next) : next.ended tenant := by
  refine ⟨?_, ?_⟩
  · by_contra active
    have was := grown.tenants tenant (by simpa using active)
    rw [ended.1] at was
    contradiction
  · intro id row here same active
    rcases grown.actives id row here active with open_ | ⟨before, was, wasActive, alike⟩
    · rw [same, ended.1] at open_
      contradiction
    · exact ended.2 id before was (alike.trans same) wasActive

theorem EndKnown.later {tenant : TenantId} {remaining : List Membership}
    (known : EndKnown tenant remaining shared) (later : Later shared after) :
    EndKnown tenant remaining after := by
  refine ⟨?_, ?_⟩
  · by_contra active
    have was := later.grown.tenants tenant (by simpa using active)
    rw [known.1] at was
    contradiction
  · intro id row here same active
    rcases later.grown.actives id row here active with open_ | ⟨before, was, wasActive, alike⟩
    · rw [same, known.1] at open_
      contradiction
    · exact known.2 id before was (alike.trans same) wasActive

theorem PasswordAsked.later {user : UserId} {seq : Nat} {invitation : MembershipId}
    (asked : PasswordAsked user seq invitation shared) (later : Later shared after) :
    PasswordAsked user seq invitation after := by
  obtain ⟨mark, here, within, member⟩ := asked
  refine ⟨mark, later.passwordsKept user seq mark here,
    within.trans later.grown.keys.length_le, ?_⟩
  rw [mem_take_of_start later.grown.keys within]
  exact member

theorem Requested.later {user : User} {row : Membership} {asked : Service.Asked}
    (known : Requested user row shared asked) (later : Later shared after) :
    Requested user row after asked := by
  cases asked with
  | setPassword id seq => exact ⟨known.1, known.2.1, known.2.2.later later⟩
  | notification id seq =>
      obtain ⟨own, active, mark, here⟩ := known
      exact ⟨own, active, mark, later.notificationsKept id seq mark here⟩

end Lasting

theorem revoke_free (tenant : TenantId) (invitation : MembershipId) :
    FreeFlow (Service.revoke tenant invitation) := by
  refine (FreeFlow.ask rfl).bind ?_
  intro row
  unfold Service.revokeFound
  split
  · exact .failed _
  · split
    · exact (FreeFlow.ask rfl).bind fun revoked => .refuse revoked .notFound
    · exact .failed _

theorem remove_free (actor : UserId) (tenant : TenantId) (user : UserId) :
    FreeFlow (Service.remove actor tenant user) := by
  refine (FreeFlow.ask rfl).bind ?_
  intro row
  unfold Service.removeFound
  split
  · exact .failed _
  · refine (FreeFlow.ask rfl).bind ?_
    intro now
    exact (FreeFlow.ask rfl).bind fun ended => .refuse ended .notFound

theorem accept_free (caller : User) (invitation : MembershipId) :
    FreeFlow (Service.accept caller invitation) := by
  refine (FreeFlow.ask rfl).bind ?_
  intro row
  unfold Service.acceptFound
  split
  · exact .failed _
  · split
    · refine (FreeFlow.ask rfl).bind ?_
      intro known
      refine (FreeFlow.refuse known .notFound).bind ?_
      intro _
      refine (FreeFlow.ask rfl).bind ?_
      intro now
      refine (FreeFlow.ask rfl).bind ?_
      intro accepted
      exact (FreeFlow.refuse accepted .notFound).bind fun _ => .done _
    · exact .failed _

theorem accept_open_free (now : Time) (row : Membership) : FreeFlow (Service.acceptOpen now row) := by
  unfold Service.acceptOpen
  split
  · refine (FreeFlow.ask rfl).bind ?_
    intro known
    unfold Service.acceptKnown
    split
    · exact (FreeFlow.ask rfl).bind fun _ => .done ()
    · exact .done ()
  · exact .done ()

theorem check_otp_free (user : User) (verified : VerifiedSignIn) :
    FreeFlow (Service.checkOtp user verified) := by
  unfold Service.checkOtp
  split
  · refine (FreeFlow.ask rfl).bind ?_
    intro has
    have required : FreeFlow (Service.requireOtp verified.accountId has) := by
      unfold Service.requireOtp
      split
      · exact .done ()
      · exact .ask rfl
    exact required.bind fun _ => .failed _
  · exact .done ()

theorem after_activation_free (user : User) (name : Str) (now : Time) (activated : Bool) :
    FreeFlow (Service.afterActivation user name now activated) := by
  unfold Service.afterActivation
  split
  · split
    · exact .done ()
    · refine (FreeFlow.ask rfl).bind ?_
      intro rows
      exact .for_each rows (accept_open_free now)
  · exact .ask rfl

theorem sign_in_user_free (verified : VerifiedSignIn) (user : Option User) :
    FreeFlow (Service.signInUser verified user) := by
  unfold Service.signInUser
  split
  · exact .failed _
  · rename_i user
    refine (check_otp_free user verified).bind ?_
    intro _
    refine (FreeFlow.ask rfl).bind ?_
    intro now
    refine (FreeFlow.ask rfl).bind ?_
    intro activated
    refine (after_activation_free user verified.name now activated).bind ?_
    intro _
    refine (FreeFlow.ask rfl).bind ?_
    intro value
    exact (FreeFlow.ask rfl).bind fun _ => .done value

theorem complete_signin_free (code state : Str) (prelogin : Option Str) :
    FreeFlow (Service.completeSignin code state prelogin) := by
  unfold Service.completeSignin
  split
  · split
    · exact .failed _
    · split
      · refine (FreeFlow.ask rfl).bind ?_
        intro verified
        unfold Service.signInVerified
        split
        · exact .failed _
        · exact (FreeFlow.ask rfl).bind fun user => sign_in_user_free _ user
      · exact .failed _
  · exact .failed _

/-- The user and the row of an invitation on its way, as they were read. -/
structure Inviting (user : User) (row : Membership) (shared : Shared) : Prop where
  owner : row.userId = user.id
  knownUser : KnowsUser user shared
  knownRow : KnowsRow row shared

theorem Inviting.standing {user : User} {row : Membership} {shared : Shared}
    (inviting : Inviting user row shared) {asked : Option Service.Asked}
    (stands : ∀ person, shared.store.users.get? user.id = some person → UserGrown user person →
      match asked with
      | none => person.isPlatformAdmin = true
      | some asked => Requested person row shared asked) :
    Standing row.id asked shared := by
  obtain ⟨person, found, grown⟩ := inviting.knownUser
  obtain ⟨held, here, more⟩ := inviting.knownRow
  have owner : shared.store.users.get? held.userId = some person := by
    rw [more.user, inviting.owner]
    exact found
  refine ⟨held, person, here, owner, more.id, ?_⟩
  have known := stands person found grown
  cases asked with
  | none => exact known
  | some asked =>
      cases asked with
      | setPassword id seq =>
          exact ⟨known.1, known.2.1, by rw [more.id]; exact known.2.2⟩
      | notification id seq => exact ⟨known.1.trans more.id.symm, known.2⟩

variable [UnicodeDatabase] [SessionDigest]

section Ending

variable (tenant : TenantId) (now : Time)

theorem end_known_lasting (remaining : List Membership) :
    medium.Lasting (EndKnown tenant remaining) := fun _ _ later known => known.later later

theorem end_row_triple (row : Membership) (remaining : List Membership) :
    Triple medium.spec (EndKnown tenant (row :: remaining)) (Service.endRow now row)
      (fun _ => EndKnown tenant remaining) fun _ _ => True := by
  have skip : row.status ≠ .active → ∀ shared, EndKnown tenant (row :: remaining) shared →
      EndKnown tenant remaining shared := by
    intro unended shared known
    refine ⟨known.1, ?_⟩
    intro id held here same active
    obtain ⟨read, member, own, was⟩ := known.2 id held here same active
    rcases List.mem_cons.mp member with rfl | rest
    · exact absurd was unended
    · exact ⟨read, rest, own, was⟩
  unfold Service.endRow
  cases status : row.status with
  | active =>
      refine Triple.ignore ?_
      refine triple_repo rfl rfl (end_known_lasting tenant (row :: remaining)) ?_
      intro shared minted known sane value answer later kept
      have after := known.later later
      refine ⟨after.1, ?_⟩
      intro id held here same active
      obtain ⟨read, member, own, was⟩ := after.2 id held here same active
      rcases List.mem_cons.mp member with rfl | rest
      · subst own
        exact absurd active (end_membership_ends sane.sound read.id now here)
      · exact ⟨read, rest, own, was⟩
  | invited =>
      refine Triple.ignore ?_
      refine (triple_keeps rfl (end_known_lasting tenant (row :: remaining))).weaken
        (fun _ known => known) (fun _ shared known => ?_) fun _ _ _ => trivial
      exact skip (by simp [status]) shared known
  | ended => exact fun shared known => skip (by simp [status]) shared known
  | revoked => exact fun shared known => skip (by simp [status]) shared known

theorem end_tenant_triple :
    Triple medium.spec (fun shared => shared.store.isActive tenant = false)
      (Service.endTenant tenant now) (fun _ shared => shared.store.ended tenant)
      fun _ _ => True := by
  have left : medium.Lasting fun shared : Shared => shared.store.isActive tenant = false := by
    intro shared after later known
    by_contra active
    have was := later.grown.tenants tenant (by simpa using active)
    rw [known] at was
    contradiction
  have read : Triple medium.spec (fun shared => shared.store.isActive tenant = false)
      (repo (.membershipsOfTenant tenant)) (fun rows => EndKnown tenant rows)
      fun _ _ => True := by
    refine triple_repo rfl rfl left ?_
    intro shared minted known sane value answer _ _
    obtain rfl : shared.store.membershipsOfTenant tenant = value := Except.ok.inj answer
    refine ⟨known, ?_⟩
    intro id row here same active
    have member : row ∈ shared.store.memberships.values :=
      List.mem_map.mpr ⟨(id, row), (Dict.mem_entries_iff _ id row).mpr here, rfl⟩
    exact ⟨row, List.mem_filter.mpr ⟨member, by simp [same]⟩,
      sane.sound.rowIds id row here, active⟩
  refine read.bind ?_
  intro rows shared known
  refine holds_mono ?_ (fun _ _ _ => trivial) (holds_for_each (EndKnown tenant) rows
    (fun row remaining known here => end_row_triple tenant now row remaining known here) known)
  intro _ after last
  refine ⟨last.1, ?_⟩
  intro id row here same active
  obtain ⟨read, member, _⟩ := last.2 id row here same active
  exact absurd member List.not_mem_nil

end Ending

section Inviting

theorem inviting_lasting (user : User) (row : Membership) :
    medium.Lasting (Inviting user row) := fun shared after later known =>
  ⟨known.owner, knows_user_lasting user shared after later known.knownUser,
    knows_row_lasting row shared after later known.knownRow⟩

theorem ensure_user_triple (email : Str) (now : Time) :
    Triple medium.spec (fun _ => True) (repo (.ensureUser email now)) KnowsUser
      fun _ _ => True := by
  refine triple_repo rfl rfl true_lasting ?_
  intro shared minted _ sane user answer _ _
  exact ⟨user, ensure_user_held sane.sound (Prod.ext answer rfl), .refl user⟩

theorem ensure_invitation_triple (user : User) (tenant : TenantId) (inviter : Option UserId)
    (now : Time) (expiresAt : Option Time) :
    Triple medium.spec (KnowsUser user)
      (repo (.ensureInvitation user.id tenant inviter now expiresAt))
      (fun answer shared => ∀ row, answer = some row → Inviting user row shared)
      fun _ _ => True := by
  refine triple_repo rfl rfl (knows_user_lasting user) ?_
  rintro shared minted known sane value answer later _ row rfl
  obtain ⟨held, owner⟩ := ensure_invitation_held sane.sound (Prod.ext answer rfl)
  exact ⟨owner, knows_user_lasting user shared _ later known, row, held, .refl row⟩

/-- What a request asks for while the user may still move on. -/
theorem request_send_triple (user : User) (row : Membership) (now : Time) {known : Shared → Prop}
    (lasting : medium.Lasting known) (knows : ∀ shared, known shared → KnowsRow row shared) :
    Triple medium.spec known (Service.requestSend user row now)
      (fun asked shared => known shared ∧ Requested user row shared asked) fun _ _ => True := by
  unfold Service.requestSend
  split
  · rename_i invited
    have asked : Triple medium.spec known (repo (.requestSetPassword user.id now))
        (fun seq shared => known shared ∧ Requested user row shared (.setPassword user.id seq))
        fun _ _ => True := by
      refine triple_repo rfl rfl lasting ?_
      intro shared minted held sane seq answer later kept
      refine ⟨lasting shared _ later held, rfl, invited, ?_⟩
      obtain ⟨there, here, _⟩ := knows shared held
      have keys : (shared.called minted (.requestSetPassword user.id now)).store.memberships =
          shared.store.memberships := by
        change (shared.store.requestSetPassword user.id now).2.memberships = _
        unfold requestSetPassword
        split <;> rfl
      have marked : (shared.called minted (.requestSetPassword user.id now)).passwordMarks user.id
          seq = some shared.here := by
        simp only [Shared.called, answer, Shared.noted, mark]
        rw [if_pos ⟨trivial, trivial⟩]
      refine ⟨shared.here, marked, ?_, ?_⟩
      · rw [keys]
        simp [Shared.here, Dict.keys]
      · rw [keys, List.take_of_length_le (by simp [Shared.here, Dict.keys])]
        exact List.mem_map.mpr ⟨(row.id, there), (Dict.mem_entries_iff _ row.id there).mpr here, rfl⟩
    exact asked.bind fun seq shared held => held
  · rename_i uninvited
    have active : user.status = .active := by
      cases status : user.status with
      | invited => exact absurd status uninvited
      | active => rfl
    have asked : Triple medium.spec known (repo (.requestNotification row.id now))
        (fun seq shared => known shared ∧ Requested user row shared (.notification row.id seq))
        fun _ _ => True := by
      refine triple_repo rfl rfl lasting ?_
      intro shared minted held sane seq answer later kept
      refine ⟨lasting shared _ later held, rfl, active, shared.here, ?_⟩
      simp only [Shared.called, answer, Shared.noted, mark]
      rw [if_pos ⟨trivial, trivial⟩]
    exact asked.bind fun seq shared held => held

theorem request_again_triple (user : User) (row : Membership) (now : Time)
    (asked : Service.Asked) (current : Option User) :
    Triple medium.spec
      (fun shared => (Inviting user row shared ∧ Requested user row shared asked) ∧
        Sane shared ∧ shared.store.users.get? user.id = current)
      (Service.requestAgain user row now asked current)
      (fun asked shared => Standing row.id (some asked) shared) fun _ _ => True := by
  rintro shared ⟨⟨inviting, requested⟩, sane, read⟩
  obtain ⟨held, found, grown⟩ := inviting.knownUser
  cases current with
  | none =>
      rw [read] at found
      contradiction
  | some current =>
      obtain rfl : current = held := Option.some.inj (read.symm.trans found)
      unfold Service.requestAgain
      dsimp only
      split
      · rename_i same
        change Standing row.id (some asked) shared
        refine inviting.standing ?_
        intro person here more
        obtain rfl : current = person := Option.some.inj (found.symm.trans here)
        cases asked with
        | setPassword id seq =>
            exact ⟨requested.1.trans grown.id.symm, same.trans requested.2.1, requested.2.2⟩
        | notification id seq => exact ⟨requested.1, same.trans requested.2.1, requested.2.2⟩
      · rename_i moved
        have invited : user.status = .invited := by
          cases status : user.status with
          | invited => rfl
          | active => exact absurd ((grown.active status).trans status.symm) moved
        have active : current.status = .active := by
          cases status : current.status with
          | invited => exact absurd (status.trans invited.symm) moved
          | active => rfl
        have onward := request_send_triple current row now (inviting_lasting current row)
          fun _ known => known.knownRow
        have known : Inviting current row shared :=
          ⟨inviting.owner.trans grown.id.symm,
            ⟨current, by rw [grown.id]; exact read, .refl current⟩, inviting.knownRow⟩
        refine holds_mono ?_ (fun _ _ _ => trivial) (onward shared known)
        rintro asked after ⟨there, again⟩
        refine there.standing ?_
        intro person here more
        cases asked with
        | setPassword id seq =>
            have invited_ := again.2.1
            rw [active] at invited_
            contradiction
        | notification id seq => exact ⟨again.1, more.active active, again.2.2⟩

theorem request_for_triple (user : User) (row : Membership) (now : Time) :
    Triple medium.spec (Inviting user row) (Service.requestFor user row now)
      (fun asked shared => Standing row.id asked shared) fun _ _ => True := by
  unfold Service.requestFor
  split
  · rename_i administrator
    intro shared inviting
    change Standing row.id none shared
    refine inviting.standing ?_
    intro person _ grown
    exact grown.admin.trans administrator
  · refine (request_send_triple user row now (inviting_lasting user row)
      fun _ known => known.knownRow).bind ?_
    intro asked
    have both : medium.Lasting fun shared =>
        Inviting user row shared ∧ Requested user row shared asked :=
      Medium.lasting_and (inviting_lasting user row) fun _ _ later known => known.later later
    refine (triple_read_user user.id both).bind ?_
    intro current
    change Triple medium.spec _
      (Service.requestAgain user row now asked current >>= fun asked => pure (some asked)) _ _
    exact (request_again_triple user row now asked current).bind fun _ _ known => known

theorem invite_user_triple (user : User) (now : Time) (answer : Option Membership) :
    Triple medium.spec (fun shared => ∀ row, answer = some row → Inviting user row shared)
      (Service.inviteUser user now answer)
      (fun returned shared => Standing returned.view.id returned.asked shared)
      fun _ _ => True := by
  cases answer with
  | none => exact fun _ _ => trivial
  | some row =>
      have asked : Triple medium.spec
          (fun shared => ∀ other, some row = some other → Inviting user other shared)
          (Service.requestFor user row now) (fun asked shared => Standing row.id asked shared)
          fun _ _ => True :=
        (request_for_triple user row now).weaken (fun _ known => known row rfl)
          (fun _ _ known => known) fun _ _ _ => trivial
      exact asked.bind fun _ _ known => known

theorem invite_person_triple (inviter : UserId) (tenant : TenantId) (email : Str) :
    Triple medium.spec (fun _ => True) (Service.invitePerson inviter tenant email)
      (fun returned shared => Standing returned.view.id returned.asked shared)
      fun _ _ => True := by
  have clock : Triple medium.spec (fun _ => True) (ask .clock) (fun _ _ => True)
      fun _ _ => True := triple_keeps rfl true_lasting
  refine clock.bind ?_
  intro now
  refine (ensure_user_triple email now).bind ?_
  intro user
  refine (ensure_invitation_triple user tenant (some inviter) now _).bind ?_
  intro answer
  exact invite_user_triple user now answer

theorem admin_invite_triple (administrator : Bool) (inviter : UserId) (tenant : TenantId)
    (email : Str) :
    Triple medium.spec (fun _ => True) (Service.adminInvite administrator inviter tenant email)
      (fun returned shared => Standing returned.view.id returned.asked shared)
      fun _ _ => True := by
  refine ((FreeFlow.refuse administrator .forbidden).triple true_lasting).bind ?_
  intro _
  refine (triple_keeps rfl true_lasting).bind ?_
  intro known
  refine ((FreeFlow.refuse known .notFound).triple true_lasting).bind ?_
  intro _
  refine (triple_keeps rfl true_lasting).bind ?_
  intro joined
  refine ((FreeFlow.refuse (!joined) .conflict).triple true_lasting).bind ?_
  intro _
  exact invite_person_triple inviter tenant email

end Inviting

section Requests

variable {listed : List Str}

theorem finish_triple {Result : Type} {program : Flow Result} {before : Shared → Prop}
    {post : Result → Shared → Prop} (last : Result → Finish)
    (checked : Triple medium.spec before program post fun _ _ => True)
    (ends : ∀ result shared, post result shared → (last result).known shared) :
    Triple medium.spec before (program >>= fun result => pure (last result)) Finish.known
      fun _ _ => True :=
  checked.bind ends

theorem other_triple {Result : Type} {program : Flow Result} (free : FreeFlow program) :
    Triple medium.spec (fun _ => True) (program >>= fun _ => pure Finish.other) Finish.known
      fun _ _ => True :=
  finish_triple (fun _ => .other) (free.triple true_lasting) fun _ _ _ => trivial

theorem request_assured (request : Request) {shared : Shared}
    (starts : request.mayStart shared.store = true) :
    medium.Assured Finish.known (request.flow listed) shared := by
  cases request with
  | invite inviter tenant email =>
      exact finish_triple Finish.invited (invite_person_triple inviter tenant email)
        (fun _ _ known => known) shared trivial
  | adminInvite administrator inviter tenant email =>
      exact finish_triple Finish.invited (admin_invite_triple administrator inviter tenant email)
        (fun _ _ known => known) shared trivial
  | revoke tenant invitation =>
      exact other_triple (revoke_free tenant invitation) shared trivial
  | remove actor tenant user =>
      exact other_triple (remove_free actor tenant user) shared trivial
  | accept caller invitation =>
      exact other_triple (accept_free caller invitation) shared trivial
  | signIn code state prelogin =>
      exact other_triple (complete_signin_free code state prelogin) shared trivial
  | sendPending passwordRounds notificationRounds =>
      exact finish_triple (fun _ => .other)
        (send_pending_triple listed passwordRounds notificationRounds) (fun _ _ _ => trivial)
        shared trivial
  | endTenant tenant now =>
      have inactive : shared.store.isActive tenant = false := by
        simpa [Request.mayStart] using starts
      exact finish_triple (fun _ => .ended tenant) (end_tenant_triple tenant now)
        (fun _ _ known => known) shared inactive

end Requests

end Defender.Identity
