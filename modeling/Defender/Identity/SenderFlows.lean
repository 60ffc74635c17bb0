import Defender.Identity.FlowRules

/-!
# A pass of the sender among the others

A pass settles a request only after its email is out, or once it has seen that nothing
is left for it: the person is active, or no invitation of theirs is open. Marks that were
left before the claim stand before everything the pass does.
-/

namespace Defender.Identity

open Defender.Python Defender.Library.OrderedDict Defender.Library.Programs
open Defender.Library.Interference
open Defender.Tenancy (Time TenantState)
open MemoryRepository

/-- The requests of the user up to a number are recorded and before everything sent now. -/
structure PasswordClaimed (user : UserId) (seq : Nat) (shared : Shared) : Prop where
  known : ∃ held, shared.store.users.get? user = some held ∧ seq ≤ held.setPasswordRequestedSeq
  marked : ∀ number mark, number ≤ seq → shared.passwordMarks user number = some mark →
    mark.position ≤ shared.outbox.length ∧ mark.rows ≤ shared.store.memberships.keys.length

/-- And each was followed by an email, or needs none. -/
structure PasswordCovered (user : UserId) (seq : Nat) (shared : Shared) : Prop
    extends PasswordClaimed user seq shared where
  covered : ∀ number mark held, number ≤ seq → shared.passwordMarks user number = some mark →
    shared.store.users.get? user = some held → held.status = .invited →
    mark.sentSince held shared.outbox ∨ mark.allClosed user shared.store

structure NotificationClaimed (invitation : MembershipId) (seq : Nat) (shared : Shared) :
    Prop where
  known : ∃ row owner, shared.store.memberships.get? invitation = some row ∧
    shared.store.users.get? row.userId = some owner ∧ seq ≤ row.notifyRequestedSeq
  marked : ∀ number mark, number ≤ seq → shared.notificationMarks invitation number = some mark →
    mark.position ≤ shared.outbox.length

structure NotificationCovered (invitation : MembershipId) (seq : Nat) (shared : Shared) : Prop
    extends NotificationClaimed invitation seq shared where
  covered : ∀ number mark row person, number ≤ seq →
    shared.notificationMarks invitation number = some mark →
    shared.store.memberships.get? invitation = some row → row.status = .invited →
    shared.store.users.get? row.userId = some person → person.isPlatformAdmin = false →
    mark.sentSince person shared.outbox

section Lasting

variable {shared after : Shared}

theorem PasswordClaimed.later {user : UserId} {seq : Nat}
    (claimed : PasswordClaimed user seq shared) (later : Later shared after) :
    PasswordClaimed user seq after := by
  obtain ⟨held, found, within⟩ := claimed.known
  obtain ⟨next, there, more⟩ := later.grown.users user held found
  refine ⟨⟨next, there, within.trans more.requested⟩, ?_⟩
  intro number mark before here
  obtain ⟨position, rows⟩ := claimed.marked number mark before
    (later.passwordsFixed user held number mark found (before.trans within) here)
  exact ⟨position.trans later.outbox.length_le, rows.trans later.grown.keys.length_le⟩

theorem PasswordCovered.later {user : UserId} {seq : Nat}
    (covered : PasswordCovered user seq shared) (later : Later shared after) :
    PasswordCovered user seq after := by
  refine ⟨covered.toPasswordClaimed.later later, ?_⟩
  intro number mark next before here there opened
  obtain ⟨held, found, within⟩ := covered.known
  obtain ⟨other, again, more⟩ := later.grown.users user held found
  obtain rfl : other = next := Option.some.inj (again.symm.trans there)
  have earlier := later.passwordsFixed user held number mark found (before.trans within) here
  have still : held.status = .invited := by
    cases status : held.status with
    | invited => rfl
    | active => rw [more.active status] at opened; contradiction
  rcases covered.covered number mark held before earlier found still with sent | closed
  · exact .inl (sent.grown later.outbox more)
  · exact .inr (closed.grown later.grown (covered.marked number mark before earlier).2)

theorem NotificationClaimed.later {invitation : MembershipId} {seq : Nat}
    (claimed : NotificationClaimed invitation seq shared) (later : Later shared after) :
    NotificationClaimed invitation seq after := by
  obtain ⟨row, owner, found, owns, within⟩ := claimed.known
  obtain ⟨next, there, more⟩ := later.grown.rows invitation row found
  obtain ⟨person, held, _⟩ := later.grown.users row.userId owner owns
  refine ⟨⟨next, person, there, more.user ▸ held, within.trans more.requested⟩, ?_⟩
  intro number mark before here
  exact (claimed.marked number mark before (later.notificationsFixed invitation row number mark
    found (before.trans within) here)).trans later.outbox.length_le

theorem NotificationCovered.later {invitation : MembershipId} {seq : Nat}
    (covered : NotificationCovered invitation seq shared) (later : Later shared after) :
    NotificationCovered invitation seq after := by
  refine ⟨covered.toNotificationClaimed.later later, ?_⟩
  intro number mark next person before here there opened owner plain
  obtain ⟨row, owns, found, held, within⟩ := covered.known
  obtain ⟨other, again, more⟩ := later.grown.rows invitation row found
  obtain rfl : other = next := Option.some.inj (again.symm.trans there)
  obtain ⟨grownUp, was, person_more⟩ := later.grown.users row.userId owns held
  obtain rfl : grownUp = person := by
    rw [more.user, was] at owner
    exact Option.some.inj owner
  have earlier := later.notificationsFixed invitation row number mark found
    (before.trans within) here
  exact (covered.covered number mark row owns before earlier found (more.invited opened) held
    (person_more.admin ▸ plain)).grown later.outbox person_more

theorem PasswordClaimed.newest (sane : Sane shared) {user : UserId} {held : User}
    (found : shared.store.users.get? user = some held) :
    PasswordClaimed user held.setPasswordRequestedSeq shared := by
  refine ⟨⟨held, found, le_rfl⟩, ?_⟩
  intro number mark _ here
  obtain ⟨position, rows, _⟩ := sane.traced.passwords user number mark here
  exact ⟨position, rows⟩

theorem NotificationClaimed.newest (sane : Sane shared) {invitation : MembershipId}
    {row : Membership} (found : shared.store.memberships.get? invitation = some row) :
    NotificationClaimed invitation row.notifyRequestedSeq shared := by
  obtain ⟨owner, owns⟩ := Option.isSome_iff_exists.mp (sane.sound.owned invitation row found)
  refine ⟨⟨row, owner, found, owns, le_rfl⟩, ?_⟩
  intro number mark _ here
  exact (sane.traced.notifications invitation number mark here).1

end Lasting

/-- What is read of the user when nothing is left to send. -/
def NothingWanted (user : UserId) (shared : Shared) : Prop :=
  ∀ held, shared.store.users.get? user = some held → held.status = .invited →
    ∀ row, row ∈ shared.store.membershipsOfUser user → row.status ≠ .invited

theorem PasswordClaimed.dropped {shared : Shared} {user : UserId} {seq : Nat}
    (claimed : PasswordClaimed user seq shared) (nothing : NothingWanted user shared) :
    PasswordCovered user seq shared := by
  refine ⟨claimed, ?_⟩
  intro number mark held _ _ found opened
  refine .inr ?_
  intro id row _ here owner
  refine nothing held found opened row ?_
  refine List.mem_filter.mpr ⟨?_, by simp [owner]⟩
  exact List.mem_map.mpr ⟨(id, row), (Dict.mem_entries_iff _ id row).mpr here, rfl⟩

theorem PasswordClaimed.sent {shared : Shared} {user : UserId} {seq : Nat} (sane : Sane shared)
    (claimed : PasswordClaimed user seq shared) (account : Str) :
    PasswordCovered user seq
      { shared with outbox := shared.outbox ++ [.setPassword user account] } := by
  refine ⟨claimed.later (sent_effect sane _).1, ?_⟩
  intro number mark held before here found _
  have position := (claimed.marked number mark before here).1
  refine .inl ⟨.setPassword user account, ?_, ?_⟩
  · rw [List.drop_append_of_le_length position]
    exact List.mem_append_right _ (List.mem_singleton.mpr rfl)
  · have own : held.id = user := sane.sound.userIds user held found
    simp [Email.reaches, own]

theorem NotificationClaimed.sent {shared : Shared} {invitation : MembershipId} {seq : Nat}
    (sane : Sane shared) (claimed : NotificationClaimed invitation seq shared)
    {row : Membership} {user : User} (found : shared.store.memberships.get? invitation = some row)
    (owner : ∃ held, shared.store.users.get? row.userId = some held ∧ held.email = user.email)
    (tenant : TenantId) :
    NotificationCovered invitation seq
      { shared with outbox := shared.outbox ++ [.notification user.email tenant invitation] } := by
  refine ⟨claimed.later (sent_effect sane _).1, ?_⟩
  intro number mark other person before here there _ owns _
  obtain rfl : row = other := Option.some.inj (found.symm.trans there)
  obtain ⟨held, known, same⟩ := owner
  obtain rfl : held = person := Option.some.inj (known.symm.trans owns)
  have position := claimed.marked number mark before here
  refine ⟨.notification user.email tenant invitation, ?_, ?_⟩
  · rw [List.drop_append_of_le_length position]
    exact List.mem_append_right _ (List.mem_singleton.mpr rfl)
  · simp [Email.reaches, same]

section Row

variable (row : Membership)

/-- What is known of a claimed invitation and its owner, when the email is dropped and when it is not. -/
def NotificationWanted (fresh : Option Membership) (user : Option User) (shared : Shared) : Prop :=
  NotificationClaimed row.id row.notifyRequestedSeq shared ∧
    ∃ found person held owner, fresh = some found ∧ user = some person ∧ found.id = row.id ∧
      shared.store.memberships.get? row.id = some held ∧ RowGrown found held ∧
      shared.store.users.get? held.userId = some owner ∧ UserGrown person owner

theorem NotificationWanted.dropped {shared : Shared} {fresh : Membership} {user : User}
    (wanted : NotificationWanted row (some fresh) (some user) shared)
    (nothing : fresh.status ≠ .invited ∨ user.isPlatformAdmin = true) :
    NotificationCovered row.id row.notifyRequestedSeq shared := by
  obtain ⟨claimed, found, person, held, owner, same, alike, _, here, grown, owns, grownUp⟩ := wanted
  obtain rfl := Option.some.inj same
  obtain rfl := Option.some.inj alike
  refine ⟨claimed, ?_⟩
  intro number mark other holder _ _ there opened owned plain
  obtain rfl : held = other := Option.some.inj (here.symm.trans there)
  obtain rfl : owner = holder := Option.some.inj (owns.symm.trans owned)
  rcases nothing with closed | administrator
  · exact absurd (grown.invited opened) closed
  · rw [grownUp.admin, administrator] at plain
    contradiction

end Row

theorem signin_account_free (user : User) : FreeFlow (Service.signinAccount user) := by
  unfold Service.signinAccount
  split
  · exact .done _
  · refine (FreeFlow.ask rfl).bind ?_
    intro account
    exact (FreeFlow.ask rfl).bind fun _ => .done account

theorem defer_set_password_free (user : User) : FreeFlow (Service.deferSetPassword user) :=
  (FreeFlow.ask rfl).bind fun _ => .ask rfl

theorem defer_notification_free (row : Membership) : FreeFlow (Service.deferNotification row) :=
  (FreeFlow.ask rfl).bind fun _ => .ask rfl

variable [UnicodeDatabase] [SessionDigest]

section Settled

variable {shared : Shared}

theorem settle_set_password_called (sane : Sane shared) {user : UserId} {seq : Nat}
    (covered : PasswordCovered user seq shared) (sentAt expiresAt : Option Time) (minted : Nat) :
    Later shared (shared.called minted (.settleSetPassword user seq sentAt expiresAt)) ∧
      Sane (shared.called minted (.settleSetPassword user seq sentAt expiresAt)) := by
  have kept := settle_set_password_kept sane.sound user seq sentAt expiresAt
  change Later shared
      { shared with store := (shared.store.settleSetPassword user seq sentAt expiresAt).2 } ∧
    Sane { shared with store := (shared.store.settleSetPassword user seq sentAt expiresAt).2 }
  refine ⟨.stored kept, kept.sound, sane.traced.settled kept ?_ ?_⟩
  · intro id next number mark there within here opened
    obtain ⟨held, found, _, unsettled | ⟨rfl, settled⟩⟩ :=
      settle_set_password_sent sane.sound user seq sentAt expiresAt there
    · refine sane.traced.passwords_still kept there within here ?_ opened
      intro other again
      rw [found] at again
      rw [unsettled, Option.some.inj again]
    · have later : Later shared
          { shared with store := (shared.store.settleSetPassword id seq sentAt expiresAt).2 } :=
        .stored kept
      exact (covered.later later).covered number mark next (settled ▸ within) here there opened
  · intro id next person number mark there within here opened owner plain
    obtain ⟨row, found, same⟩ :=
      settle_set_password_rows sane.sound user seq sentAt expiresAt there
    refine sane.traced.notifications_still kept sane.sound there within here ?_ opened owner plain
    intro other again
    rw [found] at again
    rw [same, Option.some.inj again]

theorem settle_notification_called (sane : Sane shared) {invitation : MembershipId} {seq : Nat}
    (covered : NotificationCovered invitation seq shared) (sentAt expiresAt : Option Time)
    (minted : Nat) :
    Later shared (shared.called minted (.settleNotification invitation seq sentAt expiresAt)) ∧
      Sane (shared.called minted (.settleNotification invitation seq sentAt expiresAt)) := by
  have kept := settle_notification_kept sane.sound invitation seq sentAt expiresAt
  have users := settle_notification_users shared.store invitation seq sentAt expiresAt
  change Later shared
      { shared with store :=
          (shared.store.settleNotification invitation seq sentAt expiresAt).2 } ∧
    Sane { shared with store :=
        (shared.store.settleNotification invitation seq sentAt expiresAt).2 }
  refine ⟨.stored kept, kept.sound, sane.traced.settled kept ?_ ?_⟩
  · intro id next number mark there within here opened
    refine sane.traced.passwords_still kept there within here ?_ opened
    intro held again
    rw [users, again] at there
    rw [Option.some.inj there]
  · intro id next person number mark there within here opened owner plain
    obtain ⟨row, found, unsettled | ⟨rfl, settled⟩⟩ :=
      settle_notification_sent sane.sound invitation seq sentAt expiresAt there
    · refine sane.traced.notifications_still kept sane.sound there within here ?_ opened owner plain
      intro other again
      rw [found] at again
      rw [unsettled, Option.some.inj again]
    · have later : Later shared
          { shared with store :=
              (shared.store.settleNotification id seq sentAt expiresAt).2 } :=
        .stored kept
      exact (covered.later later).covered number mark next person (settled ▸ within) here there
        opened owner plain

theorem triple_settle {call : Call} {known : Shared → Prop} (lasting : medium.Lasting known)
    (settles : ∀ shared minted, known shared → Sane shared →
      Later shared (shared.called minted call) ∧ Sane (shared.called minted call)) :
    Triple medium.spec known (repo call) (fun _ _ => True) fun _ _ => True := by
  refine triple_operation lasting ?_
  intro shared reaction held sane fresh
  have called := settles shared reaction.minted held sane
  unfold perform
  cases reaction.fate with
  | works => exact ⟨called.1, called.2, fun _ _ => trivial⟩
  | lost => exact ⟨called.1, called.2, fun _ _ => trivial⟩
  | breaks => exact ⟨.refl shared, sane, fun _ _ => trivial⟩

end Settled

section Sender

variable {listed : List Str}

theorem password_claimed_lasting (user : UserId) (seq : Nat) :
    medium.Lasting (PasswordClaimed user seq) := fun _ _ later claimed => claimed.later later

theorem notification_claimed_lasting (invitation : MembershipId) (seq : Nat) :
    medium.Lasting (NotificationClaimed invitation seq) := fun _ _ later claimed =>
  claimed.later later

theorem triple_settle_password (user : UserId) (seq : Nat) (sentAt expiresAt : Option Time) :
    Triple medium.spec (PasswordCovered user seq)
      (repo (.settleSetPassword user seq sentAt expiresAt)) (fun _ _ => True) fun _ _ => True :=
  triple_settle (fun _ _ later covered => covered.later later)
    fun _ minted covered sane => settle_set_password_called sane covered sentAt expiresAt minted

theorem triple_settle_notification (invitation : MembershipId) (seq : Nat)
    (sentAt expiresAt : Option Time) :
    Triple medium.spec (NotificationCovered invitation seq)
      (repo (.settleNotification invitation seq sentAt expiresAt)) (fun _ _ => True)
      fun _ _ => True :=
  triple_settle (fun _ _ later covered => covered.later later)
    fun _ minted covered sane => settle_notification_called sane covered sentAt expiresAt minted

theorem triple_read_user (user : UserId) {known : Shared → Prop} (lasting : medium.Lasting known) :
    Triple medium.spec known (repo (.user user))
      (fun answer shared => known shared ∧ Sane shared ∧ shared.store.users.get? user = answer)
      fun _ _ => True := by
  refine triple_repo rfl rfl lasting ?_
  intro shared minted held sane value answer _ _
  exact ⟨held, sane, Except.ok.inj answer⟩

theorem triple_read_row (invitation : MembershipId) {known : Shared → Prop}
    (lasting : medium.Lasting known) :
    Triple medium.spec known (repo (.membership invitation))
      (fun answer shared => known shared ∧ Sane shared ∧
        shared.store.memberships.get? invitation = answer)
      fun _ _ => True := by
  refine triple_repo rfl rfl lasting ?_
  intro shared minted held sane value answer _ _
  exact ⟨held, sane, Except.ok.inj answer⟩

section SetPassword

variable (listed : List Str) (user : UserId) (seq : Nat)

/-- The answer is `false` only once nothing is left to send. -/
def PasswordWanted (wanted : Bool) (shared : Shared) : Prop :=
  PasswordClaimed user seq shared ∧ (wanted = false → PasswordCovered user seq shared)

theorem still_wanted_triple (fresh : User) :
    Triple medium.spec
      (fun shared => PasswordClaimed user seq shared ∧ Sane shared ∧
        shared.store.users.get? user = some fresh)
      (Service.stillWanted listed fresh) (PasswordWanted user seq) fun _ _ => True := by
  intro shared known
  obtain ⟨claimed, sane, found⟩ := known
  have own : fresh.id = user := sane.sound.userIds user fresh found
  unfold Service.stillWanted
  split
  · split
    · exact ⟨claimed, nofun⟩
    · rw [own]
      have read : Triple medium.spec (PasswordClaimed user seq) (repo (.membershipsOfUser user))
          (fun rows shared => PasswordClaimed user seq shared ∧
            rows = shared.store.membershipsOfUser user) fun _ _ => True := by
        refine triple_repo rfl rfl (password_claimed_lasting user seq) ?_
        intro shared minted held sane value answer _ _
        exact ⟨held, (Except.ok.inj answer).symm⟩
      have decided : ∀ rows, Triple medium.spec
          (fun shared => PasswordClaimed user seq shared ∧
            rows = shared.store.membershipsOfUser user)
          (pure (rows.any fun row => row.status == .invited) : Flow Bool)
          (PasswordWanted user seq) fun _ _ => True := by
        rintro rows current ⟨held, rfl⟩
        refine ⟨held, ?_⟩
        intro none_open
        apply held.dropped
        intro _ _ _ row member opened
        have open_ := List.any_eq_false.mp none_open row member
        simp [opened] at open_
      exact (read.bind decided) shared claimed
  · rename_i active
    refine ⟨claimed, fun _ => claimed.dropped ?_⟩
    intro held here opened
    rw [found] at here
    exact absurd (Option.some.inj here ▸ opened) active

theorem wanted_now_triple (fresh : Option User) :
    Triple medium.spec
      (fun shared => PasswordClaimed user seq shared ∧ Sane shared ∧
        shared.store.users.get? user = fresh)
      (Service.wantedNow listed fresh) (PasswordWanted user seq) fun _ _ => True := by
  cases fresh with
  | some fresh => exact still_wanted_triple listed user seq fresh
  | none =>
      rintro shared ⟨claimed, _, absent⟩
      obtain ⟨held, found, _⟩ := claimed.known
      rw [absent] at found
      contradiction

end SetPassword

theorem deliver_set_password_triple (user : User) (account : Str) (fresh : Option User)
    (wanted : Bool) :
    Triple medium.spec (PasswordWanted user.id user.setPasswordRequestedSeq wanted)
      (Service.deliverSetPassword user account fresh wanted) (fun _ _ => True)
      fun _ _ => True := by
  cases wanted with
  | false =>
      refine Triple.ignore ?_
      exact (triple_settle_password _ _ _ _).weaken (fun shared known => known.2 rfl)
        (fun _ _ _ => trivial) fun _ _ _ => trivial
  | true =>
      have covered : medium.Lasting (PasswordCovered user.id user.setPasswordRequestedSeq) :=
        fun _ _ later here => here.later later
      have sent : Triple medium.spec
          (PasswordClaimed user.id user.setPasswordRequestedSeq)
          (ask (.send (.setPassword user.id ((fresh.bind User.signinAccountId).getD account))))
          (fun _ => PasswordCovered user.id user.setPasswordRequestedSeq) fun _ _ => True := by
        refine triple_free rfl (password_claimed_lasting _ _) ?_
        intro shared reaction claimed sane _ value _ _ _
        exact claimed.sent sane _
      refine (sent.weaken (fun _ known => known.1) (fun _ _ here => here)
        fun _ _ _ => trivial).bind ?_
      intro _
      refine (triple_keeps rfl covered).bind ?_
      intro time
      exact Triple.ignore (triple_settle_password _ _ _ _)

theorem send_set_password_triple (listed : List Str) (user : User) :
    Triple medium.spec (PasswordClaimed user.id user.setPasswordRequestedSeq)
      (Service.sendSetPassword listed user) (fun _ _ => True) fun _ _ => True := by
  have claimed := password_claimed_lasting user.id user.setPasswordRequestedSeq
  refine ((signin_account_free user).triple claimed).bind ?_
  intro account
  refine (triple_read_user user.id claimed).bind ?_
  intro fresh
  refine (wanted_now_triple listed user.id _ fresh).bind ?_
  intro wanted
  exact deliver_set_password_triple user account fresh wanted

section Notification

variable (row : Membership)

/-- What is read of the invitation before its email goes out. -/
def ReadRow (fresh : Option Membership) (shared : Shared) : Prop :=
  NotificationClaimed row.id row.notifyRequestedSeq shared ∧ Sane shared ∧
    shared.store.memberships.get? row.id = fresh

theorem notification_wanted_lasting (fresh : Option Membership) (user : Option User) :
    medium.Lasting (NotificationWanted row fresh user) := by
  intro shared after later known
  obtain ⟨claimed, found, person, held, owner, rfl, rfl, own, here, grown, owns, grownUp⟩ := known
  obtain ⟨next, there, more⟩ := later.grown.rows row.id held here
  obtain ⟨last, known, again⟩ := later.grown.users held.userId owner owns
  exact ⟨claimed.later later, found, person, next, last, rfl, rfl, own, there, grown.trans more,
    more.user ▸ known, grownUp.trans again⟩

theorem fresh_user_triple (fresh : Option Membership) :
    Triple medium.spec (ReadRow row fresh) (Service.freshUser fresh)
      (NotificationWanted row fresh) fun _ _ => True := by
  intro shared known
  obtain ⟨claimed, sane, here⟩ := known
  obtain ⟨held, owner, there, owns, within⟩ := claimed.known
  cases fresh with
  | none =>
      rw [here] at there
      contradiction
  | some found =>
      have reads : Triple medium.spec
          (fun shared => NotificationClaimed row.id row.notifyRequestedSeq shared ∧
            found.id = row.id ∧ KnowsRow found shared)
          (repo (.user found.userId)) (NotificationWanted row (some found))
          fun _ _ => True := by
        refine triple_repo rfl rfl (Medium.lasting_and
          (notification_claimed_lasting row.id row.notifyRequestedSeq)
          (Medium.lasting_and (lasting_const _) (knows_row_lasting found))) ?_
        rintro shared minted ⟨claimed, own, held, there, grown⟩ sane value answer _ _
        have read : shared.store.users.get? found.userId = value := Except.ok.inj answer
        rw [own] at there
        obtain ⟨owner, owns⟩ := Option.isSome_iff_exists.mp (sane.sound.owned row.id held there)
        have same : value = some owner := by
          rw [← read, ← grown.user]
          exact owns
        exact ⟨claimed, found, owner, held, owner, rfl, same, own, there, grown, owns, .refl owner⟩
      have own : found.id = row.id := sane.sound.rowIds row.id found here
      exact reads shared ⟨claimed, own, found, by rw [own]; exact here, .refl found⟩

theorem deliver_notification_triple (fresh : Option Membership) (user : Option User) :
    Triple medium.spec (NotificationWanted row fresh user)
      (Service.deliverNotification row fresh user) (fun _ _ => True) fun _ _ => True := by
  intro shared known
  obtain ⟨_, found, person, _, _, rfl, rfl, _⟩ := id known
  unfold Service.deliverNotification
  dsimp only
  split
  · rename_i nothing
    refine (Triple.ignore ?_) shared (known.dropped row nothing)
    exact triple_settle_notification _ _ _ _
  · have covered : medium.Lasting (NotificationCovered row.id row.notifyRequestedSeq) :=
      fun _ _ later here => here.later later
    have sent : Triple medium.spec (NotificationWanted row (some found) (some person))
        (ask (.send (.notification person.email found.tenantId found.id)))
        (fun _ => NotificationCovered row.id row.notifyRequestedSeq) fun _ _ => True := by
      refine triple_free rfl (notification_wanted_lasting row _ _) ?_
      intro shared reaction wanted sane _ value _ _ _
      obtain ⟨claimed, other, reader, held, owner, same, alike, own, here, _, owns, grownUp⟩ :=
        wanted
      obtain rfl := Option.some.inj same
      obtain rfl := Option.some.inj alike
      change NotificationCovered row.id row.notifyRequestedSeq { shared with
        outbox := shared.outbox ++ [.notification person.email found.tenantId found.id] }
      rw [own]
      exact claimed.sent sane here ⟨owner, owns, grownUp.email⟩ found.tenantId
    refine (sent.bind ?_) shared known
    intro _
    refine (triple_keeps rfl covered).bind ?_
    intro time
    exact Triple.ignore (triple_settle_notification _ _ _ _)

theorem send_notification_triple :
    Triple medium.spec (NotificationClaimed row.id row.notifyRequestedSeq)
      (Service.sendNotification row) (fun _ _ => True) fun _ _ => True := by
  refine (triple_read_row row.id (notification_claimed_lasting _ _)).bind ?_
  intro fresh
  refine (fresh_user_triple row fresh).bind ?_
  intro user
  exact deliver_notification_triple row fresh user

end Notification

/-- One kind of email: every claimed one is sent with what its claim leaves known. -/
theorem send_each_triple {Row : Type} {rowId : Row → Nat}
    {claim : Time → List Nat → Flow (Option Row)} {send defer : Row → Flow Unit}
    {claimed : Row → Shared → Prop}
    (claims : ∀ now tried, Triple medium.spec (fun _ => True) (claim now tried)
      (fun answer shared => ∀ row, answer = some row → claimed row shared) fun _ _ => True)
    (sends : ∀ row, Triple medium.spec (claimed row) (send row) (fun _ _ => True)
      fun _ _ => True)
    (defers : ∀ row, FreeFlow (defer row)) (rounds : Nat) (tried : List Nat) :
    Triple medium.spec (fun _ => True)
      (Service.sendEach rowId claim send defer rounds tried) (fun _ _ => True)
      fun _ _ => True := by
  induction rounds generalizing tried with
  | zero => exact fun _ _ => trivial
  | succ rounds ih =>
      have clock : Triple medium.spec (fun _ => True) (ask .clock) (fun _ _ => True)
          fun _ _ => True := triple_keeps rfl true_lasting
      refine clock.bind ?_
      intro now
      refine (claims now tried).bind ?_
      intro answer
      cases answer with
      | none => exact fun _ _ => trivial
      | some row =>
          have sent : Triple medium.spec (claimed row) ((send row).rescue fun _ => defer row)
              (fun _ _ => True) fun _ _ => True :=
            (sends row).rescue fun _ => (defers row).triple true_lasting
          refine (Triple.bind (sent.weaken (fun shared known => known row rfl)
            (fun _ _ _ => trivial) fun _ _ _ => trivial) ?_)
          intro _
          exact ih (rowId row :: tried)

theorem claim_set_password_triple (now hold : Time) (tried : List UserId) :
    Triple medium.spec (fun _ => True) (repo (.claimSetPassword now hold tried))
      (fun answer shared => ∀ user, answer = some user →
        PasswordClaimed user.id user.setPasswordRequestedSeq shared) fun _ _ => True := by
  refine triple_repo rfl rfl true_lasting ?_
  rintro shared minted _ sane value answer later kept user rfl
  have claimed : (shared.store.claimSetPassword now hold tried).1 = some user :=
    Except.ok.inj answer
  refine PasswordClaimed.newest kept ?_
  change (shared.store.claimSetPassword now hold tried).2.users.get? user.id = some user
  unfold claimSetPassword at claimed ⊢
  split at claimed
  · contradiction
  · rename_i found _
    obtain rfl := Option.some.inj claimed
    exact get_put_user shared.store { found with setPasswordNextTryAt := some hold }

theorem claim_notification_triple (now hold : Time) (tried : List MembershipId) :
    Triple medium.spec (fun _ => True) (repo (.claimNotification now hold tried))
      (fun answer shared => ∀ row, answer = some row →
        NotificationClaimed row.id row.notifyRequestedSeq shared) fun _ _ => True := by
  refine triple_repo rfl rfl true_lasting ?_
  rintro shared minted _ sane value answer later kept row rfl
  have claimed : (shared.store.claimNotification now hold tried).1 = some row :=
    Except.ok.inj answer
  refine NotificationClaimed.newest kept ?_
  change (shared.store.claimNotification now hold tried).2.memberships.get? row.id = some row
  unfold claimNotification at claimed ⊢
  split at claimed
  · contradiction
  · rename_i found _
    obtain rfl := Option.some.inj claimed
    exact get_put_membership shared.store { found with notifyNextTryAt := some hold }

theorem send_pending_triple (listed : List Str) (passwordRounds notificationRounds : Nat) :
    Triple medium.spec (fun _ => True)
      (Service.sendPending listed passwordRounds notificationRounds) (fun _ _ => True)
      fun _ _ => True := by
  refine (send_each_triple (fun now tried => claim_set_password_triple now _ tried)
    (send_set_password_triple listed) defer_set_password_free passwordRounds []).bind ?_
  intro _
  exact send_each_triple (fun now tried => claim_notification_triple now _ tried)
    send_notification_triple defer_notification_free notificationRounds []

end Sender

end Defender.Identity
