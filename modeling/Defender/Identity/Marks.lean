import Defender.Identity.StoreGrowth

/-!
# Requests and what was sent since

A request that is settled has been followed by an email, or no invitation it was made for
is open any more. The requests of an operation are settled only with what its program
knows, so the settling operations are treated apart.
-/

namespace Defender.Identity

open Defender.Python Defender.Library.OrderedDict Defender.Library.Programs
open Defender.Library.Interference
open Defender.Tenancy (Time TenantState)
open MemoryRepository

def Email.reaches (person : User) : Email → Bool
  | .setPassword user _ => user == person.id
  | .notification address _ _ => address == person.email

def Mark.sentSince (mark : Mark) (person : User) (outbox : List Email) : Prop :=
  ∃ email ∈ outbox.drop mark.position, email.reaches person = true

theorem Mark.sentSince.grown {mark : Mark} {person next : User} {outbox after : List Email}
    (sent : mark.sentSince person outbox) (more : outbox <+: after) (same : UserGrown person next) :
    mark.sentSince next after := by
  obtain ⟨email, member, reaches⟩ := sent
  obtain ⟨later, rfl⟩ := more
  refine ⟨email, ?_, ?_⟩
  · rw [List.drop_append]
    exact List.mem_append_left _ member
  · cases email with
    | setPassword user account => rw [Email.reaches, same.id]; exact reaches
    | notification address tenant invitation => rw [Email.reaches, same.email]; exact reaches

/-- None of the person's invitations that were there at the mark is open. -/
def Mark.allClosed (mark : Mark) (user : UserId) (store : MemoryRepository) : Prop :=
  ∀ id row, id ∈ store.memberships.keys.take mark.rows → store.memberships.get? id = some row →
    row.userId = user → row.status ≠ .invited

theorem mem_take_of_start {α : Type} {short long : List α} {count : Nat}
    (grown : short <+: long) (within : count ≤ short.length) : long.take count = short.take count := by
  obtain ⟨more, rfl⟩ := grown
  rw [List.take_append_of_le_length within]

theorem Mark.allClosed.grown {mark : Mark} {user : UserId} {store after : MemoryRepository}
    (closed : mark.allClosed user store) (grown : Grown store after)
    (within : mark.rows ≤ store.memberships.keys.length) : mark.allClosed user after := by
  intro id next member here owner opened
  rw [mem_take_of_start grown.keys within] at member
  have known : store.memberships.contains id = true :=
    (Dict.contains_iff _ id).mpr (List.mem_of_mem_take member)
  obtain ⟨row, held⟩ := Option.isSome_iff_exists.mp known
  obtain ⟨other, there, more⟩ := grown.rows id row held
  rw [here] at there
  obtain rfl := Option.some.inj there
  exact closed id row member held (more.user ▸ owner) (more.invited opened)

structure Traced (shared : Shared) : Prop where
  passwords : ∀ user seq mark, shared.passwordMarks user seq = some mark →
    mark.position ≤ shared.outbox.length ∧
      mark.rows ≤ shared.store.memberships.keys.length ∧
      ∃ held, shared.store.users.get? user = some held ∧ seq ≤ held.setPasswordRequestedSeq
  notifications : ∀ id seq mark, shared.notificationMarks id seq = some mark →
    mark.position ≤ shared.outbox.length ∧
      ∃ row, shared.store.memberships.get? id = some row ∧ seq ≤ row.notifyRequestedSeq
  passwordsSettled : ∀ id user seq mark, shared.store.users.get? id = some user →
    seq ≤ user.setPasswordSentSeq → shared.passwordMarks id seq = some mark →
    user.status = .invited →
    mark.sentSince user shared.outbox ∨ mark.allClosed id shared.store
  notificationsSettled : ∀ id row person seq mark, shared.store.memberships.get? id = some row →
    seq ≤ row.notifySentSeq → shared.notificationMarks id seq = some mark →
    row.status = .invited → shared.store.users.get? row.userId = some person →
    person.isPlatformAdmin = false → mark.sentSince person shared.outbox

structure Sane (shared : Shared) : Prop where
  sound : Sound shared.store
  traced : Traced shared

/-- What every operation is sure to leave. -/
structure Later (shared after : Shared) : Prop where
  grown : Grown shared.store after.store
  outbox : shared.outbox <+: after.outbox
  passwordsKept : ∀ user seq mark, shared.passwordMarks user seq = some mark →
    after.passwordMarks user seq = some mark
  passwordsFixed : ∀ user held seq mark, shared.store.users.get? user = some held →
    seq ≤ held.setPasswordRequestedSeq → after.passwordMarks user seq = some mark →
    shared.passwordMarks user seq = some mark
  notificationsKept : ∀ id seq mark, shared.notificationMarks id seq = some mark →
    after.notificationMarks id seq = some mark
  notificationsFixed : ∀ id row seq mark, shared.store.memberships.get? id = some row →
    seq ≤ row.notifyRequestedSeq → after.notificationMarks id seq = some mark →
    shared.notificationMarks id seq = some mark

theorem Later.refl (shared : Shared) : Later shared shared where
  grown := .refl _
  outbox := List.prefix_refl _
  passwordsKept _ _ _ held := held
  passwordsFixed _ _ _ _ _ _ held := held
  notificationsKept _ _ _ held := held
  notificationsFixed _ _ _ _ _ _ held := held

theorem Later.trans {shared next last : Shared} (first : Later shared next)
    (second : Later next last) : Later shared last where
  grown := first.grown.trans second.grown
  outbox := first.outbox.trans second.outbox
  passwordsKept user seq mark held := second.passwordsKept _ _ _ (first.passwordsKept _ _ _ held)
  passwordsFixed user held seq mark here within there := by
    obtain ⟨middle, found, more⟩ := first.grown.users user held here
    exact first.passwordsFixed user held seq mark here within
      (second.passwordsFixed user middle seq mark found (within.trans more.requested) there)
  notificationsKept id seq mark held :=
    second.notificationsKept _ _ _ (first.notificationsKept _ _ _ held)
  notificationsFixed id row seq mark here within there := by
    obtain ⟨middle, found, more⟩ := first.grown.rows id row here
    exact first.notificationsFixed id row seq mark here within
      (second.notificationsFixed id middle seq mark found (within.trans more.requested) there)

theorem Traced.passwords_still {shared : Shared} (traced : Traced shared)
    {store : MemoryRepository} (kept : Kept shared.store store) {id seq : Nat} {next : User}
    {mark : Mark} (there : store.users.get? id = some next)
    (within : seq ≤ next.setPasswordSentSeq) (here : shared.passwordMarks id seq = some mark)
    (same : ∀ user, shared.store.users.get? id = some user →
      next.setPasswordSentSeq = user.setPasswordSentSeq) (opened : next.status = .invited) :
    mark.sentSince next shared.outbox ∨ mark.allClosed id store := by
  obtain ⟨_, rows, held, found, _⟩ := traced.passwords id seq mark here
  obtain ⟨other, again, more⟩ := kept.grown.users id held found
  obtain rfl : other = next := Option.some.inj (again.symm.trans there)
  have open_ : held.status = .invited := by
    cases status : held.status with
    | invited => rfl
    | active => rw [more.active status] at opened; contradiction
  rcases traced.passwordsSettled id held seq mark found (same held found ▸ within) here open_ with
    sent | closed
  · exact .inl (sent.grown (List.prefix_refl _) more)
  · exact .inr (closed.grown kept.grown rows)

theorem Traced.notifications_still {shared : Shared} (traced : Traced shared)
    {store : MemoryRepository} (kept : Kept shared.store store) (sound : Sound shared.store)
    {id seq : Nat} {next : Membership} {person : User} {mark : Mark}
    (there : store.memberships.get? id = some next) (within : seq ≤ next.notifySentSeq)
    (here : shared.notificationMarks id seq = some mark)
    (same : ∀ row, shared.store.memberships.get? id = some row →
      next.notifySentSeq = row.notifySentSeq) (opened : next.status = .invited)
    (owner : store.users.get? next.userId = some person) (plain : person.isPlatformAdmin = false) :
    mark.sentSince person shared.outbox := by
  obtain ⟨_, row, found, _⟩ := traced.notifications id seq mark here
  obtain ⟨other, again, more⟩ := kept.grown.rows id row found
  obtain rfl : other = next := Option.some.inj (again.symm.trans there)
  obtain ⟨owns, known⟩ := Option.isSome_iff_exists.mp (sound.owned id row found)
  obtain ⟨grownUp, was, person_more⟩ := kept.grown.users row.userId owns known
  obtain rfl : grownUp = person := by
    rw [more.user, was] at owner
    exact Option.some.inj owner
  exact (traced.notificationsSettled id row owns seq mark found (same row found ▸ within) here
    (more.invited opened) known (person_more.admin ▸ plain)).grown (List.prefix_refl _)
    person_more

theorem Traced.settled {shared : Shared} (traced : Traced shared) {store : MemoryRepository}
    (kept : Kept shared.store store)
    (passwords : ∀ id user seq mark, store.users.get? id = some user →
      seq ≤ user.setPasswordSentSeq → shared.passwordMarks id seq = some mark →
      user.status = .invited → mark.sentSince user shared.outbox ∨ mark.allClosed id store)
    (notifications : ∀ id row person seq mark, store.memberships.get? id = some row →
      seq ≤ row.notifySentSeq → shared.notificationMarks id seq = some mark →
      row.status = .invited → store.users.get? row.userId = some person →
      person.isPlatformAdmin = false → mark.sentSince person shared.outbox) :
    Traced { shared with store := store } where
  passwords user seq mark here := by
    obtain ⟨position, rows, held, found, within⟩ := traced.passwords user seq mark here
    obtain ⟨next, there, more⟩ := kept.grown.users user held found
    exact ⟨position, rows.trans kept.grown.keys.length_le, next, there,
      within.trans more.requested⟩
  notifications id seq mark here := by
    obtain ⟨position, row, found, within⟩ := traced.notifications id seq mark here
    obtain ⟨next, there, more⟩ := kept.grown.rows id row found
    exact ⟨position, next, there, within.trans more.requested⟩
  passwordsSettled := passwords
  notificationsSettled := notifications

theorem Traced.stored {shared : Shared} {store : MemoryRepository} (traced : Traced shared)
    (kept : Kept shared.store store) (sound : Sound shared.store)
    (unsettled : Unsettled shared.store store) : Traced { shared with store := store } := by
  apply traced.settled kept
  · intro id next seq mark there within here opened
    exact traced.passwords_still kept there within here
      (fun user held => unsettled.passwords id user next held there) opened
  · intro id next person seq mark there within here opened owner plain
    exact traced.notifications_still kept sound there within here
      (fun row held => unsettled.notifications id row next held there) opened owner plain

theorem Later.stored {shared : Shared} {store : MemoryRepository}
    (kept : Kept shared.store store) : Later shared { shared with store := store } where
  grown := kept.grown
  outbox := List.prefix_refl _
  passwordsKept _ _ _ held := held
  passwordsFixed _ _ _ _ _ _ held := held
  notificationsKept _ _ _ held := held
  notificationsFixed _ _ _ _ _ _ held := held

theorem Later.left {shared : Shared} (tenant : TenantId) (state : TenantState) :
    Later shared { shared with store := System.left shared.store tenant state } where
  grown :=
    { users := fun _ user here => ⟨user, by unfold System.left; split <;> exact here, .refl user⟩
      rows := fun _ row here => ⟨row, by unfold System.left; split <;> exact here, .refl row⟩
      keys := by unfold System.left; split <;> exact List.prefix_refl _
      tenants := by
        intro other here
        unfold System.left at here
        split at here
        · rename_i leaves
          simp only [isActive, Dict.get_set, beq_iff_eq] at here ⊢
          split_ifs at here with same
          · exact absurd (Option.some.inj here) leaves.2
          · exact here
        · exact here
      actives := fun id next here active => .inr ⟨next, by
        unfold System.left at here
        split at here <;> exact here, active, rfl⟩ }
  outbox := List.prefix_refl _
  passwordsKept _ _ _ held := held
  passwordsFixed _ _ _ _ _ _ held := held
  notificationsKept _ _ _ held := held
  notificationsFixed _ _ _ _ _ _ held := held

section Marking

theorem mark_other {marks : Nat → Nat → Option Mark} {id seq other number : Nat} {here held : Mark}
    (marked : mark marks id seq here other number = some held) :
    (other = id ∧ number = seq ∧ held = here) ∨
      (¬ (other = id ∧ number = seq) ∧ marks other number = some held) := by
  unfold mark at marked
  split_ifs at marked with same
  · exact .inl ⟨same.1, same.2, (Option.some.inj marked).symm⟩
  · exact .inr ⟨same, marked⟩

variable {shared : Shared} {id seq : Nat}

theorem password_marked {held : User} {here : Mark} (traced : Traced shared)
    (found : shared.store.users.get? id = some held) (newest : seq = held.setPasswordRequestedSeq)
    (unsent : held.setPasswordSentSeq < seq) (position : here.position ≤ shared.outbox.length)
    (rows : here.rows ≤ shared.store.memberships.keys.length) :
    Traced { shared with passwordMarks := mark shared.passwordMarks id seq here } where
  passwords user number held_ marked := by
    rcases mark_other marked with ⟨rfl, rfl, rfl⟩ | ⟨_, old⟩
    · exact ⟨position, rows, held, found, newest.le⟩
    · exact traced.passwords user number held_ old
  notifications := traced.notifications
  passwordsSettled user other number held_ there within marked opened := by
    rcases mark_other marked with ⟨rfl, rfl, rfl⟩ | ⟨_, old⟩
    · rw [found] at there
      obtain rfl := Option.some.inj there
      omega
    · exact traced.passwordsSettled user other number held_ there within old opened
  notificationsSettled := traced.notificationsSettled

theorem notification_marked {held : Membership} {here : Mark} (traced : Traced shared)
    (found : shared.store.memberships.get? id = some held)
    (newest : seq = held.notifyRequestedSeq) (unsent : held.notifySentSeq < seq)
    (position : here.position ≤ shared.outbox.length) :
    Traced { shared with notificationMarks := mark shared.notificationMarks id seq here } where
  passwords := traced.passwords
  notifications row number held_ marked := by
    rcases mark_other marked with ⟨rfl, rfl, rfl⟩ | ⟨_, old⟩
    · exact ⟨position, held, found, newest.le⟩
    · exact traced.notifications row number held_ old
  passwordsSettled := traced.passwordsSettled
  notificationsSettled row other person number held_ there within marked := by
    rcases mark_other marked with ⟨rfl, rfl, rfl⟩ | ⟨_, old⟩
    · rw [found] at there
      obtain rfl := Option.some.inj there
      omega
    · exact traced.notificationsSettled row other person number held_ there within old

end Marking

/-- The operations whose effect on the marks needs nothing known. -/
def Operation.free : Operation → Bool
  | .repo call => call.ordinary && !call.settles
  | _ => true

theorem Sane.stored {shared : Shared} (sane : Sane shared) {store : MemoryRepository}
    {activated : Option UserId} (write : Write activated shared.store store) :
    Later shared { shared with store := store } ∧ Sane { shared with store := store } := by
  have kept := write.kept sane.sound
  exact ⟨.stored kept, kept.sound,
    sane.traced.stored kept sane.sound (write.unsettled sane.sound)⟩

theorem Later.passwordMarked {shared : Shared} (sane : Sane shared) {store : MemoryRepository}
    (stored : Later shared { shared with store := store }) {user : UserId} {held : User}
    (found : shared.store.users.get? user = some held) (here : Mark) :
    Later shared { shared with
      store := store
      passwordMarks :=
        mark shared.passwordMarks user (held.setPasswordRequestedSeq + 1) here } where
  grown := stored.grown
  outbox := stored.outbox
  passwordsKept id seq held_ there := by
    obtain ⟨_, _, other, known, within⟩ := sane.traced.passwords id seq held_ there
    have different : ¬ (id = user ∧ seq = held.setPasswordRequestedSeq + 1) := by
      rintro ⟨rfl, rfl⟩
      rw [found] at known
      obtain rfl := Option.some.inj known
      omega
    exact (if_neg different).trans there
  passwordsFixed id other seq held_ known within marked := by
    rcases mark_other marked with ⟨rfl, rfl, _⟩ | ⟨_, old⟩
    · rw [found] at known
      obtain rfl := Option.some.inj known
      omega
    · exact old
  notificationsKept := stored.notificationsKept
  notificationsFixed := stored.notificationsFixed

theorem Later.notificationMarked {shared : Shared} (sane : Sane shared)
    {store : MemoryRepository} (stored : Later shared { shared with store := store })
    {invitation : MembershipId} {held : Membership}
    (found : shared.store.memberships.get? invitation = some held) (here : Mark) :
    Later shared { shared with
      store := store
      notificationMarks :=
        mark shared.notificationMarks invitation (held.notifyRequestedSeq + 1) here } where
  grown := stored.grown
  outbox := stored.outbox
  passwordsKept := stored.passwordsKept
  passwordsFixed := stored.passwordsFixed
  notificationsKept id seq held_ there := by
    obtain ⟨_, other, known, within⟩ := sane.traced.notifications id seq held_ there
    have different : ¬ (id = invitation ∧ seq = held.notifyRequestedSeq + 1) := by
      rintro ⟨rfl, rfl⟩
      rw [found] at known
      obtain rfl := Option.some.inj known
      omega
    exact (if_neg different).trans there
  notificationsFixed id other seq held_ known within marked := by
    rcases mark_other marked with ⟨rfl, rfl, _⟩ | ⟨_, old⟩
    · rw [found] at known
      obtain rfl := Option.some.inj known
      omega
    · exact old

theorem sent_effect {shared : Shared} (sane : Sane shared) (email : Email) :
    Later shared { shared with outbox := shared.outbox ++ [email] } ∧
      Sane { shared with outbox := shared.outbox ++ [email] } := by
  have more : shared.outbox <+: shared.outbox ++ [email] := List.prefix_append _ _
  refine ⟨⟨.refl _, more, fun _ _ _ held => held, fun _ _ _ _ _ _ held => held,
    fun _ _ _ held => held, fun _ _ _ _ _ _ held => held⟩, sane.sound, ?_⟩
  constructor
  · intro user seq mark here
    obtain ⟨position, rest⟩ := sane.traced.passwords user seq mark here
    exact ⟨position.trans more.length_le, rest⟩
  · intro id seq mark here
    obtain ⟨position, rest⟩ := sane.traced.notifications id seq mark here
    exact ⟨position.trans more.length_le, rest⟩
  · intro id user seq mark found within here opened
    rcases sane.traced.passwordsSettled id user seq mark found within here opened with sent | closed
    · exact .inl (sent.grown more (.refl user))
    · exact .inr closed
  · intro id row person seq mark found within here opened owner plain
    exact (sane.traced.notificationsSettled id row person seq mark found within here opened owner
      plain).grown more (.refl person)

section Performing

variable [UnicodeDatabase] [SessionDigest] {shared : Shared}

def Shared.called (shared : Shared) (minted : Nat) (call : Call) : Shared :=
  { shared.noted call (shared.store.run minted call).1 with
    store := (shared.store.run minted call).2 }

theorem request_set_password_called (sane : Sane shared) (user : UserId) (now : Time)
    (minted : Nat) :
    Later shared (shared.called minted (.requestSetPassword user now)) ∧
      Sane (shared.called minted (.requestSetPassword user now)) := by
  obtain ⟨later, kept⟩ := sane.stored (@request_set_password_write none _ user now)
  cases found : shared.store.users.get? user with
  | none =>
      have nothing : shared.called minted (.requestSetPassword user now) = shared := by
        simp [Shared.called, run, requestSetPassword, found, Shared.noted]
      rw [nothing]
      exact ⟨.refl shared, sane⟩
  | some held =>
      let next := { held with
        setPasswordRequestedSeq := held.setPasswordRequestedSeq + 1
        setPasswordRequestedAt := some now }
      have put : shared.store.requestSetPassword user now =
          (.ok (held.setPasswordRequestedSeq + 1), shared.store.putUser next) := by
        simp [requestSetPassword, found, next]
      have called : shared.called minted (.requestSetPassword user now) =
          { shared with
            store := shared.store.putUser next
            passwordMarks := mark shared.passwordMarks user (held.setPasswordRequestedSeq + 1)
              shared.here } := by
        simp [Shared.called, run, put, Shared.noted]
      rw [put] at later kept
      rw [called]
      have id := sane.sound.userIds user held found
      have there : (shared.store.putUser next).users.get? user = some next := by
        rw [← id]
        exact get_put_user shared.store next
      refine ⟨later.passwordMarked sane found shared.here, kept.sound, ?_⟩
      exact password_marked kept.traced there rfl
        (Nat.lt_succ_of_le (sane.sound.passwordsCounted user held found)) le_rfl
        (by simp [Shared.here, putUser, Dict.keys])

theorem request_notification_called (sane : Sane shared) (invitation : MembershipId) (now : Time)
    (minted : Nat) :
    Later shared (shared.called minted (.requestNotification invitation now)) ∧
      Sane (shared.called minted (.requestNotification invitation now)) := by
  obtain ⟨later, kept⟩ := sane.stored (@request_notification_write none _ invitation now)
  cases found : shared.store.memberships.get? invitation with
  | none =>
      have nothing : shared.called minted (.requestNotification invitation now) = shared := by
        simp [Shared.called, run, requestNotification, found, Shared.noted]
      rw [nothing]
      exact ⟨.refl shared, sane⟩
  | some held =>
      let next := { held with
        notifyRequestedSeq := held.notifyRequestedSeq + 1, notifyRequestedAt := some now }
      have put : shared.store.requestNotification invitation now =
          (.ok (held.notifyRequestedSeq + 1), shared.store.putMembership next) := by
        simp [requestNotification, found, next]
      have called : shared.called minted (.requestNotification invitation now) =
          { shared with
            store := shared.store.putMembership next
            notificationMarks := mark shared.notificationMarks invitation
              (held.notifyRequestedSeq + 1) shared.here } := by
        simp [Shared.called, run, put, Shared.noted]
      rw [put] at later kept
      rw [called]
      have id := sane.sound.rowIds invitation held found
      have there : (shared.store.putMembership next).memberships.get? invitation = some next := by
        rw [← id]
        exact get_put_membership shared.store next
      refine ⟨later.notificationMarked sane found shared.here, kept.sound, ?_⟩
      exact notification_marked kept.traced there rfl
        (Nat.lt_succ_of_le (sane.sound.notificationsCounted invitation held found)) le_rfl

theorem free_called (sane : Sane shared) {minted : Nat} (fresh : shared.store.fresh minted)
    (call : Call) (ordinary : call.ordinary = true) (settles : call.settles = false) :
    Later shared (shared.called minted call) ∧ Sane (shared.called minted call) := by
  have write := run_write sane.sound fresh call ordinary settles
  cases call with
  | requestSetPassword user now => exact request_set_password_called sane user now minted
  | requestNotification invitation now =>
    exact request_notification_called sane invitation now minted
  | _ => exact sane.stored write

theorem free_performed (sane : Sane shared) {reaction : Reaction}
    (fresh : shared.store.fresh reaction.minted) (operation : Operation)
    (free : operation.free = true) :
    Later shared (perform operation reaction shared).2 ∧
      Sane (perform operation reaction shared).2 := by
  have works : Later shared (effect operation reaction shared).2 ∧
      Sane (effect operation reaction shared).2 := by
    cases operation with
    | repo call =>
        simp only [Operation.free, Bool.and_eq_true, Bool.not_eq_true'] at free
        exact free_called sane fresh call free.1 free.2
    | send email => exact sent_effect sane email
    | _ => exact ⟨.refl shared, sane⟩
  unfold perform
  cases reaction.fate with
  | works => exact works
  | lost => exact works
  | breaks => exact ⟨.refl shared, sane⟩

/-- The medium that the requests and the passes work on. -/
def medium : Medium Operation Operation.Answer Shared Reaction where
  perform := perform
  allowed reaction shared := shared.store.fresh reaction.minted
  sane := Sane
  later := Later
  refl := .refl
  trans := .trans

end Performing

end Defender.Identity
