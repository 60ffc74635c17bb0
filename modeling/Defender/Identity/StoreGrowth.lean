import Defender.Identity.System

/-!
# What the identity store keeps

The rules the stored rows hold on their own, and what every operation but the change of an
administrator's flag leaves of them: rows are never dropped, an email and an owner never
change, a user stays active, a finished invitation stays finished, and a membership turns
active only in an active tenant.
-/

namespace Defender.Identity

open Defender.Python Defender.Library.OrderedDict
open Defender.Tenancy (Time TenantState)

/-- The operations that leave every administrator's flag. -/
def Call.ordinary : Call → Bool
  | .setPlatformAdmin .. => false
  | _ => true

def Call.activated : Call → Option UserId
  | .activateUser id _ _ => some id
  | _ => none

/-- The operations that settle a request. -/
def Call.settles : Call → Bool
  | .settleSetPassword .. | .settleNotification .. => true
  | _ => false

namespace MemoryRepository

structure Sound (store : MemoryRepository) : Prop where
  userIds : ∀ id user, store.users.get? id = some user → user.id = id
  rowIds : ∀ id row, store.memberships.get? id = some row → row.id = id
  owned : ∀ id row, store.memberships.get? id = some row →
    store.users.contains row.userId = true
  oneLive : ∀ left right one other, store.memberships.get? left = some one →
    store.memberships.get? right = some other → one.status.live = true →
    other.status.live = true → one.userId = other.userId → one.tenantId = other.tenantId →
    left = right
  passwordsCounted : ∀ id user, store.users.get? id = some user →
    user.setPasswordSentSeq ≤ user.setPasswordRequestedSeq
  notificationsCounted : ∀ id row, store.memberships.get? id = some row →
    row.notifySentSeq ≤ row.notifyRequestedSeq

structure UserGrown (user next : User) : Prop where
  id : next.id = user.id
  email : next.email = user.email
  admin : next.isPlatformAdmin = user.isPlatformAdmin
  active : user.status = .active → next.status = .active
  requested : user.setPasswordRequestedSeq ≤ next.setPasswordRequestedSeq

theorem UserGrown.refl (user : User) : UserGrown user user :=
  ⟨rfl, rfl, rfl, fun here => here, le_rfl⟩

theorem UserGrown.trans {user next last : User} (first : UserGrown user next)
    (second : UserGrown next last) : UserGrown user last where
  id := second.id.trans first.id
  email := second.email.trans first.email
  admin := second.admin.trans first.admin
  active here := second.active (first.active here)
  requested := first.requested.trans second.requested

structure RowGrown (row next : Membership) : Prop where
  id : next.id = row.id
  user : next.userId = row.userId
  tenant : next.tenantId = row.tenantId
  invited : next.status = .invited → row.status = .invited
  live : next.status.live = true → row.status.live = true
  requested : row.notifyRequestedSeq ≤ next.notifyRequestedSeq

theorem RowGrown.refl (row : Membership) : RowGrown row row :=
  ⟨rfl, rfl, rfl, fun here => here, fun here => here, le_rfl⟩

theorem RowGrown.trans {row next last : Membership} (first : RowGrown row next)
    (second : RowGrown next last) : RowGrown row last where
  id := second.id.trans first.id
  user := second.user.trans first.user
  tenant := second.tenant.trans first.tenant
  invited here := first.invited (second.invited here)
  live here := first.live (second.live here)
  requested := first.requested.trans second.requested

structure Grown (store after : MemoryRepository) : Prop where
  users : ∀ id user, store.users.get? id = some user →
    ∃ next, after.users.get? id = some next ∧ UserGrown user next
  rows : ∀ id row, store.memberships.get? id = some row →
    ∃ next, after.memberships.get? id = some next ∧ RowGrown row next
  keys : store.memberships.keys <+: after.memberships.keys
  tenants : ∀ tenant, after.isActive tenant = true → store.isActive tenant = true
  actives : ∀ id next, after.memberships.get? id = some next → next.status = .active →
    store.isActive next.tenantId = true ∨ ∃ row, store.memberships.get? id = some row ∧
      row.status = .active ∧ row.tenantId = next.tenantId

theorem Grown.refl (store : MemoryRepository) : Grown store store where
  users _ user held := ⟨user, held, .refl user⟩
  rows _ row held := ⟨row, held, .refl row⟩
  keys := List.prefix_refl _
  tenants _ here := here
  actives _ next held here := .inr ⟨next, held, here, rfl⟩

theorem Grown.trans {store next last : MemoryRepository} (first : Grown store next)
    (second : Grown next last) : Grown store last where
  users id user held := by
    obtain ⟨middle, there, grown⟩ := first.users id user held
    obtain ⟨final, here, more⟩ := second.users id middle there
    exact ⟨final, here, grown.trans more⟩
  rows id row held := by
    obtain ⟨middle, there, grown⟩ := first.rows id row held
    obtain ⟨final, here, more⟩ := second.rows id middle there
    exact ⟨final, here, grown.trans more⟩
  keys := first.keys.trans second.keys
  tenants tenant here := first.tenants tenant (second.tenants tenant here)
  actives id final held here := by
    rcases second.actives id final held here with active | ⟨row, there, isActive, same⟩
    · exact .inl (first.tenants _ active)
    · rcases first.actives id row there isActive with active | ⟨before, was, wasActive, alike⟩
      · exact .inl (same ▸ active)
      · exact .inr ⟨before, was, wasActive, alike.trans same⟩

/-- What an operation leaves: the rules, and everything grown. -/
structure Kept (store after : MemoryRepository) : Prop where
  sound : Sound after
  grown : Grown store after

theorem Sound.kept {store : MemoryRepository} (sound : Sound store) : Kept store store :=
  ⟨sound, .refl store⟩

theorem Kept.trans {store next last : MemoryRepository} (first : Kept store next)
    (second : Kept next last) : Kept store last :=
  ⟨second.sound, first.grown.trans second.grown⟩

section Puts

variable {store : MemoryRepository}

theorem contains_set {Key Value : Type} [DecidableEq Key] (dict : Dict Key Value)
    (key other : Key) (value : Value) :
    (dict.set key value).contains other = (decide (key = other) || dict.contains other) := by
  unfold Dict.contains
  rw [Dict.get_set]
  by_cases same : key = other <;> simp [same]

theorem set_cases {Key Value : Type} [DecidableEq Key] {dict : Dict Key Value} {key other : Key}
    {value held : Value} (here : (dict.set key value).get? other = some held) :
    (other = key ∧ held = value) ∨ (other ≠ key ∧ dict.get? other = some held) := by
  rw [Dict.get_set] at here
  split_ifs at here with same
  · exact .inl ⟨same.symm, (Option.some.inj here).symm⟩
  · exact .inr ⟨fun different => same different.symm, here⟩

/-- Where a held value grows in its place, every held value has grown. -/
theorem set_grown {Key Value : Type} [DecidableEq Key] {dict : Dict Key Value} {key : Key}
    {Grown : Value → Value → Prop} (stays : ∀ value, Grown value value) {old value : Value}
    (found : dict.get? key = some old) (grown : Grown old value) (other : Key) (held : Value)
    (here : dict.get? other = some held) :
    ∃ next, (dict.set key value).get? other = some next ∧ Grown held next := by
  by_cases same : key = other
  · subst same
    rw [found] at here
    obtain rfl := Option.some.inj here
    exact ⟨value, by rw [Dict.get_set, if_pos rfl], grown⟩
  · exact ⟨held, by rw [Dict.get_set, if_neg same, here], stays held⟩

theorem users_put {user : User} {id : UserId} {held : User}
    (here : (store.putUser user).users.get? id = some held) :
    (id = user.id ∧ held = user) ∨ (id ≠ user.id ∧ store.users.get? id = some held) :=
  set_cases here

theorem rows_put {row held : Membership} {id : MembershipId}
    (here : (store.putMembership row).memberships.get? id = some held) :
    (id = row.id ∧ held = row) ∨ (id ≠ row.id ∧ store.memberships.get? id = some held) :=
  set_cases here

theorem get_put_user (store : MemoryRepository) (user : User) :
    (store.putUser user).users.get? user.id = some user := by
  change (store.users.set user.id user).get? user.id = some user
  rw [Dict.get_set, if_pos rfl]

theorem get_put_membership (store : MemoryRepository) (row : Membership) :
    (store.putMembership row).memberships.get? row.id = some row := by
  change (store.memberships.set row.id row).get? row.id = some row
  rw [Dict.get_set, if_pos rfl]

theorem put_user_sound (sound : Sound store) {user : User}
    (counted : user.setPasswordSentSeq ≤ user.setPasswordRequestedSeq) :
    Sound (store.putUser user) where
  userIds id held here := by
    rcases users_put here with ⟨rfl, rfl⟩ | ⟨_, other⟩
    · rfl
    · exact sound.userIds id held other
  rowIds := sound.rowIds
  owned id row here := by
    change (store.users.set user.id user).contains row.userId = true
    rw [contains_set, sound.owned id row here, Bool.or_true]
  oneLive := sound.oneLive
  passwordsCounted id held here := by
    rcases users_put here with ⟨rfl, rfl⟩ | ⟨_, other⟩
    · exact counted
    · exact sound.passwordsCounted id held other
  notificationsCounted := sound.notificationsCounted

theorem put_user_kept (sound : Sound store) {id : UserId} {old : User}
    (held : store.users.get? id = some old) (user : User) (grown : UserGrown old user)
    (counted : user.setPasswordSentSeq ≤ user.setPasswordRequestedSeq) :
    Kept store (store.putUser user) := by
  have found : store.users.get? user.id = some old := by
    rw [grown.id, sound.userIds id old held, held]
  exact {
    sound := put_user_sound sound counted
    grown :=
      { users := set_grown .refl found grown
        rows := fun _ row here => ⟨row, here, .refl row⟩
        keys := List.prefix_refl _
        tenants := fun _ here => here
        actives := fun _ row here active => .inr ⟨row, here, active, rfl⟩ } }

theorem put_row_sound (sound : Sound store) {row : Membership}
    (owner : store.users.contains row.userId = true)
    (alone : ∀ id other, id ≠ row.id → store.memberships.get? id = some other →
      row.status.live = true → other.status.live = true → other.userId = row.userId →
      other.tenantId ≠ row.tenantId)
    (counted : row.notifySentSeq ≤ row.notifyRequestedSeq) : Sound (store.putMembership row) where
  userIds := sound.userIds
  rowIds id held here := by
    rcases rows_put here with ⟨rfl, rfl⟩ | ⟨_, other⟩
    · rfl
    · exact sound.rowIds id held other
  owned id held here := by
    rcases rows_put here with ⟨rfl, rfl⟩ | ⟨_, other⟩
    · exact owner
    · exact sound.owned id held other
  oneLive := by
    intro left right one other here there oneLives otherLives sameUser sameTenant
    rcases rows_put here with ⟨rfl, rfl⟩ | ⟨apart, oneThere⟩
    · rcases rows_put there with ⟨rfl, rfl⟩ | ⟨apart, otherThere⟩
      · rfl
      · exact absurd sameTenant.symm
          (alone _ other apart otherThere oneLives otherLives sameUser.symm)
    · rcases rows_put there with ⟨rfl, rfl⟩ | ⟨_, otherThere⟩
      · exact absurd sameTenant (alone _ one apart oneThere otherLives oneLives sameUser)
      · exact sound.oneLive _ _ one other oneThere otherThere oneLives otherLives sameUser
          sameTenant
  passwordsCounted := sound.passwordsCounted
  notificationsCounted id held here := by
    rcases rows_put here with ⟨rfl, rfl⟩ | ⟨_, other⟩
    · exact counted
    · exact sound.notificationsCounted id held other

theorem put_row_kept (sound : Sound store) {id : MembershipId} {old : Membership}
    (held : store.memberships.get? id = some old) (row : Membership) (grown : RowGrown old row)
    (counted : row.notifySentSeq ≤ row.notifyRequestedSeq)
    (active : row.status = .active → old.status = .active ∨ store.isActive row.tenantId = true) :
    Kept store (store.putMembership row) := by
  have found : store.memberships.get? row.id = some old := by
    rw [grown.id, sound.rowIds id old held, held]
  exact {
    sound := by
      refine put_row_sound sound ?_ ?_ counted
      · rw [grown.user]
        exact sound.owned _ old found
      · intro id other apart there lives otherLives sameUser sameTenant
        exact apart (sound.oneLive id row.id other old there found otherLives (grown.live lives)
          (sameUser.trans grown.user) (sameTenant.trans grown.tenant))
    grown :=
      { users := fun _ user here => ⟨user, here, .refl user⟩
        rows := set_grown .refl found grown
        keys := Dict.keys_prefix_set _ _ _
        tenants := fun _ here => here
        actives := by
          intro id held here isActive
          rcases rows_put here with ⟨rfl, rfl⟩ | ⟨_, other⟩
          · rcases active isActive with was | open_
            · exact .inr ⟨old, found, was, grown.tenant.symm⟩
            · exact .inl open_
          · exact .inr ⟨held, other, isActive, rfl⟩ } }

theorem get_of_absent {Key Value : Type} [DecidableEq Key] {dict : Dict Key Value} {key other : Key}
    {value held : Value} (absent : dict.contains key = false) (here : dict.get? other = some held) :
    (dict.set key value).get? other = some held := by
  have different : key ≠ other := by
    rintro rfl
    rw [Dict.contains, here] at absent
    contradiction
  rw [Dict.get_set, if_neg different, here]

theorem new_membership_kept (sound : Sound store) {row : Membership}
    (absent : store.memberships.contains row.id = false)
    (owner : store.users.contains row.userId = true) (invited : row.status = .invited)
    (alone : store.liveRow row.userId row.tenantId = none)
    (counted : row.notifySentSeq ≤ row.notifyRequestedSeq) :
    Kept store (store.putMembership row) where
  sound := by
    refine put_row_sound sound owner ?_ counted
    intro id other _ there _ lives sameUser sameTenant
    have member : other ∈ store.memberships.values :=
      List.mem_map.mpr ⟨_, (Dict.mem_entries_iff _ id other).mpr there, rfl⟩
    have unfound := List.find?_eq_none.mp alone other member
    simp [lives, sameUser, sameTenant] at unfound
  grown :=
    { users := fun _ user here => ⟨user, here, .refl user⟩
      rows := fun _ held here => ⟨held, get_of_absent absent here, .refl held⟩
      keys := Dict.keys_prefix_set _ _ _
      tenants := fun _ here => here
      actives := by
        intro id held here isActive
        rcases rows_put here with ⟨rfl, rfl⟩ | ⟨_, other⟩
        · rw [invited] at isActive
          contradiction
        · exact .inr ⟨held, other, isActive, rfl⟩ }

theorem new_user_kept (sound : Sound store) {user : User} {index : Dict Str UserId}
    (absent : store.users.contains user.id = false)
    (counted : user.setPasswordSentSeq ≤ user.setPasswordRequestedSeq) :
    Kept store { store with users := store.users.set user.id user, byEmail := index } where
  sound :=
    have put := put_user_sound sound counted
    ⟨put.userIds, put.rowIds, put.owned, put.oneLive, put.passwordsCounted,
      put.notificationsCounted⟩
  grown :=
    { users := fun _ held here => ⟨held, get_of_absent absent here, .refl held⟩
      rows := fun _ row here => ⟨row, here, .refl row⟩
      keys := List.prefix_refl _
      tenants := fun _ here => here
      actives := fun _ row here active => .inr ⟨row, here, active, rfl⟩ }

theorem indexes_kept (sound : Sound store) (email account : Dict Str UserId)
    (sessions : Dict Str Session) :
    Kept store { store with byEmail := email, byAccount := account, sessions := sessions } where
  sound := ⟨sound.userIds, sound.rowIds, sound.owned, sound.oneLive, sound.passwordsCounted,
    sound.notificationsCounted⟩
  grown :=
    { users := fun _ user here => ⟨user, here, .refl user⟩
      rows := fun _ row here => ⟨row, here, .refl row⟩
      keys := List.prefix_refl _
      tenants := fun _ here => here
      actives := fun _ row here active => .inr ⟨row, here, active, rfl⟩ }

end Puts

/-- What an operation that settles nothing writes; it may activate one user. -/
inductive Write (activated : Option UserId) : MemoryRepository → MemoryRepository → Prop where
  | nothing {store : MemoryRepository} : Write activated store store
  | user {store : MemoryRepository} {id : UserId} {old : User}
      (held : store.users.get? id = some old) (next : User) (grown : UserGrown old next)
      (sent : next.setPasswordSentSeq = old.setPasswordSentSeq)
      (status : next.status = old.status ∨ activated = some id) :
      Write activated store (store.putUser next)
  | row {store : MemoryRepository} {id : MembershipId} {old : Membership}
      (held : store.memberships.get? id = some old)
      (next : Membership) (grown : RowGrown old next) (sent : next.notifySentSeq = old.notifySentSeq)
      (active : next.status = .active →
        old.status = .active ∨ store.isActive next.tenantId = true) :
      Write activated store (store.putMembership next)
  | newUser {store : MemoryRepository} (user : User) (index : Dict Str UserId)
      (absent : store.users.contains user.id = false)
      (counted : user.setPasswordSentSeq ≤ user.setPasswordRequestedSeq) :
      Write activated store { store with users := store.users.set user.id user, byEmail := index }
  | newRow {store : MemoryRepository} (row : Membership)
      (absent : store.memberships.contains row.id = false)
      (owner : store.users.contains row.userId = true) (invited : row.status = .invited)
      (alone : store.liveRow row.userId row.tenantId = none)
      (counted : row.notifySentSeq ≤ row.notifyRequestedSeq) :
      Write activated store (store.putMembership row)
  | indexes {store : MemoryRepository} (email account : Dict Str UserId)
      (sessions : Dict Str Session) :
      Write activated store { store with byEmail := email, byAccount := account, sessions := sessions }
  | both {store middle after : MemoryRepository} (first : Write activated store middle)
      (second : Write activated middle after) : Write activated store after

theorem Write.kept {activated : Option UserId} {store after : MemoryRepository}
    (write : Write activated store after) (sound : Sound store) : Kept store after := by
  induction write with
  | nothing => exact sound.kept
  | user held next grown sent status =>
      refine put_user_kept sound held next grown ?_
      rw [sent]
      exact (sound.passwordsCounted _ _ held).trans grown.requested
  | row held next grown sent active =>
      refine put_row_kept sound held next grown ?_ active
      rw [sent]
      exact (sound.notificationsCounted _ _ held).trans grown.requested
  | newUser user index absent counted => exact new_user_kept sound absent counted
  | newRow row absent owner invited alone counted =>
      exact new_membership_kept sound absent owner invited alone counted
  | indexes email account sessions => exact indexes_kept sound email account sessions
  | both _ _ firstKept secondKept =>
      have first := firstKept sound
      exact first.trans (secondKept first.sound)

/-- Nothing that was requested is settled by it. -/
structure Unsettled (store after : MemoryRepository) : Prop where
  passwords : ∀ id user next, store.users.get? id = some user →
    after.users.get? id = some next → next.setPasswordSentSeq = user.setPasswordSentSeq
  notifications : ∀ id row next, store.memberships.get? id = some row →
    after.memberships.get? id = some next → next.notifySentSeq = row.notifySentSeq

theorem Unsettled.same_rows {store after : MemoryRepository}
    (users : after.users = store.users) (rows : after.memberships = store.memberships) :
    Unsettled store after where
  passwords id user next held here := by
    rw [users, held] at here
    rw [Option.some.inj here]
  notifications id row next held here := by
    rw [rows, held] at here
    rw [Option.some.inj here]

theorem Write.unsettled {activated : Option UserId} {store after : MemoryRepository}
    (write : Write activated store after) (sound : Sound store) : Unsettled store after := by
  induction write with
  | nothing => exact .same_rows rfl rfl
  | @user store id old held next grown sent status =>
      refine ⟨?_, fun id row other here there => (Unsettled.same_rows rfl rfl).notifications id row
        other here there⟩
      intro other user after here there
      rcases users_put there with ⟨rfl, rfl⟩ | ⟨_, unchanged⟩
      · rw [grown.id, sound.userIds id old held, held] at here
        rw [← Option.some.inj here, sent]
      · rw [here] at unchanged
        rw [Option.some.inj unchanged]
  | @row store id old held next grown sent active =>
      refine ⟨fun id user other here there => (Unsettled.same_rows rfl rfl).passwords id user
        other here there, ?_⟩
      intro other row after here there
      rcases rows_put there with ⟨rfl, rfl⟩ | ⟨_, unchanged⟩
      · rw [grown.id, sound.rowIds id old held, held] at here
        rw [← Option.some.inj here, sent]
      · rw [here] at unchanged
        rw [Option.some.inj unchanged]
  | newUser user index absent counted =>
      refine ⟨?_, fun id row other here there => (Unsettled.same_rows rfl rfl).notifications id row
        other here there⟩
      intro id held next here there
      rw [get_of_absent absent here] at there
      rw [Option.some.inj there]
  | newRow row absent owner invited alone counted =>
      refine ⟨fun id user other here there => (Unsettled.same_rows rfl rfl).passwords id user
        other here there, ?_⟩
      intro id held next here there
      change (Dict.set _ row.id row).get? id = some next at there
      rw [get_of_absent absent here] at there
      rw [Option.some.inj there]
  | indexes email account sessions => exact .same_rows rfl rfl
  | both first _ firstUnsettled secondUnsettled =>
      have kept := first.kept sound
      have early := firstUnsettled sound
      have late := secondUnsettled kept.sound
      constructor
      · intro id user next here there
        obtain ⟨middle, between, _⟩ := kept.grown.users id user here
        rw [late.passwords id middle next between there, early.passwords id user middle here between]
      · intro id row next here there
        obtain ⟨middle, between, _⟩ := kept.grown.rows id row here
        rw [late.notifications id middle next between there,
          early.notifications id row middle here between]

/-- Every user's status is as it was, but for one that is activated. -/
theorem Write.statuses {activated : Option UserId} {store after : MemoryRepository}
    (write : Write activated store after) (sound : Sound store) (id : UserId) (user next : User)
    (held : store.users.get? id = some user) (there : after.users.get? id = some next) :
    next.status = user.status ∨ activated = some id := by
  induction write generalizing user next with
  | nothing =>
      rw [held] at there
      exact .inl (by rw [Option.some.inj there])
  | @user store own old found changed grown sent status =>
      rcases users_put there with ⟨rfl, rfl⟩ | ⟨_, unchanged⟩
      · have same : next.id = own := grown.id.trans (sound.userIds own old found)
        rw [same, found] at held
        rw [← Option.some.inj held, same]
        exact status
      · rw [held] at unchanged
        exact .inl (by rw [Option.some.inj unchanged])
  | row | newRow | indexes =>
      have same : user = next := Option.some.inj (held.symm.trans there)
      exact .inl (by rw [same])
  | newUser user index absent counted =>
      rw [get_of_absent absent held] at there
      exact .inl (by rw [Option.some.inj there])
  | both first _ firstStatus secondStatus =>
      have kept := first.kept sound
      obtain ⟨middle, between, _⟩ := kept.grown.users id user held
      rcases secondStatus kept.sound middle next between there with same | here
      · rw [same]
        exact firstStatus sound user middle held between
      · exact .inr here

section Operations

variable {activated : Option UserId} {store : MemoryRepository}

theorem mem_users (sound : Sound store) {user : User} (member : user ∈ store.users.values) :
    store.users.get? user.id = some user := by
  obtain ⟨⟨id, held⟩, entry, rfl⟩ := List.mem_map.mp member
  have here := (Dict.mem_entries_iff _ id held).mp entry
  rw [sound.userIds id held here, here]

theorem mem_rows (sound : Sound store) {row : Membership}
    (member : row ∈ store.memberships.values) :
    store.memberships.get? row.id = some row := by
  obtain ⟨⟨id, held⟩, entry, rfl⟩ := List.mem_map.mp member
  have here := (Dict.mem_entries_iff _ id held).mp entry
  rw [sound.rowIds id held here, here]

theorem sessions_write (sessions : Dict Str Session) :
    Write activated store { store with sessions := sessions } :=
  .indexes store.byEmail store.byAccount sessions

theorem new_user_write [UnicodeDatabase] (email : Str) (now : Time) {minted : UserId}
    (fresh : store.users.contains minted = false) :
    Write activated store (store.newUser email now minted).2 := by
  unfold newUser
  cases built : User.new minted email now with
  | error why => exact .nothing
  | ok user =>
      obtain ⟨address, -, rfl⟩ : ∃ address, normalizeEmail email = .ok address ∧
          ({ id := minted, email := address, createdAt := now, updatedAt := now } : User) = user := by
        unfold User.new at built
        cases normal : normalizeEmail email with
        | error why => rw [normal] at built; cases built
        | ok address => rw [normal] at built; exact ⟨address, rfl, Except.ok.inj built⟩
      exact .newUser _ _ fresh le_rfl

theorem ensure_user_write [UnicodeDatabase] (email : Str) (now : Time) {minted : UserId}
    (fresh : store.users.contains minted = false) :
    Write activated store (store.ensureUser email now minted).2 := by
  unfold ensureUser
  split
  · exact .nothing
  · split
    · exact .nothing
    · exact new_user_write _ now fresh

theorem record_signin_account_write (user : UserId) (account : Str) :
    Write activated store (store.recordSigninAccount user account).2 := by
  unfold recordSigninAccount
  cases found : store.users.get? user with
  | none => exact .nothing
  | some held =>
      simp only
      split
      · exact .nothing
      · have put : Write activated store (store.putUser { held with signinAccountId := some account }) :=
          .user found _ ⟨rfl, rfl, rfl, fun here => here, le_rfl⟩ rfl (.inl rfl)
        exact put.both (.indexes _ _ _)

theorem activate_user_write (user : UserId) (name : Str) (now : Time) :
    Write (some user) store (store.activateUser user name now).2 := by
  unfold activateUser
  cases found : store.users.get? user with
  | none => exact .nothing
  | some held =>
      simp only
      split
      · exact .user found _ ⟨rfl, rfl, rfl, fun _ => rfl, le_rfl⟩ rfl (.inr rfl)
      · exact .nothing

theorem set_display_name_write (user : UserId) (name : Str) (now : Time) :
    Write activated store (store.setDisplayName user name now) := by
  unfold setDisplayName
  cases found : store.users.get? user with
  | none => exact .nothing
  | some held =>
      simp only
      split
      · exact .nothing
      · exact .user found _ ⟨rfl, rfl, rfl, fun here => here, le_rfl⟩ rfl (.inl rfl)

theorem ensure_invitation_write (user : UserId) (tenant : TenantId) (invitedBy : Option UserId)
    (now : Time) (expiresAt : Option Time) {minted : MembershipId}
    (fresh : store.memberships.contains minted = false) :
    Write activated store (store.ensureInvitation user tenant invitedBy now expiresAt minted).2 := by
  unfold ensureInvitation
  split
  · exact .nothing
  · rename_i known
    split
    · exact .nothing
    · rename_i alone
      split
      · exact .nothing
      · have owner : store.users.contains user = true := by
          simp only [dangling, Bool.or_eq_true, Bool.not_eq_true', not_or, Bool.not_eq_false]
            at known
          exact known.1
        exact .newRow _ fresh owner rfl alone le_rfl

theorem accept_invitation_write (membership : MembershipId) (now : Time) :
    Write activated store (store.acceptInvitation membership now).2 := by
  unfold acceptInvitation
  cases found : store.memberships.get? membership with
  | none => exact .nothing
  | some row =>
      simp only
      split
      · rename_i accepted
        exact .row found _ ⟨rfl, rfl, rfl, nofun, fun _ => by rw [accepted.1]; rfl, le_rfl⟩ rfl
          fun _ => .inr accepted.2.2
      · exact .nothing

theorem end_membership_write (membership : MembershipId) (endedBy : Option UserId) (now : Time) :
    Write activated store (store.endMembership membership endedBy now).2 := by
  unfold endMembership
  cases found : store.memberships.get? membership with
  | none => exact .nothing
  | some row =>
      simp only
      split
      · split
        · exact .nothing
        · exact .row found _ ⟨rfl, rfl, rfl, nofun, nofun, le_rfl⟩ rfl nofun
      · exact .nothing

theorem revoke_invitation_write (membership : MembershipId) :
    Write activated store (store.revokeInvitation membership).2 := by
  unfold revokeInvitation
  cases found : store.memberships.get? membership with
  | none => exact .nothing
  | some row =>
      simp only
      split
      · exact .row found _ ⟨rfl, rfl, rfl, nofun, nofun, le_rfl⟩ rfl nofun
      · exact .nothing

theorem request_set_password_write (user : UserId) (now : Time) :
    Write activated store (store.requestSetPassword user now).2 := by
  unfold requestSetPassword
  cases found : store.users.get? user with
  | none => exact .nothing
  | some held =>
      exact .user found _ ⟨rfl, rfl, rfl, fun here => here, Nat.le_succ _⟩ rfl (.inl rfl)

theorem request_notification_write (membership : MembershipId) (now : Time) :
    Write activated store (store.requestNotification membership now).2 := by
  unfold requestNotification
  cases found : store.memberships.get? membership with
  | none => exact .nothing
  | some row =>
      exact .row found _ ⟨rfl, rfl, rfl, fun here => here, fun here => here, Nat.le_succ _⟩ rfl .inl

theorem claim_set_password_write (sound : Sound store) (now holdUntil : Time)
    (skip : List UserId) : Write activated store (store.claimSetPassword now holdUntil skip).2 := by
  unfold claimSetPassword
  split
  · exact .nothing
  · rename_i held claimed
    exact .user (mem_users sound (List.mem_of_find?_eq_some claimed)) _
      ⟨rfl, rfl, rfl, fun here => here, le_rfl⟩ rfl (.inl rfl)

theorem claim_notification_write (sound : Sound store) (now holdUntil : Time)
    (skip : List MembershipId) : Write activated store (store.claimNotification now holdUntil skip).2 := by
  unfold claimNotification
  split
  · exact .nothing
  · rename_i held claimed
    exact .row (mem_rows sound (List.mem_of_find?_eq_some claimed)) _
      ⟨rfl, rfl, rfl, fun here => here, fun here => here, le_rfl⟩ rfl .inl

theorem defer_set_password_write (user : UserId) (nextTry : Time) :
    Write activated store (store.deferSetPassword user nextTry) := by
  unfold deferSetPassword
  cases found : store.users.get? user with
  | none => exact .nothing
  | some held => exact .user found _ ⟨rfl, rfl, rfl, fun here => here, le_rfl⟩ rfl (.inl rfl)

theorem defer_notification_write (membership : MembershipId) (nextTry : Time) :
    Write activated store (store.deferNotification membership nextTry) := by
  unfold deferNotification
  cases found : store.memberships.get? membership with
  | none => exact .nothing
  | some row =>
      exact .row found _ ⟨rfl, rfl, rfl, fun here => here, fun here => here, le_rfl⟩ rfl .inl

theorem ensure_user_held [UnicodeDatabase] {after : MemoryRepository} (sound : Sound store) {email : Str}
    {now : Time} {minted : UserId} {user : User}
    (ran : store.ensureUser email now minted = (.ok user, after)) :
    after.users.get? user.id = some user := by
  unfold ensureUser at ran
  split at ran
  · cases ran
  · split at ran
    · rename_i found
      cases ran
      obtain ⟨id, _, held⟩ := Option.bind_eq_some_iff.mp found
      have own : user.id = id := sound.userIds id user held
      rw [own]
      exact held
    · unfold newUser at ran
      split at ran
      · cases ran
      · cases ran
        change (store.users.set user.id user).get? user.id = some user
        rw [Dict.get_set, if_pos rfl]

theorem ensure_invitation_held {after : MemoryRepository} (sound : Sound store)
    {user : UserId} {tenant : TenantId} {invitedBy : Option UserId} {now : Time}
    {expiresAt : Option Time} {minted : MembershipId} {row : Membership}
    (ran : store.ensureInvitation user tenant invitedBy now expiresAt minted =
      (.ok (some row), after)) :
    after.memberships.get? row.id = some row ∧ row.userId = user := by
  unfold ensureInvitation at ran
  split at ran
  · cases ran
  · split at ran
    · rename_i live found
      obtain ⟨answer, rfl⟩ := Prod.mk.inj ran
      have same := Except.ok.inj answer
      split at same
      · contradiction
      · obtain rfl := Option.some.inj same
        have owner := List.find?_some found
        simp only [Bool.and_eq_true, beq_iff_eq] at owner
        exact ⟨mem_rows sound (List.mem_of_find?_eq_some found), owner.1.1⟩
    · split at ran
      · cases ran
      · obtain ⟨answer, rfl⟩ := Prod.mk.inj ran
        obtain rfl := Option.some.inj (Except.ok.inj answer)
        exact ⟨get_put_membership store _, rfl⟩

theorem end_membership_ends (sound : Sound store) (id : MembershipId)
    (now : Time) {row : Membership}
    (here : (store.endMembership id none now).2.memberships.get? id = some row) :
    row.status ≠ .active := by
  unfold endMembership at here
  cases found : store.memberships.get? id with
  | none =>
      rw [found] at here
      dsimp only at here
      rw [found] at here
      contradiction
  | some held =>
      rw [found] at here
      dsimp only [unknownActor, Option.any] at here
      split at here
      · rcases rows_put here with ⟨_, rfl⟩ | ⟨different, _⟩
        · simp
        · exact absurd (sound.rowIds id held found).symm different
      · rename_i unended
        rw [found] at here
        rwa [← Option.some.inj here]

end Operations

section Settling

theorem expire_each_kept (rows : List Membership) (expiry : Time)
    (distinct : (rows.map Membership.id).Nodup) {store : MemoryRepository} (sound : Sound store)
    (held : ∀ row ∈ rows, store.memberships.get? row.id = some row) :
    Kept store (rows.foldl
      (fun store row => store.putMembership { row with expiresAt := some expiry }) store) := by
  induction rows generalizing store with
  | nil => exact sound.kept
  | cons row rest ih =>
      have found := held row List.mem_cons_self
      have put := put_row_kept sound found { row with expiresAt := some expiry }
        ⟨rfl, rfl, rfl, fun here => here, fun here => here, le_rfl⟩
        (sound.notificationsCounted _ row found) .inl
      rw [List.map_cons, List.nodup_cons] at distinct
      refine put.trans (ih distinct.2 put.sound ?_)
      intro other member
      have different : row.id ≠ other.id := by
        intro same
        exact distinct.1 (same ▸ List.mem_map_of_mem member)
      change (store.memberships.set row.id _).get? other.id = some other
      rw [Dict.get_set, if_neg different]
      exact held other (List.mem_cons_of_mem _ member)

theorem expire_each_users (rows : List Membership) (expiry : Time) (store : MemoryRepository) :
    (rows.foldl (fun store row => store.putMembership { row with expiresAt := some expiry })
      store).users = store.users := by
  induction rows generalizing store with
  | nil => rfl
  | cons row rest ih => exact ih _

theorem expire_each_rows (rows : List Membership) (expiry : Time) {store : MemoryRepository}
    (alike : ∀ row ∈ rows, ∃ old, store.memberships.get? row.id = some old ∧
      row.notifySentSeq = old.notifySentSeq)
    {id : MembershipId} {next : Membership}
    (there : (rows.foldl
      (fun store row => store.putMembership { row with expiresAt := some expiry })
      store).memberships.get? id = some next) :
    ∃ row, store.memberships.get? id = some row ∧ next.notifySentSeq = row.notifySentSeq := by
  induction rows generalizing store with
  | nil => exact ⟨next, there, rfl⟩
  | cons row rest ih =>
      obtain ⟨old, found, same⟩ := alike row List.mem_cons_self
      have onward : ∀ {other : MembershipId} {held : Membership},
          (store.putMembership { row with expiresAt := some expiry }).memberships.get? other =
            some held →
          ∃ was, store.memberships.get? other = some was ∧
            held.notifySentSeq = was.notifySentSeq := by
        intro other held here
        rcases rows_put here with ⟨rfl, rfl⟩ | ⟨_, unchanged⟩
        · exact ⟨old, found, same⟩
        · exact ⟨held, unchanged, rfl⟩
      obtain ⟨middle, between, sent⟩ := ih (by
        intro other member
        obtain ⟨was, here, equal⟩ := alike other (List.mem_cons_of_mem _ member)
        by_cases again : other.id = row.id
        · refine ⟨{ row with expiresAt := some expiry }, ?_, ?_⟩
          · rw [again]
            exact get_put_membership store { row with expiresAt := some expiry }
          · rw [again, found] at here
            rw [equal, ← Option.some.inj here]
            exact same.symm
        · refine ⟨was, ?_, equal⟩
          change (store.memberships.set row.id _).get? other.id = some was
          rw [Dict.get_set, if_neg fun eq => again eq.symm, here]) there
      obtain ⟨was, here, equal⟩ := onward between
      exact ⟨was, here, sent.trans equal⟩

theorem settle_notification_users (store : MemoryRepository) (membership : MembershipId)
    (readSeq : Nat) (sentAt expiresAt : Option Time) :
    (store.settleNotification membership readSeq sentAt expiresAt).2.users = store.users := by
  unfold settleNotification
  cases store.memberships.get? membership with
  | none => rfl
  | some row =>
      dsimp only
      split <;> rfl

variable {store : MemoryRepository} (sound : Sound store)
include sound

theorem row_ids_distinct : (store.memberships.values.map Membership.id).Nodup := by
  have same : store.memberships.values.map Membership.id =
      store.memberships.entries.map Prod.fst := by
    rw [Dict.values, List.map_map]
    apply List.map_congr_left
    intro entry member
    exact sound.rowIds _ _ ((Dict.mem_entries_iff _ entry.1 entry.2).mp member)
  rw [same]
  exact store.memberships.nodup

theorem expire_rows_kept (user : UserId) (sentAt expiresAt : Option Time) :
    Kept store (store.expireRows user sentAt expiresAt) := by
  unfold expireRows
  split
  · apply expire_each_kept _ _ _ sound
    · intro row member
      exact mem_rows sound (List.mem_of_mem_filter member)
    · exact (row_ids_distinct sound).sublist (List.Sublist.map _ List.filter_sublist)
  · exact sound.kept

theorem settle_set_password_kept (user : UserId) (readSeq : Nat) (sentAt expiresAt : Option Time) :
    Kept store (store.settleSetPassword user readSeq sentAt expiresAt).2 := by
  unfold settleSetPassword
  cases found : store.users.get? user with
  | none => exact sound.kept
  | some held =>
      simp only
      split
      · rename_i pending
        have put := put_user_kept sound found
          { held with
            setPasswordSentSeq := readSeq, setPasswordAttempts := 0, setPasswordNextTryAt := none,
            setPasswordSentAt := sentAt.or held.setPasswordSentAt }
          ⟨rfl, rfl, rfl, fun here => here, le_rfl⟩ pending.2
        exact put.trans (expire_rows_kept put.sound user sentAt expiresAt)
      · exact sound.kept

theorem settle_notification_kept (membership : MembershipId) (readSeq : Nat)
    (sentAt expiresAt : Option Time) :
    Kept store (store.settleNotification membership readSeq sentAt expiresAt).2 := by
  unfold settleNotification
  cases found : store.memberships.get? membership with
  | none => exact sound.kept
  | some row =>
      simp only
      split
      · rename_i pending
        exact put_row_kept sound found _
          ⟨rfl, rfl, rfl, fun here => here, fun here => here, le_rfl⟩ pending.2 .inl
      · exact sound.kept

theorem expired_rows (user : UserId) (sentAt expiresAt : Option Time) {id : MembershipId}
    {next : Membership}
    (there : (store.expireRows user sentAt expiresAt).memberships.get? id = some next) :
    ∃ row, store.memberships.get? id = some row ∧ next.notifySentSeq = row.notifySentSeq := by
  unfold expireRows at there
  split at there
  · refine expire_each_rows _ _ ?_ there
    intro row member
    exact ⟨row, mem_rows sound (List.mem_of_mem_filter member), rfl⟩
  · exact ⟨next, there, rfl⟩

/-- Settling counts the sends of the user up to the one that was read. -/
theorem settle_set_password_sent (user : UserId) (readSeq : Nat) (sentAt expiresAt : Option Time)
    {id : UserId} {next : User}
    (there : (store.settleSetPassword user readSeq sentAt expiresAt).2.users.get? id = some next) :
    ∃ held, store.users.get? id = some held ∧ next.status = held.status ∧
      (next.setPasswordSentSeq = held.setPasswordSentSeq ∨
        id = user ∧ next.setPasswordSentSeq = readSeq) := by
  unfold settleSetPassword at there
  cases found : store.users.get? user with
  | none =>
      rw [found] at there
      exact ⟨next, there, rfl, .inl rfl⟩
  | some held =>
      rw [found] at there
      dsimp only at there
      split at there
      · have users : ((store.putUser { held with
            setPasswordSentSeq := readSeq, setPasswordAttempts := 0, setPasswordNextTryAt := none,
            setPasswordSentAt := sentAt.or held.setPasswordSentAt }).expireRows user sentAt
              expiresAt).users.get? id = some next := there
        unfold expireRows at users
        have put : (store.putUser { held with
            setPasswordSentSeq := readSeq, setPasswordAttempts := 0, setPasswordNextTryAt := none,
            setPasswordSentAt := sentAt.or held.setPasswordSentAt }).users.get? id = some next := by
          split at users
          · rw [expire_each_users] at users
            exact users
          · exact users
        rcases users_put put with ⟨same, rfl⟩ | ⟨_, unchanged⟩
        · have owner : held.id = user := sound.userIds user held found
          exact ⟨held, by rw [same, owner]; exact found, rfl, .inr ⟨same.trans owner, rfl⟩⟩
        · exact ⟨next, unchanged, rfl, .inl rfl⟩
      · exact ⟨next, there, rfl, .inl rfl⟩

theorem settle_set_password_rows (user : UserId) (readSeq : Nat) (sentAt expiresAt : Option Time)
    {id : MembershipId} {next : Membership}
    (there : (store.settleSetPassword user readSeq sentAt expiresAt).2.memberships.get? id =
      some next) :
    ∃ row, store.memberships.get? id = some row ∧ next.notifySentSeq = row.notifySentSeq := by
  unfold settleSetPassword at there
  cases found : store.users.get? user with
  | none =>
      rw [found] at there
      exact ⟨next, there, rfl⟩
  | some held =>
      rw [found] at there
      dsimp only at there
      split at there
      · rename_i pending
        have put := put_user_kept sound found
          { held with
            setPasswordSentSeq := readSeq, setPasswordAttempts := 0, setPasswordNextTryAt := none,
            setPasswordSentAt := sentAt.or held.setPasswordSentAt }
          ⟨rfl, rfl, rfl, fun here => here, le_rfl⟩ pending.2
        exact expired_rows put.sound user sentAt expiresAt there
      · exact ⟨next, there, rfl⟩

theorem settle_notification_sent (membership : MembershipId) (readSeq : Nat)
    (sentAt expiresAt : Option Time) {id : MembershipId} {next : Membership}
    (there : (store.settleNotification membership readSeq sentAt expiresAt).2.memberships.get? id =
      some next) :
    ∃ row, store.memberships.get? id = some row ∧
      (next.notifySentSeq = row.notifySentSeq ∨
        id = membership ∧ next.notifySentSeq = readSeq) := by
  unfold settleNotification at there
  cases found : store.memberships.get? membership with
  | none =>
      rw [found] at there
      exact ⟨next, there, .inl rfl⟩
  | some row =>
      rw [found] at there
      dsimp only at there
      split at there
      · rcases rows_put there with ⟨same, rfl⟩ | ⟨_, unchanged⟩
        · have own : row.id = membership := sound.rowIds membership row found
          have here : id = membership := same.trans own
          exact ⟨row, by rw [here]; exact found, .inr ⟨here, rfl⟩⟩
        · exact ⟨next, unchanged, .inl rfl⟩
      · exact ⟨next, there, .inl rfl⟩

end Settling

theorem run_write [UnicodeDatabase] [SessionDigest] {store : MemoryRepository}
    (sound : Sound store) {minted : Nat} (fresh : store.fresh minted) (call : Call)
    (ordinary : call.ordinary = true) (settles : call.settles = false) :
    Write call.activated store (store.run minted call).2 := by
  cases call with
  | ensureUser email now => exact ensure_user_write email now fresh.1
  | recordSigninAccount user account => exact record_signin_account_write user account
  | activateUser user name now => exact activate_user_write user name now
  | setDisplayName user name now => exact set_display_name_write user name now
  | setPlatformAdmin user flag => contradiction
  | ensureInvitation user tenant invitedBy now expiresAt =>
    exact ensure_invitation_write user tenant invitedBy now expiresAt fresh.2
  | acceptInvitation membership now => exact accept_invitation_write membership now
  | endMembership membership endedBy now => exact end_membership_write membership endedBy now
  | revokeInvitation membership => exact revoke_invitation_write membership
  | requestSetPassword user now => exact request_set_password_write user now
  | requestNotification membership now => exact request_notification_write membership now
  | claimSetPassword now hold skip => exact claim_set_password_write sound now hold skip
  | claimNotification now hold skip => exact claim_notification_write sound now hold skip
  | deferSetPassword user nextTry => exact defer_set_password_write user nextTry
  | deferNotification membership nextTry => exact defer_notification_write membership nextTry
  | settleSetPassword user readSeq sentAt expiresAt => contradiction
  | settleNotification membership readSeq sentAt expiresAt => contradiction
  | addSession value user now expiresAt usedOtp =>
    change Write none store (store.addSession value user now expiresAt usedOtp).2
    unfold addSession
    dsimp only
    split
    · exact .nothing
    · exact sessions_write _
  | deleteSession value => exact sessions_write _
  | touchSession value now =>
    change Write none store (store.touchSession value now).2
    unfold touchSession
    split
    · exact .nothing
    · split
      · exact .nothing
      · exact sessions_write _
  | purgeExpiredSessions now idleSince => exact sessions_write _
  | _ => exact .nothing

theorem run_kept [UnicodeDatabase] [SessionDigest] {store : MemoryRepository} (sound : Sound store)
    {minted : Nat} (fresh : store.fresh minted) (call : Call) (ordinary : call.ordinary = true) :
    Kept store (store.run minted call).2 := by
  cases settles : call.settles with
  | false => exact (run_write sound fresh call ordinary settles).kept sound
  | true =>
      cases call with
      | settleSetPassword user readSeq sentAt expiresAt =>
        exact settle_set_password_kept sound user readSeq sentAt expiresAt
      | settleNotification membership readSeq sentAt expiresAt =>
        exact settle_notification_kept sound membership readSeq sentAt expiresAt
      | _ => contradiction

theorem set_platform_admin_sound {store : MemoryRepository} (sound : Sound store) (user : UserId)
    (flag : Bool) : Sound (store.setPlatformAdmin user flag) := by
  unfold setPlatformAdmin
  cases found : store.users.get? user with
  | none => exact sound
  | some held => exact put_user_sound sound (sound.passwordsCounted user held found)

theorem run_sound [UnicodeDatabase] [SessionDigest] {store : MemoryRepository} (sound : Sound store)
    {minted : Nat} (fresh : store.fresh minted) (call : Call) :
    Sound (store.run minted call).2 := by
  cases ordinary : call.ordinary with
  | true => exact (run_kept sound fresh call ordinary).sound
  | false =>
      cases call with
      | setPlatformAdmin user flag => exact set_platform_admin_sound sound user flag
      | _ => contradiction

/-- Only `activateUser` changes a user's status. -/
theorem run_statuses [UnicodeDatabase] [SessionDigest] {store : MemoryRepository}
    (sound : Sound store) {minted : Nat} (fresh : store.fresh minted) (call : Call) (id : UserId)
    (user next : User) (held : store.users.get? id = some user)
    (there : (store.run minted call).2.users.get? id = some next) :
    next.status = user.status ∨ call.activated = some id := by
  cases call with
  | setPlatformAdmin own flag =>
      change (store.setPlatformAdmin own flag).users.get? id = some next at there
      unfold setPlatformAdmin at there
      split at there
      · rw [held] at there
        exact .inl (by rw [Option.some.inj there])
      · rename_i found here
        rcases users_put there with ⟨same, rfl⟩ | ⟨_, unchanged⟩
        · have owner : found.id = own := sound.userIds own found here
          rw [same] at held
          change store.users.get? found.id = some user at held
          rw [owner, here] at held
          exact .inl (by rw [← Option.some.inj held])
        · rw [held] at unchanged
          exact .inl (by rw [Option.some.inj unchanged])
  | settleSetPassword own readSeq sentAt expiresAt =>
      obtain ⟨other, again, status, _⟩ :=
        settle_set_password_sent sound own readSeq sentAt expiresAt there
      rw [held] at again
      exact .inl (by rw [Option.some.inj again, status])
  | settleNotification invitation readSeq sentAt expiresAt =>
      change (store.settleNotification invitation readSeq sentAt expiresAt).2.users.get? id =
        some next at there
      rw [settle_notification_users, held] at there
      exact .inl (by rw [Option.some.inj there])
  | _ => exact (run_write sound fresh _ rfl rfl).statuses sound id user next held there

/-- What calls leave that start on tenants alone. -/
inductive Built [UnicodeDatabase] [SessionDigest] : MemoryRepository → Prop where
  | opened (tenants : Dict TenantId TenantState) : Built { tenants := tenants }
  | called {store : MemoryRepository} (built : Built store) {minted : Nat}
      (fresh : store.fresh minted) (call : Call) : Built (store.run minted call).2

section Runs

variable [UnicodeDatabase] [SessionDigest] {store : MemoryRepository}

/-- The store after calls, each with the id it may mint. -/
def after (store : MemoryRepository) (calls : List (Nat × Call)) : MemoryRepository :=
  calls.foldl (fun held call => (held.run call.1 call.2).2) store

/-- Every call finds its id unused. -/
def MintsFresh (store : MemoryRepository) : List (Nat × Call) → Bool
  | [] => true
  | (minted, call) :: rest => store.fresh minted && MintsFresh (store.run minted call).2 rest

theorem Built.after (built : Built store) {calls : List (Nat × Call)}
    (fresh : store.MintsFresh calls = true) : Built (store.after calls) := by
  induction calls generalizing store with
  | nil => exact built
  | cons call rest ih =>
      rw [MintsFresh, Bool.and_eq_true, decide_eq_true_iff] at fresh
      exact ih (built.called fresh.1 call.2) fresh.2

end Runs

theorem built_store_sound [UnicodeDatabase] [SessionDigest] {store : MemoryRepository}
    (built : Built store) : Sound store := by
  induction built with
  | opened tenants =>
      exact ⟨fun _ _ here => absurd here nofun, fun _ _ here => absurd here nofun,
        fun _ _ here => absurd here nofun, fun _ _ _ _ here => absurd here nofun,
        fun _ _ here => absurd here nofun, fun _ _ here => absurd here nofun⟩
  | called _ fresh call sound => exact run_sound sound fresh call

/-- A person is asked for a password and told of an invitation, leaves and is invited again. -/
def invitedAgain : List (Nat × Call) :=
  [(1, .ensureUser "ana@example.org" 0), (0, .requestSetPassword 1 1),
    (0, .settleSetPassword 1 1 (some 2) none), (2, .ensureInvitation 1 "acme" none 3 none),
    (0, .requestNotification 2 4), (0, .settleNotification 2 1 (some 5) none),
    (0, .requestNotification 2 6), (0, .acceptInvitation 2 7), (0, .endMembership 2 none 8),
    (3, .ensureInvitation 1 "acme" none 9 none)]

theorem invited_again_store_sound :
    let store := @after asciiDatabase plainDigest
      { tenants := Dict.empty.set "acme" .active } invitedAgain
    store.Sound ∧
      store.memberships.values.map (fun row => (row.status, row.notifyRequestedSeq,
        row.notifySentSeq)) = [(.ended, 2, 1), (.invited, 0, 0)] ∧
      store.users.values.map (fun user => (user.setPasswordRequestedSeq,
        user.setPasswordSentSeq)) = [(1, 1)] :=
  ⟨@built_store_sound asciiDatabase plainDigest _ (@Built.after asciiDatabase plainDigest _
    (@Built.opened asciiDatabase plainDigest _) _ (by decide +kernel)), by decide +kernel⟩

end MemoryRepository

end Defender.Identity
