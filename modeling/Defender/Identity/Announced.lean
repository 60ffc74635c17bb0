import Defender.Identity.Offboarding

/-!
# Invitations and their announcement

A returned invitation that is open has had an email since its request, or one is pending.
What is pending depends on the person's status: a set-password request counts while they
are `invited`. So what keeps an invitation announced is lost in one way only, by a sign-in
that activates the person before the email of the request is out.
-/

namespace Defender.Identity

open Defender.Python
open Defender.Tenancy (Time)
open MemoryRepository

def Service.Asked.mark (shared : Shared) : Service.Asked → Option Mark
  | .setPassword user seq => shared.passwordMarks user seq
  | .notification invitation seq => shared.notificationMarks invitation seq

def Emailed (shared : Shared) (person : User) (asked : Option Service.Asked) : Prop :=
  ∃ request mark, asked = some request ∧ request.mark shared = some mark ∧
    mark.sentSince person shared.outbox

/-- The invitation may still be accepted, by a person who is no administrator. -/
structure OpenInvitation (shared : Shared) (invitation : MembershipId) (row : Membership)
    (person : User) : Prop where
  found : shared.store.memberships.get? invitation = some row
  owner : shared.store.users.get? row.userId = some person
  invited : row.status = .invited
  tenant : shared.store.isActive row.tenantId = true
  plain : person.isPlatformAdmin = false

def Announced (shared : Shared) (returned : Service.Invited) : Prop :=
  ∀ row person, OpenInvitation shared returned.view.id row person →
    Emailed shared person returned.asked ∨ setPasswordClaimable person = true ∨
      notificationClaimable row = true

def Operation.activated : Operation → Option UserId
  | .repo call => call.activated
  | _ => none

namespace System

/-- The user that a step moves from `invited` to `active`. -/
def activates (system : System) : Event → Option UserId
  | .go index reaction =>
    match system.pool.programs[index]? with
    | some (.perform operation _) =>
      operation.activated.filter fun user =>
        decide (system.pool.state.store.fresh reaction.minted) && reaction.fate != .breaks &&
          (system.pool.state.store.users.get? user).any fun held => held.status == .invited
    | _ => none
  | _ => none

def Announces (system : System) (event : Event) : Prop :=
  ∀ user, system.activates event = some user → ∀ returned, .invited returned ∈ system.finished →
    ∀ row person, OpenInvitation system.pool.state returned.view.id row person →
      row.userId = user → Emailed system.pool.state person returned.asked

def AllAnnounce [UnicodeDatabase] [SessionDigest] (listed : List Str) : System → List Event → Prop
  | _, [] => True
  | system, event :: rest =>
    system.Announces event ∧ AllAnnounce listed (step listed system event) rest

end System

def RecordKept (shared : Shared) (returned : Service.Invited) : Prop :=
  ∃ row person, shared.store.memberships.get? returned.view.id = some row ∧
    shared.store.users.get? row.userId = some person ∧ row.id = returned.view.id ∧
    (OpenInvitation shared returned.view.id row person →
      Emailed shared person returned.asked ∨
        ∃ asked, returned.asked = some asked ∧ Requested person row shared asked)

section Keeping

variable {shared after : Shared}

theorem Emailed.later {person next : User} {asked : Option Service.Asked}
    (emailed : Emailed shared person asked) (later : Later shared after)
    (grown : UserGrown person next) : Emailed after next asked := by
  obtain ⟨request, mark, same, marked, sent⟩ := emailed
  refine ⟨request, mark, same, ?_, sent.grown later.outbox grown⟩
  cases request with
  | setPassword user seq => exact later.passwordsKept user seq mark marked
  | notification invitation seq => exact later.notificationsKept invitation seq mark marked

theorem Standing.kept {returned : Service.Invited}
    (standing : Standing returned.view.id returned.asked shared) :
    RecordKept shared returned := by
  obtain ⟨row, person, found, owner, own, asked⟩ := standing
  refine ⟨row, person, found, owner, own, ?_⟩
  intro open_
  cases request : returned.asked with
  | none =>
      rw [request] at asked
      rw [open_.plain] at asked
      contradiction
  | some request_ =>
      rw [request] at asked
      exact .inr ⟨request_, rfl, asked⟩

theorem Requested.moved {person next : User} {row held : Membership} {asked : Service.Asked}
    (requested : Requested person row shared asked) (later : Later shared after)
    (grown : UserGrown person next) (same : next.status = person.status)
    (more : RowGrown row held) : Requested next held after asked := by
  have onward := requested.later later
  cases asked with
  | setPassword user seq =>
      exact ⟨onward.1.trans grown.id.symm, same.trans onward.2.1, by rw [more.id]; exact onward.2.2⟩
  | notification invitation seq =>
      exact ⟨onward.1.trans more.id.symm, same.trans onward.2.1, onward.2.2⟩

theorem RecordKept.later {returned : Service.Invited} (kept : RecordKept shared returned)
    (later : Later shared after)
    (statuses : ∀ row person next, OpenInvitation shared returned.view.id row person →
      after.store.users.get? row.userId = some next → next.status ≠ person.status →
      Emailed shared person returned.asked) : RecordKept after returned := by
  obtain ⟨row, person, found, owner, own, known⟩ := kept
  obtain ⟨held, there, more⟩ := later.grown.rows _ row found
  obtain ⟨next, owns, grown⟩ := later.grown.users _ person owner
  refine ⟨held, next, there, more.user ▸ owns, more.id.trans own, ?_⟩
  intro open_
  have was : OpenInvitation shared returned.view.id row person :=
    ⟨found, owner, more.invited open_.invited,
      later.grown.tenants _ (more.tenant ▸ open_.tenant), grown.admin ▸ open_.plain⟩
  rcases known was with emailed | ⟨asked, same, requested⟩
  · exact .inl (emailed.later later grown)
  · by_cases still : next.status = person.status
    · exact .inr ⟨asked, same, requested.moved later grown still more⟩
    · exact .inl ((statuses row person next was owns still).later later grown)

/-- Unless it was settled, what was asked for is pending. -/
theorem RecordKept.announced {returned : Service.Invited} (kept : RecordKept shared returned)
    (sane : Sane shared) : Announced shared returned := by
  intro row person open_
  obtain ⟨held, holder, found, owner, own, known⟩ := kept
  obtain rfl : held = row := Option.some.inj (found.symm.trans open_.found)
  obtain rfl : holder = person := Option.some.inj (owner.symm.trans open_.owner)
  rcases known open_ with emailed | ⟨asked, same, requested⟩
  · exact .inl emailed
  cases asked with
  | setPassword user seq =>
      obtain ⟨rfl, invited, mark, marked, within, member⟩ := requested
      have here : shared.store.users.get? holder.id = some holder := by
        rw [sane.sound.userIds _ holder owner]
        exact owner
      obtain ⟨_, _, recorded, there, counted⟩ := sane.traced.passwords _ seq mark marked
      obtain rfl : recorded = holder := Option.some.inj (there.symm.trans here)
      by_cases settled : seq ≤ recorded.setPasswordSentSeq
      · rcases sane.traced.passwordsSettled _ recorded seq mark here settled marked invited with
          sent | closed
        · exact .inl ⟨.setPassword recorded.id seq, mark, same, marked, sent⟩
        · refine absurd open_.invited (closed _ held member ?_ ?_)
          · rw [own]
            exact found
          · exact (sane.sound.userIds _ recorded owner).symm
      · refine .inr (.inl ?_)
        simp only [setPasswordClaimable, invited, Bool.and_eq_true, beq_self_eq_true,
          decide_eq_true_eq, true_and]
        omega
  | notification invitation seq =>
      obtain ⟨rfl, active, mark, marked⟩ := requested
      obtain ⟨_, recorded, there, counted⟩ := sane.traced.notifications _ seq mark marked
      rw [own] at there marked
      obtain rfl : recorded = held := Option.some.inj (there.symm.trans found)
      by_cases settled : seq ≤ recorded.notifySentSeq
      · refine .inl ⟨.notification recorded.id seq, mark, same, ?_, ?_⟩
        · rw [own]
          exact marked
        · exact sane.traced.notificationsSettled _ recorded holder seq mark found settled marked
            open_.invited owner open_.plain
      · refine .inr (.inr ?_)
        simp only [notificationClaimable, open_.invited, Bool.and_eq_true, beq_self_eq_true,
          decide_eq_true_eq, true_and]
        omega

end Keeping

namespace System

variable [UnicodeDatabase] [SessionDigest] {listed : List Str} {system : System}

theorem performed_statuses {shared : Shared} (sane : Sane shared) {reaction : Reaction}
    (fresh : shared.store.fresh reaction.minted) (operation : Operation) (id : UserId)
    (user next : User) (held : shared.store.users.get? id = some user)
    (there : (perform operation reaction shared).2.store.users.get? id = some next)
    (moved : next.status ≠ user.status) :
    operation.activated = some id ∧ reaction.fate ≠ .breaks := by
  have effected : ∀ reached : Shared, reached.store = shared.store →
      reached.store.users.get? id ≠ some next := by
    intro reached same here
    rw [same, held] at here
    exact moved (by rw [Option.some.inj here])
  have works : (effect operation reaction shared).2.store.users.get? id = some next →
      operation.activated = some id := by
    intro here
    cases operation with
    | repo call =>
        rcases run_statuses sane.sound fresh call id user next held here with same | activated
        · exact absurd same moved
        · exact activated
    | _ => exact absurd here (effected _ rfl)
  unfold perform at there
  cases fate : reaction.fate with
  | works =>
      rw [fate] at there
      exact ⟨works there, nofun⟩
  | lost =>
      rw [fate] at there
      exact ⟨works there, nofun⟩
  | breaks =>
      rw [fate] at there
      exact absurd there (effected _ rfl)

theorem step_statuses (sure : system.Sure) (event : Event) (id : UserId) (user next : User)
    (held : system.pool.state.store.users.get? id = some user)
    (there : (step listed system event).pool.state.store.users.get? id = some next)
    (moved : next.status ≠ user.status) : system.activates event = some id := by
  have unmoved : ∀ reached : System, reached.pool.state.store.users =
      system.pool.state.store.users → reached.pool.state.store.users.get? id ≠ some next := by
    intro reached same here
    rw [same, held] at here
    exact moved (by rw [Option.some.inj here])
  cases event with
  | start request =>
      refine absurd there (unmoved _ ?_)
      unfold step
      dsimp only
      split <;> rfl
  | leave tenant state =>
      refine absurd there (unmoved _ ?_)
      change (left system.pool.state.store tenant state).users = _
      unfold left
      split <;> rfl
  | go index reaction =>
      rcases go_cases system index reaction with same | ⟨operation, onward, here, fresh, _⟩
      · rw [step, same] at there
        exact absurd there (unmoved _ rfl)
      · have went : (system.go index reaction).pool.state =
            (perform operation reaction system.pool.state).2 := by
          unfold go
          rw [here]
          dsimp only
          rw [if_pos fresh]
        rw [step, went] at there
        obtain ⟨activated, works⟩ :=
          performed_statuses sure.pool.sane fresh operation id user next held there moved
        have invited : user.status = .invited := by
          have later := (step_sure listed sure (.go index reaction)).1
          cases status : user.status with
          | invited => rfl
          | active =>
              obtain ⟨other, again, grown⟩ := later.grown.users id user held
              rw [step, went, there] at again
              obtain rfl := Option.some.inj again
              exact absurd ((grown.active status).trans status.symm) moved
        unfold activates
        simp only [here]
        simp [activated, works, fresh, held, invited]

/-- The store keeps its rules, and each returned invitation what is kept of it. -/
structure Recorded (system : System) : Prop where
  sure : system.Sure
  kept : ∀ returned, .invited returned ∈ system.finished → RecordKept system.pool.state returned

theorem step_recorded (recorded : system.Recorded) (event : Event)
    (announces : system.Announces event) : (step listed system event).Recorded := by
  obtain ⟨later, sure⟩ := step_sure listed recorded.sure event
  have onward : ∀ returned, .invited returned ∈ system.finished →
      RecordKept (step listed system event).pool.state returned := by
    intro returned member
    refine (recorded.kept returned member).later later ?_
    intro row person next open_ there moved
    exact announces row.userId
      (step_statuses recorded.sure event row.userId person next open_.owner there moved) returned
      member row person open_ rfl
  refine ⟨sure, ?_⟩
  intro returned member
  cases event with
  | start request =>
      refine onward returned ?_
      unfold step at member
      dsimp only at member
      split at member <;> exact member
  | leave tenant state => exact onward returned member
  | go index reaction =>
      rcases go_cases system index reaction with same | ⟨operation, next, here, fresh, finished⟩
      · rw [step, same] at member
        exact onward returned member
      · rw [step, finished] at member
        rcases List.mem_append.mp member with before | new
        · exact onward returned before
        · exact Standing.kept ((recorded.sure.gone here fresh).2.1 _ new)

theorem run_recorded (recorded : system.Recorded) (events : List Event)
    (announce : AllAnnounce listed system events) : (run listed system events).Recorded := by
  induction events generalizing system with
  | nil => exact recorded
  | cons event rest ih => exact ih (step_recorded recorded event announce.1) announce.2

end System

section Announcing

variable [UnicodeDatabase] [SessionDigest] (listed : List Str)

/-- Every open invitation that was returned is announced, unless a step activates its person
before the email. -/
theorem returned_invitations_announced {store : MemoryRepository} (sound : Sound store)
    (events : List Event)
    (announce : System.AllAnnounce listed (System.opened store) events)
    (returned : Service.Invited)
    (member : .invited returned ∈ (System.run listed (System.opened store) events).finished) :
    Announced (System.run listed (System.opened store) events).pool.state returned := by
  have start : (System.opened store).Recorded :=
    ⟨System.opened_sure sound, fun _ here => absurd here List.not_mem_nil⟩
  have recorded := System.run_recorded start events announce
  exact (recorded.kept returned member).announced recorded.sure.pool.sane

end Announcing

section Sample

def goes (index : Nat) (reactions : List Reaction) : List Event := reactions.map (.go index)

def quietReaction : Reaction := { minted := 9 }

def inviting (index : Nat) (now : Time) (user row : Nat) : List Event :=
  .start (.invite 1 ("acme" : Str) ("p@x.y" : Str)) :: goes index
    [{ time := now, minted := 9 }, { minted := user }, { minted := row }, quietReaction,
      quietReaction]

def answeredTo (seq : Nat) : Service.Invited where
  view := { id := 4, email := ("p@x.y" : Str), createdAt := 0 }
  asked := some (.setPassword 3 seq)

def afterEvents (events : List Event) : System :=
  @System.run asciiDatabase plainDigest [] (System.opened staffed) events

theorem quiet_announces {system : System} {event : Event} (quiet : system.activates event = none) :
    system.Announces event := by
  intro user activated
  rw [quiet] at activated
  contradiction

theorem first_invitation_announced :
    Announced (afterEvents (inviting 0 0 3 4)).pool.state (answeredTo 1) :=
  @returned_invitations_announced asciiDatabase plainDigest [] staffed staffed_sound
    (inviting 0 0 3 4)
    ⟨quiet_announces rfl, quiet_announces rfl, quiet_announces rfl, quiet_announces rfl,
      quiet_announces rfl, quiet_announces rfl, trivial⟩
    (answeredTo 1) (by decide)

/-- One pass that sends the set-password email. -/
def sending : List Event :=
  .start (.sendPending 1 0) :: goes 1 [quietReaction, quietReaction,
    { minted := 9, text := ("k" : Str) }, quietReaction, quietReaction, quietReaction,
    quietReaction, quietReaction, quietReaction]

def pastLifetime : Time := lifetime + second

/-- The first sign-in, a week after the email. -/
def signingIn : List Event :=
  .start (.signIn ("c" : Str) ("s" : Str) (some ("s.n.v" : Str))) :: goes 3
    [{ minted := 9, verified := some { accountId := ("k" : Str), name := ("P" : Str), amr := [] } },
      quietReaction, { minted := 9, time := pastLifetime }, quietReaction, quietReaction,
      quietReaction, quietReaction, { minted := 9, text := ("v" : Str) }, quietReaction]

/-- Invited again once the first invitation has expired, the person signs in before the sender's
next pass: the row stays `invited`, and no email for it will be sent. -/
def lateSignIn : List Event :=
  inviting 0 0 3 4 ++ sending ++ inviting 2 pastLifetime 9 9 ++ signingIn

theorem late_sign_in_loses_announcement :
    .invited (answeredTo 2) ∈ (afterEvents lateSignIn).finished ∧
      ¬ Announced (afterEvents lateSignIn).pool.state (answeredTo 2) := by
  refine ⟨by decide +kernel, ?_⟩
  intro announced
  have rows : ((afterEvents lateSignIn).pool.state.store.memberships.get? 4).map (fun row =>
      (row.userId, row.status, notificationClaimable row,
        (afterEvents lateSignIn).pool.state.store.isActive row.tenantId)) =
      some (3, .invited, false, true) := by decide +kernel
  have users : ((afterEvents lateSignIn).pool.state.store.users.get? 3).map (fun user =>
      (user.isPlatformAdmin, setPasswordClaimable user)) = some (false, false) := by decide +kernel
  have marked : (afterEvents lateSignIn).pool.state.passwordMarks 3 2 =
      some { position := 1, rows := 2 } := by decide +kernel
  have outbox : (afterEvents lateSignIn).pool.state.outbox.length = 1 := by decide +kernel
  obtain ⟨row, found, here⟩ := Option.map_eq_some_iff.mp rows
  obtain ⟨user, held, there⟩ := Option.map_eq_some_iff.mp users
  simp only [Prod.mk.injEq] at here there
  obtain ⟨owner, invited, unasked, tenant⟩ := here
  rcases announced row user ⟨found, owner ▸ held, invited, tenant, there.1⟩ with
    ⟨request, mark, same, at_, email, member, _⟩ | claimable | claimable
  · obtain rfl := Option.some.inj same
    obtain rfl := Option.some.inj (marked.symm.trans at_)
    rw [List.drop_eq_nil_of_le (by rw [outbox])] at member
    exact absurd member List.not_mem_nil
  · exact Bool.false_ne_true (there.2.symm.trans claimable)
  · exact Bool.false_ne_true (unasked.symm.trans claimable)

end Sample

end Defender.Identity
