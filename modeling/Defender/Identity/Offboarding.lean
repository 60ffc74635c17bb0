import Defender.Identity.RequestFlows

/-!
# Offboarding ends membership

In every run the store keeps its rules and every running program stays assured of what it
ends with. A finished offboarding has left no active membership of its tenant, and none
comes back: a membership turns active only in an active tenant.
-/

namespace Defender.Identity

open Defender.Python Defender.Library.OrderedDict Defender.Library.Programs
open Defender.Library.Interference
open Defender.Tenancy (Time TenantState)
open MemoryRepository

theorem Sane.left {shared : Shared} (sane : Sane shared) (tenant : TenantId) (state : TenantState) :
    Sane { shared with store := System.left shared.store tenant state } := by
  unfold System.left
  split
  · have sound := sane.sound
    have traced := sane.traced
    exact ⟨⟨sound.userIds, sound.rowIds, sound.owned, sound.oneLive, sound.passwordsCounted,
      sound.notificationsCounted⟩, ⟨traced.passwords, traced.notifications,
      traced.passwordsSettled, traced.notificationsSettled⟩⟩
  · exact sane

theorem opened_sane {store : MemoryRepository} (sound : Sound store) :
    Sane { store := store } where
  sound := sound
  traced :=
    { passwords := fun _ _ _ here => absurd here nofun
      notifications := fun _ _ _ here => absurd here nofun
      passwordsSettled := fun _ _ _ _ _ _ here => absurd here nofun
      notificationsSettled := fun _ _ _ _ _ _ _ here => absurd here nofun }

namespace System

variable [UnicodeDatabase] [SessionDigest] {listed : List Str}

structure Sure (system : System) : Prop where
  pool : system.pool.Sure medium Finish.known
  ended : ∀ tenant, .ended tenant ∈ system.finished → system.pool.state.store.ended tenant

theorem opened_sure {store : MemoryRepository} (sound : Sound store) : (opened store).Sure where
  pool := ⟨opened_sane sound, fun _ member => absurd member List.not_mem_nil⟩
  ended _ member := absurd member List.not_mem_nil

variable {system : System}

/-- What one operation of a running program leaves. -/
theorem Sure.gone (sure : system.Sure) {index : Nat} {operation : Operation}
    {next : operation.Answer → Flow Finish} {reaction : Reaction}
    (here : system.pool.programs[index]? = some (.perform operation next))
    (fresh : system.pool.state.store.fresh reaction.minted) :
    Later system.pool.state (system.go index reaction).pool.state ∧
      (∀ ends ∈ finish (next (perform operation reaction system.pool.state).1),
        ends.known (system.go index reaction).pool.state) ∧
      (system.go index reaction).pool.Sure medium Finish.known := by
  obtain ⟨later, assured, pool⟩ := sure.pool.gone here fresh
  have went : system.go index reaction =
      { pool :=
          { state := (perform operation reaction system.pool.state).2
            programs := system.pool.programs.set index
              (next (perform operation reaction system.pool.state).1) }
        finished := system.finished ++
          finish (next (perform operation reaction system.pool.state).1) } := by
    unfold go
    rw [here]
    exact if_pos fresh
  rw [went]
  refine ⟨later, ?_, pool⟩
  intro ends member
  change holds medium.spec Finish.known (fun _ _ => True)
    (next (perform operation reaction system.pool.state).1) _ at assured
  cases program : next (perform operation reaction system.pool.state).1 with
  | done last =>
      rw [program] at member assured
      obtain rfl := List.mem_singleton.mp member
      exact assured
  | failed why =>
      rw [program] at member
      exact absurd member List.not_mem_nil
  | perform operation next =>
      rw [program] at member
      exact absurd member List.not_mem_nil

theorem go_cases (system : System) (index : Nat) (reaction : Reaction) :
    system.go index reaction = system ∨
      ∃ operation next, system.pool.programs[index]? = some (.perform operation next) ∧
        system.pool.state.store.fresh reaction.minted ∧
        (system.go index reaction).finished = system.finished ++
          finish (next (perform operation reaction system.pool.state).1) := by
  unfold go
  split
  · rename_i operation next here
    split
    · rename_i fresh
      exact .inr ⟨operation, next, here, fresh, rfl⟩
    · exact .inl rfl
  · exact .inl rfl

variable (listed) in
theorem step_sure (sure : system.Sure) (event : Event) :
    Later system.pool.state (step listed system event).pool.state ∧
      (step listed system event).Sure := by
  cases event with
  | start request =>
      unfold step
      dsimp only
      split
      · rename_i starts
        exact ⟨.refl _, sure.pool.joined (request_assured request starts), sure.ended⟩
      · exact ⟨.refl _, sure⟩
  | leave tenant state =>
      have later : Later system.pool.state
          { system.pool.state with store := left system.pool.state.store tenant state } :=
        .left tenant state
      exact ⟨later, sure.pool.moved later (sure.pool.sane.left tenant state),
        fun other member => (sure.ended other member).later later.grown⟩
  | go index reaction =>
      rcases go_cases system index reaction with same | ⟨operation, next, here, fresh, finished⟩
      · rw [step, same]
        exact ⟨.refl _, sure⟩
      · obtain ⟨later, known, pool⟩ := sure.gone here fresh
        refine ⟨later, pool, ?_⟩
        intro tenant member
        rw [step, finished] at member
        rcases List.mem_append.mp member with before | new
        · exact (sure.ended tenant before).later later.grown
        · exact known _ new

variable (listed) in
theorem run_sure (sure : system.Sure) (events : List Event) :
    Later system.pool.state (run listed system events).pool.state ∧
      (run listed system events).Sure := by
  induction events generalizing system with
  | nil => exact ⟨.refl _, sure⟩
  | cons event rest ih =>
      obtain ⟨later, next⟩ := step_sure listed sure event
      obtain ⟨more, last⟩ := ih next
      exact ⟨later.trans more, last⟩

theorem run_append (system : System) (events more : List Event) :
    run listed system (events ++ more) = run listed (run listed system events) more :=
  List.foldl_append

end System

section Offboarding

variable [UnicodeDatabase] [SessionDigest] (listed : List Str)

/-- At most one live membership of a user in a tenant, and no active one after offboarding. -/
theorem offboarding_ends_membership {store : MemoryRepository} (sound : Sound store)
    (events : List Event) :
    let reached := System.run listed (System.opened store) events
    (∀ first second one other,
      reached.pool.state.store.memberships.get? first = some one →
      reached.pool.state.store.memberships.get? second = some other →
      one.status.live = true → other.status.live = true → one.userId = other.userId →
      one.tenantId = other.tenantId → first = second) ∧
    ∀ tenant, .ended tenant ∈ reached.finished → ∀ more id row,
      (System.run listed (System.opened store)
        (events ++ more)).pool.state.store.memberships.get? id = some row →
      row.tenantId = tenant → row.status ≠ .active := by
  intro reached
  have sure : reached.Sure := (System.run_sure listed (System.opened_sure sound) events).2
  refine ⟨sure.pool.sane.sound.oneLive, ?_⟩
  intro tenant ended more id row here same
  rw [System.run_append] at here
  have later := (System.run_sure listed sure more).1
  exact ((sure.ended tenant ended).later later.grown).2 id row here same

end Offboarding

def staffed : MemoryRepository where
  tenants := Dict.empty.set ("acme" : Str) .active
  users := Dict.empty.set 1
    { id := 1, email := ("a@b.c" : Str), status := .active, createdAt := 0, updatedAt := 0 }
  memberships := Dict.empty.set 2
    { id := 2, userId := 1, tenantId := ("acme" : Str), status := .active, invitedBy := none,
      createdAt := 0 }

theorem staffed_sound : staffed.Sound where
  userIds id user here := by
    simp only [staffed, Dict.get_set, Dict.get_empty] at here
    split_ifs at here with same
    rw [← Option.some.inj here, same]
  rowIds id row here := by
    simp only [staffed, Dict.get_set, Dict.get_empty] at here
    split_ifs at here with same
    rw [← Option.some.inj here, same]
  owned id row here := by
    simp only [staffed, Dict.get_set, Dict.get_empty] at here
    split_ifs at here with same
    rw [← Option.some.inj here]
    rfl
  oneLive first second one other here there _ _ _ _ := by
    simp only [staffed, Dict.get_set, Dict.get_empty] at here there
    split_ifs at here there with same again
    exact same.symm.trans again
  passwordsCounted id user here := by
    simp only [staffed, Dict.get_set, Dict.get_empty] at here
    split_ifs at here
    rw [← Option.some.inj here]
  notificationsCounted id row here := by
    simp only [staffed, Dict.get_set, Dict.get_empty] at here
    split_ifs at here
    rw [← Option.some.inj here]

/-- The tenant leaves `active`, and its people are ended while a first row is read. -/
def offboardingEvents : List Event :=
  [.leave ("acme" : Str) .offboarding, .start (.endTenant ("acme" : Str) 5),
    .go 0 { minted := 7 }, .go 0 { minted := 7 }]

def afterOffboarding (more : List Event) : System :=
  @System.run asciiDatabase plainDigest [] (System.opened staffed) (offboardingEvents ++ more)

def removal : List Event :=
  [.start (.remove 1 ("acme" : Str) 1), .go 1 { minted := 8 }]

theorem offboarding_ends_membership_staffed :
    Finish.ended ("acme" : Str) ∈ (afterOffboarding []).finished ∧
      ((afterOffboarding removal).pool.state.store.memberships.get? 2).map Membership.status ≠
        some .active := by
  have ended : Finish.ended ("acme" : Str) ∈ (afterOffboarding []).finished := by decide
  refine ⟨ended, ?_⟩
  intro active
  obtain ⟨row, here, status⟩ := Option.map_eq_some_iff.mp active
  have tenant : ((afterOffboarding removal).pool.state.store.memberships.get? 2).map
      Membership.tenantId = some ("acme" : Str) := by decide
  rw [here] at tenant
  exact (@offboarding_ends_membership asciiDatabase plainDigest [] staffed staffed_sound
    offboardingEvents).2 _ ended removal 2 row here (Option.some.inj tenant) status

end Defender.Identity
