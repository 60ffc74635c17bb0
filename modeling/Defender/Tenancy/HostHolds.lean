import Defender.Tenancy.HostLock

/-!
# The recorded holds of one tenant

What a process has of its descriptors and its record is read off the section its gated call is in,
and its scopes are counted by the hold in its table. A step of one process leaves the rest of the
host alone, so the invariant of a run is kept process by process.
-/

namespace Defender.Tenancy.HostLock

section Processes

variable (memory : Memory) (fds : List Nat) (recorded : Prop)

/-- Nothing is taken or given back: the hold of the table is there with its record, or neither. -/
def Rested : Prop :=
  match memory.table with
  | some hold => fds = [hold] ∧ recorded
  | none => fds = [] ∧ ¬ recorded

def Staged : Option Section → Prop
  | none => Rested memory fds recorded
  | some .entering => Rested memory fds recorded
  | some .kept => Rested memory fds recorded
  | some (.joined hold) => memory.table = some hold ∧ fds = [hold] ∧ recorded
  | some (.leaving hold) => memory.table = some hold ∧ fds = [hold] ∧ recorded
  | some .claimed => memory.table = none ∧ fds = [] ∧ ¬ recorded
  | some .raised => memory.table = none ∧ fds = [] ∧ ¬ recorded
  | some .left => memory.table = none ∧ fds = [] ∧ ¬ recorded
  | some .recorded => memory.table = none ∧ fds = [] ∧ recorded
  | some .waiting => memory.table = none ∧ fds = [] ∧ recorded
  | some .failed => memory.table = none ∧ fds = [] ∧ recorded
  | some .unlinking => memory.table = none ∧ fds = [] ∧ recorded
  | some (.locked fd) => memory.table = none ∧ fds = [fd] ∧ recorded
  | some (.releasing hold) => memory.table = none ∧ fds = [hold] ∧ recorded

/-- The scope the gated call is about to open or to end. -/
def Memory.due (hold : Nat) : Nat :=
  match memory.gate with
  | some (.joined own) => if own = hold then 1 else 0
  | some (.leaving own) => if own = hold then 1 else 0
  | _ => 0

/-- The scopes of a hold that have not been given back. -/
def Memory.held (hold : Nat) : Nat := memory.opened hold + memory.leaving hold + memory.due hold

def Counted : Prop :=
  ∀ hold, memory.held hold = if memory.table = some hold then memory.scopes hold else 0

structure Coherent : Prop where
  staged : Staged memory fds recorded memory.gate
  counted : Counted memory
  kept : ∀ hold, memory.table = some hold → memory.scopes hold ≠ 0

end Processes

namespace Host

variable (host : Host)

/-- The descriptors with which a process holds the lock shared. -/
def fds (holder : Holder) : List Nat := (host.shared.filter (·.1 = holder)).map (·.2)

def CoherentAt (holder : Holder) : Prop :=
  Coherent (host.memory holder) (host.fds holder) (holder ∈ host.registry)

/-- A sweep removes a record it looked up only when its process is gone for good. -/
def SweepKept : Sweep → Prop
  | .returned _ => True
  | .reading _ _ => True
  | .checking holder _ _ => holder ∈ host.born
  | .removing entry unseen _ _ => unseen = false → entry ∈ host.born ∧ host.runs entry = false

structure Kept : Prop where
  apart : host.exclusive ≠ none → host.shared = []
  running_born : ∀ holder, host.runs holder = true → holder ∈ host.born
  recorded_born : ∀ holder, holder ∈ host.registry → holder ∈ host.born
  unborn : ∀ holder, holder ∉ host.born → host.memory holder = Memory.start
  held_runs : ∀ holder fd, (holder, fd) ∈ host.shared → host.runs holder = true
  sweeps : ∀ sweep, host.SweepKept (host.sweeps sweep)
  coherent : ∀ holder, host.runs holder = true → host.CoherentAt holder

end Host

section Reads

variable (host : Host) (holder : Holder) (memory : Memory)

@[simp] theorem remember_memory : (host.remember holder memory).memory holder = memory := by
  simp [Host.remember]

theorem remember_other {other : Holder} (different : other ≠ holder) :
    (host.remember holder memory).memory other = host.memory other := by
  simp [Host.remember, different]

@[simp] theorem remember_shared : (host.remember holder memory).shared = host.shared := rfl

@[simp] theorem remember_registry : (host.remember holder memory).registry = host.registry := rfl

@[simp] theorem remember_fds : (host.remember holder memory).fds = host.fds := rfl

@[simp] theorem write_memory : (host.write holder).memory = host.memory := by
  unfold Host.write
  split <;> rfl

@[simp] theorem write_shared : (host.write holder).shared = host.shared := by
  unfold Host.write
  split <;> rfl

@[simp] theorem write_fds : (host.write holder).fds = host.fds := by
  funext other
  simp [Host.fds]

theorem mem_write (other : Holder) :
    other ∈ (host.write holder).registry ↔ other = holder ∨ other ∈ host.registry := by
  unfold Host.write
  split
  · rename_i written
    constructor
    · exact Or.inr
    · rintro (rfl | known)
      · exact written
      · exact known
  · simp [or_comm]

@[simp] theorem unlink_memory : (host.unlink holder).memory = host.memory := rfl

@[simp] theorem unlink_shared : (host.unlink holder).shared = host.shared := rfl

@[simp] theorem unlink_fds : (host.unlink holder).fds = host.fds := rfl

theorem mem_unlink (other : Holder) :
    other ∈ (host.unlink holder).registry ↔ other ≠ holder ∧ other ∈ host.registry := by
  simp [Host.unlink, and_comm]

end Reads

/-- What a step of one process leaves alone. -/
structure Own (holder : Holder) (host after : Host) : Prop where
  running : after.running = host.running
  born : after.born = host.born
  exclusive : after.exclusive = host.exclusive
  sweeps : after.sweeps = host.sweeps
  memory : ∀ other, other ≠ holder → after.memory other = host.memory other
  fds : ∀ other, other ≠ holder → after.fds other = host.fds other
  record : ∀ other, other ≠ holder → (other ∈ after.registry ↔ other ∈ host.registry)
  shared : ∀ lock ∈ after.shared, lock ∈ host.shared ∨ lock.1 = holder
  excluded : host.exclusive ≠ none → ∀ lock ∈ after.shared, lock ∈ host.shared

section Steps

variable (host : Host) (holder : Holder) (memory : Memory)

theorem own_remember : Own holder host (host.remember holder memory) where
  running := rfl
  born := rfl
  exclusive := rfl
  sweeps := rfl
  memory := fun _ different => remember_other host holder memory different
  fds := fun _ _ => rfl
  record := fun _ _ => Iff.rfl
  shared := fun _ known => Or.inl known
  excluded := fun _ _ known => known

theorem own_recorded : Own holder host ((host.remember holder memory).write holder) where
  running := by unfold Host.write; split <;> rfl
  born := by unfold Host.write; split <;> rfl
  exclusive := by unfold Host.write; split <;> rfl
  sweeps := by unfold Host.write; split <;> rfl
  memory := fun _ different => by
    rw [write_memory]
    exact remember_other host holder memory different
  fds := fun _ _ => by rw [write_fds, remember_fds]
  record := fun _ different => by
    rw [mem_write]
    exact or_iff_right different
  shared := fun _ known => Or.inl (by simpa using known)
  excluded := fun _ _ known => by simpa using known

theorem own_unlinked : Own holder host ((host.remember holder memory).unlink holder) where
  running := rfl
  born := rfl
  exclusive := rfl
  sweeps := rfl
  memory := fun _ different => remember_other host holder memory different
  fds := fun _ _ => rfl
  record := fun _ different => by
    rw [mem_unlink]
    exact and_iff_right different
  shared := fun _ known => Or.inl known
  excluded := fun _ _ known => known

def locked (fd : Nat) : Host :=
  { host.remember holder memory with shared := host.shared ++ [(holder, fd)] }

/-- The host once a process has given a descriptor back. -/
def released (fd : Nat) : Host :=
  { host.remember holder memory with shared := host.shared.filter (· ≠ (holder, fd)) }

theorem fds_locked (fd : Nat) :
    (locked host holder memory fd).fds holder = host.fds holder ++ [fd] := by
  simp [locked, Host.fds]

theorem fds_released (fd : Nat) :
    (released host holder memory fd).fds holder = (host.fds holder).filter (· ≠ fd) := by
  unfold Host.fds released
  induction host.shared with
  | nil => rfl
  | cons lock rest ih =>
      obtain ⟨owner, own⟩ := lock
      by_cases same : owner = holder
      · by_cases given : own = fd
        · simpa [same, given] using ih
        · simpa [same, given] using ih
      · simpa [same] using ih

theorem own_locked (fd : Nat) (free : host.exclusive = none) :
    Own holder host (locked host holder memory fd) where
  running := rfl
  born := rfl
  exclusive := rfl
  sweeps := rfl
  memory := fun _ different => remember_other host holder memory different
  fds := fun _ different => by simp [locked, Host.fds, Ne.symm different]
  record := fun _ _ => Iff.rfl
  shared := fun lock known => by
    rcases List.mem_append.mp known with old | new
    · exact Or.inl old
    · exact Or.inr (by rw [List.mem_singleton.mp new])
  excluded := fun taken => absurd free taken

theorem own_released (fd : Nat) : Own holder host (released host holder memory fd) where
  running := rfl
  born := rfl
  exclusive := rfl
  sweeps := rfl
  memory := fun _ different => remember_other host holder memory different
  fds := fun other different => by
    have other_kept : ∀ lock : Holder × Nat, lock.1 = other → lock ≠ (holder, fd) := by
      intro lock owned same
      rw [same] at owned
      exact different owned.symm
    unfold Host.fds released
    simp only [List.filter_filter]
    congr 1
    apply List.filter_congr
    intro lock known
    by_cases owned : lock.1 = other
    · simp [owned, other_kept lock owned]
    · simp [owned]
  record := fun _ _ => Iff.rfl
  shared := fun _ known => Or.inl (List.mem_filter.mp known).1
  excluded := fun _ _ known => (List.mem_filter.mp known).1

theorem attempt_own (raises : Bool) : Own holder host (host.attemptShared holder raises) := by
  unfold Host.attemptShared
  split
  · exact own_remember host holder _
  · split
    · rename_i free
      exact own_locked host holder _ _ free
    · exact own_remember host holder _

theorem advance_own (raises : Bool) (stage : Section) :
    Own holder host (host.advance holder raises stage) := by
  cases stage with
  | entering =>
      simp only [Host.advance]
      split <;> exact own_remember host holder _
  | joined hold => exact own_remember host holder _
  | claimed =>
      simp only [Host.advance]
      split
      · exact own_remember host holder _
      · exact own_recorded host holder _
  | recorded => exact attempt_own host holder raises
  | waiting => exact attempt_own host holder raises
  | locked fd => exact own_remember host holder _
  | failed => exact own_unlinked host holder _
  | raised => exact own_remember host holder _
  | leaving hold =>
      simp only [Host.advance]
      split <;> exact own_remember host holder _
  | kept => exact own_remember host holder _
  | releasing hold => exact own_released host holder _ hold
  | unlinking => exact own_unlinked host holder _
  | left => exact own_remember host holder _

theorem moved_own {after : Host} (move : Move) (moved : host.moved holder move = some after) :
    Own holder host after := by
  cases move with
  | enter =>
      cases moved
      exact own_remember host holder _
  | gateToEnter =>
      simp only [Host.moved, Option.ite_none_right_eq_some] at moved
      obtain ⟨-, moved⟩ := moved
      cases moved
      exact own_remember host holder _
  | close hold =>
      simp only [Host.moved, Option.ite_none_right_eq_some] at moved
      obtain ⟨-, moved⟩ := moved
      cases moved
      exact own_remember host holder _
  | gateToLeave hold =>
      simp only [Host.moved, Option.ite_none_right_eq_some] at moved
      obtain ⟨-, moved⟩ := moved
      cases moved
      exact own_remember host holder _
  | proceed raises =>
      obtain ⟨stage, -, moved⟩ := Option.map_eq_some_iff.mp moved
      cases moved
      exact advance_own host holder raises stage

end Steps

section Coherence

variable {memory : Memory} {fds : List Nat} {recorded : Prop}

theorem changed_self (counts : Nat → Nat) (hold count : Nat) :
    changed counts hold count hold = count := by
  simp [changed]

theorem changed_other (counts : Nat → Nat) {hold other : Nat} (count : Nat)
    (different : other ≠ hold) : changed counts hold count other = counts other := by
  simp [changed, different]

theorem coherent_start : Coherent .start [] False where
  staged := ⟨rfl, not_false⟩
  counted := fun _ => rfl
  kept := fun _ taken => nomatch taken

theorem regated (known : Coherent memory fds recorded) {gate : Option Section}
    {after : List Nat} {written : Prop} {waiting next : Nat}
    (same : ∀ hold, Memory.due { memory with gate := gate } hold = memory.due hold)
    (staged : Staged { memory with gate := gate } after written gate) :
    Coherent { memory with gate := gate, entering := waiting, nextFd := next } after written where
  staged := staged
  counted := by
    intro hold
    have counted := known.counted hold
    unfold Memory.held at counted
    rw [← same hold] at counted
    exact counted
  kept := known.kept

theorem scope_held (known : Coherent memory fds recorded) {hold : Nat}
    (scope : 0 < memory.held hold) : memory.table = some hold := by
  have counted := known.counted hold
  by_cases taken : memory.table = some hold
  · exact taken
  · rw [if_neg taken] at counted
    omega

theorem scope_recorded (known : Coherent memory fds recorded) {hold : Nat}
    (scope : 0 < memory.held hold) : fds = [hold] ∧ recorded := by
  have taken := scope_held known scope
  have staged := known.staged
  revert staged
  cases memory.gate with
  | none => simp [Staged, Rested, taken]
  | some stage => cases stage <;> simp_all [Staged, Rested]

theorem entered (known : Coherent memory fds recorded) {hold : Nat}
    (gate : memory.gate = some .entering) (taken : memory.table = some hold) :
    Coherent { memory with
      scopes := changed memory.scopes hold (memory.scopes hold + 1)
      gate := some (.joined hold) } fds recorded where
  staged := by
    have staged := known.staged
    rw [gate] at staged
    have rested : fds = [hold] ∧ recorded := by simpa [Staged, Rested, taken] using staged
    exact ⟨taken, rested⟩
  counted := by
    intro other
    have counted := known.counted other
    simp only [Memory.held, Memory.due, gate, taken, Option.some.injEq] at counted ⊢
    by_cases same : hold = other
    · subst same
      simp only [changed_self, if_true] at counted ⊢
      omega
    · simpa [changed_other _ _ (Ne.symm same), same] using counted
  kept := by
    intro other held
    have same : hold = other := by simpa [taken] using held
    subst same
    simp [changed_self]

theorem opened (known : Coherent memory fds recorded) {hold : Nat}
    (gate : memory.gate = some (.joined hold)) :
    Coherent { memory with
      gate := none
      opened := changed memory.opened hold (memory.opened hold + 1) } fds recorded where
  staged := by
    have staged := known.staged
    rw [gate] at staged
    obtain ⟨taken, rested⟩ := staged
    simpa [Staged, Rested, taken] using rested
  counted := by
    intro other
    have counted := known.counted other
    simp only [Memory.held, Memory.due, gate] at counted ⊢
    by_cases same : hold = other
    · subst same
      simp only [changed_self, if_true] at counted ⊢
      omega
    · simpa [changed_other _ _ (Ne.symm same), same] using counted
  kept := known.kept

theorem holding (known : Coherent memory fds recorded) {fd : Nat}
    (gate : memory.gate = some (.locked fd)) :
    Coherent { memory with
      table := some fd
      scopes := changed memory.scopes fd 1
      gate := some (.joined fd) } fds recorded where
  staged := by
    have staged := known.staged
    rw [gate] at staged
    exact ⟨rfl, staged.2⟩
  counted := by
    have staged := known.staged
    rw [gate] at staged
    intro other
    have counted := known.counted other
    simp only [Memory.held, Memory.due, gate, staged.1] at counted ⊢
    by_cases same : fd = other
    · subst same
      simp only [changed_self, reduceCtorEq, if_false, if_true] at counted ⊢
      omega
    · simpa [same] using counted
  kept := by
    intro other held
    cases held
    simp [changed_self]

/-- A scope ends; only the last one of a hold empties the table. -/
theorem left_open (known : Coherent memory fds recorded) {hold : Nat}
    (gate : memory.gate = some (.leaving hold)) (more : memory.scopes hold - 1 ≠ 0) :
    Coherent { memory with
      scopes := changed memory.scopes hold (memory.scopes hold - 1)
      gate := some .kept } fds recorded where
  staged := by
    have staged := known.staged
    rw [gate] at staged
    obtain ⟨taken, rested⟩ := staged
    simpa [Staged, Rested, taken] using rested
  counted := by
    have staged := known.staged
    rw [gate] at staged
    intro other
    have counted := known.counted other
    simp only [Memory.held, Memory.due, gate, staged.1, Option.some.injEq] at counted ⊢
    by_cases same : hold = other
    · subst same
      simp only [changed_self, if_true] at counted ⊢
      omega
    · simpa [changed_other _ _ (Ne.symm same), same] using counted
  kept := by
    have staged := known.staged
    rw [gate] at staged
    intro other held
    have same : hold = other := by simpa [staged.1] using held
    subst same
    simpa [changed_self] using more

theorem left_last (known : Coherent memory fds recorded) {hold : Nat}
    (gate : memory.gate = some (.leaving hold)) (last : memory.scopes hold - 1 = 0) :
    Coherent { memory with
      table := none
      scopes := changed memory.scopes hold (memory.scopes hold - 1)
      gate := some (.releasing hold) } fds recorded where
  staged := by
    have staged := known.staged
    rw [gate] at staged
    exact ⟨rfl, staged.2⟩
  counted := by
    have staged := known.staged
    rw [gate] at staged
    intro other
    have counted := known.counted other
    simp only [Memory.held, Memory.due, gate, staged.1, Option.some.injEq, reduceCtorEq,
      if_false] at counted ⊢
    by_cases same : hold = other
    · subst same
      simp only [if_true] at counted
      omega
    · simpa [same] using counted
  kept := fun _ held => nomatch held

theorem closed (known : Coherent memory fds recorded) {hold : Nat}
    (body : 0 < memory.opened hold) :
    Coherent { memory with
      opened := changed memory.opened hold (memory.opened hold - 1)
      leaving := changed memory.leaving hold (memory.leaving hold + 1) } fds recorded where
  staged := known.staged
  counted := by
    intro other
    have counted := known.counted other
    have due : ∀ bodies ended, Memory.due { memory with opened := bodies, leaving := ended } other =
        memory.due other := fun _ _ => rfl
    simp only [Memory.held, due] at counted ⊢
    by_cases same : hold = other
    · subst same
      have shifted : memory.opened hold - 1 + (memory.leaving hold + 1) =
          memory.opened hold + memory.leaving hold := by omega
      simpa only [changed_self, shifted] using counted
    · simpa only [changed_other _ _ (Ne.symm same)] using counted
  kept := known.kept

theorem left_gated (known : Coherent memory fds recorded) {hold : Nat}
    (gate : memory.gate = none) (ended : 0 < memory.leaving hold) :
    Coherent { memory with
      gate := some (.leaving hold)
      leaving := changed memory.leaving hold (memory.leaving hold - 1) } fds recorded where
  staged := by
    have scope : 0 < memory.held hold := by
      unfold Memory.held
      omega
    exact ⟨scope_held known scope, scope_recorded known scope⟩
  counted := by
    intro other
    have counted := known.counted other
    simp only [Memory.held, Memory.due, gate] at counted ⊢
    by_cases same : hold = other
    · subst same
      simp only [changed_self, if_true]
      omega
    · simpa [changed_other _ _ (Ne.symm same), same] using counted
  kept := known.kept

end Coherence

section Coherent

variable {host : Host} {holder : Holder}

theorem remember_coherent {memory : Memory}
    (known : Coherent memory (host.fds holder) (holder ∈ host.registry)) :
    (host.remember holder memory).CoherentAt holder := by
  unfold Host.CoherentAt
  simpa using known

theorem gate_coherent (known : host.CoherentAt holder) {gate : Option Section}
    (same : ∀ hold, Memory.due { host.memory holder with gate := gate } hold =
      (host.memory holder).due hold)
    (staged : Staged { host.memory holder with gate := gate } (host.fds holder)
      (holder ∈ host.registry) gate) :
    (host.remember holder { host.memory holder with gate := gate }).CoherentAt holder :=
  remember_coherent (regated known same staged)

theorem attempt_coherent (known : host.CoherentAt holder) (raises : Bool)
    (gate : (host.memory holder).gate = some .recorded ∨
      (host.memory holder).gate = some .waiting) :
    (host.attemptShared holder raises).CoherentAt holder := by
  have staged : (host.memory holder).table = none ∧ host.fds holder = [] ∧
      holder ∈ host.registry := by
    have staged := known.staged
    rcases gate with gate | gate
    · rwa [gate] at staged
    · rwa [gate] at staged
  have quiet : ∀ hold, (host.memory holder).due hold = 0 := by
    intro hold
    rcases gate with gate | gate
    · simp [Memory.due, gate]
    · simp [Memory.due, gate]
  unfold Host.attemptShared
  split
  · exact gate_coherent known (fun hold => (quiet hold).symm) staged
  · split
    · have after := fds_locked host holder { host.memory holder with
        gate := some (.locked (host.memory holder).nextFd)
        nextFd := (host.memory holder).nextFd + 1 } (host.memory holder).nextFd
      unfold Host.CoherentAt
      simp only [locked] at after
      rw [after]
      simp only [remember_memory]
      exact regated known (fun hold => (quiet hold).symm)
        ⟨staged.1, by simp [staged.2.1], staged.2.2⟩
    · exact gate_coherent known (fun hold => (quiet hold).symm) staged

theorem due_gate {memory : Memory} {stage : Section} (gate : memory.gate = some stage)
    (joined : ∀ hold, stage ≠ .joined hold) (leaving : ∀ hold, stage ≠ .leaving hold)
    (hold : Nat) : memory.due hold = 0 := by
  unfold Memory.due
  rw [gate]
  cases stage with
  | joined own => exact absurd rfl (joined own)
  | leaving own => exact absurd rfl (leaving own)
  | _ => rfl

theorem unlink_coherent (known : host.CoherentAt holder) {gate : Option Section}
    (same : ∀ hold, Memory.due { host.memory holder with gate := gate } hold =
      (host.memory holder).due hold)
    (staged : Staged { host.memory holder with gate := gate } (host.fds holder) False gate) :
    ((host.remember holder { host.memory holder with gate := gate }).unlink holder).CoherentAt
      holder := by
  have gone : (holder ∈ ((host.remember holder
      { host.memory holder with gate := gate }).unlink holder).registry) = False := by
    simp [mem_unlink]
  unfold Host.CoherentAt
  rw [gone]
  simp only [unlink_memory, unlink_fds, remember_memory, remember_fds]
  exact regated known same staged

theorem advance_coherent (known : host.CoherentAt holder) (raises : Bool) {stage : Section}
    (gate : (host.memory holder).gate = some stage) :
    (host.advance holder raises stage).CoherentAt holder := by
  have staged := known.staged
  rw [gate] at staged
  cases stage with
  | entering =>
      have quiet := due_gate gate (fun _ => nofun) (fun _ => nofun)
      simp only [Host.advance]
      split
      · rename_i hold taken
        exact remember_coherent (entered known gate taken)
      · rename_i taken
        have rested : host.fds holder = [] ∧ holder ∉ host.registry := by
          simpa [Staged, Rested, taken] using staged
        exact gate_coherent known (fun hold => (quiet hold).symm) ⟨taken, rested⟩
  | joined hold => exact remember_coherent (opened known gate)
  | claimed =>
      have quiet := due_gate gate (fun _ => nofun) (fun _ => nofun)
      obtain ⟨taken, rested⟩ := staged
      simp only [Host.advance]
      split
      · refine gate_coherent known (fun hold => (quiet hold).symm) ?_
        simpa [Staged, Rested, taken] using rested
      · have written : (holder ∈ ((host.remember holder { host.memory holder with
            gate := some .recorded }).write holder).registry) = True := by
          simp [mem_write]
        unfold Host.CoherentAt
        rw [written]
        simp only [write_memory, write_fds, remember_memory, remember_fds]
        exact regated known (fun hold => (quiet hold).symm) ⟨taken, rested.1, trivial⟩
  | recorded => exact attempt_coherent known raises (Or.inl gate)
  | waiting => exact attempt_coherent known raises (Or.inr gate)
  | locked fd => exact remember_coherent (holding known gate)
  | failed =>
      have quiet := due_gate gate (fun _ => nofun) (fun _ => nofun)
      exact unlink_coherent known (fun hold => (quiet hold).symm)
        ⟨staged.1, staged.2.1, not_false⟩
  | raised =>
      have quiet := due_gate gate (fun _ => nofun) (fun _ => nofun)
      refine gate_coherent known (fun hold => (quiet hold).symm) ?_
      simpa [Staged, Rested, staged.1] using staged.2
  | leaving hold =>
      simp only [Host.advance]
      split
      · rename_i more
        exact remember_coherent (left_open known gate more)
      · rename_i last
        exact remember_coherent (left_last known gate (not_not.mp last))
  | kept =>
      have quiet := due_gate gate (fun _ => nofun) (fun _ => nofun)
      exact gate_coherent known (fun hold => (quiet hold).symm) staged
  | releasing hold =>
      have quiet := due_gate gate (fun _ => nofun) (fun _ => nofun)
      have after := fds_released host holder
        { host.memory holder with gate := some .unlinking } hold
      have none_left : (host.fds holder).filter (· ≠ hold) = [] := by
        rw [staged.2.1]
        simp
      rw [none_left] at after
      unfold Host.CoherentAt
      simp only [released] at after
      simp only [Host.advance, after, remember_memory]
      exact regated known (fun hold => (quiet hold).symm) ⟨staged.1, rfl, staged.2.2⟩
  | unlinking =>
      have quiet := due_gate gate (fun _ => nofun) (fun _ => nofun)
      exact unlink_coherent known (fun hold => (quiet hold).symm)
        ⟨staged.1, staged.2.1, not_false⟩
  | left =>
      have quiet := due_gate gate (fun _ => nofun) (fun _ => nofun)
      refine gate_coherent known (fun hold => (quiet hold).symm) ?_
      simpa [Staged, Rested, staged.1] using staged.2

theorem moved_coherent (known : host.CoherentAt holder) {move : Move} {after : Host}
    (moved : host.moved holder move = some after) : after.CoherentAt holder := by
  cases move with
  | enter =>
      cases moved
      exact remember_coherent (regated known (fun _ => rfl) known.staged)
  | gateToEnter =>
      simp only [Host.moved, Option.ite_none_right_eq_some] at moved
      obtain ⟨⟨free, -⟩, moved⟩ := moved
      cases moved
      have staged := known.staged
      rw [free] at staged
      exact remember_coherent (regated known (fun hold => by simp [Memory.due, free]) staged)
  | close hold =>
      simp only [Host.moved, Option.ite_none_right_eq_some] at moved
      obtain ⟨body, moved⟩ := moved
      cases moved
      exact remember_coherent (closed known body)
  | gateToLeave hold =>
      simp only [Host.moved, Option.ite_none_right_eq_some] at moved
      obtain ⟨⟨free, ended⟩, moved⟩ := moved
      cases moved
      exact remember_coherent (left_gated known free ended)
  | proceed raises =>
      obtain ⟨stage, gate, moved⟩ := Option.map_eq_some_iff.mp moved
      cases moved
      exact advance_coherent known raises gate

end Coherent

end Defender.Tenancy.HostLock
