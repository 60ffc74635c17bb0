import Defender.Python.Text

/-!
# The execution host's lock of one tenant

Processes hold the tenant's lock shared while a scope of theirs is open, and record themselves in
the registry first. Prepare and teardown take the lock exclusive, and `holders` sweeps the registry.
Every section under a gate, every write, read, attempt, release and unlink is a step of its own, and
the steps of all processes and sweeps interleave freely. A sweep's read fails whenever the system
refuses it.
-/

namespace Defender.Tenancy.HostLock

open Defender.Python

/-- A recorded process: its pid and its kernel start time. -/
structure Holder where
  pid : Nat
  start : Str
deriving DecidableEq

/-- The name of the process's record. -/
def Holder.name (holder : Holder) : Str := decimalText holder.pid ++ '-' :: holder.start

/-- What the call that has the gate does next. A hold is known by its descriptor. -/
inductive Section where
  | entering
  | joined (hold : Nat)
  | claimed
  | recorded
  | waiting
  | locked (fd : Nat)
  | failed
  | raised
  | leaving (hold : Nat)
  | kept
  | releasing (hold : Nat)
  | unlinking
  | left
deriving DecidableEq

/-- What a process keeps for the tenant. The calls that wait for the gate are counted: nothing the
source reads tells one thread from another. -/
structure Memory where
  /-- The hold in the table. -/
  table : Option Nat
  scopes : Nat → Nat
  gate : Option Section
  entering : Nat
  /-- The scopes of a hold whose body runs. -/
  opened : Nat → Nat
  /-- The scopes of a hold that have ended and wait for the gate. -/
  leaving : Nat → Nat
  nextFd : Nat

def Memory.start : Memory := ⟨none, fun _ => 0, none, 0, fun _ => 0, fun _ => 0, 0⟩

/-- A call of `holders`: the entries it has still to read and the processes it found. An entry is
removed unseen when its record, or its process's start time, was not there to read. -/
inductive Sweep where
  | returned (found : List Holder)
  | reading (entries found : List Holder)
  | checking (holder : Holder) (entries found : List Holder)
  | removing (entry : Holder) (unseen : Bool) (entries found : List Holder)
deriving DecidableEq

structure Host where
  /-- The start time of the process a pid names. -/
  running : Nat → Option Str
  born : List Holder
  memory : Holder → Memory
  shared : List (Holder × Nat)
  exclusive : Option Holder
  registry : List Holder
  sweeps : Nat → Sweep

namespace Host

def start : Host :=
  ⟨fun _ => none, [], fun _ => .start, [], none, [], fun _ => .returned []⟩

/-- `process_start(holder.pid) == holder.start`. -/
def runs (host : Host) (holder : Holder) : Bool := host.running holder.pid = some holder.start

def remember (host : Host) (holder : Holder) (memory : Memory) : Host :=
  { host with memory := fun other => if other = holder then memory else host.memory other }

def write (host : Host) (holder : Holder) : Host :=
  if holder ∈ host.registry then host else { host with registry := host.registry ++ [holder] }

def unlink (host : Host) (holder : Holder) : Host :=
  { host with registry := host.registry.filter (· ≠ holder) }

end Host

def changed (counts : Nat → Nat) (hold : Nat) (count : Nat) : Nat → Nat := fun other =>
  if other = hold then count else counts other

namespace Host

variable (host : Host) (holder : Holder)

def attemptShared (raises : Bool) : Host :=
  let memory := host.memory holder
  if raises then host.remember holder { memory with gate := some .failed }
  else if host.exclusive = none then
    { host.remember holder { memory with
        gate := some (.locked memory.nextFd), nextFd := memory.nextFd + 1 } with
      shared := host.shared ++ [(holder, memory.nextFd)] }
  else host.remember holder { memory with gate := some .waiting }

/-- The next step of the call that has the gate, in `_enter` or in `_leave`. -/
def advance (raises : Bool) : Section → Host
  | .entering =>
      let memory := host.memory holder
      match memory.table with
      | some hold => host.remember holder { memory with
          scopes := changed memory.scopes hold (memory.scopes hold + 1)
          gate := some (.joined hold) }
      | none => host.remember holder { memory with gate := some .claimed }
  | .joined hold =>
      let memory := host.memory holder
      host.remember holder { memory with
        gate := none
        opened := changed memory.opened hold (memory.opened hold + 1) }
  | .claimed =>
      let memory := host.memory holder
      if raises then host.remember holder { memory with gate := none }
      else (host.remember holder { memory with gate := some .recorded }).write holder
  | .recorded => host.attemptShared holder raises
  | .waiting => host.attemptShared holder raises
  | .locked fd =>
      let memory := host.memory holder
      host.remember holder { memory with
        table := some fd
        scopes := changed memory.scopes fd 1
        gate := some (.joined fd) }
  | .failed =>
      (host.remember holder { host.memory holder with gate := some .raised }).unlink holder
  | .raised => host.remember holder { host.memory holder with gate := none }
  | .leaving hold =>
      let memory := host.memory holder
      let scopes := changed memory.scopes hold (memory.scopes hold - 1)
      if memory.scopes hold - 1 ≠ 0 then
        host.remember holder { memory with scopes := scopes, gate := some .kept }
      else
        host.remember holder { memory with
          table := none, scopes := scopes, gate := some (.releasing hold) }
  | .kept => host.remember holder { host.memory holder with gate := none }
  | .releasing hold =>
      { host.remember holder { host.memory holder with gate := some .unlinking } with
        shared := host.shared.filter (· ≠ (holder, hold)) }
  | .unlinking =>
      (host.remember holder { host.memory holder with gate := some .left }).unlink holder
  | .left => host.remember holder { host.memory holder with gate := none }

end Host

/-- What a thread of a process does. -/
inductive Move where
  /-- Calls `hold_shared`. -/
  | enter
  /-- A call of `_enter` gets the gate. -/
  | gateToEnter
  /-- A scope of the hold ends. -/
  | close (hold : Nat)
  /-- A call of `_leave` gets the gate. -/
  | gateToLeave (hold : Nat)
  | proceed (raises : Bool)

inductive Act where
  | spawn (pid : Nat) (start : Str)
  | die (pid : Nat)
  /-- One attempt of an exclusive acquire. -/
  | attemptExclusive (holder : Holder)
  | releaseExclusive
  | move (holder : Holder) (move : Move)
  /-- A call of `holders` lists the registry. -/
  | list (sweep : Nat)
  /-- The next step of a sweep; what it reads, if anything, may be unreadable. -/
  | sweep (sweep : Nat) (unreadable : Bool)

namespace Host

variable (host : Host)

def moved (holder : Holder) : Move → Option Host
  | .enter =>
      let memory := host.memory holder
      some (host.remember holder { memory with entering := memory.entering + 1 })
  | .gateToEnter =>
      let memory := host.memory holder
      if memory.gate = none ∧ 0 < memory.entering then
        some (host.remember holder { memory with
          gate := some .entering, entering := memory.entering - 1 })
      else none
  | .close hold =>
      let memory := host.memory holder
      if 0 < memory.opened hold then
        some (host.remember holder { memory with
          opened := changed memory.opened hold (memory.opened hold - 1)
          leaving := changed memory.leaving hold (memory.leaving hold + 1) })
      else none
  | .gateToLeave hold =>
      let memory := host.memory holder
      if memory.gate = none ∧ 0 < memory.leaving hold then
        some (host.remember holder { memory with
          gate := some (.leaving hold)
          leaving := changed memory.leaving hold (memory.leaving hold - 1) })
      else none
  | .proceed raises =>
      (host.memory holder).gate.map fun step => host.advance holder raises step

def setSweep (sweep : Nat) (next : Sweep) : Host :=
  { host with sweeps := fun other => if other = sweep then next else host.sweeps other }

/-- `sorted(registry.iterdir())`. -/
def listed : List Holder :=
  host.registry.insertionSort fun left right => textLe left.name right.name = true

/-- The next step of a sweep: an entry is read, its process looked up, or its record removed. -/
def swept (sweep : Nat) (unreadable : Bool) : Sweep → Host
  | .returned _ => host
  | .reading [] found => host.setSweep sweep (.returned found)
  | .reading (entry :: entries) found =>
      -- `_read_record` answers None for a missing record as for any other `OSError`
      if entry ∈ host.registry ∧ !unreadable then
        host.setSweep sweep (.checking entry entries found)
      else host.setSweep sweep (.removing entry true entries found)
  | .checking holder entries found =>
      if host.runs holder ∧ !unreadable then
        host.setSweep sweep (.reading entries (found ++ [holder]))
      else host.setSweep sweep (.removing holder unreadable entries found)
  | .removing entry _ entries found =>
      (host.unlink entry).setSweep sweep (.reading entries found)

/-- A process that dies gives its locks back; its record stays. -/
def died (holder : Holder) : Host :=
  { host with
    running := fun pid => if pid = holder.pid then none else host.running pid
    shared := host.shared.filter (·.1 ≠ holder)
    exclusive := if host.exclusive = some holder then none else host.exclusive }

def step (host : Host) : Act → Option Host
  | .spawn pid start =>
      if host.running pid = none ∧ ⟨pid, start⟩ ∉ host.born then
        some { host with
          running := fun other => if other = pid then some start else host.running other
          born := host.born ++ [⟨pid, start⟩] }
      else none
  | .die pid => (host.running pid).map fun start => host.died ⟨pid, start⟩
  | .attemptExclusive holder =>
      if !host.runs holder then none
      else if host.exclusive = none ∧ host.shared = [] then
        some { host with exclusive := some holder }
      else some host
  | .releaseExclusive => some { host with exclusive := none }
  | .move holder move => if host.runs holder then host.moved holder move else none
  | .list sweep => some (host.setSweep sweep (.reading host.listed []))
  | .sweep sweep unreadable => some (host.swept sweep unreadable (host.sweeps sweep))

def run : List Act → Host → Option Host
  | [], host => some host
  | act :: rest, host => (host.step act).bind (run rest)

end Host

end Defender.Tenancy.HostLock
