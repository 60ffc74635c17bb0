import Defender.Lifecycle.HostSteps

/-!
# The store, its workers and what is outside

Any number of workers run the steps of either actor, one operation at a time, between
requests of the API. A worker holds its tenant's lock until it stops. A call outside
takes effect or not and answers or raises; a commit lands, lands with its answer lost, or
misses; a worker may be gone before any operation. An event that cannot happen leaves
everything as it is. The listing of a pass may be stale, so a worker tries any tenant.
-/

namespace Defender.Lifecycle

open Defender.Python Defender.Tenancy Defender.Library.Programs

/-- A tenant under its lock: the row as the hold last saw it, the running step and what is
left of its body. -/
structure Worker where
  actor : StepActor
  tenant : Str
  record : TenantRecord
  step : StepName
  program : Body Unit

structure System where
  store : Str → Option TenantRows
  locked : Str → Bool
  workers : Nat → Option Worker
  things : List Thing

def System.empty : System where
  store := fun _ => none
  locked := fun _ => false
  workers := fun _ => none
  things := []

/-- What comes of a worker's next operation. -/
inductive Reaction where
  | plain
  | drawn (salt : Str)
  | clocked (now : Time)
  | replied (took : Bool) (reply : Except Str Response)
  | listed (pages : Except Str (List Response))
  | ended (completed : Except Str Completed)
  | acted (outcome : Except Str (Option Str))
  | lands
  | lost
  | missed
  | refused (said : Str)

inductive Event where
  | requestCreate (tenant : Str) (now : Time)
  | requestResume (tenant : Str)
  | requestOffboard (tenant : Str)
  | requestRotate (tenant : Str)
  | take (worker : Nat) (actor : StepActor) (tenant : Str) (now : Time)
  | go (worker : Nat) (reaction : Reaction)
  | crash (worker : Nat)

def keepThing (things : List Thing) (thing : Thing) : List Thing :=
  if thing ∈ things then things else thing :: things

def dropThing (things : List Thing) (thing : Thing) : List Thing :=
  things.filter (· ≠ thing)

/-- What a reading call can answer: 404 for what is not there, a success for what is. -/
def readAnswers (things : List Thing) (thing : Thing) : Except Str Response → Bool
  | .error _ => true
  | .ok response =>
    (response.status ≠ 404 || !decide (thing ∈ things)) &&
      (!response.isSuccess || decide (thing ∈ things))

def succeeded : Except Str Response → Bool
  | .error _ => false
  | .ok response => response.isSuccess

def absentAnswer : Except Str Response → Bool
  | .error _ => false
  | .ok response => response.status = 404

def afterWrite (things : List Thing) (thing : Thing) (took : Bool)
    (reply : Except Str Response) : List Thing :=
  if took || succeeded reply then keepThing things thing else things

def afterRemove (things : List Thing) (thing : Thing) (took : Bool)
    (reply : Except Str Response) : List Thing :=
  if took || succeeded reply || absentAnswer reply then dropThing things thing else things

section Moves

/-- One entry of a table changed. -/
def put {Key Value : Type} [DecidableEq Key] (table : Key → Value) (key : Key) (value : Value) :
    Key → Value :=
  fun other => if other = key then value else table other

def System.stop (system : System) (id : Nat) (worker : Worker) : System :=
  { system with
    workers := put system.workers id none
    locked := put system.locked worker.tenant false }

def System.goOn (system : System) (id : Nat) (worker : Worker) (program : Body Unit) : System :=
  { system with workers := put system.workers id (some { worker with program }) }

def bySalt (generations : List Generation) : List Generation :=
  generations.insertionSort fun left right => textLe left.salt right.salt = true

/-- The longest failure text recorded. -/
def failureLimit : Nat := 600

/-- `_failure_text`, for texts that carry no secret. -/
def failureText (step : StepName) (failed : Failed) : Str :=
  let said := step.text ++ (": " : Str) ++ failed.text
  let storable := strip (said.map fun char =>
    if char = '\n' then ' ' else if char = Char.ofNat 0 then '?' else char)
  if storable.length ≤ failureLimit then storable
  else storable.take (failureLimit - 3) ++ ("..." : Str)

def startStep (config : Config) (actor : StepActor) (tenant : Str) (record : TenantRecord) :
    Worker :=
  let step := record.step.getD (.other ("None" : Str))
  { actor, tenant, record, step, program := bodyOf config tenant actor step }

/-- `_record_failure`: the tenant's failure at the restart point, under the fence. -/
def restartPoint (worker : Worker) (failed : Failed) : StepName × StepActor :=
  failed.restart.getD (worker.step, worker.actor)

def System.writeRows (system : System) (tenant : Str) (rows : TenantRows) : System :=
  { system with store := put system.store tenant (some rows) }

def System.landCommit (system : System) (id : Nat) (worker : Worker) (records : Commit)
    (next : Except Str TenantRecord → Body Unit) : System :=
  match system.store worker.tenant with
  | none => system.stop id worker
  | some rows =>
    match Memory.commit rows worker.record records with
    | .ok after =>
      (system.writeRows worker.tenant after).goOn id { worker with record := after.record }
        (next (.ok after.record))
    | .error (.fenceMissed _) => system.stop id worker
    | .error (.valueError said) =>
      system.goOn id worker (next (.error (("ValueError: " : Str) ++ said)))
    | .error (.keyError salt) =>
      let key := ("(" : Str) ++ reprWord worker.tenant ++ (", " : Str) ++ reprWord salt ++ (")" : Str)
      system.goOn id worker (next (.error (keyErrorText key)))

def System.loseCommit (system : System) (id : Nat) (worker : Worker) (records : Commit) :
    System :=
  match system.store worker.tenant with
  | none => system.stop id worker
  | some rows =>
    match Memory.commit rows worker.record records with
    | .ok after => (system.writeRows worker.tenant after).stop id worker
    | .error _ => system.stop id worker

def System.landFailure (system : System) (id : Nat) (worker : Worker) (failed : Failed) :
    System :=
  let restart := restartPoint worker failed
  match system.store worker.tenant with
  | none => system.stop id worker
  | some rows =>
    match Memory.fail rows worker.record (failureText worker.step failed) restart.1 restart.2 with
    | .ok after => (system.writeRows worker.tenant after).stop id worker
    | .error _ => system.stop id worker

def System.performed (system : System) (id : Nat) (worker : Worker) :
    (operation : Operation) → (Answer operation → Body Unit) → Reaction → System
  | .generations, next, .plain =>
    match system.store worker.tenant with
    | none => system
    | some rows => system.goOn id worker (next (bySalt rows.generations))
  | .forgeWiring, next, .plain =>
    match system.store worker.tenant with
    | none => system
    | some rows => system.goOn id worker (next rows.wiring)
  | .record, next, .plain => system.goOn id worker (next worker.record)
  | .only found status, next, .plain => system.goOn id worker (next (only found status))
  | .clock, next, .clocked now => system.goOn id worker (next now)
  | .draw, next, .drawn salt =>
    -- `secrets.token_hex(4)`: eight hexadecimal digits
    if salt.length = 8 then system.goOn id worker (next salt) else system
  | .commit records, next, .lands => system.landCommit id worker records next
  | .commit records, _, .lost => system.loseCommit id worker records
  | .commit _, _, .missed => system.stop id worker
  | .commit _, next, .refused said => system.goOn id worker (next (.error said))
  | .read thing, next, .replied _ reply =>
    if readAnswers system.things thing reply then system.goOn id worker (next reply) else system
  | .write thing, next, .replied took reply =>
    { system with things := afterWrite system.things thing took reply }.goOn id worker (next reply)
  | .remove thing, next, .replied took reply =>
    { system with things := afterRemove system.things thing took reply }.goOn id worker
      (next reply)
  | .call _ _, next, .replied _ reply => system.goOn id worker (next reply)
  | .collaborators _, next, .listed pages => system.goOn id worker (next pages)
  | .runIntegration _, next, .ended completed => system.goOn id worker (next completed)
  | .act _, next, .acted outcome => system.goOn id worker (next outcome)
  | _, _, _ => system

def System.advance (config : Config) (system : System) (id : Nat) (worker : Worker)
    (reaction : Reaction) : System :=
  match worker.program with
  | .perform operation next => system.performed id worker operation next reaction
  | .failed why =>
    match reaction with
    | .lands | .lost => system.landFailure id worker why
    | .missed => system.stop id worker
    | _ => system
  | .done _ =>
    match reaction with
    | .clocked now =>
      if claimableNow worker.record worker.actor now then
        let started := startStep config worker.actor worker.tenant worker.record
        { system with workers := put system.workers id (some started) }
      else
        system.stop id worker
    | _ => system

def System.request (system : System) (tenant : Str) (change : TenantRows → Option TenantRows) :
    System :=
  match (system.store tenant).bind change with
  | none => system
  | some rows => system.writeRows tenant rows

end Moves

def System.act (config : Config) (system : System) : Event → System
  | .requestCreate tenant now =>
    -- `TenantId.mint`: an id no tenant has, of the one length ids have
    if (system.store tenant).isNone ∧ tenant.length = 36 then
      system.writeRows tenant (Memory.newTenant tenant now)
    else system
  | .requestResume tenant => system.request tenant Memory.requestResume
  | .requestOffboard tenant => system.request tenant Memory.requestOffboard
  | .requestRotate tenant => system.request tenant Memory.requestRotate
  | .take id actor tenant now =>
    match system.workers id, system.store tenant with
    | none, some rows =>
      if !system.locked tenant && claimableNow rows.record actor now then
        let started := startStep config actor tenant rows.record
        { system with
          locked := put system.locked tenant true
          workers := put system.workers id (some started) }
      else system
    | _, _ => system
  | .go id reaction =>
    match system.workers id with
    | none => system
    | some worker => system.advance config id worker reaction
  | .crash id =>
    match system.workers id with
    | none => system
    | some worker => system.stop id worker

def System.runFrom (config : Config) (start : System) (events : List Event) : System :=
  events.foldl (System.act config) start

def System.run (config : Config) (events : List Event) : System :=
  events.foldl (System.act config) System.empty

end Defender.Lifecycle
