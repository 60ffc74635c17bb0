import Defender.Library.OrderedDict
import Defender.Python.Json

/-!
# The lead author's requests

A curation request is one file: in the queue, in `inflight/` while a tick holds it, in
`failed/` once it is given up. A run's end writes the queue's slot whenever it likes, no
lock taken; a tick lists both folders, moves each queued record to `inflight/`, serves it,
and requeues, quarantines or releases it. Every step below is at most one operation on the
files, so a tick can be killed between any two of them.
-/

namespace Defender.Learning.Requests

open Defender.Python Defender.Library.OrderedDict

section Records

abbrev Spec := Dict Str Json

/-- What a record's bytes decode to. -/
inductive Content where
  | spec (fields : Spec)
  | damaged (reason : Str)

/-- A record, with the number of the call that enqueued it. -/
structure File where
  origin : Nat
  content : Content

structure Disk where
  queue : Dict Str File
  inflight : Dict Str File
  failed : Dict Str File

def jsonNames (folder : Dict Str File) : List Str :=
  sorted (folder.keys.filter fun name => endsWith ".json" name)

def stemOf (name : Str) : Str :=
  if endsWith ".json" name then name.take (name.length - 5) else name

def textField (spec : Spec) (key : Str) : Option Str :=
  match spec.get? key with
  | some (.string text) => some text
  | _ => none

/-- A request this pass owns. -/
structure Claimed where
  name : Str
  spec : Spec
  origin : Nat
  orphan : Bool

def isInteger (literal : Str) : Bool := !literal.isEmpty && literal.all Char.isDigit

def digitsNumber (literal : Str) : Nat := Nat.ofDigitChars 10 literal 0

/-- What holds in a process and its tenant: the address grammar (a refusal's text), the
selected tenant, the attempt ceiling, `int()` of a text or of a number that is no integer
literal, and `repr`. -/
structure Settings where
  offGrammar : Str → Str → Option Str
  tenant : Option Str
  maxRetries : Int
  intOf : Json → Option Int
  reprOf : Option Json → Str

variable (settings : Settings)

/-- `int(spec.get("attempts", 0))`; `none` where it raises. -/
def countOf : Option Json → Option Int
  | none => some 0
  | some (.bool value) => some (if value then 1 else 0)
  | some (.number literal) =>
    if isInteger literal then some (digitsNumber literal) else settings.intOf (.number literal)
  | some (.string text) => settings.intOf (.string text)
  | some _ => none

def addressFault (spec : Spec) : Option Str :=
  match textField spec "tenant_id", textField spec "run_id" with
  | none, _ => some "tenant_id is missing or not a string"
  | _, none => some "run_id is missing or not a string"
  | some tenant, some run =>
    (settings.offGrammar tenant run).map fun refused =>
      message ["the run address is off its grammar (", refused, ")"]

end Records

section Tick

/-- Where a tick stands; each stage is left by one step. -/
inductive Stage where
  | listing
  | listed (orphans : List Str)
  | taking
  | moving (name : Str)
  | reading (name : Str) (orphan : Bool)
  | judging (claim : Claimed)
  | stamping (claim : Claimed) (attempts : Int)
  | invoking (claim : Claimed) (attempts : Int)
  | failing (claim : Claimed) (reason : Str)
  | parked (claim : Claimed)
  | requeueing (claim : Claimed) (more : Bool)
  | releasing (claim : Claimed) (more : Bool)
  | drained
  | applying (claims : List Claimed)

structure Tick where
  stage : Stage
  pending : List (Str × Bool)
  served : List Claimed

/-- What became of a record the pass met. -/
inductive Handling where
  | served
  | requeued
  | superseded
  | quarantined
  | waiting
  | vanished
deriving DecidableEq

structure Handled where
  name : Str
  orphan : Bool
  handling : Handling
deriving DecidableEq

/-- The files and the tick that runs, with what is told of the run: the calls that enqueued
a record, the agent's runs and those that ended cleanly, the requests released once applied
and the records handled. A request is named by the number of its call. -/
structure World where
  disk : Disk
  tick : Option Tick
  enqueued : List (Str × Spec)
  invoked : List Nat
  clean : List Nat
  released : List Nat
  handled : List Handled

inductive Activity where
  | active
  | inactive (reason : Str)
  | unreachable (reason : Str)

inductive Reach where
  | run
  | absent
  | refused (cause : Str)

/-- How `run_lead_author` ends: cleanly, with an error of its own, asking for a retry, with
a claim the commit-maker refuses, or with a fault no guard takes. -/
inductive Work where
  | clean
  | failure (cause : Str)
  | retry (cause : Str)
  | refused (cause : Str)
  | systemic

/-- What the tenant records, the runs, the agent and the delivery answer at one step. -/
structure Answers where
  activity : Activity
  reach : Reach
  work : Work
  delivered : Bool

variable (settings : Settings)

/-- The first integer of more digits than `str` prints. -/
def digitBound : Int := (Nat.pow 10 4300 : Nat)

/-- A counted transient attempt: back to the queue with its count, or given up at the
ceiling. -/
def retryOrExhaust (claim : Claimed) (attempts : Int) (cause : Str) : Stage :=
  if settings.maxRetries ≤ attempts then
    .failing claim (message ["transient-exhausted after ", showInt attempts, " attempt(s): ",
      cause])
  else
    .requeueing
      { claim with spec := claim.spec.set "attempts" (.number (showInt attempts)) } true

/-- What `_rehydrate` answers for a claim. -/
def rehydrate (answers : Answers) (claim : Claimed) : Reach :=
  if settings.tenant = none ∨ settings.tenant ≠ textField claim.spec "tenant_id" then
    .refused "TenantRefused"
  else answers.reach

/-- The stage after `_set_aside`, `_rehydrate` and the count; `none` where the count
raises. -/
def judge (answers : Answers) (claim : Claimed) : Option Stage :=
  if settings.tenant.isSome ∧ textField claim.spec "tenant_id" ≠ settings.tenant then
    some (.failing claim (message ["tenant ", settings.reprOf (claim.spec.get? "tenant_id"),
      " does not own selected tenant ", settings.tenant.getD [], "'s queue"]))
  else
    match answers.activity with
    | .inactive _ => some (.requeueing claim true)
    | .unreachable _ => some (.requeueing claim false)
    | .active =>
      match rehydrate settings answers claim with
      | .absent => some (.failing claim "artifact-missing")
      | .refused cause =>
        (countOf settings (claim.spec.get? "attempts")).bind fun count =>
          -- the dead letter's reason prints the count, which Python refuses past its bound
          if settings.maxRetries ≤ count + 1 ∧ digitBound ≤ count + 1 then none
          else some (retryOrExhaust settings claim (count + 1) cause)
      | .run =>
        (countOf settings (claim.spec.get? "attempts")).map fun count =>
          if settings.maxRetries < count + 1 then
            .failing claim (message ["served ", showInt count,
              " time(s) without being recorded done"])
          else .stamping claim (count + 1)

/-- What is parked for a record that gives no spec. -/
def unreadable (name : Str) (orphan : Bool) (origin : Nat) (reason : Str) : Stage :=
  .failing ⟨name, Dict.ofList [("case_id", .string (stemOf name))], origin, orphan⟩
    (message ["unreadable: ", reason])

/-- The claim read off a record in `inflight/`, or what is parked instead of it. -/
def claimSpec (name : Str) (orphan : Bool) : Option File → Stage
  | none => unreadable name orphan 0 "the claimed record vanished"
  | some ⟨origin, .damaged reason⟩ => unreadable name orphan origin reason
  | some ⟨origin, .spec fields⟩ =>
    match addressFault settings fields with
    | some fault => .failing ⟨name, fields, origin, orphan⟩ (message ["unreadable: ", fault])
    | none => .judging ⟨name, fields, origin, orphan⟩

def World.at (world : World) (tick : Tick) (stage : Stage) : World :=
  { world with tick := some { tick with stage } }

def World.note (world : World) (claim : Claimed) (handling : Handling) : World :=
  { world with handled := ⟨claim.name, claim.orphan, handling⟩ :: world.handled }

def failedFile (claim : Claimed) (reason : Str) : File :=
  ⟨claim.origin, .spec (claim.spec.set "failed" (.string reason))⟩

/-- The next name of the pass: an orphan is claimed already, a queued record waits while
its name is. -/
def take (world : World) (tick : Tick) : World :=
  match tick.pending with
  | [] => world.at tick .drained
  | (name, true) :: rest => world.at { tick with pending := rest } (.reading name true)
  | (name, false) :: rest =>
    if world.disk.inflight.contains name then
      { world.at { tick with pending := rest } .taking with
        handled := ⟨name, false, .waiting⟩ :: world.handled }
    else world.at { tick with pending := rest } (.moving name)

def invoke (answers : Answers) (world : World) (tick : Tick) (claim : Claimed)
    (attempts : Int) : Option World :=
  let run := { world with invoked := claim.origin :: world.invoked }
  match answers.work with
  | .clean => some { (run.at { tick with served := tick.served ++ [claim] } .taking).note
      claim .served with clean := claim.origin :: world.clean }
  | .failure cause => some (run.at tick (.failing claim (message ["lead-author-error: ", cause])))
  | .retry cause | .refused cause =>
    some (run.at tick (retryOrExhaust settings claim attempts cause))
  | .systemic => none

/-- One step of the tick; `none` where an exception leaves the drain. -/
def advance (answers : Answers) (world : World) (tick : Tick) : Option World :=
  match tick.stage with
  | .listing =>
    some { world with tick := some ⟨.listed (jsonNames world.disk.inflight), [], []⟩ }
  | .listed orphans => some { world with
      tick := some ⟨.taking,
        orphans.map (·, true) ++ (jsonNames world.disk.queue).map (·, false), []⟩ }
  | .taking => some (take world tick)
  | .moving name =>
    match world.disk.queue.get? name with
    | none => some { world.at tick .taking with
        handled := ⟨name, false, .vanished⟩ :: world.handled }
    | some file => some { world.at tick (.reading name false) with
        disk := { world.disk with
          queue := world.disk.queue.erase name
          inflight := world.disk.inflight.set name file } }
  | .reading name orphan =>
    some (world.at tick (claimSpec settings name orphan (world.disk.inflight.get? name)))
  | .judging claim => (judge settings answers claim).map (world.at tick)
  | .stamping claim attempts => some { world.at tick (.invoking claim attempts) with
      disk := { world.disk with
        inflight := world.disk.inflight.set claim.name ⟨claim.origin,
          .spec (claim.spec.set "attempts" (.number (showInt attempts)))⟩ } }
  | .invoking claim attempts => invoke settings answers world tick claim attempts
  | .failing claim reason => some { world.at tick (.parked claim) with
      disk := { world.disk with
        failed := world.disk.failed.set claim.name (failedFile claim reason) } }
  | .parked claim => some { (world.at tick .taking).note claim .quarantined with
      disk := { world.disk with inflight := world.disk.inflight.erase claim.name } }
  | .requeueing claim more =>
    if world.disk.queue.contains claim.name then
      some ((world.at tick (.releasing claim more)).note claim .superseded)
    else some { (world.at tick (.releasing claim more)).note claim .requeued with
      disk := { world.disk with
        queue := world.disk.queue.set claim.name ⟨claim.origin, .spec claim.spec⟩ } }
  | .releasing claim more => some
      { world.at { tick with pending := if more then tick.pending else [] } .taking with
        disk := { world.disk with inflight := world.disk.inflight.erase claim.name } }
  | .drained =>
    some (if answers.delivered then world.at { tick with served := [] } (.applying tick.served)
      else { world with tick := none })
  | .applying [] => some { world with tick := none }
  | .applying (claim :: rest) => some { world.at tick (.applying rest) with
      disk := { world.disk with inflight := world.disk.inflight.erase claim.name }
      released := claim.origin :: world.released }

end Tick

inductive Action where
  | enqueue (caseId : Str) (spec : Spec)
  | tick (answers : Answers)
  | kill

def requestName (caseId : Str) : Str := caseId ++ ".json"

def enqueueCuration (world : World) (caseId : Str) (spec : Spec) : World :=
  { world with
    disk := { world.disk with
      queue := world.disk.queue.set (requestName caseId) ⟨world.enqueued.length, .spec spec⟩ }
    enqueued := world.enqueued ++ [(requestName caseId, spec)] }

def newTick : Tick := ⟨.listing, [], []⟩

/-- A step of a tick begins one when none runs; an exception ends it. -/
def act (settings : Settings) (world : World) : Action → World
  | .enqueue caseId spec => enqueueCuration world caseId spec
  | .kill => { world with tick := none }
  | .tick answers =>
    match world.tick with
    | none => { world with tick := some newTick }
    | some tick => (advance settings answers world tick).getD { world with tick := none }

def run (settings : Settings) (world : World) (actions : List Action) : World :=
  actions.foldl (act settings) world

def World.empty : World := ⟨⟨.empty, .empty, .empty⟩, none, [], [], [], [], []⟩

end Defender.Learning.Requests
