import Defender.Library.HostSteps
import Defender.Library.OrderedDict
import Defender.Python.Text

/-!
# One tick of the lead-author lane

The tick delivers what an earlier one retained, starts a batch, serves the queued
requests into it, runs the pitfalls curation, consumes what it served and lands the
batch. Every host step may raise; `Answers` says what each of them does.
-/

namespace Defender.Learning.BatchTick

open Defender.Python Defender.Library.OrderedDict Defender.Library.HostSteps

section State

inductive Fault where
  | osError
  | timeout
  | stateRefused
  | deliveryRefused
  | other
deriving DecidableEq, Repr

structure RequestSpec where
  caseId : Option Str
  tenantId : Str
  runId : Str
  attempts : Nat
deriving DecidableEq

abbrev Record := Except Str RequestSpec

structure Claimed where
  name : Str
  spec : RequestSpec
deriving DecidableEq

structure ServedMarker where
  claim : Claimed
  run : Str
  done : Bool
  sha : Option Str
deriving DecidableEq

/-- What the pitfalls curation consumes once its commit is sound. -/
structure PitfallsDisposition where
  committedIds : List Str
  sha : Option Str
  heldIds : List Str
deriving DecidableEq

structure PendingDelivery where
  id : Str
  branch : Str
  batchId : Str
deriving DecidableEq

/-- A queued pitfall and how often its offer was declined. -/
structure PitfallRow where
  id : Str
  offersDeclined : Nat
deriving DecidableEq

structure LearningState where
  queue : Dict Str Record
  inflight : Dict Str Record
  failed : Dict Str Str
  sentinels : Dict Str (Option Str)
  pitfalls : List PitfallRow
  consumed : List (Str × Option Str)
  deliveries : List PendingDelivery

/-- The state with what the tick has in hand: its served markers, the curation's
disposition, and the batches whose `finish` returned. -/
structure Tick extends LearningState where
  served : List ServedMarker
  curated : Option PitfallsDisposition
  landed : List Str

def Tick.start (state : LearningState) : Tick := { state with
  served := [], curated := none, landed := [] }

abbrev Host := HostStep Tick Fault

end State

section Answers

/-- An unlink whose `OSError` is swallowed: the record is gone, left, or refused. -/
inductive Unlink where
  | gone
  | left
  | refused
deriving DecidableEq, Repr

inductive ReadAnswer where
  | found
  | failed (cause : Str)
  | refused
deriving DecidableEq

inductive Admission where
  | inactive
  | unreachable
  | active
deriving DecidableEq, Repr

inductive RunAnswer where
  | absent
  | unreached (cause : Str)
  | opened (runDir : Str)
deriving DecidableEq

/-- How the curator's run ends; `finished` carries what it reported to `on_done`. A cause is
the exception's `repr`. -/
inductive CuratorAnswer where
  | finished (done : List (Option Str))
  | retried (cause : Str)
  | refused (cause : Str)
  | failed (cause : Str)
  | halted (fault : Fault)
deriving DecidableEq

/-- What the host does for one claim. -/
structure ClaimAnswers where
  slotFault : Option Fault
  moveFault : Option Fault
  read : ReadAnswer
  admission : Admission
  run : RunAnswer
  curator : CuratorAnswer
  requeueFault : Option Fault
  quarantineFault : Option Fault
  stampFault : Option Fault
  resetFault : Option Fault
  unlink : Unlink

inductive CurationAnswer where
  | curated (disposition : Option PitfallsDisposition)
  | failed (retireFault : Option Fault) (disposition : Option PitfallsDisposition)
  | halted (fault : Fault)

inductive DeliveryStatus where
  | nothing
  | pullRequest
deriving DecidableEq, Repr

/-- What every host step of the tick does. A claim's answers are by its record's name and
whether it was left in `inflight/` by an earlier tick. -/
structure Answers where
  tenant : Option Str
  branchStart : Str
  deliver : PendingDelivery → Option Fault
  dropRecord : PendingDelivery → Unlink
  pitfallsOpen : Bool
  openPr : Except Fault Bool
  batchId : Str
  startBatch : Option Fault
  startBox : Option Fault
  stopRuns : Option Fault
  maxRetries : Nat
  claim : Str → Bool → ClaimAnswers
  curation : CurationAnswer
  curationReset : Option Fault
  stopBox : Option Fault
  sentinel : ServedMarker → Option Fault
  release : ServedMarker → Unlink
  maxAttempts : Nat
  rotate : Option Fault
  retire : Option Fault
  finish : Except Fault DeliveryStatus
  mergeMode : Option Fault
  record : Option Fault
  discard : Option Fault

end Answers

section Requests

def jsonNames {Value : Type} (folder : Dict Str Value) : List Str :=
  sorted (folder.keys.filter (endsWith ".json"))

def release (unlink : Unlink) (name : Str) : Host :=
  match unlink with
  | .gone => .write none fun tick => { tick with inflight := tick.inflight.erase name }
  | .left => .skip
  | .refused => .raise .stateRefused

def quarantine (answers : ClaimAnswers) (name reason : Str) : Host :=
  (HostStep.write answers.quarantineFault fun tick =>
    { tick with failed := tick.failed.set name reason }).andThen (release answers.unlink name)

/-- Create-if-absent: a fresher request in the slot wins. -/
def requeueOrDrop (answers : ClaimAnswers) (claim : Claimed) : Host :=
  (HostStep.write answers.requeueFault fun tick =>
    { tick with queue := tick.queue.setDefault claim.name (.ok claim.spec) }).andThen
    (release answers.unlink claim.name)

def retryOrExhaust (answers : ClaimAnswers) (maxRetries attempts : Nat) (claim : Claimed)
    (cause : Str) : Host :=
  if attempts ≥ maxRetries then
    quarantine answers claim.name (message ["transient-exhausted after ", decimalText attempts,
      " attempt(s): ", cause])
  else requeueOrDrop answers { claim with spec := { claim.spec with attempts := attempts } }

def report (marker : ServedMarker) (tick : Tick) : Tick :=
  { tick with served := tick.served ++ [marker] }

def settleRun (answers : ClaimAnswers) (maxRetries attempts : Nat) (claim : Claimed)
    (runDir : Str) : Host :=
  let reset : Host := .write answers.resetFault id
  match answers.curator with
  | .finished done => reset.andThen
      (.write none (report ⟨claim, runDir, !done.isEmpty, done.getLast?.join⟩))
  | .failed cause =>
      (quarantine answers claim.name (message ["lead-author-error: ", cause])).andThen reset
  | .retried cause | .refused cause =>
      (retryOrExhaust answers maxRetries attempts claim cause).andThen reset
  | .halted fault => .raise fault

def stampClaim (claim : Claimed) (attempts : Nat) (tick : Tick) : Tick :=
  { tick with
    inflight := tick.inflight.set claim.name (.ok { claim.spec with attempts := attempts }) }

def serveClaim (answers : ClaimAnswers) (maxRetries : Nat) (claim : Claimed) : Host :=
  let attempts := claim.spec.attempts + 1
  match answers.run with
  | .absent => quarantine answers claim.name "artifact-missing"
  | .unreached cause => retryOrExhaust answers maxRetries attempts claim cause
  | .opened runDir =>
      if attempts > maxRetries then
        quarantine answers claim.name (message ["served ", decimalText (attempts - 1),
          " time(s) without being recorded done"])
      else (HostStep.write answers.stampFault (stampClaim claim attempts)).andThen
        (settleRun answers maxRetries attempts claim runDir)

/-- The claimed record, moved into `inflight/` unless it is there: `none` for one that waits
a pass or has gone. -/
def takeClaim (answers : ClaimAnswers) (name : Str) (orphan : Bool) (next skipped : Host) :
    Host := fun tick =>
  if orphan then next tick
  else
    match answers.slotFault with
    | some fault => (tick, some fault)
    | none =>
        if tick.inflight.contains name then skipped tick
        else
          match answers.moveFault, tick.queue.get? name with
          | some fault, _ => (tick, some fault)
          | none, none => skipped tick
          | none, some record => next { tick with
              queue := tick.queue.erase name, inflight := tick.inflight.set name record }

variable [UnicodeDatabase]

def foreignReason (tenant : Option Str) (owner : Str) : Option Str :=
  match tenant with
  | none => none
  | some selected =>
      if owner = selected then none
      else some (message ["tenant ", reprText owner, " does not own selected tenant ", selected,
        "'s queue"])

/-- A claim that was taken: set aside, or served. Only when the tenant records cannot be
read are no further claims taken. -/
def handleClaim (answers : Answers) (said : ClaimAnswers) (name : Str) (others : Host) : Host :=
  fun tick =>
    match said.read, tick.inflight.get? name with
    | .refused, _ => HostStep.raise .stateRefused tick
    | .failed cause, _ =>
        (quarantine said name (message ["unreadable: ", cause])).andThen others tick
    | .found, none =>
        (quarantine said name "unreadable: the claimed record vanished").andThen others tick
    | .found, some (.error reason) => (quarantine said name reason).andThen others tick
    | .found, some (.ok spec) =>
        match foreignReason answers.tenant spec.tenantId, said.admission with
        | some reason, _ => (quarantine said name reason).andThen others tick
        | none, .inactive => (requeueOrDrop said ⟨name, spec⟩).andThen others tick
        | none, .unreachable => requeueOrDrop said ⟨name, spec⟩ tick
        | none, .active =>
            (serveClaim said answers.maxRetries ⟨name, spec⟩).andThen others tick

def drainMarkers (answers : Answers) : List (Str × Bool) → Host
  | [] => .skip
  | (name, orphan) :: rest =>
      let said := answers.claim name orphan
      let others := drainMarkers answers rest
      takeClaim said name orphan (handleClaim answers said name others) others

/-- The records to claim, those an earlier tick left in `inflight/` first. -/
def claimNames (tick : Tick) : List (Str × Bool) :=
  (jsonNames tick.inflight).map (·, true) ++ (jsonNames tick.queue).map (·, false)

def drainLeadAuthorMarkers (answers : Answers) : Host := fun tick =>
  drainMarkers answers (claimNames tick) tick

end Requests

/-- The curation: a disposition it handed over is kept, and its failure retires its batch at
once. -/
def drainPitfalls (answers : Answers) : Host :=
  let handOver (disposition : Option PitfallsDisposition) : Host :=
    (HostStep.write answers.curationReset id).andThen
      (.write none fun tick => { tick with curated := disposition })
  match answers.curation with
  | .curated disposition => handOver disposition
  | .failed retireFault disposition =>
      (HostStep.write retireFault id).andThen (handOver disposition)
  | .halted fault => .raise fault

def rotatePitfalls (disposition : PitfallsDisposition) (tick : Tick) : Tick :=
  { tick with
    pitfalls := tick.pitfalls.filter fun row => !disposition.committedIds.contains row.id
    consumed := tick.consumed ++ (tick.pitfalls.filter fun row =>
      disposition.committedIds.contains row.id).map fun row => (row.id, disposition.sha) }

def retireExhaustedHolds (maxAttempts : Nat) (heldIds : List Str) (tick : Tick) : Tick :=
  let bumped := (tick.pitfalls.filter fun row => heldIds.contains row.id).map fun row =>
    { row with offersDeclined := row.offersDeclined + 1 }
  { tick with
    pitfalls := (bumped.filter fun row => row.offersDeclined < maxAttempts) ++
      tick.pitfalls.filter fun row => !heldIds.contains row.id
    consumed := tick.consumed ++ (bumped.filter fun row =>
      row.offersDeclined ≥ maxAttempts).map fun row => (row.id, none) }

def PitfallsDisposition.apply (answers : Answers) (disposition : PitfallsDisposition) : Host :=
  HostStep.andThen
    (if disposition.committedIds.isEmpty then .skip
      else .write answers.rotate (rotatePitfalls disposition))
    (if disposition.heldIds.isEmpty then .skip
      else .write answers.retire (retireExhaustedHolds answers.maxAttempts disposition.heldIds))

def writeSentinels (answers : Answers) (served : List ServedMarker) : Host :=
  .inTurn ((served.filter (·.done)).map fun marker =>
    .write (answers.sentinel marker) fun tick =>
      { tick with sentinels := tick.sentinels.set marker.run marker.sha })

def releaseServed (answers : Answers) (served : List ServedMarker) : Host :=
  .inTurn (served.map fun marker => release (answers.release marker) marker.claim.name)

def applyPitfalls (answers : Answers) (curated : Option PitfallsDisposition) : Host :=
  match curated with
  | none => .skip
  | some disposition => disposition.apply answers

/-- `BatchDisposition.apply`: the sentinels, then the claims, then the pitfalls. -/
def applyDisposition (answers : Answers) (served : List ServedMarker)
    (curated : Option PitfallsDisposition) : Host :=
  (writeSentinels answers served).andThen <|
    (releaseServed answers served).andThen (applyPitfalls answers curated)

/-- The lane's part of a delivery record's name. -/
def deliverySlug (branchStart : Str) : Str :=
  let slug := replace "/" "-" (rstripChars "/" branchStart)
  if slug = [] then "author" else slug

def Answers.batchRecord (answers : Answers) : PendingDelivery where
  id := message [deliverySlug answers.branchStart, "-", answers.batchId]
  branch := message [answers.branchStart, answers.batchId]
  batchId := answers.batchId

def recordPendingDelivery (answers : Answers) (tick : Tick) : Tick :=
  { tick with deliveries := answers.batchRecord ::
      tick.deliveries.filter fun pending => pending.id != answers.batchRecord.id }

def landBatch (answers : Answers) : Host :=
  match answers.finish with
  | .ok status =>
      (HostStep.write none fun tick => { tick with landed := answers.batchId :: tick.landed })
        |>.andThen (match status with
          | .nothing => .skip
          | .pullRequest => .write answers.mergeMode id)
  | .error .deliveryRefused => .write answers.record (recordPendingDelivery answers)
  | .error fault => .raise fault

def dropDelivered (answers : Answers) (pending : PendingDelivery) : Host :=
  match answers.dropRecord pending with
  | .gone => .write none fun tick => { tick with
      deliveries := tick.deliveries.filter fun other => other.id != pending.id }
  | .left => .skip
  | .refused => .raise .stateRefused

/-- Deliver every retained batch of the lane; a refusal parks the lane and ends the tick. -/
def deliverPending (answers : Answers) (clear : Host) : List PendingDelivery → Host
  | [] => clear
  | pending :: rest =>
      match answers.deliver pending with
      | some .deliveryRefused => .skip
      | some fault => .raise fault
      | none => (dropDelivered answers pending).andThen (deliverPending answers clear rest)

section Tick

variable [UnicodeDatabase]

/-- `_drain_lead_author` between the box's start and its removal. -/
def work (answers : Answers) (claims : Bool) : Host :=
  .inTurn [.write answers.startBox id, .write answers.stopRuns id,
    if claims then drainLeadAuthorMarkers answers else .skip, drainPitfalls answers,
    .write answers.stopBox id]

def consumeAndLand (answers : Answers) : Host := fun tick =>
  (applyDisposition answers tick.served tick.curated).andThen (landBatch answers) tick

def runBatch (answers : Answers) (claims : Bool) : Host :=
  ((work answers claims).andThen (consumeAndLand answers)).finallyRun (.write answers.discard id)

def hasWork (answers : Answers) (tick : Tick) : Bool :=
  !(jsonNames tick.queue).isEmpty || !(jsonNames tick.inflight).isEmpty || answers.pitfallsOpen

/-- The tick past the retained deliveries: the wake gate, the writer lease, the batch. -/
def startAndRun (answers : Answers) (claims : Bool) : Host := fun tick =>
  if !hasWork answers tick then (tick, none)
  else
    match answers.openPr with
    | .error fault => (tick, some fault)
    | .ok true => (tick, none)
    | .ok false => (HostStep.write answers.startBatch id).andThen (runBatch answers claims) tick

def runOpenedBatch (answers : Answers) (claims : Bool) : Host := fun tick =>
  deliverPending answers (startAndRun answers claims)
    (tick.deliveries.filter fun pending => startsWith answers.branchStart pending.branch) tick

end Tick

end Defender.Learning.BatchTick
