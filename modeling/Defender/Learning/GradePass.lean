import Defender.Library.HostSteps
import Defender.Learning.CuratorQueue

/-!
# A grading pass

A pass keeps what earlier passes queued, judges every other world of the manifest and then
the family, and writes the record whole after each commit and at its end. Each write of the
record and each append to a queue is a step that a stop may come before; what the pass holds
in memory is lost with it.

One record of an episode's grade, rewritten whole. A world's row and the family's carry a
commit state: `queueing` while the row's findings go to the queues, `queued` once they are
there. What a record says of a row in such a state, every later record carries: the row, the
ledger entries of its findings and its entries on the user record.
-/

namespace Defender.Learning.Judge

open Defender.Python Defender.Library.OrderedDict Defender.Library.HostSteps

section Record

inductive CommitState where
  | queueing
  | queued
deriving DecidableEq

/-- A world's row, or the family's under the family's label. -/
structure Row where
  label : Str
  state : Option CommitState
  fields : Dict Str Json

def familyLabel : Str := "family"

inductive Lane where
  | defender
  | questioner
  | userRecord
  | notMeasured
  | unauthored
  | drawsDisagree
  | gapNotUnanimous
  | gapUnkeyed
  | droppedUnresolved
  | droppedOtherRun
  | droppedNoPair
  | unqueueable
deriving DecidableEq

structure LedgerEntry where
  findingId : Str
  lane : Lane
  reason : Option Str
deriving DecidableEq

/-- The lists of the user record that hold entries of rows. The found gaps are no row's: each
pass reads them anew. -/
inductive UserList where
  | namedGaps
  | servingFindings
  | unkeyedNamedGaps
  | gapFindings
deriving DecidableEq

structure UserEntry where
  world : Str
  fields : Dict Str Json

abbrev User := UserList → List UserEntry

def emptyUser : User := fun _ => []

structure Counts where
  enqueued : Nat
  worldEnqueued : Nat
  malformed : Nat
  worldMalformed : Nat

structure NotGraded where
  outcome : Str
  reason : Str

structure EpisodeGrade where
  validity : Option Str
  worlds : List Row
  family : Option Row
  user : User
  foundGaps : List (Dict Str Json)
  dispositions : Option (List LedgerEntry)
  counts : Counts
  lessonsCommit : Option Str
  notGraded : Option NotGraded

end Record

/-- The world half of `<episode>/<world>/<draw>/<index>`, split from the right. -/
def labelOf (findingId : Str) : Option Str :=
  match (splitOn '/' findingId).reverse with
  | _ :: _ :: label :: _ :: _ => some label
  | _ => none

def committedRow (row : Row) : Option Row := if row.state.isSome then some row else none

def committed (prior : Option EpisodeGrade) : Dict Str Row × Option Row :=
  match prior with
  | none => (.empty, none)
  | some prior =>
    (Dict.ofList ((prior.worlds.filterMap committedRow).map fun row => (row.label, row)),
      prior.family.bind committedRow)

def carriedLedger (prior : Option EpisodeGrade) (labels : List Str) : List LedgerEntry :=
  ((prior.bind EpisodeGrade.dispositions).getD []).filter fun entry =>
    match labelOf entry.findingId with
    | some label => labels.contains label
    | none => false

def carriedUser (prior : Option EpisodeGrade) (labels : List Str) : User := fun list =>
  match prior with
  | none => []
  | some prior => (prior.user list).filter fun entry => labels.contains entry.world

/-- Why a row that a stopped pass left `queueing` stops the next grade. -/
def leftQueueing (prior : EpisodeGrade) : Option Str :=
  match prior.worlds.find? fun row => row.state == some .queueing with
  | some row => some (message ["world '", row.label, "' is left 'queueing' in judge.yaml: a ",
      "pass stopped between its append and its commit, so some of its findings may be on the ",
      "defender or questioner queue already. Check both queues for its finding ids, then set ",
      "its state to 'queued' or remove it; the re-run is refused"])
  | none =>
    match prior.family with
    | some ⟨_, some .queueing, _⟩ => some (message ["the family row is left 'queueing' in ",
        "judge.yaml: a pass stopped between the family call's append and its commit, so some ",
        "of its findings may be on the questioner queue already. Check the queue for its ",
        "finding ids, then set its state to 'queued' or remove it; the re-run is refused"])
    | _ => none

/-- The reason of a stamp, the rows it carries `queueing` named. -/
def stampReason (reason : Str) (left : List Str) : Str :=
  if left = [] then reason
  else message [reason, " — and ", join ", " (left.map fun label => message ["'", label, "'"]),
    " is left 'queueing' by a stopped pass, carried as it stands: reconcile it before the next ",
    "grade, which refuses it"]

/-- The record of a pass that declines to grade. -/
def stampNotGraded (word reason : Str) (validity : Option Str) (worlds : List Row)
    (foundGaps : List (Dict Str Json)) (prior : Option EpisodeGrade) : EpisodeGrade :=
  let (carried, family) := committed prior
  let labels := carried.keys ++ (family.map fun _ => familyLabel).toList
  let listed := worlds.map fun row => (carried.get? row.label).getD row
  let others := carried.values.filter fun row => !(listed.map Row.label).contains row.label
  let left := (carried.values.filter fun row => row.state == some .queueing).map Row.label ++
    ((family.filter fun row => row.state == some .queueing).map fun _ => familyLabel).toList
  { validity
    worlds := listed ++ others
    family
    user := carriedUser prior labels
    foundGaps
    dispositions := if labels = [] then none else some (carriedLedger prior labels)
    counts := if labels = [] then ⟨0, 0, 0, 0⟩ else
      (prior.map EpisodeGrade.counts).getD ⟨0, 0, 0, 0⟩
    lessonsCommit := none
    notGraded := some ⟨word, stampReason reason left⟩ }

open HostStep

def isLabelStart (char : Char) : Bool := char.isLower || char.isDigit

def isLabelChar (char : Char) : Bool := char.isLower || char.isDigit || char == '_'

/-- `[a-z0-9][a-z0-9_]*` -/
def isWorldLabel : Str → Bool
  | [] => false
  | first :: rest => isLabelStart first && rest.all isLabelChar

/-- The names of the family's capture and of its numbered judgements. The alphabet has no
capitals, so nothing is folded. -/
def isReservedWorldLabel (label : Str) : Bool :=
  label == "base" || label == "family" ||
    (startsWith "family_" label && label.length > 7 && (label.drop 7).all Char.isDigit)

/-- The planted worlds of a family, in order. -/
structure Manifest where
  labels : List Str
  distinct : labels.Nodup
  spelled : ∀ label ∈ labels, isWorldLabel label = true ∧ isReservedWorldLabel label = false

section State

inductive Channel where
  | findings
  | questioner
deriving DecidableEq

/-- What a pass holds in memory. -/
structure Run where
  rows : Dict Str Row
  family : Option Row
  ledger : List LedgerEntry
  user : User
  counts : Counts
  queuedIds : Channel → Option (List Str)
  lessonsCommit : Option Str
  foundGaps : List (Dict Str Json)

/-- The episode's record and the two queues, with what is told of them: every record written,
and each row appended with the number of its pass. -/
structure Desk where
  record : Option EpisodeGrade
  queues : Channel → List Curator.Row
  run : Run
  pass : Nat
  written : List EpisodeGrade
  appended : List (Nat × Curator.Row)

inductive Fault where
  | stopped
  | refused (reason : Str)

abbrev Host := HostStep Desk Fault

/-- Reading a queue may be refused; the rows drained meanwhile are not in it. -/
inductive Look where
  | refused
  | drained (kept : Curator.Row → Bool)

/-- One finding of one draw with its fate: its queue row and what that row's channel refuses
it for, or its entry on the user record and the list it goes on. -/
structure Filed where
  draw : Nat
  index : Nat
  lane : Lane
  why : Option Str
  row : Curator.Row
  refusal : Option Str
  look : Look
  entry : Dict Str Json
  list : Option UserList

/-- What the draws of one prompt come to. -/
structure Drawn where
  completed : Nat
  malformed : Nat
  verdict : List (Str × Json)
  failures : List Str
  refusal : Option Str
  filed : List Filed
  gaps : List (Dict Str Json)

/-- Where a commit is stopped, and what is drained up to each of its appends. -/
structure CommitAnswers where
  queueing : Option Fault
  defender : Option Fault
  defenderKept : Curator.Row → Bool
  defenderMalformed : Nat
  world : Option Fault
  worldKept : Curator.Row → Bool
  worldMalformed : Nat
  queued : Option Fault

structure WorldAnswers where
  usable : Bool
  fields : Dict Str Json
  prompt : Option Str
  drawing : Option Fault
  drawn : Drawn
  commit : CommitAnswers

structure FamilyAnswers where
  fault : Option Str
  drawn : Drawn
  commit : CommitAnswers

/-- How the gates of a pass end. A stamp lists the manifest's worlds, each with a row of its
own making, or none. -/
inductive Gate where
  | refused (reason : Str)
  | stamped (word reason : Str) (validity : Option Str) (listed : Option (Str → Dict Str Json))
  | opened

structure PassAnswers where
  gate : Gate
  foundGaps : List (Dict Str Json)
  alertRecord : Bool
  lessonsCommit : Option Str
  worlds : Str → WorldAnswers
  family : FamilyAnswers
  stamp : Option Fault
  last : Option Fault

end State

section Steps

def findingId (runId label : Str) (draw index : Nat) : Str :=
  message [runId, "/", label, "/", decimalText draw, "/", decimalText index]

def Run.setRow (run : Run) (row : Row) : Run :=
  if row.label = familyLabel then { run with family := some row }
  else { run with rows := run.rows.set row.label row }

/-- The record as the pass stands. -/
def Run.record (run : Run) (order : List Str) : EpisodeGrade where
  validity := some "usable"
  worlds := order.filterMap run.rows.get?
  family := run.family
  user := run.user
  foundGaps := run.foundGaps
  dispositions := some run.ledger
  counts := run.counts
  lessonsCommit := run.lessonsCommit
  notGraded := none

def think (change : Run → Run) : Host := write none fun desk => { desk with run := change desk.run }

def Desk.save (desk : Desk) (record : EpisodeGrade) : Desk :=
  { desk with record := some record, written := desk.written ++ [record] }

def writeRecord (stop : Option Fault) (order : List Str) : Host :=
  write stop fun desk => desk.save (desk.run.record order)

def countAppended (channel : Channel) (number malformed : Nat) (counts : Counts) : Counts :=
  match channel with
  | .findings => { counts with enqueued := counts.enqueued + number, malformed }
  | .questioner => { counts with
      worldEnqueued := counts.worldEnqueued + number, worldMalformed := malformed }

def Desk.enqueue (desk : Desk) (channel : Channel) (kept : Curator.Row → Bool) (malformed : Nat)
    (rows : List Curator.Row) : Desk :=
  let queue := (desk.queues channel).filter kept
  let fresh := Curator.unseen (Curator.idsOf queue) rows
  { desk with
    queues := fun other => if other = channel then queue ++ fresh else desk.queues other
    appended := desk.appended ++ fresh.map fun row => (desk.pass, row)
    run := { desk.run with
      counts := countAppended channel fresh.length malformed desk.run.counts } }

def appendRows (stop : Option Fault) (channel : Channel) (kept : Curator.Row → Bool)
    (malformed : Nat) (rows : List Curator.Row) : Host :=
  if rows = [] then skip
  else write stop fun desk => desk.enqueue channel kept malformed rows

def checkRows (label : Str) (rows : List Curator.Row) : Host :=
  match rows.find? fun row => (Curator.rowId row).bind labelOf != some label with
  | some row => raise (.refused (message ["finding row '", (Curator.rowId row).getD [],
      "' is not one of '", label, "''s: one commit appends only its own world's rows (A6)"]))
  | none => skip

def commit (answers : CommitAnswers) (order : List Str) (row : Row)
    (defenderRows worldRows : List Curator.Row) (user : User) : Host :=
  inTurn
    [think fun run => run.setRow { row with state := some .queueing },
      writeRecord answers.queueing order,
      checkRows row.label (defenderRows ++ worldRows),
      appendRows answers.defender .findings answers.defenderKept answers.defenderMalformed
        defenderRows,
      appendRows answers.world .questioner answers.worldKept answers.worldMalformed worldRows,
      think fun run => { run with user := fun list => run.user list ++ user list }.setRow
        { row with state := some .queued },
      writeRecord answers.queued order]

def queuedIdsOf (queues : Channel → List Curator.Row) (channel : Channel) (look : Look)
    (run : Run) : List Str × Run :=
  match run.queuedIds channel, look with
  | some ids, _ => (ids, run)
  | none, .refused => ([], run)
  | none, .drained kept =>
    let ids := Curator.idsOf ((queues channel).filter kept)
    (ids, { run with queuedIds := fun other =>
      if other = channel then some ids else run.queuedIds other })

/-- What a world's findings come to before its commit. -/
structure Placed where
  run : Run
  defender : List Curator.Row
  world : List Curator.Row
  user : User

/-- A finding bound for a queue: its row, or `unqueueable` where the channel refuses the row or
the queue holds its id already. -/
def placeRow (queues : Channel → List Curator.Row) (placed : Placed) (item : Filed)
    (fid : Str) (channel : Channel) : Placed × Lane × Option Str :=
  let row := item.row.set Curator.idKey (.string fid)
  match item.refusal with
  | some reason => (placed, .unqueueable, some reason)
  | none =>
    let (ids, run) := queuedIdsOf queues channel item.look placed.run
    if ids.contains fid then
      ({ placed with run }, .unqueueable, some (message ["the ",
        (match channel with | .findings => "defender" | .questioner => "questioner"),
        " queue already holds a row with id '", fid, "' — one a pass before this record ",
        "queued — so its dedup on finding_id would drop this finding silently; it is recorded ",
        "here instead"]))
    else
      (match channel with
        | .findings => { placed with run, defender := placed.defender ++ [row] }
        | .questioner => { placed with run, world := placed.world ++ [row] },
        item.lane, item.why)

def enter (user : User) (list : UserList) (entry : UserEntry) : User := fun other =>
  if other = list then user other ++ [entry] else user other

def place (queues : Channel → List Curator.Row) (runId label : Str) (placed : Placed)
    (item : Filed) : Placed :=
  let fid := findingId runId label item.draw item.index
  let (placed, lane, why) : Placed × Lane × Option Str :=
    match item.lane with
    | .defender => placeRow queues placed item fid .findings
    | .questioner => placeRow queues placed item fid .questioner
    | .userRecord =>
      ({ placed with user := match item.list with
          | some list => enter placed.user list
              ⟨label, item.entry.set Curator.idKey (.string fid)⟩
          | none => placed.user }, item.lane, item.why)
    | _ => (placed, item.lane, item.why)
  { placed with run := { placed.run with
      ledger := placed.run.ledger ++ [⟨fid, lane, why⟩] } }

def placeAll (queues : Channel → List Curator.Row) (runId label : Str) (run : Run)
    (filed : List Filed) : Placed :=
  filed.foldl (place queues runId label) ⟨run, [], [], emptyUser⟩

def withFields (fields : Dict Str Json) (changes : List (Str × Json)) : Dict Str Json :=
  fields.update (Dict.ofList changes)

def reasonField (key : Str) : Option Str → List (Str × Json)
  | some reason => [(key, .string reason)]
  | none => []

/-- The fields the draws leave on a world's row. -/
def drawnFields (fields : Dict Str Json) (drawn : Drawn) : Dict Str Json :=
  let counted := withFields (fields.erase "draws_failed_reason")
    (([("completed_draws", .number (decimalText drawn.completed)),
      ("malformed_replies", .number (decimalText drawn.malformed))] : List (Str × Json)) ++
      drawn.verdict ++ reasonField "draws_failed_reason" drawn.failures.head?)
  if drawn.completed = 0 then
    withFields counted (reasonField "not_measured_reason"
      ((drawn.failures.head?.or drawn.refusal).map fun cause =>
        message ["no draw completed: ", cause]))
  else counted

def commitWorld (runId : Str) (order : List Str) (row : Row) (answers : CommitAnswers)
    (drawn : Drawn) : Host := fun desk =>
  let placed := placeAll desk.queues runId row.label desk.run drawn.filed
  let user : User := fun list => placed.user list ++
    if list = .namedGaps then drawn.gaps.map (⟨row.label, ·⟩) else []
  ((think fun _ => placed.run).andThen
    (commit answers order row placed.defender placed.world user)) desk

def commitFamily (runId : Str) (order : List Str) (row : Row) (answers : CommitAnswers)
    (drawn : Drawn) : Host := fun desk =>
  let placed := placeAll desk.queues runId row.label desk.run drawn.filed
  ((think fun _ => placed.run).andThen
    (commit answers order row [] placed.world placed.user)) desk

def judgeWorld (runId : Str) (order : List Str) (answers : WorldAnswers) (label : Str) : Host :=
  let row : Row := ⟨label, none, answers.fields⟩
  if !answers.usable then
    let fields := withFields answers.fields
      [("measured", .bool false),
        ("not_measured_reason", (answers.fields.get? "ungradable_reason").getD .null)]
    think fun run => run.setRow { row with fields }
  else
    match answers.prompt with
    | some reason =>
      let fields := withFields answers.fields
        [("completed_draws", .number "0"), ("malformed_replies", .number "0"),
          ("bucket", .null), ("measured", .bool false), ("not_measured_reason", .string reason),
          ("draws_failed_reason", .string reason)]
      think fun run => run.setRow { row with fields }
    | none =>
      let judged := { row with fields := drawnFields answers.fields answers.drawn }
      (write answers.drawing id).andThen <|
        if answers.drawn.completed = 0 then think fun run => run.setRow judged
        else commitWorld runId order judged answers.commit answers.drawn

def familyFields (answers : FamilyAnswers) : Dict Str Json :=
  match answers.fault with
  | some reason => Dict.ofList [("completed_draws", .number "0"),
      ("malformed_replies", .number "0"), ("draws_failed_reason", .string reason)]
  | none =>
    let drawn := answers.drawn
    Dict.ofList (([("completed_draws", .number (decimalText drawn.completed)),
      ("malformed_replies", .number (decimalText drawn.malformed))] : List (Str × Json)) ++
      drawn.verdict ++ reasonField "draws_failed_reason" drawn.failures.head? ++
      if drawn.completed = 0 ∧ drawn.failures = [] then
        reasonField "malformed_reason" drawn.refusal
      else [])

def judgeFamily (runId : Str) (order : List Str) (answers : FamilyAnswers) : Host :=
  let row : Row := ⟨familyLabel, none, familyFields answers⟩
  if answers.fault.isSome ∨ answers.drawn.completed = 0 then think fun run => run.setRow row
  else commitFamily runId order row answers.commit answers.drawn

/-- The rows a grade keeps: those of the prior record that are `queued`. -/
def keptLabels (prior : Option EpisodeGrade) : List Str :=
  let (rows, family) := committed prior
  ((rows.values.filter fun row => row.state == some .queued).map Row.label) ++
    ((family.filter fun row => row.state == some .queued).map fun _ => familyLabel).toList

def startRun (manifest : Manifest) (answers : PassAnswers) (prior : Option EpisodeGrade) : Run :=
  let (rows, family) := committed prior
  let kept := keptLabels prior
  { rows := Dict.ofList ((manifest.labels.filter kept.contains).filterMap fun label =>
      (rows.get? label).map fun row => (label, row))
    family := family.filter fun row => row.state == some .queued
    ledger := carriedLedger prior kept
    user := carriedUser prior kept
    counts := if kept = [] then ⟨0, 0, 0, 0⟩ else
      (prior.map EpisodeGrade.counts).getD ⟨0, 0, 0, 0⟩
    queuedIds := fun _ => none
    lessonsCommit := answers.lessonsCommit.or (prior.bind EpisodeGrade.lessonsCommit)
    foundGaps := answers.foundGaps }

def gradeRuns (manifest : Manifest) (runId : Str) (answers : PassAnswers)
    (prior : Option EpisodeGrade) : Host :=
  if !answers.alertRecord then
    raise (.refused "the episode holds no readable record of the alert it investigates")
  else
    let kept := keptLabels prior
    let order := manifest.labels
    (think fun _ => startRun manifest answers prior).andThen <|
      (inTurn ((order.filter fun label => !kept.contains label).map fun label =>
        judgeWorld runId order (answers.worlds label) label)).andThen <|
        (if !kept.contains familyLabel ∧ order.any (fun label => (answers.worlds label).usable)
          then judgeFamily runId order answers.family else skip).andThen
          (writeRecord answers.last order)

def grade (manifest : Manifest) (runId : Str) (answers : PassAnswers) : Host := fun desk =>
  match answers.gate with
  | .refused reason => raise (.refused reason) desk
  | .stamped word reason validity listed =>
    let worlds := match listed with
      | some fields => manifest.labels.map fun label => ⟨label, none, fields label⟩
      | none => []
    write answers.stamp (fun desk => desk.save
      (stampNotGraded word reason validity worlds answers.foundGaps desk.record)) desk
  | .opened =>
    match desk.record.bind leftQueueing with
    | some reason => raise (.refused reason) desk
    | none => gradeRuns manifest runId answers desk.record desk

/-- One pass after another over an episode. -/
def passes (manifest : Manifest) (runId : Str) (desk : Desk) (answers : List PassAnswers) : Desk :=
  answers.foldl
    (fun desk answers => (grade manifest runId answers { desk with pass := desk.pass + 1 }).1) desk

def emptyRun : Run :=
  ⟨.empty, none, [], emptyUser, ⟨0, 0, 0, 0⟩, fun _ => none, none, []⟩

/-- An episode never graded. -/
def ungraded (queues : Channel → List Curator.Row) : Desk := ⟨none, queues, emptyRun, 0, [], []⟩

end Steps

end Defender.Learning.Judge
