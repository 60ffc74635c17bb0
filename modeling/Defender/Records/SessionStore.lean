import Defender.Library.OrderedDict
import Defender.Python.Text

/-!
# The session store

A case's message log. A message row names its parent; a session names the row its path ends
on, its head. Rows are only ever added. An append hangs its rows on the session's head, or
elsewhere with a reason, and records such a move in the head log; a fork opens a session whose
head is another's row.
-/

namespace Defender.Records

open Defender.Python Defender.Library.OrderedDict

inductive Kind where
  | request
  | response
deriving DecidableEq

/-- A part with its content as JSON text. -/
inductive Part where
  | userPrompt (content : Str)
  | toolCall (toolName toolCallId args : Str)
  | toolReturn (toolName toolCallId content : Str)
  | other (partKind content : Str)
deriving DecidableEq

structure Message where
  kind : Kind
  parts : List Part
  runId : Option Str
  conversationId : Option Str
deriving DecidableEq

def calledIds (message : Message) : List Str :=
  message.parts.filterMap fun part =>
    match part with
    | .toolCall _ id _ => some id
    | _ => none

def returnedIds (messages : List Message) : List Str :=
  (messages.flatMap Message.parts).filterMap fun part =>
    match part with
    | .toolReturn _ id _ => some id
    | _ => none

def completePrefixLen (messages : List Message) : Nat :=
  match messages.getLast? with
  | none => 0
  | some last =>
    if last.kind = .response ∧ (calledIds last).any fun id => !(returnedIds messages).contains id
    then messages.length - 1
    else messages.length

section Tables

/-- What the render leaves for the row of the request it goes into. -/
structure Stamp where
  runStep : Int
  durationMs : Option Str
  wireSha : Str
deriving DecidableEq

structure MessageRow where
  session : Str
  agentId : Str
  parent : Option Nat
  seq : Int
  synthesized : Bool
  stamp : Option Stamp
  message : Message
deriving DecidableEq

structure Session where
  parentSession : Option Str
  agentId : Option Str
  head : Option Nat
  lastRenderLen : Option Nat
deriving DecidableEq

inductive MoveReason where
  | fork
  | fold
deriving DecidableEq

structure HeadMove where
  session : Str
  origin : Option Nat
  target : Nat
  attachedTo : Option Nat
  reason : MoveReason
deriving DecidableEq

/-- Row ids count the rows from one: none is ever deleted. The stamps are the handle's own. -/
structure Store where
  messages : List MessageRow
  sessions : Dict Str Session
  headLog : List HeadMove
  pendingStamps : Dict Str Stamp

inductive StoreError where
  | storeAppend (reason : Str)
  | cyclicParentChain (id : Nat)
  | unresolvablePath (ids : List Nat)
  | ingestTailUnderflow (reason : Str)
  | payloadNotRepresentable (reason : Str)
  | value (reason : Str)
  | sqlite (reason : Str)
deriving DecidableEq

namespace Store

def empty : Store := ⟨[], .empty, [], .empty⟩

def row? (store : Store) : Nat → Option MessageRow
  | 0 => none
  | place + 1 => store.messages[place]?

def parentOf (store : Store) (id : Nat) : Option Nat := (store.row? id).bind MessageRow.parent

def readHead (store : Store) (session : Str) : Option Nat :=
  (store.sessions.get? session).bind Session.head

/-- From the tip to its root, refusing to pass a row twice. -/
def walkFrom (store : Store) : Nat → List Nat → Nat → Except StoreError (List Nat)
  | 0, _, current => .error (.cyclicParentChain current)
  | fuel + 1, seen, current =>
    if current ∈ seen then .error (.cyclicParentChain current)
    else
      match store.parentOf current with
      | none => .ok [current]
      | some parent => do
        let rest ← walkFrom store fuel (current :: seen) parent
        .ok (current :: rest)

/-- A walk passes each row once, so there is fuel for every row and the last step. -/
def walkParents (store : Store) (tip : Nat) : Except StoreError (List Nat) :=
  walkFrom store (store.messages.length + 1) [] tip

def pathRowIds (store : Store) (session : Str) : Except StoreError (List Nat) :=
  match store.readHead session with
  | none => .ok []
  | some head => do
    let ids ← walkParents store head
    .ok ids.reverse

end Store

end Tables

namespace Store

def branchPoint (store : Store) (session : Str) : Option Nat :=
  (store.headLog.reverse.find? fun move =>
    move.session == session && move.reason == .fork && move.origin.isNone).map HeadMove.target

def requireResolved (store : Store) (ids : List Nat) : Except StoreError Unit :=
  let missing := ids.filter fun id => (store.row? id).isNone
  if missing = [] then .ok () else .error (.unresolvablePath missing)

def rowsOf (store : Store) (ids : List Nat) : List MessageRow := ids.filterMap store.row?

/-- A session whose head is still its own fork point keeps that point whole. -/
def sendLen (store : Store) (session : Str) (ids : List Nat) (messages : List Message) : Nat :=
  if ids ≠ [] ∧ store.branchPoint session = ids.getLast? then messages.length
  else completePrefixLen messages

inductive Role where
  | send
  | analysis
deriving DecidableEq

def hydrate (store : Store) (session : Str) (role : Role) : Except StoreError (List Message) := do
  let ids ← store.pathRowIds session
  if ids = [] then .ok []
  else
    store.requireResolved ids
    let messages := (store.rowsOf ids).map MessageRow.message
    match role with
    | .send => .ok (messages.take (store.sendLen session ids messages))
    | .analysis => .ok messages

end Store

section Writes

def integrity (constraint : Str) : StoreError := .sqlite (message [constraint, " constraint failed"])

/-- What befalls a transaction: it is rolled back, or the statement after its commit fails. -/
inductive AppendFault where
  | beforeCommit (error : StoreError)
  | afterCommit (error : StoreError)

def AppendFault.error : AppendFault → StoreError
  | .beforeCommit error => error
  | .afterCommit error => error

structure AppendCall where
  agentId : Str
  parentId : Option Nat
  synthesized : Bool
  seq : Option Int
  stamp : Option Stamp
  reason : Option Str

/-- The reason of a move, from the closed set; only `fork` writes a fork's own entry. -/
def validateReason : Option Str → Except StoreError (Option MoveReason)
  | none => .ok none
  | some reason =>
    if reason = "fork" then
      .error (.storeAppend "append cannot mint a fork entry; fork() writes its own")
    else if reason = "fold" then .ok (some .fold)
    else .error (.storeAppend (message ["reason must be one of ('fork', 'fold') or None, got '",
      reason, "'"]))

namespace Store

variable (store : Store)

def newSession (session agentId : Str) : Except StoreError Store :=
  if store.sessions.contains session then .error (integrity "UNIQUE")
  else .ok { store with sessions := store.sessions.set session ⟨none, some agentId, none, none⟩ }

/-- Open a session that branches from another at one of its rows. The new head and the log
entry are one transaction, and the inherited prefix counts as rendered. -/
def fork (session : Str) (atMessage : Nat) (fresh : Str) : Except StoreError Store := do
  let walked ← store.walkParents atMessage
  store.requireResolved walked.reverse
  match store.sessions.get? session with
  | none => .error (integrity "FOREIGN KEY")
  | some source =>
    if store.sessions.contains fresh then .error (integrity "UNIQUE")
    else .ok { store with
      sessions := store.sessions.set fresh
        ⟨some session, source.agentId, some atMessage, some walked.length⟩
      headLog := store.headLog ++ [⟨fresh, none, atMessage, none, .fork⟩] }

def setLastRenderLen (session : Str) (length : Nat) : Store :=
  match store.sessions.get? session with
  | none => store
  | some held => { store with
      sessions := store.sessions.set session { held with lastRenderLen := some length } }

def lastRenderLen (session : Str) : Option Nat :=
  (store.sessions.get? session).bind Session.lastRenderLen

def sessionHasRows (session : Str) : Bool :=
  store.messages.any fun row => row.session == session

def checkParent (session : Str) (firstParent : Option Nat) : Except StoreError Unit :=
  match firstParent with
  | none =>
    if store.sessionHasRows session then
      .error (.storeAppend (message ["append into a session that holds rows but has no ",
        "recorded head is refused rather than silently orphaning them"]))
    else .ok ()
  | some parent => (store.walkParents parent).map fun _ => ()

def checkMove (linear synthesized : Bool) (reason : Option MoveReason) : Except StoreError Unit :=
  if reason.isSome then
    if linear && !synthesized then
      .error (.storeAppend (message ["a reason on a linear move is refused unless the caller ",
        "mints a frontier row (synthesized=True)"]))
    else .ok ()
  else if !linear then
    .error (.storeAppend (message ["a non-linear append (its first row's parent is not the ",
      "session's current head) requires an explicit reason from the closed set"]))
  else .ok ()

def classifyMove (session : Str) (parentId : Option Nat) (reason : Option MoveReason)
    (synthesized : Bool) : Except StoreError (Option Nat × Option Nat) := do
  let prevHead := store.readHead session
  let firstParent := parentId.or prevHead
  store.checkParent session firstParent
  checkMove (firstParent == prevHead) synthesized reason
  .ok (prevHead, firstParent)

def seqsOf (session agentId : Str) (synthesized : Bool) : List Int :=
  (store.messages.filter fun row => row.session == session && row.agentId == agentId &&
    row.synthesized == synthesized).map MessageRow.seq

def nextSeq (session agentId : Str) (synthesized : Bool) : Int :=
  match store.seqsOf session agentId synthesized with
  | [] => 0
  | first :: rest => rest.foldl max first + 1

/-- One row and its payload. The parent and the session must exist, and the sequence number
be free. -/
def insertMessage (row : MessageRow) : Except StoreError (Store × Nat) :=
  if !store.sessions.contains row.session then .error (integrity "FOREIGN KEY")
  else if row.parent.any fun parent => (store.row? parent).isNone then
    .error (integrity "FOREIGN KEY")
  else if (store.seqsOf row.session row.agentId row.synthesized).contains row.seq then
    .error (integrity "UNIQUE")
  else .ok ({ store with messages := store.messages ++ [row] }, store.messages.length + 1)

/-- Each message under the one before it. -/
def insertMessages (session : Str) (call : AppendCall) :
    Store → Option Nat → List Message → Except StoreError (Store × List Nat)
  | store, _, [] => .ok (store, [])
  | store, parent, message :: rest => do
    let seq := call.seq.getD (store.nextSeq session call.agentId call.synthesized)
    let (next, id) ← store.insertMessage
      ⟨session, call.agentId, parent, seq, call.synthesized, call.stamp, message⟩
    let (final, ids) ← insertMessages session call next (some id) rest
    .ok (final, id :: ids)

def moveHead (session : Str) (prevHead : Option Nat) (newHead : Nat) (attachedTo : Option Nat)
    (reason : Option MoveReason) : Except StoreError Store :=
  let moved := match store.sessions.get? session with
    | none => store
    | some held => { store with
        sessions := store.sessions.set session { held with head := some newHead } }
  if attachedTo ≠ prevHead ∨ reason.isSome then
    match reason with
    | none => .error (integrity "NOT NULL")
    | some reason => .ok { moved with
        headLog := moved.headLog ++ [⟨session, prevHead, newHead, attachedTo, reason⟩] }
  else .ok moved

/-- What an append writes, all of it or nothing. -/
def transact (session : Str) (messages : List Message) (call : AppendCall)
    (reason : Option MoveReason) : Except StoreError (Store × List Nat) := do
  let (prevHead, firstParent) ← store.classifyMove session call.parentId reason call.synthesized
  let (grown, ids) ← insertMessages session call store firstParent messages
  match ids.getLast? with
  | none => .ok (grown, ids)
  | some newHead =>
    let moved ← grown.moveHead session prevHead newHead firstParent reason
    .ok (moved, ids)

def append (session : Str) (messages : List Message) (call : AppendCall)
    (fault : Option AppendFault) : Store × Except StoreError (List Nat) :=
  match validateReason call.reason with
  | .error error => (store, .error error)
  | .ok reason =>
    if messages = [] then (store, .ok [])
    else if call.seq.isSome ∧ messages.length ≠ 1 then
      (store, .error
        (.storeAppend "an explicit seq may only be given for a single-message append"))
    else
      match store.transact session messages call reason, fault with
      | .error error, _ => (store, .error error)
      | .ok _, some (.beforeCommit error) => (store, .error error)
      | .ok (next, _), some (.afterCommit error) => (next, .error error)
      | .ok (next, ids), none => (next, .ok ids)

end Store

end Writes

end Defender.Records
