import Mathlib.Data.Rat.Defs
import Defender.Library.OrderedDict
import Defender.Python.Text

/-!
# The job store

Each operation is one transaction on the table of investigations. Every write
that moves a row is conditional on the stage it expects, and the schema's unique
keys refuse an insert that would break them. A transaction is one step here; the
rows that other transactions hold locked are a parameter of the two that skip
them.
-/

namespace Defender.Jobs

open Defender.Python Defender.Library.OrderedDict

def maxAttempts : Nat := 3

inductive Stage where
  | queued
  | running
  | completed
  | unparseable
  | failed
  | aborted
deriving DecidableEq, Repr

/-- The stages in which an investigation holds its alert. -/
def Stage.live : Stage → Bool
  | .queued | .running => true
  | .completed | .unparseable | .failed | .aborted => false

/-- An investigation. Times are counted in ticks of their clock. -/
structure InvestigationRow (Knowledge : Type) where
  id : Str
  tenant : Str
  alert : Str
  requestKey : Str
  attempt : Nat
  stage : Stage
  createdAt : Int
  startedAt : Option Int
  finishedAt : Option Int
  disposition : Option Str
  costUsd : Option ℚ
  knowledge : Option Knowledge
  failureReason : Option Str
  failureMessage : Option Str
  leaseExpiresAt : Option Int
  accountingWrittenAt : Option Int

/-- The tables: the stored alerts, the tenants with an alert mapping, and the
investigations. `minted` lists every investigation id ever made. -/
structure Store (Knowledge : Type) where
  alerts : List (Str × Str)
  mapped : List Str
  rows : List (InvestigationRow Knowledge)
  minted : List Str

variable {Knowledge : Type}

def Store.empty : Store Knowledge := ⟨[], [], [], []⟩

/-- The schema's rules on an inserted investigation. -/
inductive Constraint where
  | primaryKey
  | alertReference
  | attemptKey
  | oneLivePerAlert
  | runningHasALease
deriving DecidableEq, Repr

def InvestigationRow.sameAlert (row other : InvestigationRow Knowledge) : Bool :=
  row.tenant == other.tenant && row.alert == other.alert

def InvestigationRow.sameRequest (row other : InvestigationRow Knowledge) : Bool :=
  row.sameAlert other && row.requestKey == other.requestKey

def Store.refusal (store : Store Knowledge) (row : InvestigationRow Knowledge) :
    Option Constraint :=
  if store.rows.any fun other => other.id == row.id then some .primaryKey
  else if (row.tenant, row.alert) ∉ store.alerts then some .alertReference
  else if store.rows.any fun other => other.sameRequest row && other.attempt == row.attempt then
    some .attemptKey
  else if row.stage.live &&
      store.rows.any fun other => other.stage.live && other.sameAlert row then
    some .oneLivePerAlert
  else if row.stage = .running ∧ row.leaseExpiresAt = none then some .runningHasALease
  else none

def Store.insert (store : Store Knowledge) (row : InvestigationRow Knowledge) :
    Except Constraint (Store Knowledge) :=
  match store.refusal row with
  | some constraint => .error constraint
  | none => .ok { store with rows := store.rows ++ [row], minted := row.id :: store.minted }

/-- An `UPDATE … RETURNING`: the store after it, and the rows it changed. -/
def Store.update (store : Store Knowledge) (picks : InvestigationRow Knowledge → Bool)
    (change : InvestigationRow Knowledge → InvestigationRow Knowledge) :
    Store Knowledge × List (InvestigationRow Knowledge) :=
  ({ store with rows := store.rows.map fun row => if picks row then change row else row },
    (store.rows.filter picks).map change)

section Transactions

/-- The first of the rows by an order, as `ORDER BY … LIMIT 1`. -/
def firstBy (before : InvestigationRow Knowledge → InvestigationRow Knowledge → Bool) :
    List (InvestigationRow Knowledge) → Option (InvestigationRow Knowledge)
  | [] => none
  | row :: rest =>
      match firstBy before rest with
      | none => some row
      | some best => if before best row then some best else some row

inductive CreateAnswer (Knowledge : Type) where
  | unknownReference
  | conflict
  | answered (row : InvestigationRow Knowledge)
  | created (row : InvestigationRow Knowledge)
  | refused (constraint : Constraint)

def queuedRow (id tenant alert requestKey : Str) (attempt : Nat) (clock : Int) :
    InvestigationRow Knowledge where
  id := id
  tenant := tenant
  alert := alert
  requestKey := requestKey
  attempt := attempt
  stage := .queued
  createdAt := clock
  startedAt := none
  finishedAt := none
  disposition := none
  costUsd := some 0
  knowledge := none
  failureReason := none
  failureMessage := none
  leaseExpiresAt := none
  accountingWrittenAt := none

def createInvestigation (store : Store Knowledge) (tenant alert requestKey fresh : Str)
    (clock : Int) : Store Knowledge × CreateAnswer Knowledge :=
  let ofAlert := store.rows.filter fun row => row.tenant == tenant && row.alert == alert
  if (tenant, alert) ∉ store.alerts then (store, .unknownReference)
  else
    match firstBy (fun row other => row.attempt ≥ other.attempt)
        (ofAlert.filter fun row => row.requestKey == requestKey) with
    | some replay => (store, .answered replay)
    | none =>
        match ofAlert.find? fun row => row.stage.live with
        | some live => (store, .answered live)
        | none =>
            if tenant ∉ store.mapped then (store, .conflict)
            else
              let row := queuedRow fresh tenant alert requestKey 1 clock
              match store.insert row with
              | .ok inserted => (inserted, .created row)
              | .error constraint => (store, .refused constraint)

/-- The oldest queued row that no other transaction holds goes to `running`. -/
def claim (store : Store Knowledge) (locked : List Str) (clock leaseEnd : Int) :
    Store Knowledge × Option (InvestigationRow Knowledge) :=
  match firstBy (fun row other => row.createdAt < other.createdAt ||
      (row.createdAt == other.createdAt && textLe row.id other.id))
      (store.rows.filter fun row => row.stage == .queued && !locked.contains row.id) with
  | none => (store, none)
  | some picked =>
      let (updated, rows) := store.update
        (fun row => row.id == picked.id && row.stage == .queued)
        fun row => { row with
          stage := .running, startedAt := some clock, leaseExpiresAt := some leaseEnd }
      (updated, rows.head?)

def cancelInvestigation (store : Store Knowledge) (tenant id : Str) (clock : Int) :
    Store Knowledge × Option (InvestigationRow Knowledge) :=
  let (updated, rows) := store.update
    (fun row => row.tenant == tenant && row.id == id && row.stage.live)
    fun row => { row with
      stage := .aborted, failureReason := some "cancelled", finishedAt := some clock }
  (updated, rows.head?)

inductive DeleteAnswer where
  | notFound
  | conflict
  | deleted
deriving DecidableEq, Repr

def deleteInvestigation (store : Store Knowledge) (tenant id : Str) :
    Store Knowledge × DeleteAnswer :=
  match store.rows.find? fun row => row.tenant == tenant && row.id == id with
  | none => (store, .notFound)
  | some named =>
      if (store.rows.filter fun row => row.sameRequest named).any fun row => row.stage.live then
        (store, .conflict)
      else ({ store with rows := store.rows.filter fun row => !row.sameRequest named }, .deleted)

/-- What `finish` writes; a stage that is not terminal is a `ValueError` there. -/
structure Finish (Knowledge : Type) where
  stage : Stage
  disposition : Option Str
  costUsd : Option ℚ
  knowledge : Option Knowledge
  failureReason : Option Str
  failureMessage : Option Str

def finish (store : Store Knowledge) (tenant id : Str) (ending : Finish Knowledge) (clock : Int) :
    Store Knowledge × Option (InvestigationRow Knowledge) :=
  if ending.stage.live then (store, none)
  else
    let (updated, rows) := store.update
      (fun row => row.tenant == tenant && row.id == id && row.stage == .running)
      fun row => { row with
        stage := ending.stage, finishedAt := some clock, disposition := ending.disposition
        costUsd := ending.costUsd, knowledge := ending.knowledge
        failureReason := ending.failureReason, failureMessage := ending.failureMessage
        accountingWrittenAt := some clock }
    (updated, rows.head?)

def renew (store : Store Knowledge) (held : List Str) (costs : Dict Str ℚ) (leaseEnd : Int) :
    Store Knowledge × List Str :=
  let (updated, rows) := store.update
    (fun row => held.contains row.id && row.stage == .running && row.accountingWrittenAt.isNone)
    fun row => { row with
      leaseExpiresAt := some leaseEnd
      costUsd := ((costs.get? row.id).map some).getD row.costUsd }
  (updated, rows.map InvestigationRow.id)

def writeAccounting (store : Store Knowledge) (tenant id : Str) (costUsd : Option ℚ)
    (knowledge : Option Knowledge) (clock : Int) :
    Store Knowledge × Option (InvestigationRow Knowledge) :=
  let (updated, rows) := store.update
    (fun row => row.tenant == tenant && row.id == id && !row.stage.live &&
      row.accountingWrittenAt.isNone)
    fun row => { row with
      costUsd := costUsd, knowledge := knowledge, accountingWrittenAt := some clock }
  (updated, rows.head?)

/-- The lease lapses at once, a second before the database's clock. -/
def handBack (store : Store Knowledge) (tenant id : Str) (costUsd : Option ℚ)
    (knowledge : Option Knowledge) (lapsed clock : Int) :
    Store Knowledge × Option (InvestigationRow Knowledge) :=
  let (updated, rows) := store.update
    (fun row => row.tenant == tenant && row.id == id && row.stage == .running &&
      row.accountingWrittenAt.isNone)
    fun row => { row with
      leaseExpiresAt := some lapsed, costUsd := costUsd, knowledge := knowledge
      accountingWrittenAt := some clock }
  (updated, rows.head?)

/-- What one take-over did: the row, why it ended, its retry, or the rule that refused it. -/
structure TakeOver where
  oldId : Str
  reason : Str
  retryId : Option Str
  refused : Option Constraint

def takeOverMessage (capped handedBack : Bool) : Str :=
  message [if handedBack then "its worker stopped and handed it back"
    else "its worker stopped renewing its lease",
    if capped then "; the request used all its attempts" else "; it is retried"]

def failedRow (clock : Int) (row : InvestigationRow Knowledge) : InvestigationRow Knowledge :=
  let capped := row.attempt ≥ maxAttempts
  { row with
    stage := .failed
    failureReason := some (if capped then "retry_cap" else "lease_lapsed")
    failureMessage := some (takeOverMessage capped row.accountingWrittenAt.isSome)
    finishedAt := some clock }

def lapsedRow (store : Store Knowledge) (passedOver locked : List Str) (now : Int) :
    Option (InvestigationRow Knowledge) :=
  firstBy (fun row other => row.leaseExpiresAt.getD now < other.leaseExpiresAt.getD now ||
      (row.leaseExpiresAt == other.leaseExpiresAt && textLe row.id other.id))
    (store.rows.filter fun row => row.stage == .running &&
      (row.leaseExpiresAt.any fun lease => lease < now) &&
      !passedOver.contains row.id && !locked.contains row.id)

/-- Fail the row and, below the third attempt, queue its retry; a refused insert rolls
both back. -/
def takeOverOne (store : Store Knowledge) (passedOver locked : List Str) (now clock : Int)
    (fresh : Str) : Store Knowledge × Option TakeOver :=
  match lapsedRow store passedOver locked now with
  | none => (store, none)
  | some lapsed =>
      let failed := (store.update (fun row => row.id == lapsed.id) (failedRow clock)).1
      if lapsed.attempt ≥ maxAttempts then (failed, some ⟨lapsed.id, "retry_cap", none, none⟩)
      else
        match failed.insert (queuedRow fresh lapsed.tenant lapsed.alert lapsed.requestKey
            (lapsed.attempt + 1) clock) with
        | .ok retried => (retried, some ⟨lapsed.id, "lease_lapsed", some fresh, none⟩)
        | .error constraint => (store, some ⟨lapsed.id, [], none, some constraint⟩)

end Transactions

/-- A committed transaction with all its inputs. -/
inductive Action (Knowledge : Type) where
  | insertAlert (tenant alert : Str)
  | putAlertMapping (tenant : Str)
  | create (tenant alert requestKey fresh : Str) (clock : Int)
  | claim (locked : List Str) (clock leaseEnd : Int)
  | cancel (tenant id : Str) (clock : Int)
  | delete (tenant id : Str)
  | finish (tenant id : Str) (ending : Finish Knowledge) (clock : Int)
  | renew (held : List Str) (costs : Dict Str ℚ) (leaseEnd : Int)
  | writeAccounting (tenant id : Str) (costUsd : Option ℚ) (knowledge : Option Knowledge)
      (clock : Int)
  | handBack (tenant id : Str) (costUsd : Option ℚ) (knowledge : Option Knowledge)
      (lapsed clock : Int)
  | takeOver (passedOver locked : List Str) (now clock : Int) (fresh : Str)

/-- A minted id is new: an action that would repeat one does not happen. -/
def step (store : Store Knowledge) : Action Knowledge → Store Knowledge
  | .insertAlert tenant alert => { store with alerts := (tenant, alert) :: store.alerts }
  | .putAlertMapping tenant => { store with mapped := tenant :: store.mapped }
  | .create tenant alert requestKey fresh clock =>
      if fresh ∈ store.minted then store
      else (createInvestigation store tenant alert requestKey fresh clock).1
  | .claim locked clock leaseEnd => (Jobs.claim store locked clock leaseEnd).1
  | .cancel tenant id clock => (cancelInvestigation store tenant id clock).1
  | .delete tenant id => (deleteInvestigation store tenant id).1
  | .finish tenant id ending clock => (Jobs.finish store tenant id ending clock).1
  | .renew held costs leaseEnd => (Jobs.renew store held costs leaseEnd).1
  | .writeAccounting tenant id costUsd knowledge clock =>
      (Jobs.writeAccounting store tenant id costUsd knowledge clock).1
  | .handBack tenant id costUsd knowledge lapsed clock =>
      (Jobs.handBack store tenant id costUsd knowledge lapsed clock).1
  | .takeOver passedOver locked now clock fresh =>
      if fresh ∈ store.minted then store
      else (takeOverOne store passedOver locked now clock fresh).1

def run (actions : List (Action Knowledge)) : Store Knowledge := actions.foldl step .empty

end Defender.Jobs
