import Defender.Jobs.Store

/-!
# The worker's end writes

A worker claims a row, holds it, decides how it ends and writes that end until it
lands. One try is two transactions: the ending or hand-back, and the accounting
when the row was no longer running. A transaction whose answer is lost may have
committed, may commit later or never; the worker cannot tell and tries again.
Workers, clients and take-over passes interleave at transactions.
-/

namespace Defender.Worker

open Defender.Python Defender.Jobs Defender.Library.OrderedDict

variable {Knowledge : Type}

/-- The terminal write for one row. -/
structure Ending where
  stage : Stage
  disposition : Option Str
  failureReason : Option Str
  failureMessage : Option Str
  decidedByRun : Bool
  terminal : stage.live = false
deriving DecidableEq

/-- What a row's holder writes last: a decided ending, or the row handed back. -/
structure End (Knowledge : Type) where
  ending : Option Ending
  cost : Option ℚ
  knowledge : Option Knowledge
deriving DecidableEq

def workerError (failureMessage : Str) : Ending where
  stage := .failed
  disposition := none
  failureReason := some "worker_error"
  failureMessage := some failureMessage
  decidedByRun := false
  terminal := rfl

/-- The end writes to try in turn when the store refuses one outright; `marker` is the
unreadable-knowledge value. -/
def lesserEnds [DecidableEq Knowledge] (marker : Option Knowledge) (decided : End Knowledge) :
    List (End Knowledge) :=
  let ends := if decided.knowledge ≠ none ∧ decided.knowledge ≠ marker then
      [decided, ⟨decided.ending, decided.cost, marker⟩]
    else [decided]
  let barest : End Knowledge := ⟨decided.ending.map fun _ =>
    workerError "the store refused the job's ending as decided", none, none⟩
  if ends.getLast? = some barest then ends else ends ++ [barest]

inductive Phase (Knowledge : Type) where
  | working
  | ending (ends : List (End Knowledge))
  | accounting (ends : List (End Knowledge))
  | released

/-- The ends still to be tried. -/
def Phase.ends : Phase Knowledge → List (End Knowledge)
  | .ending ends | .accounting ends => ends
  | .working | .released => []

/-- A row a worker holds. A released hold stays listed with nothing left to write. -/
structure Held (Knowledge : Type) where
  worker : Nat
  tenant : Str
  id : Str
  decided : Option (End Knowledge)
  phase : Phase Knowledge

/-- The first transaction of a try. -/
def End.write (attempt : End Knowledge) (held : Held Knowledge) (lapsed clock : Int) :
    Action Knowledge :=
  match attempt.ending with
  | some ending => .finish held.tenant held.id
      ⟨ending.stage, ending.disposition, attempt.cost, attempt.knowledge, ending.failureReason,
        ending.failureMessage⟩ clock
  | none => .handBack held.tenant held.id attempt.cost attempt.knowledge lapsed clock

/-- The second, on a row someone else ended. -/
def End.account (attempt : End Knowledge) (held : Held Knowledge) (clock : Int) :
    Action Knowledge :=
  .writeAccounting held.tenant held.id attempt.cost attempt.knowledge clock

/-- Whether the transaction's `UPDATE` returns a row. -/
def written (store : Store Knowledge) : Action Knowledge → Bool
  | .finish tenant id ending clock => (finish store tenant id ending clock).2.isSome
  | .handBack tenant id costUsd knowledge lapsed clock =>
      (handBack store tenant id costUsd knowledge lapsed clock).2.isSome
  | .writeAccounting tenant id costUsd knowledge clock =>
      (writeAccounting store tenant id costUsd knowledge clock).2.isSome
  | _ => false

section Worlds

/-- When a transaction without an answer commits. -/
inductive Landing where
  | never
  | now
  | later
deriving DecidableEq, Repr

/-- How a store call comes back: with its answer, as an outage, as a refusal of the value,
or as any other failure. -/
inductive Answer where
  | returned
  | outage (landing : Landing)
  | refusal
  | fault (landing : Landing)
deriving DecidableEq, Repr

/-- The store, the holds, the end writes still in flight, and the rows claimed so far. -/
structure World (Knowledge : Type) where
  store : Store Knowledge
  holds : List (Held Knowledge)
  inFlight : List (Action Knowledge)
  claimed : List Str

def World.empty : World Knowledge := ⟨.empty, [], [], []⟩

def World.setPhase (world : World Knowledge) (id : Str) (phase : Phase Knowledge) :
    World Knowledge :=
  { world with holds := world.holds.map fun held =>
      if held.id == id then { held with phase := phase } else held }

def World.commit (world : World Knowledge) (action : Action Knowledge) : World Knowledge :=
  { world with store := step world.store action }

def World.land (world : World Knowledge) (action : Action Knowledge) :
    Landing → World Knowledge
  | .never => world
  | .now => world.commit action
  | .later => { world with inFlight := action :: world.inFlight }

@[simp] theorem land_holds (world : World Knowledge) (action : Action Knowledge)
    (landing : Landing) : (world.land action landing).holds = world.holds := by
  cases landing <;> rfl

/-- After a refusal the next lesser end is tried, while there is one. -/
def nextEnd : List (End Knowledge) → Phase Knowledge
  | [] => .released
  | attempt :: rest => .ending (attempt :: rest)

/-- One transaction of `_end_once`, and what `_write_end` makes of its answer. -/
def endOnce (world : World Knowledge) (held : Held Knowledge) (answer : Answer)
    (lapsed clock : Int) : World Knowledge :=
  match held.phase with
  | .ending (attempt :: rest) =>
      let action := attempt.write held lapsed clock
      match answer with
      | .returned => (world.commit action).setPhase held.id
          (if written world.store action then .released else .accounting (attempt :: rest))
      | .outage landing => (world.land action landing).setPhase held.id (.ending (attempt :: rest))
      | .refusal => world.setPhase held.id (nextEnd rest)
      | .fault landing => (world.land action landing).setPhase held.id .released
  | .accounting (attempt :: rest) =>
      let action := attempt.account held clock
      match answer with
      | .returned => (world.commit action).setPhase held.id .released
      | .outage landing => (world.land action landing).setPhase held.id (.ending (attempt :: rest))
      | .refusal => world.setPhase held.id (nextEnd rest)
      | .fault landing => (world.land action landing).setPhase held.id .released
  | _ => world

/-- The transactions only a row's claimer or holder makes. -/
def byHolder : Action Knowledge → Bool
  | .claim _ _ _ | .finish _ _ _ _ | .writeAccounting _ _ _ _ _ | .handBack _ _ _ _ _ _ => true
  | _ => false

inductive Event (Knowledge : Type) where
  /-- A client's request, a renewal or one take-over. -/
  | transaction (action : Action Knowledge)
  | claim (worker : Nat) (locked : List Str) (clock leaseEnd : Int) (answered : Bool)
  | decide (id : Str) (decided : End Knowledge)
  | write (id : Str) (answer : Answer) (lapsed clock : Int)
  | lands (place : Nat)
  /-- A stopping worker gives up, or its task is cancelled. -/
  | release (id : Str)

def World.holder (world : World Knowledge) (id : Str) : Option (Held Knowledge) :=
  world.holds.find? fun held => held.id == id

variable [DecidableEq Knowledge]

def Held.decide (marker : Option Knowledge) (id : Str) (decided : End Knowledge)
    (held : Held Knowledge) : Held Knowledge :=
  match held.phase with
  | .working => if held.id == id then
      { held with decided := some decided, phase := .ending (lesserEnds marker decided) }
    else held
  | _ => held

def World.decide (world : World Knowledge) (marker : Option Knowledge) (id : Str)
    (decided : End Knowledge) : World Knowledge :=
  { world with holds := world.holds.map (Held.decide marker id decided) }

def World.step (marker : Option Knowledge) (world : World Knowledge) :
    Event Knowledge → World Knowledge
  | .transaction action => if byHolder action then world else world.commit action
  | .claim worker locked clock leaseEnd answered =>
      match (Jobs.claim world.store locked clock leaseEnd).2 with
      | none => world
      | some row => { world with
          store := (Jobs.claim world.store locked clock leaseEnd).1
          claimed := row.id :: world.claimed
          holds := if answered then ⟨worker, row.tenant, row.id, none, .working⟩ :: world.holds
            else world.holds }
  | .decide id decided => world.decide marker id decided
  | .write id answer lapsed clock =>
      match world.holder id with
      | none => world
      | some held => endOnce world held answer lapsed clock
  | .lands place =>
      match world.inFlight[place]? with
      | none => world
      | some action => { world.commit action with inFlight := world.inFlight.eraseIdx place }
  | .release id => world.setPhase id .released

def World.run (marker : Option Knowledge) (events : List (Event Knowledge)) :
    World Knowledge := events.foldl (World.step marker) .empty

end Worlds

end Defender.Worker
