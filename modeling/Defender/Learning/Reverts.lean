import Defender.Learning.CommitMaker
import Defender.Learning.DraftTree

/-!
# Reverting a lesson

A revert call undoes the newest batch's net change to a path whose result `main`
still holds and which has no merged revert. The record tells the net changes and
the reverts made of each, the forge tells what became of a revert's pull request:
one still open is answered, one closed refuses the call.
-/

namespace Defender.Learning.Reverts

open Defender.Python Defender.Library.OrderedDict Defender.Library.Wire

structure TreeEntry where
  regular : Bool
  oid : Oid

/-- The trees of the tenant's commits and the blobs in them: an id names one content. -/
structure Clone where
  entryAt : Oid → Str → Option TreeEntry
  blob : Oid → List UInt8
  hashObject : List UInt8 → Oid
  hash_blob : ∀ commit path entry, entryAt commit path = some entry → entry.regular = true →
    hashObject (blob entry.oid) = entry.oid

def Clone.regularBlobs (clone : Clone) (commit : Oid) (path : Str) : Option Oid :=
  (clone.entryAt commit path).bind fun entry => if entry.regular then some entry.oid else none

/-- What git answers during one call, on this clone. -/
structure Clone.Answers (clone : Clone) (git : GitAnswers) : Prop where
  blobs : ∀ commit path, git.regularBlobs commit path = clone.regularBlobs commit path
  made : ∀ parent changes text commit after,
    git.makeCommit parent changes text = .ok (commit, after) → ∀ change ∈ changes,
      after change.path = change.content.map clone.hashObject ∧
        clone.regularBlobs commit change.path = after change.path

section Peel

structure NetChange where
  batch : BatchKey
  path : Str
  before : Option Oid
  after : Option Oid
  order : Nat
deriving DecidableEq

def noteChanges (path : Str) (net : Dict BatchKey NetChange) (row : Made × Nat) :
    Dict BatchKey NetChange :=
  row.1.changes.foldl (fun net change =>
    if change.path = path then
      net.set row.1.batch ⟨row.1.batch, path, change.before, change.after, row.2⟩
    else net) net

def netChanges (record : List Made) (path : Str) : List NetChange :=
  (record.zipIdx.foldl (noteChanges path) .empty).values.insertionSort
    fun left right => right.order ≤ left.order

/-- The revert commits made of a change, oldest first. -/
def revertsOf (record : List Made) (target : BatchKey × Str) : List Made :=
  record.filter fun made => made.reverts = some target

def lanesOf (record : List Made) (batch : BatchKey) : List Str :=
  ((record.find? fun made => made.batch = batch).map Made.lanes).getD []

inductive PullStatus where
  | opened
  | merged
  | closed
deriving DecidableEq, Repr

structure PullRequest where
  number : Nat
  url : Str
  headSha : Option Oid
  status : PullStatus
deriving DecidableEq

def precedence : PullStatus → Nat
  | .opened => 0
  | .merged => 1
  | .closed => 2

/-- The order `_deliver` and `_peel` sort by: the status first, then the newest. -/
def comesFirst (left right : PullRequest) : Prop :=
  precedence left.status < precedence right.status ∨
    (precedence left.status = precedence right.status ∧ right.number ≤ left.number)

instance : DecidableRel comesFirst := fun _ _ => inferInstanceAs (Decidable (_ ∨ _))

def pullRequests (prs : List PullRequest) (commits : List Oid) : List PullRequest :=
  prs.filter fun pr => pr.headSha.any commits.contains

def statusesOf (prs : List PullRequest) (made : Made) : List PullRequest :=
  (prs.filter fun pr => pr.headSha = some made.commit).insertionSort comesFirst

/-- The first change in the list that may be undone, with its last revert's unmerged
pull request. -/
def peelFrom (record : List Made) (prs : List PullRequest) (current : Option Oid) :
    List NetChange → Option (NetChange × Option PullRequest)
  | [] => none
  | change :: rest =>
    if change.after ≠ current ∨ change.before = change.after then peelFrom record prs current rest
    else
      match (revertsOf record (change.batch, change.path)).getLast? with
      | none => some (change, none)
      | some last =>
        let listed := pullRequests prs
          ((record.filter fun made => made.reverts.isSome).map Made.commit)
        if (revertsOf record (change.batch, change.path)).any fun made =>
            (statusesOf listed made).any fun pr => pr.status = .merged then
          peelFrom record prs current rest
        else some (change, (statusesOf listed last).head?)

def peel (record : List Made) (prs : List PullRequest) (path : Str) (current : Option Oid) :
    Option (NetChange × Option PullRequest) :=
  peelFrom record prs current (netChanges record path)

end Peel

section Calls

/-- The record, `origin/main` and the forge's pull requests. -/
structure World where
  record : List Made
  main : Oid
  prs : List PullRequest

/-- One call's arguments, its random tokens and what git and the forge answer. -/
structure RevertCall where
  lessonPath : Str
  lessonName : Str
  branchToken : Str
  startToken : Str
  branchTip : Option Oid
  git : GitAnswers
  movedTo : Option Oid
  commitsSince : List Oid
  opens : Option (Nat × Str)

inductive RevertRefused where
  | badPath (refused : Draft.DeliveryRefused)
  | notOneWord (what word : Str)
  | notRegular (path : Str)
  | nothingToRevert (path : Str)
  | closedUnmerged (path url : Str)
  | notCommitted (text : Str)
  | branchMoved (branch : Str) (commit : Oid) (tip : Option Oid)
  | foreignCommits (branch : Str) (foreign : List Oid)
  | forgeFault

inductive Delivered where
  | answered (pr : PullRequest)
  | opened (url : Str)
  | nothing

def isWordChar (char : Char) : Bool :=
  ('a' ≤ char && char ≤ 'z') || ('A' ≤ char && char ≤ 'Z') || ('0' ≤ char && char ≤ '9')

def oneWord (word what : Str) : Except RevertRefused Str :=
  match word with
  | [] => .error (.notOneWord what word)
  | first :: rest =>
    if isWordChar first && (rest.all fun char => isWordChar char || char == '_' || char == '-') &&
        decide (rest.length ≤ 63) then .ok word
    else .error (.notOneWord what word)

variable (clone : Clone) (casefold : Str → Str) (branchPrefix : Str)

def regularBlobOn (commit : Oid) (path : Str) : Except RevertRefused (Option Oid) :=
  match clone.entryAt commit path with
  | none => .ok none
  | some entry => if entry.regular then .ok (some entry.oid) else .error (.notRegular path)

def revertTarget (world : World) (call : RevertCall) :
    Except RevertRefused (NetChange × Option PullRequest) := do
  (Draft.agentPath casefold call.lessonPath).mapError .badPath
  let _ ← oneWord call.lessonName "lesson name"
  let current ← regularBlobOn clone world.main call.lessonPath
  match peel world.record world.prs call.lessonPath current with
  | none => .error (.nothingToRevert call.lessonPath)
  | some found => .ok found

def revertLine (world : World) (call : RevertCall) (change : NetChange) : Line where
  batch :=
    { branch := branchPrefix ++ "revert-" ++ call.lessonName ++ "-" ++ call.branchToken
      base := world.main
      start := call.startToken }
  lanes := lanesOf world.record change.batch
  tip := none

def revertRequest (call : RevertCall) (change : NetChange) : Request where
  git := call.git
  changeSet := [⟨call.lessonPath, change.before.map clone.blob⟩]
  text := "revert lesson: " ++ call.lessonName
  reverts := some (change.batch, call.lessonPath)

variable [UnicodeDatabase]

def revertMade (world : World) (call : RevertCall) :
    Except RevertRefused (Sum PullRequest Made) := do
  let (change, pending) ← revertTarget clone casefold world call
  match pending with
  | some pr =>
    if pr.status = .opened then .ok (.inl pr)
    else .error (.closedUnmerged call.lessonPath pr.url)
  | none =>
    let made ← (prepare call.branchTip (revertLine branchPrefix world call change)
      (revertRequest clone call change)).mapError .notCommitted
    .ok (.inr made)

/-- `_deliver` of the revert's branch: a pull request of its own, unless one is found. -/
def deliverRevert (record : List Made) (prs : List PullRequest) (call : RevertCall)
    (made : Made) : Except RevertRefused (Delivered × List PullRequest) :=
  let mine := commitsOf record made.batch
  let foreign := call.commitsSince.filter fun commit => !mine.contains commit
  if made.commit ≠ made.batch.base ∧ (foreign ≠ [] ∨ call.commitsSince = []) then
    .error (.foreignCommits made.batch.branch foreign)
  else
    match ((pullRequests prs mine).insertionSort comesFirst).head? with
    | some pr => .ok (.answered pr, prs)
    | none =>
      if made.commit = made.batch.base then .ok (.nothing, prs)
      else
        match call.opens with
        | none => .error .forgeFault
        | some (number, url) =>
          .ok (.opened url, prs ++ [⟨number, url, some made.commit, .opened⟩])

/-- A revert call, with the world it leaves. The row stays on the record whatever
happens to the branch and the pull request. -/
def revert (world : World) (call : RevertCall) : World × Except RevertRefused Delivered :=
  match revertMade clone casefold branchPrefix world call with
  | .error refused => (world, .error refused)
  | .ok (.inl pr) => (world, .ok (.answered pr))
  | .ok (.inr made) =>
    let recorded := { world with record := world.record ++ [made] }
    if call.movedTo ≠ some made.commit then
      (recorded, .error (.branchMoved made.batch.branch made.commit call.movedTo))
    else
      match deliverRevert recorded.record recorded.prs call made with
      | .error refused => (recorded, .error refused)
      | .ok (delivered, prs) => ({ recorded with prs }, .ok delivered)

def decidePulls (prs : List PullRequest) (number : Nat) (status : PullStatus) :
    List PullRequest :=
  prs.map fun pr =>
    if pr.number = number ∧ pr.status ≠ .merged then { pr with status } else pr

end Calls

def NotedFrom (record : List Made) (path : Str) (batch : BatchKey) (change : NetChange) : Prop :=
  change.batch = batch ∧ change.path = path ∧
    ∃ earlier row later, record = earlier ++ row :: later ∧ row.batch = batch ∧
      (∃ noted ∈ row.changes, noted.path = path ∧ noted.before = change.before ∧
        noted.after = change.after) ∧
      ∀ after ∈ later, after.batch = batch → ∀ other ∈ after.changes, other.path ≠ path

theorem note_changes_entry {path : Str} {row : Made} {order : Nat} {net : Dict BatchKey NetChange}
    {batch : BatchKey} {change : NetChange}
    (held : (batch, change) ∈ (noteChanges path net (row, order)).entries) :
    (batch = row.batch ∧ ∃ noted ∈ row.changes, noted.path = path ∧
        change = ⟨row.batch, path, noted.before, noted.after, order⟩) ∨
      ((batch, change) ∈ net.entries ∧
        (batch = row.batch → ∀ other ∈ row.changes, other.path ≠ path)) := by
  unfold noteChanges at held
  dsimp only at held
  generalize row.changes = changes at held ⊢
  induction changes generalizing net with
  | nil => exact .inr ⟨held, fun _ _ among => nomatch among⟩
  | cons first rest ih =>
    rw [List.foldl_cons] at held
    rcases ih held with ⟨same, noted, among, atPath, value⟩ | ⟨kept, untouched⟩
    · exact .inl ⟨same, noted, List.mem_cons_of_mem _ among, atPath, value⟩
    · by_cases atPath : first.path = path
      · rw [if_pos atPath] at kept
        rcases (Dict.mem_set_entries_iff net.nodup).mp kept with ⟨same, value⟩ | ⟨other, kept⟩
        · exact .inl ⟨same, first, List.mem_cons_self, atPath, value⟩
        · exact .inr ⟨kept, fun same => absurd same other⟩
      · rw [if_neg atPath] at kept
        refine .inr ⟨kept, fun same other among => ?_⟩
        rcases List.mem_cons.mp among with rfl | among
        · exact atPath
        · exact untouched same other among

theorem noted_entries (path : Str) (record : List Made) {batch : BatchKey} {change : NetChange}
    (held : (batch, change) ∈ (record.zipIdx.foldl (noteChanges path) .empty).entries) :
    NotedFrom record path batch change := by
  induction record using List.reverseRecOn with
  | nil => exact nomatch held
  | append_singleton record row ih =>
    rw [List.zipIdx_append, List.foldl_append] at held
    rcases note_changes_entry held with ⟨rfl, noted, among, atPath, rfl⟩ | ⟨kept, untouched⟩
    · exact ⟨rfl, rfl, record, row, [], rfl, rfl, ⟨noted, among, atPath, rfl, rfl⟩,
        fun _ among => nomatch among⟩
    · obtain ⟨same, atPath, earlier, noting, later, rfl, of, noted, silent⟩ := ih kept
      refine ⟨same, atPath, earlier, noting, later ++ [row], by simp, of, noted, ?_⟩
      intro after among ofBatch
      rcases List.mem_append.mp among with among | among
      · exact silent after among ofBatch
      · obtain rfl := List.mem_singleton.mp among
        exact untouched ofBatch.symm

theorem net_change_noted {record : List Made} {path : Str} {change : NetChange}
    (among : change ∈ netChanges record path) : NotedFrom record path change.batch change := by
  have held := (List.mem_insertionSort _).mp among
  obtain ⟨⟨batch, value⟩, entry, rfl⟩ := List.mem_map.mp held
  have noted := noted_entries path record entry
  rw [noted.1]
  exact noted

theorem statuses_of_mem {prs : List PullRequest} {made : Made} {pr : PullRequest} :
    pr ∈ statusesOf prs made ↔ pr ∈ prs ∧ pr.headSha = some made.commit := by
  simp [statusesOf, List.mem_insertionSort]

/-- The chosen change is what the path holds, and its last revert has no pull request
unless one is given with it. -/
theorem peel_from_some {record : List Made} {prs : List PullRequest} {current : Option Oid}
    {changes : List NetChange} {change : NetChange} {pending : Option PullRequest}
    (found : peelFrom record prs current changes = some (change, pending)) :
    change ∈ changes ∧ change.after = current ∧ change.before ≠ change.after ∧
      (pending = none → ∀ last, (revertsOf record (change.batch, change.path)).getLast? = some last →
        ∀ pr ∈ prs, pr.headSha ≠ some last.commit) := by
  induction changes with
  | nil => cases found
  | cons first rest ih =>
    have later (found : peelFrom record prs current rest = some (change, pending)) :=
      let ⟨among, kept⟩ := ih found
      And.intro (List.mem_cons_of_mem first among) kept
    rw [peelFrom] at found
    split at found
    · exact later found
    · rename_i eligible
      rw [not_or, not_not] at eligible
      split at found
      · rename_i none
        obtain ⟨rfl, rfl⟩ := Prod.mk.inj (Option.some.inj found)
        refine ⟨List.mem_cons_self, eligible.1, eligible.2, ?_⟩
        intro _ last atEnd
        rw [none] at atEnd
        cases atEnd
      · rename_i last atEnd
        dsimp only at found
        split at found
        · exact later found
        · obtain ⟨rfl, rfl⟩ := Prod.mk.inj (Option.some.inj found)
          refine ⟨List.mem_cons_self, eligible.1, eligible.2, ?_⟩
          intro nonePending same isLast pr among headed
          obtain rfl := Option.some.inj (atEnd.symm.trans isLast)
          obtain ⟨onRecord, reverts⟩ := List.mem_filter.mp (List.mem_of_getLast? atEnd)
          have listed : pr ∈ pullRequests prs
              ((record.filter fun made => made.reverts.isSome).map Made.commit) := by
            refine List.mem_filter.mpr ⟨among, ?_⟩
            rw [headed]
            simp only [Option.any_some, List.contains_iff_mem]
            refine List.mem_map.mpr ⟨last, List.mem_filter.mpr ⟨onRecord, ?_⟩, rfl⟩
            rw [of_decide_eq_true reverts]
            rfl
          have shown := statuses_of_mem.mpr ⟨listed, headed⟩
          rw [List.head?_eq_none_iff.mp nonePending] at shown
          exact nomatch shown

end Defender.Learning.Reverts
