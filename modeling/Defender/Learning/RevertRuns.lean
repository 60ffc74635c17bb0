import Defender.Learning.Reverts
import Mathlib.Algebra.Order.BigOperators.Group.List
import Mathlib.Algebra.Order.Ring.Nat
import Mathlib.Data.List.Dedup

/-!
# Runs of reverts

Batches commit, `main` is edited, pull requests are opened and decided, and revert
calls are made, in any order. A call makes a revert only of a change without a pull
request, so a change has at most one pull request that reverts it: its last revert's.
No change is undone twice, and the changes on the record bound the merged reverts.
-/

namespace Defender.Learning.Reverts

open Defender.Python Defender.Library.OrderedDict Defender.Library.Wire

section Steps

inductive Kind where
  | batch
  | edit
  | pullRequest
  | call
  | decision
deriving DecidableEq

/-- An id names one commit: it is on the record before only when the same revert was
made, and heads a pull request before only when it is on the record. -/
def FreshId (world : World) (made : Made) : Prop :=
  (∀ row ∈ world.record, row.commit = made.commit → row.reverts = made.reverts) ∧
    ∀ pr ∈ world.prs, pr.headSha = some made.commit → ∃ row ∈ world.record, row.commit = made.commit

variable (clone : Clone) (casefold : Str → Str) (branchPrefix : Str) [UnicodeDatabase]

inductive Step : World → Kind → World → Prop
  | batchCommit {world : World} (tip : Option Oid) (line : Line) (request : Request) (made : Made)
      (ordinary : request.reverts = none) (answers : clone.Answers request.git)
      (ready : prepare tip line request = .ok made) :
      Step world .batch { world with record := world.record ++ [made] }
  | mainEdited {world : World} (commit : Oid) : Step world .edit { world with main := commit }
  -- a batch's pull request or a human's
  | otherPull {world : World} (pr : PullRequest)
      (other : ∀ row ∈ world.record, row.reverts.isSome → pr.headSha ≠ some row.commit) :
      Step world .pullRequest { world with prs := world.prs ++ [pr] }
  | reverted {world : World} (call : RevertCall) (answers : clone.Answers call.git)
      (fresh : ∀ made, revertMade clone casefold branchPrefix world call = .ok (.inr made) →
        FreshId world made) :
      Step world .call (revert clone casefold branchPrefix world call).1
  -- `main` is whatever the merge made of it
  | decided {world : World} (number : Nat) (status : PullStatus) (main : Oid) :
      Step world .decision
        { world with main, prs := decidePulls world.prs number status }

/-- The worlds a run reaches by steps of the allowed kinds. -/
inductive Run (allowed : Kind → Prop) (start : World) : World → Prop
  | refl : Run allowed start start
  | step {world next : World} {kind : Kind} (before : Run allowed start world)
      (kindAllowed : allowed kind) (step : Step clone casefold branchPrefix world kind next) :
      Run allowed start next

def changedPaths (record : List Made) : List (BatchKey × Str) :=
  (record.flatMap fun made => made.changes.map fun change => (made.batch, change.path)).dedup

def revertPulls (world : World) (target : BatchKey × Str) : List PullRequest :=
  world.prs.filter fun pr => (revertsOf world.record target).any fun row =>
    pr.headSha = some row.commit

def mergedReverts (world : World) : List PullRequest :=
  world.prs.filter fun pr => decide (pr.status = .merged) &&
    world.record.any fun row => row.reverts.isSome && decide (pr.headSha = some row.commit)

def LeftBy (record : List Made) (batch : BatchKey) (path : Str)
    (blob : Option Oid) : Prop :=
  ∃ earlier row later, record = earlier ++ row :: later ∧ row.batch = batch ∧
    (∃ change ∈ row.changes, change.path = path) ∧
    (∀ after ∈ later, after.batch = batch → ∀ change ∈ after.changes, change.path ≠ path) ∧
    clone.regularBlobs row.commit path = blob

end Steps

section Invariant

variable {clone : Clone} {casefold : Str → Str} {branchPrefix : Str}
variable {world : World} {call : RevertCall} {made : Made}

/-- The rows tell what their commits hold, and a change has at most one pull request
that reverts it: its last revert's. -/
structure PeeledOnce (clone : Clone) (world : World) : Prop where
  told : ∀ row ∈ world.record, ∀ change ∈ row.changes,
    change.before = clone.regularBlobs row.batch.base change.path ∧
      change.after = clone.regularBlobs row.commit change.path
  known : ∀ row ∈ world.record, ∀ target, row.reverts = some target →
    target ∈ changedPaths world.record
  single : ∀ target, (revertPulls world target).length ≤ 1
  atLast : ∀ target, ∀ pr ∈ revertPulls world target,
    ∃ last, (revertsOf world.record target).getLast? = some last ∧ pr.headSha = some last.commit

theorem regular_blob_on_ok {commit : Oid} {path : Str} {current : Option Oid}
    (read : regularBlobOn clone commit path = .ok current) :
    clone.regularBlobs commit path = current := by
  unfold regularBlobOn at read
  unfold Clone.regularBlobs
  split at read
  · rename_i absent
    cases read
    rw [absent]
    rfl
  · rename_i entry present
    rw [present, Option.bind_some]
    split at read
    · rename_i regular
      cases read
      rw [if_pos regular]
    · cases read

theorem revert_target_ok {change : NetChange} {pending : Option PullRequest}
    (found : revertTarget clone casefold world call = .ok (change, pending)) :
    peel world.record world.prs call.lessonPath
      (clone.regularBlobs world.main call.lessonPath) = some (change, pending) := by
  obtain ⟨-, -, found⟩ := except_bind_ok.mp found
  obtain ⟨-, -, found⟩ := except_bind_ok.mp found
  obtain ⟨current, read, found⟩ := except_bind_ok.mp found
  rw [regular_blob_on_ok read]
  split at found
  · cases found
  · rename_i chosen peeled
    rw [peeled, Except.ok.inj found]

theorem hash_regular_blob (commit : Oid) (path : Str) :
    ((clone.regularBlobs commit path).map clone.blob).map clone.hashObject =
      clone.regularBlobs commit path := by
  unfold Clone.regularBlobs
  cases held : clone.entryAt commit path with
  | none => rfl
  | some entry =>
    rw [Option.bind_some]
    split
    · rename_i regular
      rw [Option.map_some, Option.map_some, clone.hash_blob commit path entry held regular]
    · rfl

variable [UnicodeDatabase]

theorem revert_made_of
    (ok : revertMade clone casefold branchPrefix world call = .ok (.inr made)) :
    ∃ change, peel world.record world.prs call.lessonPath
        (clone.regularBlobs world.main call.lessonPath) = some (change, none) ∧
      prepare call.branchTip (revertLine branchPrefix world call change)
        (revertRequest clone call change) = .ok made := by
  obtain ⟨⟨change, pending⟩, found, ok⟩ := except_bind_ok.mp ok
  have peeled := revert_target_ok found
  dsimp only at ok
  cases pending with
  | some pr =>
    dsimp only at ok
    split at ok
    · cases Except.ok.inj ok
    · cases ok
  | none =>
    obtain ⟨prepared, ready, ok⟩ := except_bind_ok.mp ok
    cases Except.ok.inj ok
    exact ⟨change, peeled, map_error_ok ready⟩

/-- A revert puts back what the path had at the base of the batch it undoes. -/
theorem revert_restores (peeled : PeeledOnce clone world) (answers : clone.Answers call.git)
    (ok : revertMade clone casefold branchPrefix world call = .ok (.inr made)) :
    ∃ batch, made.reverts = some (batch, call.lessonPath) ∧ made.changes = [] ∧
      made.batch.base = world.main ∧ (batch, call.lessonPath) ∈ changedPaths world.record ∧
      revertPulls world (batch, call.lessonPath) = [] ∧
      LeftBy clone world.record batch call.lessonPath
        (clone.regularBlobs world.main call.lessonPath) ∧
      clone.regularBlobs made.commit call.lessonPath =
        clone.regularBlobs batch.base call.lessonPath := by
  obtain ⟨change, found, ready⟩ := revert_made_of ok
  obtain ⟨commit, after, answered, rfl⟩ := prepare_made ready
  obtain ⟨among, held, -, noneWaiting⟩ := peel_from_some found
  obtain ⟨-, atPath, earlier, row, later, split, ofBatch, ⟨noted, inRow, notedPath, before, left⟩,
    silent⟩ := net_change_noted among
  have onRecord : row ∈ world.record := by
    rw [split]
    simp
  obtain ⟨toldBefore, toldAfter⟩ := peeled.told row onRecord noted inRow
  rw [notedPath] at toldBefore toldAfter
  refine ⟨change.batch, rfl, rfl, rfl, ?_, ?_, ?_, ?_⟩
  · refine List.mem_dedup.mpr (List.mem_flatMap.mpr ⟨row, onRecord, ?_⟩)
    exact List.mem_map.mpr ⟨noted, inRow, by rw [ofBatch, notedPath]⟩
  · refine List.eq_nil_iff_forall_not_mem.mpr fun pr shown => ?_
    obtain ⟨last, atEnd, headed⟩ := peeled.atLast _ pr shown
    rw [atPath] at noneWaiting
    exact noneWaiting rfl last atEnd pr (List.mem_filter.mp shown).1 headed
  · exact ⟨earlier, row, later, split, ofBatch, ⟨noted, inRow, notedPath⟩, silent,
      by rw [← toldAfter, left, held]⟩
  · obtain ⟨hashed, stored⟩ := answers.made _ _ _ _ _ answered _ List.mem_cons_self
    have restored : (change.before.map clone.blob).map clone.hashObject = change.before := by
      rw [← before, toldBefore]
      exact hash_regular_blob _ _
    calc clone.regularBlobs commit call.lessonPath
        = (change.before.map clone.blob).map clone.hashObject := stored.trans hashed
      _ = clone.regularBlobs change.batch.base call.lessonPath := by
        rw [restored, ← before, toldBefore, ofBatch]

omit [UnicodeDatabase] in
theorem reverts_of_append (record : List Made) (target : BatchKey × Str) :
    revertsOf (record ++ [made]) target =
      revertsOf record target ++ if made.reverts = some target then [made] else [] := by
  by_cases same : made.reverts = some target
  · simp [revertsOf, same]
  · simp [revertsOf, same]

omit [UnicodeDatabase] in
theorem changed_paths_append (record : List Made) (target : BatchKey × Str)
    (known : target ∈ changedPaths record) : target ∈ changedPaths (record ++ [made]) := by
  unfold changedPaths at known ⊢
  rw [List.mem_dedup] at known ⊢
  rw [List.flatMap_append]
  exact List.mem_append_left _ known

omit [UnicodeDatabase] in
theorem changed_paths_silent (record : List Made) (silent : made.changes = []) :
    changedPaths (record ++ [made]) = changedPaths record := by
  unfold changedPaths
  rw [List.flatMap_append, List.flatMap_singleton, silent, List.map_nil, List.append_nil]

omit [UnicodeDatabase] in
theorem peeled_once_row (peeled : PeeledOnce clone world)
    (told : ∀ change ∈ made.changes,
      change.before = clone.regularBlobs made.batch.base change.path ∧
        change.after = clone.regularBlobs made.commit change.path)
    (known : ∀ target, made.reverts = some target → target ∈ changedPaths world.record)
    (alone : ∀ target, made.reverts = some target → revertPulls world target = [] ∧
      ∀ pr ∈ world.prs, pr.headSha ≠ some made.commit) :
    PeeledOnce clone { world with record := world.record ++ [made] } := by
  have pulls (target : BatchKey × Str) :
      revertPulls { world with record := world.record ++ [made] } target =
        revertPulls world target := by
    refine List.filter_congr fun pr among => ?_
    rw [reverts_of_append, List.any_append]
    split
    · rename_i same
      have other := (alone target same).2 pr among
      simp [other]
    · simp
  constructor
  case told =>
    intro row among change inRow
    rcases List.mem_append.mp among with among | among
    · exact peeled.told row among change inRow
    · obtain rfl := List.mem_singleton.mp among
      exact told change inRow
  case known =>
    intro row among target same
    refine changed_paths_append _ _ ?_
    rcases List.mem_append.mp among with among | among
    · exact peeled.known row among target same
    · obtain rfl := List.mem_singleton.mp among
      exact known target same
  case single =>
    intro target
    rw [pulls]
    exact peeled.single target
  case atLast =>
    intro target pr shown
    rw [pulls] at shown
    by_cases same : made.reverts = some target
    · rw [(alone target same).1] at shown
      exact nomatch shown
    · obtain ⟨last, atEnd, headed⟩ := peeled.atLast target pr shown
      refine ⟨last, ?_, headed⟩
      rw [reverts_of_append, if_neg same, List.append_nil]
      exact atEnd

omit [UnicodeDatabase] in
/-- A change without a pull request gets its first one. -/
theorem peeled_once_pull {pr : PullRequest} (peeled : PeeledOnce clone world)
    (first : ∀ target, (revertsOf world.record target).any (fun row =>
        decide (pr.headSha = some row.commit)) = true → revertPulls world target = [] ∧
      ∃ last, (revertsOf world.record target).getLast? = some last ∧
        pr.headSha = some last.commit) :
    PeeledOnce clone { world with prs := world.prs ++ [pr] } := by
  have pulls (target : BatchKey × Str) :
      revertPulls { world with prs := world.prs ++ [pr] } target =
        revertPulls world target ++ if (revertsOf world.record target).any (fun row =>
          decide (pr.headSha = some row.commit)) = true then [pr] else [] := by
    unfold revertPulls
    rw [List.filter_append, List.filter_singleton, Bool.cond_eq_ite]
  refine ⟨peeled.told, peeled.known, ?_, ?_⟩
  · intro target
    rw [pulls]
    split
    · rename_i headed
      rw [(first target headed).1]
      rfl
    · rw [List.append_nil]
      exact peeled.single target
  · intro target other shown
    rw [pulls] at shown
    rcases List.mem_append.mp shown with shown | shown
    · exact peeled.atLast target other shown
    · split at shown
      · rename_i headed
        obtain rfl := List.mem_singleton.mp shown
        exact (first target headed).2
      · exact nomatch shown

omit [UnicodeDatabase] in
theorem deliver_revert_pulls {record : List Made} {prs later : List PullRequest}
    {delivered : Delivered} (onRecord : made ∈ record)
    (ok : deliverRevert record prs call made = .ok (delivered, later)) :
    later = prs ∨ ∃ number url, later = prs ++ [⟨number, url, some made.commit, .opened⟩] ∧
      ∀ pr ∈ prs, pr.headSha ≠ some made.commit := by
  unfold deliverRevert at ok
  dsimp only at ok
  split at ok
  · cases ok
  split at ok
  · cases ok
    exact .inl rfl
  · rename_i noneFound
    split at ok
    · cases ok
      exact .inl rfl
    split at ok
    · cases ok
    · rename_i number url _
      cases ok
      refine .inr ⟨number, url, rfl, fun pr among headed => ?_⟩
      have found : pr ∈ pullRequests prs (commitsOf record made.batch) := by
        refine List.mem_filter.mpr ⟨among, ?_⟩
        rw [headed, Option.any_some, List.contains_iff_mem]
        exact List.mem_map.mpr ⟨made, List.mem_filter.mpr ⟨onRecord, by simp⟩, rfl⟩
      have sorted := (List.mem_insertionSort comesFirst).mpr found
      rw [List.head?_eq_none_iff.mp noneFound] at sorted
      exact nomatch sorted

/-- What a call leaves: nothing new, a row, or a row and the first pull request of its
commit. -/
theorem revert_leaves (world : World) (call : RevertCall) :
    (revert clone casefold branchPrefix world call).1 = world ∨
      ∃ made, revertMade clone casefold branchPrefix world call = .ok (.inr made) ∧
        ((revert clone casefold branchPrefix world call).1 =
            { world with record := world.record ++ [made] } ∨
          ∃ number url, (∀ pr ∈ world.prs, pr.headSha ≠ some made.commit) ∧
            (revert clone casefold branchPrefix world call).1 =
              { world with
                record := world.record ++ [made]
                prs := world.prs ++ [⟨number, url, some made.commit, .opened⟩] }) := by
  unfold revert
  cases tried : revertMade clone casefold branchPrefix world call with
  | error refused => exact .inl rfl
  | ok result =>
    cases result with
    | inl pr => exact .inl rfl
    | inr made =>
      refine .inr ⟨made, rfl, ?_⟩
      dsimp only
      split
      · exact .inl rfl
      · cases delivery : deliverRevert (world.record ++ [made]) world.prs call made with
        | error refused => exact .inl rfl
        | ok result =>
          obtain ⟨delivered, later⟩ := result
          have onRecord : made ∈ world.record ++ [made] := by simp
          rcases deliver_revert_pulls onRecord delivery with rfl | ⟨number, url, rfl, none⟩
          · exact .inl rfl
          · exact .inr ⟨number, url, none, rfl⟩

theorem peeled_once_revert (peeled : PeeledOnce clone world) (answers : clone.Answers call.git)
    (fresh : ∀ made, revertMade clone casefold branchPrefix world call = .ok (.inr made) →
      FreshId world made) :
    PeeledOnce clone (revert clone casefold branchPrefix world call).1 ∧
      changedPaths (revert clone casefold branchPrefix world call).1.record =
        changedPaths world.record := by
  rcases revert_leaves world call with same | ⟨made, ok, left⟩
  · rw [same]
    exact ⟨peeled, rfl⟩
  obtain ⟨batch, reverts, silent, -, known, noPull, -, -⟩ := revert_restores peeled answers ok
  obtain ⟨oneTarget, headed⟩ := fresh made ok
  have ofTarget {target : BatchKey × Str} (same : made.reverts = some target) :
      (batch, call.lessonPath) = target := Option.some.inj (reverts.symm.trans same)
  have unheaded : ∀ pr ∈ world.prs, pr.headSha ≠ some made.commit := by
    intro pr among heads
    obtain ⟨row, onRecord, sameId⟩ := headed pr among heads
    have shown : pr ∈ revertPulls world (batch, call.lessonPath) := by
      refine List.mem_filter.mpr ⟨among, List.any_eq_true.mpr ⟨row, ?_, ?_⟩⟩
      · exact List.mem_filter.mpr
          ⟨onRecord, decide_eq_true ((oneTarget row onRecord sameId).trans reverts)⟩
      · rw [heads, sameId]
        exact decide_eq_true rfl
    rw [noPull] at shown
    exact nomatch shown
  have recorded : PeeledOnce clone { world with record := world.record ++ [made] } := by
    refine peeled_once_row peeled ?_ ?_ ?_
    · rw [silent]
      exact fun _ among => nomatch among
    · intro target same
      rw [← ofTarget same]
      exact known
    · intro target same
      rw [← ofTarget same]
      exact ⟨noPull, unheaded⟩
  rcases left with same | ⟨number, url, -, same⟩
  · rw [same]
    exact ⟨recorded, changed_paths_silent _ silent⟩
  · rw [same]
    refine ⟨peeled_once_pull recorded ?_, changed_paths_silent _ silent⟩
    intro target heads
    obtain ⟨row, among, sameId⟩ := List.any_eq_true.mp heads
    obtain ⟨onRecord, ofRow⟩ := List.mem_filter.mp among
    have commits : row.commit = made.commit := (Option.some.inj (of_decide_eq_true sameId)).symm
    have rowTarget := of_decide_eq_true ofRow
    have madeTarget : made.reverts = some target := by
      rcases List.mem_append.mp onRecord with onRecord | isMade
      · exact (oneTarget row onRecord commits).symm.trans rowTarget
      · rw [← List.mem_singleton.mp isMade]
        exact rowTarget
    obtain rfl := ofTarget madeTarget
    constructor
    · refine List.eq_nil_iff_forall_not_mem.mpr fun pr shown => ?_
      obtain ⟨last, atEnd, headed⟩ := recorded.atLast _ pr shown
      rw [reverts_of_append, if_pos reverts, List.getLast?_append] at atEnd
      cases atEnd
      exact unheaded pr (List.mem_filter.mp shown).1 headed
    · refine ⟨made, ?_, rfl⟩
      rw [reverts_of_append, if_pos reverts, List.getLast?_append]
      rfl

omit [UnicodeDatabase] in
theorem decide_pulls_revert_pulls (world : World) (number : Nat) (status : PullStatus)
    (main : Oid) (target : BatchKey × Str) :
    revertPulls { world with main, prs := decidePulls world.prs number status } target =
      decidePulls (revertPulls world target) number status := by
  unfold revertPulls decidePulls
  dsimp only
  rw [List.filter_map]
  congr 1
  refine List.filter_congr fun pr _ => ?_
  dsimp only [Function.comp_apply]
  split
  · rfl
  · rfl

omit [UnicodeDatabase] in
theorem peeled_once_decided (peeled : PeeledOnce clone world) (number : Nat)
    (status : PullStatus) (main : Oid) :
    PeeledOnce clone { world with main, prs := decidePulls world.prs number status } := by
  refine ⟨peeled.told, peeled.known, ?_, ?_⟩
  · intro target
    rw [decide_pulls_revert_pulls, decidePulls, List.length_map]
    exact peeled.single target
  · intro target pr shown
    rw [decide_pulls_revert_pulls] at shown
    obtain ⟨earlier, among, rfl⟩ := List.mem_map.mp shown
    obtain ⟨last, atEnd, headed⟩ := peeled.atLast target earlier among
    refine ⟨last, atEnd, ?_⟩
    split
    · exact headed
    · exact headed

theorem peeled_once_batch (peeled : PeeledOnce clone world) {tip : Option Oid} {line : Line}
    {request : Request} (ordinary : request.reverts = none)
    (answers : clone.Answers request.git) (ready : prepare tip line request = .ok made) :
    PeeledOnce clone { world with record := world.record ++ [made] } := by
  obtain ⟨commit, after, answered, rfl⟩ := prepare_made ready
  refine peeled_once_row peeled ?_ ?_ ?_
  · dsimp only
    rw [ordinary]
    intro change among
    obtain ⟨given, inSet, rfl⟩ := List.mem_map.mp among
    exact ⟨answers.blobs _ _, (answers.made _ _ _ _ _ answered given inSet).2.symm⟩
  · intro target same
    cases ordinary.symm.trans same
  · intro target same
    cases ordinary.symm.trans same

theorem peeled_once_step {next : World} {kind : Kind} (peeled : PeeledOnce clone world)
    (step : Step clone casefold branchPrefix world kind next) :
    PeeledOnce clone next ∧
      (kind ≠ .batch → changedPaths next.record = changedPaths world.record) := by
  cases step with
  | batchCommit tip line request made ordinary answers ready =>
    exact ⟨peeled_once_batch peeled ordinary answers ready, fun other => absurd rfl other⟩
  | mainEdited commit =>
    exact ⟨⟨peeled.told, peeled.known, peeled.single, peeled.atLast⟩, fun _ => rfl⟩
  | otherPull pr other =>
    refine ⟨peeled_once_pull peeled ?_, fun _ => rfl⟩
    intro target heads
    obtain ⟨row, among, sameId⟩ := List.any_eq_true.mp heads
    obtain ⟨onRecord, ofRow⟩ := List.mem_filter.mp among
    have isRevert : row.reverts.isSome := by rw [of_decide_eq_true ofRow]; rfl
    exact absurd (of_decide_eq_true sameId) (other row onRecord isRevert)
  | reverted call answers fresh =>
    obtain ⟨kept, paths⟩ := peeled_once_revert peeled answers fresh
    exact ⟨kept, fun _ => paths⟩
  | decided number status main =>
    exact ⟨peeled_once_decided peeled number status main, fun _ => rfl⟩

theorem peeled_once_run {allowed : Kind → Prop} {start : World} (peeled : PeeledOnce clone start)
    (run : Run clone casefold branchPrefix allowed start world) :
    PeeledOnce clone world ∧
      (¬allowed .batch → changedPaths world.record = changedPaths start.record) := by
  induction run with
  | refl => exact ⟨peeled, fun _ => rfl⟩
  | step before kindAllowed step ih =>
    obtain ⟨held, paths⟩ := ih
    obtain ⟨kept, same⟩ := peeled_once_step held step
    refine ⟨kept, fun noBatch => (same ?_).trans (paths noBatch)⟩
    rintro rfl
    exact noBatch kindAllowed

end Invariant

theorem filter_length_le_marked {Item Mark : Type} (items : List Item) (marks : List Mark)
    (kept : Item → Bool) (marked : Mark → Item → Bool)
    (covered : ∀ item ∈ items, kept item = true → ∃ mark ∈ marks, marked mark item = true) :
    (items.filter kept).length ≤
      (marks.map fun mark => (items.filter (marked mark)).length).sum := by
  induction items with
  | nil => simp
  | cons first rest ih =>
    have fewer := ih fun item among => covered item (List.mem_cons_of_mem _ among)
    have grows : ∀ mark, (rest.filter (marked mark)).length ≤
        ((first :: rest).filter (marked mark)).length := fun mark =>
      ((List.sublist_cons_self first rest).filter _).length_le
    by_cases keeps : kept first = true
    · obtain ⟨mark, among, marks⟩ := covered first List.mem_cons_self keeps
      rw [List.filter_cons_of_pos keeps, List.length_cons]
      refine lt_of_le_of_lt fewer (List.sum_lt_sum _ _ (fun mark _ => grows mark) ⟨mark, among, ?_⟩)
      rw [List.filter_cons_of_pos marks, List.length_cons]
      exact Nat.lt_succ_self _
    · rw [List.filter_cons_of_neg keeps]
      exact fewer.trans (List.sum_le_sum fun mark _ => grows mark)

theorem merged_reverts_bound {clone : Clone} {world : World} (peeled : PeeledOnce clone world) :
    (mergedReverts world).length ≤ (changedPaths world.record).length := by
  have covered := filter_length_le_marked world.prs (changedPaths world.record)
    (fun pr => decide (pr.status = .merged) &&
      world.record.any fun row => row.reverts.isSome && decide (pr.headSha = some row.commit))
    (fun target pr => (revertsOf world.record target).any fun row =>
      decide (pr.headSha = some row.commit))
    (by
      intro pr _ merged
      obtain ⟨-, reverts⟩ := (Bool.and_eq_true _ _).mp merged
      obtain ⟨row, onRecord, heads⟩ := List.any_eq_true.mp reverts
      obtain ⟨isRevert, headed⟩ := (Bool.and_eq_true _ _).mp heads
      obtain ⟨target, same⟩ := Option.isSome_iff_exists.mp isRevert
      exact ⟨target, peeled.known row onRecord target same, List.any_eq_true.mpr
        ⟨row, List.mem_filter.mpr ⟨onRecord, decide_eq_true same⟩, headed⟩⟩)
  refine covered.trans ?_
  have each := List.sum_le_card_nsmul
    ((changedPaths world.record).map fun target => (revertPulls world target).length) 1
    (by
      intro count among
      obtain ⟨target, -, rfl⟩ := List.mem_map.mp among
      exact peeled.single target)
  simpa [revertPulls] using each

section Runs

variable {clone : Clone} {casefold : Str → Str} {branchPrefix : Str} [UnicodeDatabase]

/-- Over every run of batches, edits, calls and decisions: no two merged pull requests
revert one batch's change to one path; a revert puts back what the path had at the base
of a batch that left there what `main` holds; and without further batches the merged
reverts are at most the changes on the record. -/
theorem reverts_peel_once {start world : World} (noRecord : start.record = [])
    (run : Run clone casefold branchPrefix (fun _ => True) start world) :
    (∀ target, ((revertPulls world target).filter fun pr => pr.status = .merged).length ≤ 1) ∧
      (∀ call made, clone.Answers call.git →
        revertMade clone casefold branchPrefix world call = .ok (.inr made) →
        ∃ batch, made.reverts = some (batch, call.lessonPath) ∧ made.batch.base = world.main ∧
          LeftBy clone world.record batch call.lessonPath
            (clone.regularBlobs world.main call.lessonPath) ∧
          clone.regularBlobs made.commit call.lessonPath =
            clone.regularBlobs batch.base call.lessonPath) ∧
      ∀ later, Run clone casefold branchPrefix (fun kind => kind ≠ .batch ∧ kind ≠ .edit)
          world later →
        (mergedReverts later).length ≤ (changedPaths world.record).length := by
  have atStart : PeeledOnce clone start := by
    constructor
    all_goals simp [noRecord, revertPulls, revertsOf]
  obtain ⟨peeled, -⟩ := peeled_once_run atStart run
  refine ⟨?_, ?_, ?_⟩
  · intro target
    exact (List.length_filter_le _ _).trans (peeled.single target)
  · intro call made answers ok
    obtain ⟨batch, reverts, -, onMain, -, -, left, restored⟩ := revert_restores peeled answers ok
    exact ⟨batch, reverts, onMain, left, restored⟩
  · intro later quiet
    obtain ⟨kept, paths⟩ := peeled_once_run peeled quiet
    rw [← paths fun allowed => allowed.1 rfl]
    exact merged_reverts_bound kept

end Runs

namespace Sample

def lesson : Str := "agent/lessons/a.md"

theorem root_valid : isOid (List.replicate 40 '0') = true := by decide

theorem created_valid : isOid (List.replicate 40 '1') = true := by decide

theorem undone_valid : isOid (List.replicate 40 '2') = true := by decide

theorem text_valid : isOid (List.replicate 40 'e') = true := by decide

def root : Oid := plainOid '0' root_valid

def created : Oid := plainOid '1' created_valid

def undone : Oid := plainOid '2' undone_valid

def text : Oid := plainOid 'e' text_valid

def clone : Clone where
  entryAt commit path := if commit = created ∧ path = lesson then some ⟨true, text⟩ else none
  blob _ := [35]
  hashObject _ := text
  hash_blob := by
    intro commit path entry held _
    split at held
    · cases held
      rfl
    · cases held

def makeCommit (_ : Oid) (changes : List AgentChange) (_ : Str) :
    Except Str (Oid × (Str → Option Oid)) :=
  match changes with
  | [change] =>
    if change.path = lesson then
      match change.content with
      | some _ => .ok (created, fun _ => some text)
      | none => .ok (undone, fun _ => none)
    else .error "git fault"
  | _ => .error "git fault"

def git : GitAnswers := ⟨clone.regularBlobs, makeCommit⟩

theorem git_answers : clone.Answers git := by
  refine ⟨fun _ _ => rfl, ?_⟩
  intro parent changes message commit after answered change among
  change makeCommit parent changes message = .ok (commit, after) at answered
  unfold makeCommit at answered
  split at answered
  · rename_i only
    obtain rfl := List.mem_singleton.mp among
    split at answered
    · rename_i atLesson
      split at answered
      · rename_i content held
        cases answered
        rw [held, atLesson]
        exact ⟨rfl, by decide⟩
      · rename_i held
        cases answered
        rw [held, atLesson]
        exact ⟨rfl, by decide⟩
    · cases answered
  · cases answered

def batch : BatchKey := ⟨"lessons/b1", root, "a"⟩

def createRequest : Request := ⟨git, [⟨lesson, some [35]⟩], "a lesson", none⟩

def createRow : Made := ⟨created, batch, ["lessons"], [⟨lesson, none, some text⟩], none⟩

def revertCall : RevertCall where
  lessonPath := lesson
  lessonName := "a"
  branchToken := "00"
  startToken := "b"
  branchTip := none
  git := git
  movedTo := some undone
  commitsSince := [undone]
  opens := some (7, "pulls/7")

def revertRow : Made :=
  ⟨undone, ⟨"lessons/revert-a-00", created, "b"⟩, ["lessons"], [], some (batch, lesson)⟩

def atStart : World := ⟨[], root, []⟩

def merged : World := ⟨[createRow], created, []⟩

def reverted : World :=
  ⟨[createRow, revertRow], undone, [⟨7, "pulls/7", some undone, .merged⟩]⟩

theorem reverted_runs :
    @Run clone id "lessons/" asciiDatabase (fun _ => True) atStart reverted := by
  let _ : UnicodeDatabase := asciiDatabase
  have ready : @prepare asciiDatabase none ⟨batch, ["lessons"], none⟩ createRequest =
      .ok createRow := rfl
  have called : @revertMade clone id "lessons/" asciiDatabase merged revertCall =
      .ok (.inr revertRow) := rfl
  have fresh (made : Made) (ok : @revertMade clone id "lessons/" asciiDatabase merged revertCall =
      .ok (.inr made)) : FreshId merged made := by
    obtain rfl : revertRow = made := Sum.inr.inj (Except.ok.inj (called.symm.trans ok))
    refine ⟨?_, fun pr among => nomatch among⟩
    intro row among same
    obtain rfl := List.mem_singleton.mp among
    exact absurd same (by decide)
  refine .step (.step (.step (.step .refl trivial (.batchCommit none ⟨batch, ["lessons"], none⟩
    createRequest createRow rfl git_answers ready)) trivial (.mainEdited created)) trivial
    (.reverted revertCall git_answers fresh)) trivial (.decided 7 .merged undone)

/-- The created lesson is reverted and the revert merged. -/
theorem lesson_reverted_once :
    atStart.record = [] ∧ mergedReverts reverted = [⟨7, "pulls/7", some undone, .merged⟩] ∧
      (∀ target,
        ((revertPulls reverted target).filter fun pr => pr.status = .merged).length ≤ 1) ∧
      (mergedReverts reverted).length ≤ (changedPaths reverted.record).length :=
  letI : UnicodeDatabase := asciiDatabase
  have ⟨once, _, bounded⟩ := @reverts_peel_once clone id "lessons/" asciiDatabase atStart reverted
    rfl reverted_runs
  ⟨rfl, by decide, once, bounded reverted .refl⟩

end Sample

end Defender.Learning.Reverts
