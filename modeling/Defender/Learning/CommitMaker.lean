import Defender.Learning.CommitRecord

/-!
# Runs of the commit-maker

A call prepares the commit, appends its row, and only then moves the branch; it
may be broken off after any part of the row. A row that starts on the remains of
another is not read, so what holds over runs is that every commit is on the
record whose append found a whole last line.
-/

namespace Defender.Learning

open Defender.Python Defender.Filesystem Defender.Library.OrderedDict

section Commit

structure AgentChange where
  path : Str
  content : Option (List UInt8)

/-- Where the commit-maker commits for one batch. -/
structure Line where
  batch : BatchKey
  lanes : List Str
  tip : Option Oid
deriving DecidableEq

/-- What the batch's next commit builds on. -/
def Line.head (line : Line) : Oid := line.tip.getD line.batch.base

def inLanes (path : Str) (lanes : List Str) : Bool :=
  let below := (splitOn '/' path).tail
  (lanes.map (splitOn '/')).any fun parts =>
    below.length > parts.length && below.take parts.length == parts

/-- What git answers during one call. -/
structure GitAnswers where
  regularBlobs : Oid → Str → Option Oid
  makeCommit : Oid → List AgentChange → Str → Except Str (Oid × (Str → Option Oid))

structure Request where
  git : GitAnswers
  changeSet : List AgentChange
  text : Str
  reverts : Option (BatchKey × Str)

def shownTip (absent : Str) (tip : Option Oid) : Str := (tip.map Subtype.val).getD absent

variable [UnicodeDatabase]

/-- Everything `commit` checks and makes before it records. -/
def prepare (tip : Option Oid) (line : Line) (request : Request) : Except Str Made :=
  if strip request.text = [] then .error "a commit needs a message"
  else if request.changeSet.isEmpty then
    .error "the change set is empty: there is nothing to commit"
  else
    match request.changeSet.find? fun change => !inLanes change.path line.lanes with
    | some change => .error (message [reprText change.path, " is outside the lanes ",
        reprList line.lanes, ": no change may carry it"])
    | none =>
        if tip ≠ line.tip then
          .error (message ["the branch ", line.batch.branch, " is at ", shownTip "nothing" tip,
            ", not the commit-maker's last commit ", shownTip "(none yet)" line.tip,
            ": it builds on nothing it did not make"])
        else
          match request.changeSet.find? fun change => change.content.isNone &&
              (request.git.regularBlobs line.head change.path).isNone with
          | some change => .error (message [change.path, " is not a file ", line.head.1,
              " holds: it cannot be deleted"])
          | none =>
              (request.git.makeCommit line.head request.changeSet request.text).map
                fun (commit, after) =>
                  { commit, batch := line.batch, lanes := line.lanes, reverts := request.reverts
                    changes := if request.reverts.isSome then [] else
                      request.changeSet.map fun change =>
                        ⟨change.path, request.git.regularBlobs line.batch.base change.path,
                          after change.path⟩ }

end Commit

section World

/-- The record, the clone and the lines in memory. `placed` lists the commits that
`move_branch` put on a batch's branch. -/
structure World where
  record : Str
  branches : Dict Str Oid
  parents : Dict Oid Oid
  lines : List Line
  placed : List (BatchKey × Oid)

def World.initial : World := ⟨[], .empty, .empty, [], []⟩

/-- How far a call got once its commit was made. -/
inductive Reached where
  | brokenOff (written : Nat)
  | moved

inductive Action where
  | start (batch : BatchKey) (lanes : List Str)
  | forget (line : Line)
  | commit (line : Line) (request : Request) (reached : Reached)

variable [UnicodeDatabase]

/-- The call's commit: an id that names another commit's content is none git answers. -/
def preparedIn (world : World) (line : Line) (request : Request) : Option Made :=
  match prepare (world.branches.get? line.batch.branch) line request with
  | .error _ => none
  | .ok made =>
      if ((world.parents.get? made.commit).all fun parent => parent == line.head) then some made
      else none

def World.broken (world : World) (line : Line) (made : Made) (written : Nat) : World :=
  { world with
    record := world.record ++ (recordLine made).take written
    parents := world.parents.set made.commit line.head }

def World.moved (world : World) (line : Line) (made : Made) : World :=
  { record := world.record ++ recordLine made
    branches := world.branches.set line.batch.branch made.commit
    parents := world.parents.set made.commit line.head
    lines := { line with tip := some made.commit } :: world.lines.erase line
    placed := (line.batch, made.commit) :: world.placed }

def step (world : World) : Action → World
  | .start batch lanes => { world with lines := ⟨batch, lanes, none⟩ :: world.lines }
  | .forget line => { world with lines := world.lines.erase line }
  | .commit line request reached =>
      if line ∈ world.lines then
        match preparedIn world line request, reached with
        | none, _ => world
        | some made, .brokenOff written => world.broken line made written
        | some made, .moved => world.moved line made
      else world

def run (world : World) (actions : List Action) : World := actions.foldl step world

/-- The commits of a branch past a base: the commit-maker's have one parent each. -/
def walkBack (parents : Dict Oid Oid) (base : Oid) : Nat → Oid → List Oid
  | 0, _ => []
  | rounds + 1, tip =>
      if tip = base then []
      else tip :: ((parents.get? tip).map (walkBack parents base rounds)).getD []

def commitsSince (world : World) (base tip : Oid) : List Oid :=
  walkBack world.parents base (world.parents.keys.length + 1) tip

/-- `_deliver` refuses a branch with a commit not on the record for the batch. -/
def refusesForeign (world : World) (record : List Made) (batch : BatchKey) (tip : Oid) : Bool :=
  tip ≠ batch.base &&
    let sent := commitsSince world batch.base tip
    (sent.any fun commit => !(commitsOf record batch).contains commit) || sent.isEmpty

def EndsWhole (record : Str) : Prop := record = [] ∨ ∃ earlier, record = earlier ++ ['\n']

def AppendsWhole (world : World) : Action → Prop
  | .commit line request .moved =>
      line ∈ world.lines → (preparedIn world line request).isSome → EndsWhole world.record
  | _ => True

def WholeRun : World → List Action → Prop
  | _, [] => True
  | world, action :: rest => AppendsWhole world action ∧ WholeRun (step world action) rest

end World

section Invariant

theorem ends_whole_iff (record : Str) :
    (record.getLast?.all fun last => last == '\n') = true ↔ EndsWhole record := by
  unfold EndsWhole
  rcases List.eq_nil_or_concat record with rfl | ⟨earlier, last, rfl⟩
  · simp
  · simp

instance (record : Str) : Decidable (EndsWhole record) := decidable_of_iff _ (ends_whole_iff record)

def OnOwnLine (record : Str) (made : Made) : Prop :=
  ∃ before after, record = before ++ (recordLine made ++ after) ∧ EndsWhole before

structure Recorded (world : World) : Prop where
  feedsOnly : '\r' ∉ world.record
  tips : ∀ line ∈ world.lines, ∀ tip ∈ line.tip, (line.batch, tip) ∈ world.placed
  rows : ∀ entry ∈ world.placed, ∃ made : Made, made.batch = entry.1 ∧ made.commit = entry.2 ∧
    OnOwnLine world.record made
  chained : ∀ entry ∈ world.placed, ∃ parent, world.parents.get? entry.2 = some parent ∧
    (parent = entry.1.base ∨ (entry.1, parent) ∈ world.placed)

theorem record_line_feeds (made : Made) : '\r' ∉ recordLine made := by
  intro inside
  rcases List.mem_append.mp inside with inRow | feed
  · exact absurd (Json.dumps_printable _ (Json.plain_spelled _ (made_row_plain made)) _ inRow) (by decide)
  · simp at feed

theorem on_own_line_append {record : Str} {made : Made} (held : OnOwnLine record made)
    (more : Str) : OnOwnLine (record ++ more) made := by
  obtain ⟨before, after, rfl, whole⟩ := held
  exact ⟨before, after ++ more, by simp, whole⟩

theorem parents_stored {parents : Dict Oid Oid} {commit parent : Oid}
    (addressed : ∀ known ∈ parents.get? commit, known = parent) {other known : Oid}
    (stored : parents.get? other = some known) :
    (parents.set commit parent).get? other = some known := by
  by_cases same : commit = other
  · subst same
    rw [Dict.get_set, if_pos rfl, addressed known stored]
  · rw [Dict.get_set_of_ne _ _ same, stored]

theorem recorded_initial : Recorded World.initial := by
  refine ⟨?_, ?_, ?_, ?_⟩
  · simp [World.initial]
  · simp [World.initial]
  · simp [World.initial]
  · simp [World.initial]

theorem walk_back_placed {world : World} (recorded : Recorded world) {batch : BatchKey} (rounds : Nat) {tip : Oid}
    (placed : (batch, tip) ∈ world.placed) :
    ∀ commit ∈ walkBack world.parents batch.base rounds tip, (batch, commit) ∈ world.placed := by
  induction rounds generalizing tip with
  | zero => simp [walkBack]
  | succ rounds ih =>
      intro commit inside
      unfold walkBack at inside
      split at inside
      · contradiction
      · obtain ⟨parent, stored, follows⟩ := recorded.chained _ placed
        rw [stored] at inside
        rcases List.mem_cons.mp inside with rfl | further
        · exact placed
        · rcases follows with atBase | before
          · rw [Option.map_some, Option.getD_some, atBase] at further
            cases rounds with
            | zero => simp [walkBack] at further
            | succ rounds => simp [walkBack] at further
          · exact ih before commit further

variable [UnicodeDatabase] {world : World} {line : Line} {request : Request} {made : Made}

/-- What a prepared commit carries, with git's answer. -/
theorem prepare_made {tip : Option Oid} (ready : prepare tip line request = .ok made) :
    ∃ commit after,
      request.git.makeCommit line.head request.changeSet request.text = .ok (commit, after) ∧
      made = { commit, batch := line.batch, lanes := line.lanes, reverts := request.reverts
               changes := if request.reverts.isSome then [] else
                 request.changeSet.map fun change =>
                   ⟨change.path, request.git.regularBlobs line.batch.base change.path,
                     after change.path⟩ } := by
  unfold prepare at ready
  split at ready
  · contradiction
  split at ready
  · contradiction
  split at ready
  · contradiction
  split at ready
  · contradiction
  split at ready
  · contradiction
  cases answered : request.git.makeCommit line.head request.changeSet request.text with
  | error refusal =>
      rw [answered] at ready
      contradiction
  | ok answer =>
      rw [answered] at ready
      cases ready
      exact ⟨answer.1, answer.2, rfl, rfl⟩

theorem prepare_batch {tip : Option Oid} (ready : prepare tip line request = .ok made) :
    made.batch = line.batch := by
  obtain ⟨commit, after, -, rfl⟩ := prepare_made ready
  rfl

theorem prepared_batch (prepared : preparedIn world line request = some made) :
    made.batch = line.batch ∧
      ∀ known ∈ world.parents.get? made.commit, known = line.head := by
  unfold preparedIn at prepared
  cases ready : prepare (world.branches.get? line.batch.branch) line request with
  | error refusal =>
      rw [ready] at prepared
      contradiction
  | ok answer =>
      rw [ready] at prepared
      dsimp only at prepared
      split at prepared
      · rename_i addressed
        obtain rfl := Option.some.inj prepared
        refine ⟨prepare_batch ready, ?_⟩
        intro known stored
        rw [Option.mem_def.mp stored] at addressed
        exact eq_of_beq addressed
      · contradiction

theorem recorded_broken (recorded : Recorded world)
    (prepared : preparedIn world line request = some made) (written : Nat) :
    Recorded (world.broken line made written) := by
  obtain ⟨_, addressed⟩ := prepared_batch prepared
  refine ⟨?_, recorded.tips, ?_, ?_⟩
  · intro inside
    rcases List.mem_append.mp inside with before | torn
    · exact recorded.feedsOnly before
    · exact record_line_feeds made (List.mem_of_mem_take torn)
  · intro entry inside
    obtain ⟨row, batch, commit, own⟩ := recorded.rows entry inside
    exact ⟨row, batch, commit, on_own_line_append own _⟩
  · intro entry inside
    obtain ⟨parent, stored, follows⟩ := recorded.chained entry inside
    exact ⟨parent, parents_stored addressed stored, follows⟩

theorem recorded_moved (recorded : Recorded world) (live : line ∈ world.lines)
    (prepared : preparedIn world line request = some made) (whole : EndsWhole world.record) :
    Recorded (world.moved line made) := by
  obtain ⟨batch, addressed⟩ := prepared_batch prepared
  refine ⟨?_, ?_, ?_, ?_⟩
  · intro inside
    rcases List.mem_append.mp inside with before | row
    · exact recorded.feedsOnly before
    · exact record_line_feeds made row
  · intro other inside tip atTip
    rcases List.mem_cons.mp inside with rfl | earlier
    · obtain rfl := Option.mem_some_iff.mp atTip
      exact List.mem_cons_self
    · exact List.mem_cons_of_mem _ (recorded.tips other (List.mem_of_mem_erase earlier) tip atTip)
  · intro entry inside
    rcases List.mem_cons.mp inside with rfl | earlier
    · exact ⟨made, batch, rfl, world.record, [], by simp [World.moved], whole⟩
    · obtain ⟨row, sameBatch, sameCommit, own⟩ := recorded.rows entry earlier
      exact ⟨row, sameBatch, sameCommit, on_own_line_append own _⟩
  · intro entry inside
    rcases List.mem_cons.mp inside with rfl | earlier
    · refine ⟨line.head, by simp [World.moved], ?_⟩
      cases tip : line.tip with
      | none =>
          left
          simp [Line.head, tip]
      | some last =>
          right
          have head : line.head = last := by simp [Line.head, tip]
          rw [head]
          exact List.mem_cons_of_mem _ (recorded.tips line live last tip)
    · obtain ⟨parent, stored, follows⟩ := recorded.chained entry earlier
      refine ⟨parent, parents_stored addressed stored, ?_⟩
      rcases follows with base | placed
      · exact .inl base
      · exact .inr (List.mem_cons_of_mem _ placed)

theorem recorded_step (recorded : Recorded world) {action : Action}
    (whole : AppendsWhole world action) : Recorded (step world action) := by
  cases action with
  | start batch lanes =>
      refine ⟨recorded.feedsOnly, ?_, recorded.rows, recorded.chained⟩
      intro other inside tip atTip
      rcases List.mem_cons.mp inside with rfl | earlier
      · simp at atTip
      · exact recorded.tips other earlier tip atTip
  | forget line =>
      refine ⟨recorded.feedsOnly, ?_, recorded.rows, recorded.chained⟩
      exact fun other inside => recorded.tips other (List.mem_of_mem_erase inside)
  | commit line request reached =>
      unfold step
      dsimp only
      by_cases live : line ∈ world.lines
      · rw [if_pos live]
        cases prepared : preparedIn world line request with
        | none => exact recorded
        | some made =>
            cases reached with
            | brokenOff written => exact recorded_broken recorded prepared written
            | moved => exact recorded_moved recorded live prepared (whole live (by simp [prepared]))
      · rw [if_neg live]
        exact recorded

theorem recorded_run (recorded : Recorded world) {actions : List Action}
    (whole : WholeRun world actions) : Recorded (run world actions) := by
  induction actions generalizing world with
  | nil => exact recorded
  | cons action rest ih => exact ih (recorded_step recorded whole.1) whole.2

/-- In every run whose appends find a whole last line before a branch moves, each commit
put on a batch's branch is on the record for that batch, and the branch is not refused. -/
theorem whole_run_delivers (actions : List Action) (whole : WholeRun World.initial actions)
    (small : byteLength (run World.initial actions).record ≤ readLimit) :
    ∃ record, readRecord (run World.initial actions).record = some record ∧
      ∀ batch commit, (batch, commit) ∈ (run World.initial actions).placed →
        commit ∈ commitsOf record batch ∧
          refusesForeign (run World.initial actions) record batch commit = false := by
  have recorded := recorded_run recorded_initial whole
  generalize run World.initial actions = world at recorded small
  refine ⟨_, by rw [readRecord, if_neg (by omega)], ?_⟩
  have onRecord : ∀ batch commit, (batch, commit) ∈ world.placed → commit ∈
      commitsOf ((jsonlRowsOf (decodedText world.record)).1.filterMap parseMade) batch := by
    intro batch commit placed
    obtain ⟨made, sameBatch, sameCommit, before, after, split, starts⟩ := recorded.rows _ placed
    have read := recorded.feedsOnly
    rw [split] at read small ⊢
    obtain ⟨record, found, inside⟩ := recorded_line_read made starts read small
    rw [readRecord, if_neg (by omega)] at found
    cases found
    refine List.mem_map.mpr ⟨made, List.mem_filter.mpr ⟨inside, ?_⟩, sameCommit⟩
    simpa using sameBatch
  intro batch commit placed
  refine ⟨onRecord batch commit placed, ?_⟩
  unfold refusesForeign
  by_cases atBase : commit = batch.base
  · simp [atBase]
  · have sent : ∀ other ∈ commitsSince world batch.base commit, other ∈
        commitsOf ((jsonlRowsOf (decodedText world.record)).1.filterMap parseMade) batch :=
      fun other inside => onRecord batch other (walk_back_placed recorded _ placed other inside)
    have some : commitsSince world batch.base commit ≠ [] := by
      simp [commitsSince, walkBack, atBase]
    simpa [atBase, some] using sent

end Invariant

section Runs

/-- An id of forty equal digits. -/
def plainOid (digit : Char) (valid : isOid (List.replicate 40 digit) = true) : Oid :=
  ⟨List.replicate 40 digit, valid⟩

def firstBatch : BatchKey := ⟨"learning/first", plainOid '0' (by decide), "a"⟩

def secondBatch : BatchKey := ⟨"learning/second", plainOid '0' (by decide), "b"⟩

def lessonRequest (commit : Oid) : Request where
  git := ⟨fun _ _ => none, fun _ _ _ => .ok (commit, fun _ => some (plainOid 'e' (by decide)))⟩
  changeSet := [⟨"agent/lessons/new.md", some [35]⟩]
  text := "a lesson"
  reverts := none

def lessonLine (batch : BatchKey) : Line := ⟨batch, ["lessons"], none⟩

def lessonCall (batch : BatchKey) (commit : Oid) (reached : Reached) : Action :=
  .commit (lessonLine batch) (lessonRequest commit) reached

/-- One process ends before its commit's row, the next after the whole row and before its branch
moves; then a commit of each batch reaches its branch. -/
def wholeActions : List Action :=
  [.start firstBatch ["lessons"], lessonCall firstBatch (plainOid '1' (by decide)) (.brokenOff 0),
    .forget (lessonLine firstBatch), .start firstBatch ["lessons"],
    lessonCall firstBatch (plainOid '2' (by decide)) (.brokenOff 1000),
    .forget (lessonLine firstBatch), .start firstBatch ["lessons"],
    lessonCall firstBatch (plainOid '3' (by decide)) .moved, .start secondBatch ["lessons"],
    lessonCall secondBatch (plainOid '4' (by decide)) .moved]

theorem whole_actions_deliver :
    @WholeRun asciiDatabase World.initial wholeActions ∧
      byteLength (@run asciiDatabase World.initial wholeActions).record ≤ readLimit ∧
      (jsonlRowsOf (decodedText (@run asciiDatabase World.initial wholeActions).record)).1.length = 3 ∧
      ∃ record, readRecord (@run asciiDatabase World.initial wholeActions).record = some record ∧
        ∀ batch commit, (batch, commit) ∈ (@run asciiDatabase World.initial wholeActions).placed →
          commit ∈ commitsOf record batch ∧
            refusesForeign (@run asciiDatabase World.initial wholeActions) record batch commit =
              false :=
  have whole : @WholeRun asciiDatabase World.initial wholeActions :=
    ⟨trivial, trivial, trivial, trivial, trivial, trivial, trivial,
      fun _ _ => by decide +kernel, trivial, fun _ _ => by decide +kernel, trivial⟩
  have small : byteLength (@run asciiDatabase World.initial wholeActions).record ≤ readLimit := by
    decide +kernel
  ⟨whole, small, by decide +kernel, @whole_run_delivers asciiDatabase wholeActions whole small⟩

/-- The first batch's row is broken off after one character, the second batch's commit
reaches its branch. -/
def tornActions : List Action :=
  [.start firstBatch ["lessons"],
    lessonCall firstBatch (plainOid '1' (by decide)) (.brokenOff 1),
    .start secondBatch ["lessons"], lessonCall secondBatch (plainOid '2' (by decide)) .moved]

/-- The commit on the second branch is not on the record, and the branch is refused. -/
theorem torn_row_hides_next_commit :
    (secondBatch, plainOid '2' (by decide)) ∈
        (@run asciiDatabase World.initial tornActions).placed ∧
      readRecord (@run asciiDatabase World.initial tornActions).record = some [] ∧
      refusesForeign (@run asciiDatabase World.initial tornActions) [] secondBatch
        (plainOid '2' (by decide)) = true := by
  decide +kernel

end Runs

end Defender.Learning
