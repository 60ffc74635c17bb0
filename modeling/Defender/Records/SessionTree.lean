import Defender.Library.ParentChain
import Defender.Records.SessionStore

/-!
# The message tree

Every row's parent is an earlier row, so the parent links have no cycle. A row of a session is
on the path to its head, or to a tip that a move of its head displaced and logged; every
operation keeps it so.

A fold mints one frontier row for each boundary, under the session's root. An ingest appends
what a live list holds past the length of the last render, and a render hands out the send
view of the session's path.
-/

namespace Defender.Records

open Defender.Python Defender.Library.OrderedDict Defender.Library.ParentChain

/-- The text of a frontier: given, or composed when the row is minted, with what is done once
it has landed. -/
inductive FoldText where
  | placeholder
  | given (text : Str)
  | composed (made : Except StoreError Str) (landed : Option StoreError)

namespace Store

variable (store : Store) (session agentId : Str)

def frontierRow (boundary : Int) : Option Nat :=
  (store.messages.findIdx? fun row => row.session == session && row.agentId == agentId &&
    row.synthesized && row.seq == boundary).map (· + 1)

def composedText (boundary : Int) : FoldText → Except StoreError Str
  | .placeholder => .ok (message ["FRONTIER: fold boundary ", showInt boundary])
  | .given text => .ok text
  | .composed made _ => made

def landedAction : FoldText → Option StoreError
  | .composed _ landed => landed
  | _ => none

def frontierMessage (text : Str) (runId conversationId : Option Str) : Message :=
  ⟨.request, [.userPrompt text], runId, conversationId⟩

def foldRoot : Except StoreError Nat := do
  let ids ← store.pathRowIds session
  match ids with
  | [] => .error (.storeAppend (message ["cannot fold a session whose path is empty: there is ",
      "no row for the frontier to parent onto"]))
  | root :: _ =>
    if (store.row? root).map MessageRow.session = some session then .ok root
    else .error (.storeAppend (message ["a fold refuses to parent its frontier onto a row ",
      "belonging to another session — the folding session's own lineage root must be its own ",
      "row"]))

def fold (boundary : Option Int) (runId conversationId : Option Str) (text : FoldText)
    (fault : Option AppendFault) : Store × Except StoreError Nat :=
  match boundary with
  | none => (store, .error (.value (message ["boundary is required; selection.fold no longer ",
      "defaults it from the session's own row count"])))
  | some boundary =>
    match store.frontierRow session agentId boundary with
    | some id => (store, .ok id)
    | none =>
      match store.foldRoot session, composedText boundary text with
      | .error error, _ => (store, .error error)
      | .ok _, .error error => (store, .error error)
      | .ok root, .ok content =>
        let call : AppendCall := ⟨agentId, some root, true, some boundary, none, some "fold"⟩
        match store.append session [frontierMessage content runId conversationId] call fault with
        | (next, .error error) => (next, .error error)
        | (next, .ok ids) =>
          match landedAction text with
          | some error => (next, .error error)
          | none => (next, .ok (ids.headD 0))

end Store

namespace Store

def currentTip (store : Store) (session : Str) : Except StoreError (Option Nat) := do
  let ids ← store.pathRowIds session
  .ok ids.getLast?

def takeStamp (store : Store) (session : Str) : Store × Option Stamp :=
  ({ store with pendingStamps := store.pendingStamps.erase session },
    store.pendingStamps.get? session)

/-- The append of a live message. -/
def tailCall (agentId : Str) (parent : Option Nat) (stamp : Option Stamp) : AppendCall :=
  ⟨agentId, parent, false, none, stamp, none⟩

def appendTail (session agentId : Str) (answers : Nat → Option AppendFault) :
    Nat → Store → Option Nat → Option Stamp → List Message → Store × Except StoreError (List Nat)
  | _, store, _, _, [] => (store, .ok [])
  | place, store, parent, stamp, message :: rest =>
    let used := if message.kind = .request then stamp else none
    let left := if message.kind = .request then none else stamp
    match store.append session [message] (tailCall agentId parent used) (answers place) with
    | (next, .error error) => (next, .error error)
    | (next, .ok ids) =>
      match appendTail session agentId answers (place + 1) next ids.head? left rest with
      | (final, .error error) => (final, .error error)
      | (final, .ok more) => (final, .ok (ids ++ more))

/-- Append what the live list holds past the last render. What befalls the write of the mark
and each append is given. -/
def ingest (store : Store) (session agentId : Str) (live : List Message)
    (marking : Option StoreError) (answers : Nat → Option AppendFault) :
    Store × Except StoreError (List Nat) :=
  let last := (store.lastRenderLen session).getD 0
  if live.length < last then
    (store, .error (.ingestTailUnderflow (message ["live has ", decimalText live.length,
      " message(s), shorter than the last render (", decimalText last, ")"])))
  else
    let tail := live.drop last
    match marking with
    | some error => (store, .error error)
    | none =>
      let marked := store.setLastRenderLen session live.length
      if tail = [] then (marked, .ok [])
      else
        match marked.currentTip session with
        | .error error => (marked, .error error)
        | .ok parent =>
          let (taken, stamp) := marked.takeStamp session
          taken.appendTail session agentId answers 0 parent stamp tail

end Store

/-- A fold before the render. -/
structure Folding where
  boundary : Option Int
  text : FoldText
  fault : Option AppendFault

structure Rendering where
  agentId : Str
  folding : Option Folding
  runStep : Option Int
  durationMs : Option Str
  runId : Option Str
  conversationId : Option Str
  marking : Option StoreError

namespace Store

variable (wireDigest : List Message → Str)

def foldFirst (store : Store) (session : Str) (call : Rendering) : Store × Except StoreError Unit :=
  match call.folding with
  | none => (store, .ok ())
  | some folding =>
    match store.fold session call.agentId folding.boundary call.runId call.conversationId
        folding.text folding.fault with
    | (folded, .error error) => (folded, .error error)
    | (folded, .ok _) => (folded, .ok ())

def render (store : Store) (session : Str) (call : Rendering) :
    Store × Except StoreError (List Message) :=
  match store.foldFirst session call with
  | (folded, .error error) => (folded, .error error)
  | (folded, .ok _) =>
    match folded.hydrate session .send, call.marking with
    | .error error, _ => (folded, .error error)
    | .ok _, some error => (folded, .error error)
    | .ok rendered, none =>
      let marked := folded.setLastRenderLen session rendered.length
      match call.runStep with
      | none => (marked, .ok rendered)
      | some step =>
        let stamp : Stamp := ⟨step, call.durationMs, wireDigest rendered⟩
        ({ marked with pendingStamps := marked.pendingStamps.set session stamp }, .ok rendered)

end Store

section Runs

inductive Operation where
  | newSession (session agentId : Str)
  | fork (session : Str) (atMessage : Nat) (fresh : Str)
  | append (session : Str) (messages : List Message) (call : AppendCall)
      (fault : Option AppendFault)
  | fold (session agentId : Str) (boundary : Option Int) (runId conversationId : Option Str)
      (text : FoldText) (fault : Option AppendFault)
  | ingest (session agentId : Str) (live : List Message) (marking : Option StoreError)
      (answers : Nat → Option AppendFault)
  | render (session : Str) (call : Rendering)
  | setLastRenderLen (session : Str) (length : Nat)

def orAsItWas (store : Store) : Except StoreError Store → Store
  | .ok next => next
  | .error _ => store

variable (wireDigest : List Message → Str)

def perform (store : Store) : Operation → Store
  | .newSession session agentId => orAsItWas store (store.newSession session agentId)
  | .fork session atMessage fresh => orAsItWas store (store.fork session atMessage fresh)
  | .append session messages call fault => (store.append session messages call fault).1
  | .fold session agentId boundary runId conversationId text fault =>
    (store.fold session agentId boundary runId conversationId text fault).1
  | .ingest session agentId live marking answers =>
    (store.ingest session agentId live marking answers).1
  | .render session call => (store.render wireDigest session call).1
  | .setLastRenderLen session length => store.setLastRenderLen session length

def Reachable (store : Store) : Prop :=
  ∃ operations : List Operation, operations.foldl (perform wireDigest) .empty = store

end Runs

section Rows

variable {store next : Store} {id : Nat} {row : MessageRow}

def Store.IsRow (store : Store) (id : Nat) : Prop := 1 ≤ id ∧ id ≤ store.messages.length

theorem is_row_of_row (found : store.row? id = some row) : store.IsRow id := by
  cases id with
  | zero => cases found
  | succ place =>
    obtain ⟨bound, -⟩ := List.getElem?_eq_some_iff.mp found
    exact ⟨Nat.succ_le_succ (Nat.zero_le place), bound⟩

theorem row_of_is_row (there : store.IsRow id) : ∃ row, store.row? id = some row := by
  cases id with
  | zero => exact absurd there.1 (by decide)
  | succ place => exact ⟨_, List.getElem?_eq_getElem there.2⟩

theorem row_grown {rows : List MessageRow} (grown : next.messages = store.messages ++ rows)
    (below : id ≤ store.messages.length) : next.row? id = store.row? id := by
  cases id with
  | zero => rfl
  | succ place =>
    unfold Store.row?
    dsimp only
    rw [grown, List.getElem?_append_left below]

theorem row_added {rows : List MessageRow} (grown : next.messages = store.messages ++ rows)
    (place : Nat) : next.row? (store.messages.length + 1 + place) = rows[place]? := by
  have shape : store.messages.length + 1 + place = (store.messages.length + place) + 1 := by omega
  unfold Store.row?
  rw [shape]
  dsimp only
  rw [grown, List.getElem?_append_right (Nat.le_add_right _ _), Nat.add_sub_cancel_left]

theorem parent_grown {rows : List MessageRow} (grown : next.messages = store.messages ++ rows) :
    SameBelow store.messages.length store.parentOf next.parentOf := by
  intro id below
  unfold Store.parentOf
  rw [row_grown grown below]

theorem parent_is_row (found : store.parentOf id ≠ none) : store.IsRow id := by
  cases held : store.row? id with
  | none =>
    unfold Store.parentOf at found
    rw [held] at found
    exact absurd rfl found
  | some row => exact is_row_of_row held

end Rows

section Walk

variable {store : Store}

theorem walk_from_lineage (older : Older store.parentOf) {current : Nat} {chain : List Nat}
    (lineage : Lineage store.parentOf current chain) {fuel : Nat} (enough : current < fuel)
    {seen : List Nat} (fresh : ∀ id ∈ seen, current < id) :
    store.walkFrom fuel seen current = .ok chain := by
  induction lineage generalizing fuel seen with
  | root last =>
    obtain ⟨less, rfl⟩ := Nat.exists_eq_succ_of_ne_zero (Nat.ne_of_gt (Nat.zero_lt_of_lt enough))
    unfold Store.walkFrom
    rw [if_neg fun among => Nat.lt_irrefl _ (fresh _ among), last]
  | @child node elder rest link further ih =>
    obtain ⟨less, rfl⟩ := Nat.exists_eq_succ_of_ne_zero (Nat.ne_of_gt (Nat.zero_lt_of_lt enough))
    have lower := older node elder link
    have onward : store.walkFrom less (node :: seen) elder = .ok rest := by
      refine ih (Nat.lt_of_lt_of_le lower (Nat.le_of_lt_succ enough)) ?_
      intro id among
      rcases List.mem_cons.mp among with rfl | among
      · exact lower
      · exact Nat.lt_trans lower (fresh id among)
    unfold Store.walkFrom
    rw [if_neg fun among => Nat.lt_irrefl _ (fresh _ among), link]
    dsimp only
    rw [onward]
    rfl

theorem walk_parents_lineage (older : Older store.parentOf) {tip : Nat} {chain : List Nat}
    (there : store.IsRow tip) (lineage : Lineage store.parentOf tip chain) :
    store.walkParents tip = .ok chain :=
  walk_from_lineage older lineage (Nat.lt_succ_of_le there.2) (fun _ none => nomatch none)

theorem walk_from_head {fuel : Nat} {seen : List Nat} {tip : Nat} {ids : List Nat}
    (walked : store.walkFrom fuel seen tip = .ok ids) : tip ∈ ids := by
  cases fuel with
  | zero => cases walked
  | succ fuel =>
    unfold Store.walkFrom at walked
    split at walked
    · cases walked
    · split at walked
      · cases walked
        exact List.mem_cons_self
      · cases onward : store.walkFrom fuel (tip :: seen) ‹Nat› with
        | error error =>
          rw [onward] at walked
          cases walked
        | ok rest =>
          rw [onward] at walked
          cases walked
          exact List.mem_cons_self

end Walk

section Sound

def Tip (store : Store) (session : Str) (tip : Nat) : Prop :=
  store.readHead session = some tip ∨
    ∃ move ∈ store.headLog, move.session = session ∧ move.origin = some tip

/-- Every parent is a row's id. -/
def Grounded (store : Store) : Prop :=
  ∀ child elder, store.parentOf child = some elder → 1 ≤ elder

structure Sound (store : Store) : Prop where
  older : Older store.parentOf
  grounded : Grounded store
  heads : ∀ session head, store.readHead session = some head → store.IsRow head
  origins : ∀ move ∈ store.headLog, ∀ tip, move.origin = some tip → store.IsRow tip
  targets : ∀ move ∈ store.headLog, store.IsRow move.target
  kept : ∀ id row, store.row? id = some row →
    ∃ tip, Tip store row.session tip ∧ Ancestor store.parentOf tip id
  headed : ∀ id row, store.row? id = some row → ∃ head, store.readHead row.session = some head

variable {store next : Store} {session : Str}

theorem Sound.tip_is_row (sound : Sound store) {tip : Nat} (among : Tip store session tip) :
    store.IsRow tip := by
  rcases among with head | ⟨move, logged, -, origin⟩
  · exact sound.heads session tip head
  · exact sound.origins move logged tip origin

theorem sound_empty : Sound .empty := by
  have rowless : ∀ id, Store.row? .empty id = none := by
    intro id
    cases id with
    | zero => rfl
    | succ place => rfl
  have parentless : ∀ id, Store.parentOf .empty id = none := by
    intro id
    unfold Store.parentOf
    rw [rowless]
    rfl
  refine ⟨?_, ?_, ?_, ?_, ?_, ?_, ?_⟩
  · intro child elder link
    rw [parentless] at link
    cases link
  · intro child elder link
    rw [parentless] at link
    cases link
  · exact fun _ _ none => nomatch none
  · exact fun _ none => nomatch none
  · exact fun _ none => nomatch none
  · intro id row found
    rw [rowless] at found
    cases found
  · intro id row found
    rw [rowless] at found
    cases found

/-- The rows, the moves and the heads as they were. -/
structure SameTree (store next : Store) : Prop where
  messages : next.messages = store.messages
  headLog : next.headLog = store.headLog
  heads : ∀ session, next.readHead session = store.readHead session

theorem SameTree.row (same : SameTree store next) (id : Nat) : next.row? id = store.row? id := by
  unfold Store.row?
  rw [same.messages]

theorem SameTree.parent (same : SameTree store next) : next.parentOf = store.parentOf := by
  funext id
  unfold Store.parentOf
  rw [same.row]

theorem SameTree.tip (same : SameTree store next) (session : Str) (tip : Nat) :
    Tip next session tip ↔ Tip store session tip := by
  unfold Tip
  rw [same.headLog, same.heads]

theorem SameTree.sound (same : SameTree store next) (sound : Sound store) : Sound next := by
  have rows : ∀ id, next.IsRow id ↔ store.IsRow id := by
    intro id
    unfold Store.IsRow
    rw [same.messages]
  refine ⟨?_, ?_, ?_, ?_, ?_, ?_, ?_⟩
  · rw [same.parent]
    exact sound.older
  · unfold Grounded
    rw [same.parent]
    exact sound.grounded
  · intro session head found
    rw [same.heads] at found
    exact (rows head).mpr (sound.heads session head found)
  · intro move logged tip origin
    rw [same.headLog] at logged
    exact (rows tip).mpr (sound.origins move logged tip origin)
  · intro move logged
    rw [same.headLog] at logged
    exact (rows _).mpr (sound.targets move logged)
  · intro id row found
    rw [same.row] at found
    obtain ⟨tip, among, reached⟩ := sound.kept id row found
    rw [same.parent]
    exact ⟨tip, (same.tip _ tip).mpr among, reached⟩
  · intro id row found
    rw [same.row] at found
    rw [same.heads]
    exact sound.headed id row found

theorem set_last_render_len_same (store : Store) (session : Str) (length : Nat) :
    SameTree store (store.setLastRenderLen session length) := by
  unfold Store.setLastRenderLen
  split
  · exact ⟨rfl, rfl, fun _ => rfl⟩
  · rename_i held found
    refine ⟨rfl, rfl, ?_⟩
    intro other
    unfold Store.readHead
    dsimp only
    rw [Dict.get_set]
    split
    · rename_i same
      rw [← same, found]
      rfl
    · rfl

def PathOf (store : Store) (session : Str) (ids : List Nat) : Prop :=
  match store.readHead session with
  | none => ids = []
  | some head => Lineage store.parentOf head ids.reverse

theorem Sound.path (sound : Sound store) (session : Str) : ∃ ids, PathOf store session ids := by
  unfold PathOf
  cases store.readHead session with
  | none => exact ⟨[], rfl⟩
  | some head =>
    obtain ⟨chain, lineage⟩ := sound.older.lineage head
    exact ⟨chain.reverse, by rw [List.reverse_reverse]; exact lineage⟩

theorem Sound.path_row_ids (sound : Sound store) {ids : List Nat}
    (path : PathOf store session ids) : store.pathRowIds session = .ok ids := by
  unfold PathOf at path
  unfold Store.pathRowIds
  cases found : store.readHead session with
  | none =>
    rw [found] at path
    rw [path]
  | some head =>
    rw [found] at path
    dsimp only at path ⊢
    rw [walk_parents_lineage sound.older (sound.heads session head found) path]
    show Except.ok ids.reverse.reverse = Except.ok ids
    rw [List.reverse_reverse]

theorem SameTree.path (same : SameTree store next) {ids : List Nat} :
    PathOf next session ids ↔ PathOf store session ids := by
  unfold PathOf
  rw [same.heads, same.parent]

end Sound

end Defender.Records
