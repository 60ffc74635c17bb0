import Defender.Library.Wire
import Defender.Records.SessionTree

/-!
# What an append does

All of it or nothing: the new rows one under another, the first where the append hangs them,
and the session's head on the last. Nothing else of the tree moves.
-/

namespace Defender.Records

open Defender.Python Defender.Library.OrderedDict Defender.Library.ParentChain
open Defender.Library.Wire

section Inserted

variable {store final : Store} {session : Str} {parent : Option Nat} {messages : List Message}
  {ids : List Nat}

def ChainOf (store : Store) (parent : Option Nat) (chain : List Nat) : Prop :=
  match parent with
  | none => chain = []
  | some parent => Lineage store.parentOf parent chain

structure Inserted (store final : Store) (session : Str) (parent : Option Nat)
    (messages : List Message) (ids : List Nat) : Prop where
  sessions : final.sessions = store.sessions
  headLog : final.headLog = store.headLog
  rows : ∃ rows : List MessageRow, final.messages = store.messages ++ rows ∧
    rows.map MessageRow.message = messages ∧ ∀ row ∈ rows, row.session = session
  numbered : ids = List.range' (store.messages.length + 1) messages.length
  older : Older store.parentOf → Older final.parentOf
  grounded : Grounded store → Grounded final
  present : messages ≠ [] → ∀ node, parent = some node → store.IsRow node
  chain : ∀ chain, Older store.parentOf → ChainOf store parent chain →
    ∀ last, ids.getLast? = some last → Lineage final.parentOf last (ids.reverse ++ chain)

theorem inserted_none (store : Store) (session : Str) (parent : Option Nat) :
    Inserted store store session parent [] [] := by
  refine ⟨rfl, rfl, ⟨[], (List.append_nil _).symm, rfl, fun _ none => nomatch none⟩, rfl,
    fun older => older, fun grounded => grounded, fun none => absurd rfl none, ?_⟩
  intro _ _ _ _ none
  cases none

theorem inserted_first {row : MessageRow} {id : Nat}
    (inserted : store.insertMessage row = .ok (final, id)) :
    Inserted store final row.session row.parent [row.message] [id] := by
  unfold Store.insertMessage at inserted
  split at inserted
  · cases inserted
  split at inserted
  · cases inserted
  rename_i present
  split at inserted
  · cases inserted
  cases inserted
  let grown : Store := { store with messages := store.messages ++ [row] }
  have elders : ∀ node, row.parent = some node → store.IsRow node := by
    intro node held
    rw [held, Option.any_some, Bool.not_eq_true, Option.isNone_eq_false_iff,
      Option.isSome_iff_exists] at present
    obtain ⟨elder, found⟩ := present
    exact is_row_of_row found
  have longer : grown.messages = store.messages ++ [row] := rfl
  have newest : grown.row? (store.messages.length + 1) = some row := row_added longer 0
  have newParent : grown.parentOf (store.messages.length + 1) = row.parent := by
    unfold Store.parentOf
    rw [newest]
    rfl
  have same : SameBelow store.messages.length store.parentOf grown.parentOf := parent_grown rfl
  have links : ∀ child elder, grown.parentOf child = some elder →
      (child = store.messages.length + 1 ∧ row.parent = some elder) ∨
        store.parentOf child = some elder := by
    intro child elder link
    have there : grown.IsRow child := by
      apply parent_is_row
      rw [link]
      exact Option.some_ne_none elder
    by_cases fresh : child = store.messages.length + 1
    · rw [fresh] at link
      exact Or.inl ⟨fresh, newParent.symm.trans link⟩
    · have bound : child ≤ store.messages.length := by
        have upper : child ≤ (store.messages ++ [row]).length := there.2
        rw [List.length_append, List.length_singleton] at upper
        omega
      exact Or.inr ((same child bound).symm.trans link)
  refine ⟨rfl, rfl, ⟨[row], rfl, rfl, ?_⟩, rfl, ?_, ?_, fun _ => elders, ?_⟩
  · intro held among
    rw [List.mem_singleton.mp among]
  · intro older child elder link
    rcases links child elder link with ⟨fresh, held⟩ | old
    · exact fresh ▸ Nat.lt_succ_of_le (elders elder held).2
    · exact older child elder old
  · intro grounded child elder link
    rcases links child elder link with ⟨-, held⟩ | old
    · exact (elders elder held).1
    · exact grounded child elder old
  · intro chain older below last found
    obtain rfl := Option.some.inj found
    show Lineage grown.parentOf (store.messages.length + 1)
      ((store.messages.length + 1) :: chain)
    unfold ChainOf at below
    cases held : row.parent with
    | none =>
      rw [held] at below
      rw [below]
      exact .root (newParent.trans held)
    | some node =>
      rw [held] at below
      exact .child (newParent.trans held) (below.grown older same (elders node held).2)

theorem Inserted.onward {next : Store} {first : Message} {rest : List Message} {id : Nat}
    {others : List Nat} (early : Inserted store next session parent [first] [id])
    (late : Inserted next final session (some id) rest others) :
    Inserted store final session parent (first :: rest) (id :: others) := by
  obtain ⟨one, grown, held, named⟩ := early.rows
  obtain ⟨more, further, holds, called⟩ := late.rows
  have single : one.length = 1 := by
    have counted := congrArg List.length held
    simpa using counted
  have placed : id = store.messages.length + 1 := by
    have listed := early.numbered
    simpa using listed
  have length : next.messages.length = store.messages.length + 1 := by
    rw [grown, List.length_append, single]
  refine ⟨late.sessions.trans early.sessions, late.headLog.trans early.headLog, ?_, ?_, ?_, ?_,
    ?_, ?_⟩
  · refine ⟨one ++ more, ?_, ?_, ?_⟩
    · rw [further, grown, List.append_assoc]
    · rw [List.map_append, held, holds]
      rfl
    · intro row among
      rcases List.mem_append.mp among with among | among
      · exact named row among
      · exact called row among
  · rw [late.numbered, length, placed, List.length_cons, List.range'_succ]
  · exact fun older => late.older (early.older older)
  · exact fun grounded => late.grounded (early.grounded grounded)
  · exact fun _ => early.present (List.cons_ne_nil first [])
  · intro chain older below last found
    have middle := early.chain chain older below id rfl
    cases others with
    | nil =>
      obtain rfl := Option.some.inj found
      have none : rest = [] := by
        have counted := congrArg List.length late.numbered
        exact List.eq_nil_of_length_eq_zero (by simpa using counted.symm)
      subst none
      have same : final.messages = next.messages := by
        have empty : more = [] := List.map_eq_nil_iff.mp holds
        rw [further, empty, List.append_nil]
      have parents : final.parentOf = next.parentOf := by
        funext node
        unfold Store.parentOf Store.row?
        rw [same]
      rw [parents]
      exact middle
    | cons other others =>
      have ends : (other :: others).getLast? = some last := by
        rw [← found, List.getLast?_cons_cons]
      have onward := late.chain ([id] ++ chain) (early.older older) middle last ends
      rw [List.reverse_cons (a := id), List.append_assoc]
      exact onward

theorem insert_messages_inserted {call : AppendCall}
    (inserted : Store.insertMessages session call store parent messages = .ok (final, ids)) :
    Inserted store final session parent messages ids := by
  induction messages generalizing store parent ids with
  | nil =>
    cases inserted
    exact inserted_none _ session parent
  | cons first rest ih =>
    unfold Store.insertMessages at inserted
    cases one : store.insertMessage ⟨session, call.agentId, parent,
        call.seq.getD (store.nextSeq session call.agentId call.synthesized), call.synthesized,
        call.stamp, first⟩ with
    | error error =>
      dsimp only at inserted
      rw [one] at inserted
      cases inserted
    | ok made =>
      obtain ⟨next, id⟩ := made
      dsimp only at inserted
      rw [one] at inserted
      cases more : Store.insertMessages session call next (some id) rest with
      | error error =>
        change (Store.insertMessages session call next (some id) rest >>= _) = _ at inserted
        rw [more] at inserted
        cases inserted
      | ok made =>
        change (Store.insertMessages session call next (some id) rest >>= _) = _ at inserted
        rw [more] at inserted
        cases inserted
        exact (inserted_first one).onward (ih more)

end Inserted

section Appended

variable {store next : Store} {session : Str} {first : Option Nat} {messages : List Message}
  {ids : List Nat} {reason : Option MoveReason}

/-- A committed append of some messages, its first row under `first`. -/
structure Appended (store next : Store) (session : Str) (first : Option Nat)
    (reason : Option MoveReason) (messages : List Message) (ids : List Nat) : Prop where
  rows : ∃ rows : List MessageRow, next.messages = store.messages ++ rows ∧
    rows.map MessageRow.message = messages ∧ ∀ row ∈ rows, row.session = session
  numbered : ids = List.range' (store.messages.length + 1) messages.length
  older : Older store.parentOf → Older next.parentOf
  grounded : Grounded store → Grounded next
  present : ∀ node, first = some node → store.IsRow node
  chain : ∀ chain, Older store.parentOf → ChainOf store first chain →
    ∀ last, ids.getLast? = some last → Lineage next.parentOf last (ids.reverse ++ chain)
  head : ∃ last, ids.getLast? = some last ∧ ∀ other,
    next.readHead other = if other = session then some last else store.readHead other
  logged : (first = store.readHead session ∧ next.headLog = store.headLog) ∨
    ∃ move, next.headLog = store.headLog ++ [move] ∧ move.session = session ∧
      move.origin = store.readHead session ∧ ids.getLast? = some move.target
  quiet : reason = none → first = store.readHead session ∧ next.headLog = store.headLog
  marks : ∀ other, next.lastRenderLen other = store.lastRenderLen other

theorem classify_first {parentId prevHead : Option Nat} {synthesized : Bool}
    (classified : store.classifyMove session parentId reason synthesized =
      .ok (prevHead, first)) :
    prevHead = store.readHead session ∧ first = parentId.or (store.readHead session) ∧
      (reason = none → first = store.readHead session) := by
  unfold Store.classifyMove at classified
  obtain ⟨_, -, classified⟩ := except_bind_ok.mp classified
  obtain ⟨_, moves, classified⟩ := except_bind_ok.mp classified
  cases classified
  refine ⟨rfl, rfl, ?_⟩
  rintro rfl
  unfold Store.checkMove at moves
  split at moves
  · rename_i given
    cases given
  · split at moves
    · cases moves
    · rename_i along
      simpa using along

theorem move_head_ok {prevHead attachedTo : Option Nat} {newHead : Nat}
    (moved : store.moveHead session prevHead newHead attachedTo reason = .ok next)
    (held : store.sessions.contains session) :
    next.messages = store.messages ∧
      (∀ other, next.readHead other =
        if other = session then some newHead else store.readHead other) ∧
      ((attachedTo = prevHead ∧ reason = none ∧ next.headLog = store.headLog) ∨
        ∃ kind, reason = some kind ∧ next.headLog =
          store.headLog ++ [⟨session, prevHead, newHead, attachedTo, kind⟩]) ∧
      ∀ other, next.lastRenderLen other = store.lastRenderLen other := by
  obtain ⟨there, found⟩ := Option.isSome_iff_exists.mp held
  unfold Store.moveHead at moved
  rw [found] at moved
  dsimp only at moved
  have heads : ∀ other, ((store.sessions.set session { there with head := some newHead }).get?
      other).bind Session.head = if other = session then some newHead
        else store.readHead other := by
    intro other
    rw [Dict.get_set]
    by_cases same : session = other
    · rw [if_pos same, if_pos same.symm]
      rfl
    · rw [if_neg same, if_neg (Ne.symm same)]
      rfl
  have marks : ∀ other, ((store.sessions.set session { there with head := some newHead }).get?
      other).bind Session.lastRenderLen = store.lastRenderLen other := by
    intro other
    rw [Dict.get_set]
    split
    · rename_i same
      unfold Store.lastRenderLen
      rw [← same, found]
      rfl
    · rfl
  split at moved
  · cases kind : reason with
    | none =>
      rw [kind] at moved
      cases moved
    | some given =>
      rw [kind] at moved
      cases moved
      exact ⟨rfl, heads, Or.inr ⟨given, rfl, rfl⟩, marks⟩
  · rename_i quiet
    cases moved
    rw [not_or, not_not] at quiet
    refine ⟨rfl, heads, Or.inl ⟨quiet.1, ?_, rfl⟩, marks⟩
    simpa using quiet.2

theorem insert_messages_session {call : AppendCall} {first : Option Nat}
    (inserted : Store.insertMessages session call store first messages = .ok (next, ids))
    (some : messages ≠ []) : store.sessions.contains session := by
  obtain ⟨message, rest, rfl⟩ := List.exists_cons_of_ne_nil some
  unfold Store.insertMessages at inserted
  obtain ⟨⟨made, id⟩, one, -⟩ := except_bind_ok.mp inserted
  unfold Store.insertMessage at one
  split at one
  · cases one
  · rename_i present
    simpa using present

theorem transact_appended {call : AppendCall} (some : messages ≠ [])
    (done : store.transact session messages call reason = .ok (next, ids)) :
    Appended store next session (call.parentId.or (store.readHead session)) reason messages
      ids := by
  unfold Store.transact at done
  obtain ⟨⟨prevHead, first⟩, classified, done⟩ := except_bind_ok.mp done
  obtain ⟨rfl, rfl, along⟩ := classify_first classified
  obtain ⟨⟨grown, made⟩, inserting, done⟩ := except_bind_ok.mp done
  have held := insert_messages_session inserting some
  have inserted := insert_messages_inserted inserting
  have heads : ∀ other, grown.readHead other = store.readHead other := by
    intro other
    unfold Store.readHead
    rw [inserted.sessions]
  have marks : ∀ other, grown.lastRenderLen other = store.lastRenderLen other := by
    intro other
    unfold Store.lastRenderLen
    rw [inserted.sessions]
  cases ends : made.getLast? with
  | none =>
    have empty : made = [] := List.getLast?_eq_none_iff.mp ends
    have counted := congrArg List.length inserted.numbered
    rw [empty] at counted
    exact absurd (List.eq_nil_of_length_eq_zero (by simpa using counted.symm)) some
  | some last =>
    dsimp only at done
    rw [ends] at done
    obtain ⟨moved, moving, done⟩ := except_bind_ok.mp done
    cases done
    rw [← inserted.sessions] at held
    obtain ⟨rows, readHeads, logged, lens⟩ := move_head_ok moving held
    have parents : next.parentOf = grown.parentOf := by
      funext id
      unfold Store.parentOf Store.row?
      rw [rows]
    rw [inserted.headLog] at logged
    refine ⟨?_, inserted.numbered, ?_, ?_, inserted.present some, ?_, ⟨last, ends, ?_⟩, ?_, ?_,
      ?_⟩
    · rw [rows]
      exact inserted.rows
    · rw [parents]
      exact inserted.older
    · unfold Grounded
      rw [parents]
      exact inserted.grounded
    · rw [parents]
      exact inserted.chain
    · intro other
      rw [readHeads, heads]
    · rcases logged with ⟨same, -, log⟩ | ⟨kind, -, log⟩
      · exact Or.inl ⟨same, log⟩
      · exact Or.inr ⟨_, log, rfl, rfl, ends⟩
    · rintro rfl
      refine ⟨along rfl, ?_⟩
      rcases logged with ⟨-, -, log⟩ | ⟨kind, given, -⟩
      · exact log
      · cases given
    · intro other
      rw [lens, marks]

/-- An append leaves the store as it was, or commits its messages. -/
theorem append_cases (store : Store) (session : Str) (messages : List Message)
    (call : AppendCall) (fault : Option AppendFault) :
    ((store.append session messages call fault).1 = store ∧
        ((store.append session messages call fault).2 = .ok [] ∧ messages = [] ∨
          ∃ error, (store.append session messages call fault).2 = .error error)) ∨
      ∃ reason ids, validateReason call.reason = .ok reason ∧
        Appended store (store.append session messages call fault).1 session
          (call.parentId.or (store.readHead session)) reason messages ids ∧
        ((fault = none ∧ (store.append session messages call fault).2 = .ok ids) ∨
          ∃ error, fault = some (.afterCommit error) ∧
            (store.append session messages call fault).2 = .error error) := by
  unfold Store.append
  cases valid : validateReason call.reason with
  | error error => exact Or.inl ⟨rfl, Or.inr ⟨error, rfl⟩⟩
  | ok reason =>
    dsimp only
    split
    · rename_i empty
      exact Or.inl ⟨rfl, Or.inl ⟨rfl, empty⟩⟩
    · rename_i some
      split
      · exact Or.inl ⟨rfl, Or.inr ⟨_, rfl⟩⟩
      · cases done : store.transact session messages call reason with
        | error error => exact Or.inl ⟨rfl, Or.inr ⟨error, rfl⟩⟩
        | ok written =>
          have appended := transact_appended some done
          cases fault with
          | none => exact Or.inr ⟨reason, written.2, rfl, appended, Or.inl ⟨rfl, rfl⟩⟩
          | some fault =>
            cases fault with
            | beforeCommit error => exact Or.inl ⟨rfl, Or.inr ⟨error, rfl⟩⟩
            | afterCommit error =>
              exact Or.inr ⟨reason, written.2, rfl, appended, Or.inr ⟨error, rfl, rfl⟩⟩

end Appended

end Defender.Records
