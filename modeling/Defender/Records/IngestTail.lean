import Defender.Records.MessagesKept

/-!
# What an ingest appends

An append under a session's head is refused by nothing but a fault, and lengthens the path by
its message. The loop over a tail lengthens it by the messages before its first fault, and by
the one whose commit the fault followed.
-/

namespace Defender.Records

open Defender.Python Defender.Library.OrderedDict Defender.Library.ParentChain
open Defender.Library.Wire

section Along

variable {store next final : Store} {session : Str} {added more : List Message}

/-- The session's path grew by these messages, in rows of its own, and nothing else changed. -/
structure Along (store next : Store) (session : Str) (added : List Message) : Prop where
  sound : Sound next
  known : next.sessions.contains session
  rows : ∃ rows : List MessageRow, next.messages = store.messages ++ rows ∧
    rows.map MessageRow.message = added
  path : ∀ ids, PathOf store session ids →
    PathOf next session (ids ++ List.range' (store.messages.length + 1) added.length)
  headLog : next.headLog = store.headLog
  marks : ∀ other, next.lastRenderLen other = store.lastRenderLen other

theorem along_refl (sound : Sound store) (known : store.sessions.contains session) :
    Along store store session [] := by
  refine ⟨sound, known, ⟨[], (List.append_nil _).symm, rfl⟩, ?_, rfl, fun _ => rfl⟩
  intro ids path
  rw [List.length_nil, List.range'_zero, List.append_nil]
  exact path

theorem Along.length (along : Along store next session added) :
    next.messages.length = store.messages.length + added.length := by
  obtain ⟨rows, grown, held⟩ := along.rows
  rw [grown, List.length_append, ← held, List.length_map]

theorem Along.trans (early : Along store next session added) (late : Along next final session more) :
    Along store final session (added ++ more) := by
  obtain ⟨one, grown, held⟩ := early.rows
  obtain ⟨two, further, holds⟩ := late.rows
  refine ⟨late.sound, late.known, ⟨one ++ two, ?_, ?_⟩, ?_, late.headLog.trans early.headLog, ?_⟩
  · rw [further, grown, List.append_assoc]
  · rw [List.map_append, held, holds]
  · intro ids path
    have onward := late.path _ (early.path ids path)
    rw [early.length, List.append_assoc] at onward
    rw [List.length_append, ← List.range'_append_1, Nat.add_right_comm]
    exact onward
  · exact fun other => (late.marks other).trans (early.marks other)

theorem Appended.known {first : Option Nat} {reason : Option MoveReason} {messages : List Message}
    {ids : List Nat} (appended : Appended store next session first reason messages ids) :
    next.sessions.contains session := by
  obtain ⟨last, -, heads⟩ := appended.head
  have held := heads session
  rw [if_pos rfl] at held
  unfold Store.readHead at held
  unfold Dict.contains
  cases found : next.sessions.get? session with
  | none =>
    rw [found] at held
    cases held
  | some there => rfl

theorem Appended.along {message : Message} {ids : List Nat}
    (appended : Appended store next session (store.readHead session) none [message] ids)
    (sound : Sound store) : Along store next session [message] := by
  obtain ⟨last, ends, heads⟩ := appended.head
  have numbered : ids = [store.messages.length + 1] := appended.numbered
  refine ⟨appended.sound sound, appended.known, ?_, ?_, (appended.quiet rfl).2, appended.marks⟩
  · obtain ⟨rows, grown, held, -⟩ := appended.rows
    exact ⟨rows, grown, held⟩
  · intro path walked
    unfold PathOf at walked ⊢
    have below : ChainOf store (store.readHead session) path.reverse := by
      cases found : store.readHead session with
      | none =>
        rw [found] at walked
        rw [walked]
        rfl
      | some head =>
        rw [found] at walked
        exact walked
    have further := appended.chain path.reverse sound.older below last ends
    rw [heads, if_pos rfl, List.reverse_append]
    rw [numbered] at further
    exact further

end Along

section Commits

variable {store : Store} {session : Str}

theorem le_foldl_max (rest : List Int) (first : Int) :
    ∀ seq ∈ first :: rest, seq ≤ rest.foldl max first := by
  induction rest generalizing first with
  | nil =>
    intro seq among
    rw [List.mem_singleton.mp among]
    exact le_refl first
  | cons next others ih =>
    intro seq among
    rw [List.foldl_cons]
    rcases List.mem_cons.mp among with rfl | among
    · exact (le_max_left seq next).trans (ih _ _ List.mem_cons_self)
    · rcases List.mem_cons.mp among with rfl | among
      · exact (le_max_right first seq).trans (ih _ _ List.mem_cons_self)
      · exact ih _ seq (List.mem_cons_of_mem _ among)

theorem next_seq_free (store : Store) (session agentId : Str) (synthesized : Bool) :
    store.nextSeq session agentId synthesized ∉ store.seqsOf session agentId synthesized := by
  unfold Store.nextSeq
  intro among
  split at among
  · rename_i empty
    rw [empty] at among
    cases among
  · rename_i first rest shape
    rw [shape] at among
    have bound := le_foldl_max rest first _ among
    omega

theorem transact_along (sound : Sound store) (known : store.sessions.contains session)
    (message : Message) (agentId : Str) (stamp : Option Stamp) :
    ∃ next ids, store.transact session [message]
      (Store.tailCall agentId (store.readHead session) stamp) none = .ok (next, ids) := by
  have first : (store.readHead session).or (store.readHead session) = store.readHead session := by
    cases store.readHead session with
    | none => rfl
    | some head => rfl
  have parent : store.checkParent session (store.readHead session) = .ok () := by
    unfold Store.checkParent
    cases found : store.readHead session with
    | none =>
      have rowless : store.sessionHasRows session = false := by
        unfold Store.sessionHasRows
        rw [List.any_eq_false]
        intro row among named
        obtain ⟨place, held⟩ := List.mem_iff_getElem?.mp among
        have row? : store.row? (place + 1) = some row := held
        obtain ⟨head, there⟩ := sound.headed (place + 1) row row?
        rw [beq_iff_eq.mp named, found] at there
        cases there
      dsimp only
      rw [if_neg (by simpa using rowless)]
    | some head =>
      obtain ⟨chain, lineage⟩ := sound.older.lineage head
      dsimp only
      rw [walk_parents_lineage sound.older (sound.heads session head found) lineage]
      rfl
  have classified : store.classifyMove session (store.readHead session) none false =
      .ok (store.readHead session, store.readHead session) := by
    unfold Store.classifyMove
    dsimp only
    rw [first, parent, beq_self_eq_true]
    rfl
  let row : MessageRow := ⟨session, agentId, store.readHead session,
    store.nextSeq session agentId false, false, stamp, message⟩
  let next : Store := { store with messages := store.messages ++ [row] }
  have inserted : store.insertMessage row = .ok (next, store.messages.length + 1) := by
    unfold Store.insertMessage
    rw [if_neg (by simpa using known)]
    have present : (store.readHead session).any (fun head => (store.row? head).isNone) = false := by
      cases found : store.readHead session with
      | none => rfl
      | some head =>
        obtain ⟨held, there⟩ := row_of_is_row (sound.heads session head found)
        rw [Option.any_some, there]
        rfl
    dsimp only [row]
    rw [if_neg (by simpa using present), if_neg]
    simpa using next_seq_free store session agentId false
  obtain ⟨there, found⟩ := Option.isSome_iff_exists.mp known
  let ahead : Session := { there with head := some (store.messages.length + 1) }
  let headed : Store := { next with sessions := store.sessions.set session ahead }
  have moved : next.moveHead session (store.readHead session) (store.messages.length + 1)
      (store.readHead session) none = .ok headed := by
    have same : next.sessions.get? session = some there := found
    unfold Store.moveHead
    rw [same]
    exact if_neg (by simp)
  refine ⟨headed, [store.messages.length + 1], ?_⟩
  unfold Store.transact Store.tailCall
  dsimp only
  rw [classified]
  change (Store.insertMessages session _ store (store.readHead session) [message] >>= _) = _
  have single : Store.insertMessages session
      ⟨agentId, store.readHead session, false, none, stamp, none⟩ store
      (store.readHead session) [message] = .ok (next, [store.messages.length + 1]) := by
    unfold Store.insertMessages
    change (store.insertMessage row >>= _) = _
    rw [inserted]
    rfl
  rw [single]
  change (next.moveHead session (store.readHead session) (store.messages.length + 1)
    (store.readHead session) none >>= _) = _
  rw [moved]
  rfl

/-- An append under the head does what its fault lets it. -/
theorem append_along (sound : Sound store) (known : store.sessions.contains session)
    (message : Message) (agentId : Str) (stamp : Option Stamp) (fault : Option AppendFault) :
    ∃ next, Along store next session [message] ∧
      next.readHead session = some (store.messages.length + 1) ∧
      store.append session [message] (Store.tailCall agentId (store.readHead session) stamp) fault =
        match fault with
        | none => (next, .ok [store.messages.length + 1])
        | some (.beforeCommit error) => (store, .error error)
        | some (.afterCommit error) => (next, .error error) := by
  obtain ⟨next, ids, done⟩ := transact_along sound known message agentId stamp
  have appended := transact_appended (List.cons_ne_nil message []) done
  have first : (store.readHead session).or (store.readHead session) = store.readHead session := by
    cases store.readHead session with
    | none => rfl
    | some head => rfl
  have placed : (Store.tailCall agentId (store.readHead session) stamp).parentId.or
      (store.readHead session) = store.readHead session := first
  rw [placed] at appended
  have numbered : ids = [store.messages.length + 1] := appended.numbered
  refine ⟨next, appended.along sound, ?_, ?_⟩
  · obtain ⟨last, ends, heads⟩ := appended.head
    rw [heads, if_pos rfl, ← ends, numbered]
    rfl
  · unfold Store.append
    have valid : validateReason (Store.tailCall agentId (store.readHead session) stamp).reason =
        .ok none := rfl
    rw [valid]
    dsimp only
    rw [if_neg (List.cons_ne_nil message []), if_neg (by simp [Store.tailCall]), done, numbered]
    cases fault with
    | none => rfl
    | some fault =>
      cases fault with
      | beforeCommit error => rfl
      | afterCommit error => rfl

end Commits

section Tails

variable {store : Store} {session : Str}

/-- How many of the messages the loop commits. -/
def committedOf (answers : Nat → Option AppendFault) : Nat → Nat → Nat
  | _, 0 => 0
  | place, count + 1 =>
    match answers place with
    | none => committedOf answers (place + 1) count + 1
    | some (.beforeCommit _) => 0
    | some (.afterCommit _) => 1

/-- The fault the loop stops at. -/
def faultOf (answers : Nat → Option AppendFault) : Nat → Nat → Option AppendFault
  | _, 0 => none
  | place, count + 1 => (answers place).or (faultOf answers (place + 1) count)

theorem append_tail_along {agentId : Str} {answers : Nat → Option AppendFault}
    (messages : List Message) (sound : Sound store) (known : store.sessions.contains session)
    (place : Nat) {parent : Option Nat} (tip : parent = store.readHead session)
    (stamp : Option Stamp) :
    ∃ next, Along store next session
        (messages.take (committedOf answers place messages.length)) ∧
      Store.appendTail session agentId answers place store parent stamp messages =
        (next, match faultOf answers place messages.length with
          | none => .ok (List.range' (store.messages.length + 1) messages.length)
          | some fault => .error fault.error) := by
  induction messages generalizing store place parent stamp with
  | nil => exact ⟨store, along_refl sound known, rfl⟩
  | cons message rest ih =>
    subst tip
    obtain ⟨next, along, head, written⟩ := append_along sound known message agentId
      (if message.kind = .request then stamp else none) (answers place)
    unfold Store.appendTail
    dsimp only
    rw [written]
    cases answer : answers place with
    | some fault =>
      cases fault with
      | beforeCommit error =>
        refine ⟨store, ?_, ?_⟩
        · simp only [List.length_cons, committedOf, answer, List.take_zero]
          exact along_refl sound known
        · simp only [List.length_cons, faultOf, answer, Option.some_or]
          rfl
      | afterCommit error =>
        refine ⟨next, ?_, ?_⟩
        · simp only [List.length_cons, committedOf, answer, List.take_succ_cons, List.take_zero]
          exact along
        · simp only [List.length_cons, faultOf, answer, Option.some_or]
          rfl
    | none =>
      obtain ⟨final, further, ended⟩ := ih along.sound along.known (place + 1) head.symm
        (if message.kind = .request then none else stamp)
      refine ⟨final, ?_, ?_⟩
      · simp only [List.length_cons, committedOf, answer, List.take_succ_cons]
        exact along.trans further
      · dsimp only [List.head?_cons]
        rw [ended]
        simp only [List.length_cons, faultOf, answer, Option.none_or, along.length]
        cases faultOf answers (place + 1) rest.length with
        | none => rfl
        | some fault => rfl

end Tails

end Defender.Records
