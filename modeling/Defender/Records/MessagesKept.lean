import Defender.Records.SessionGrowth

/-!
# No stored message is lost

Every operation keeps the tree sound: a move along the head lengthens its path, and a move off
it logs the tip it displaced. A fold that mints its frontier leaves the root and the frontier.
-/

namespace Defender.Records

open Defender.Python Defender.Library.OrderedDict Defender.Library.ParentChain
open Defender.Library.Wire

section Appends

variable {store next : Store} {session : Str} {first : Option Nat} {messages : List Message}
  {ids : List Nat} {reason : Option MoveReason}

theorem Appended.length (appended : Appended store next session first reason messages ids) :
    next.messages.length = store.messages.length + messages.length := by
  obtain ⟨rows, grown, held, -⟩ := appended.rows
  rw [grown, List.length_append, ← held, List.length_map]

theorem Appended.is_row (appended : Appended store next session first reason messages ids)
    {id : Nat} (there : store.IsRow id) : next.IsRow id := by
  refine ⟨there.1, ?_⟩
  rw [appended.length]
  exact there.2.trans (Nat.le_add_right _ _)

theorem Appended.new_id (appended : Appended store next session first reason messages ids)
    {id : Nat} : id ∈ ids ↔ store.messages.length < id ∧ id ≤ next.messages.length := by
  rw [appended.numbered, List.mem_range'_1, appended.length]
  omega

theorem Appended.same_below (appended : Appended store next session first reason messages ids) :
    SameBelow store.messages.length store.parentOf next.parentOf := by
  obtain ⟨rows, grown, -⟩ := appended.rows
  exact parent_grown grown

theorem Appended.row_session (appended : Appended store next session first reason messages ids)
    {id : Nat} (fresh : id ∈ ids) {row : MessageRow} (found : next.row? id = some row) :
    row.session = session := by
  obtain ⟨rows, grown, -, named⟩ := appended.rows
  obtain ⟨lower, -⟩ := appended.new_id.mp fresh
  obtain ⟨place, rfl⟩ := Nat.exists_eq_add_of_lt lower
  rw [show store.messages.length + place + 1 = store.messages.length + 1 + place by omega,
    row_added grown] at found
  exact named row (List.mem_of_getElem? found)

theorem Appended.old_row (appended : Appended store next session first reason messages ids)
    {id : Nat} (there : store.IsRow id) : next.row? id = store.row? id := by
  obtain ⟨rows, grown, -⟩ := appended.rows
  exact row_grown grown there.2

theorem Appended.row_before (appended : Appended store next session first reason messages ids)
    {id : Nat} {row : MessageRow} (found : next.row? id = some row) (old : id ∉ ids) :
    store.row? id = some row := by
  have bound := is_row_of_row found
  rw [← found]
  refine (appended.old_row ⟨bound.1, ?_⟩).symm
  by_contra beyond
  exact old (appended.new_id.mpr ⟨by omega, bound.2⟩)

/-- The tips of before are tips still, or on the way to the new head. -/
theorem Appended.tip (appended : Appended store next session first reason messages ids)
    (sound : Sound store) {other : Str} {tip : Nat} (among : Tip store other tip) :
    ∃ later, Tip next other later ∧ Ancestor next.parentOf later tip := by
  obtain ⟨last, ends, heads⟩ := appended.head
  have kept : ∀ move ∈ store.headLog, move ∈ next.headLog := by
    intro move logged
    rcases appended.logged with ⟨-, log⟩ | ⟨added, log, -⟩
    · rw [log]
      exact logged
    · rw [log]
      exact List.mem_append_left _ logged
  rcases among with head | ⟨move, logged, named, origin⟩
  · by_cases same : other = session
    · subst same
      rcases appended.logged with ⟨along, -⟩ | ⟨move, log, named, origin, -⟩
      · -- a linear move: the old head is the parent of the first new row
        have elder : first = some tip := along.trans head
        obtain ⟨chain, lineage⟩ := sound.older.lineage tip
        have below : ChainOf store first chain := by
          rw [elder]
          exact lineage
        have further := appended.chain chain sound.older below last ends
        refine ⟨last, Or.inl ((heads other).trans (if_pos rfl)), further.mem_iff.mp ?_⟩
        exact List.mem_append_right _ (List.mem_of_head? lineage.head)
      · refine ⟨tip, Or.inr ⟨move, ?_, named, origin.trans head⟩, Relation.ReflTransGen.refl⟩
        rw [log]
        exact List.mem_append_right _ (List.mem_singleton.mpr rfl)
    · exact ⟨tip, Or.inl (((heads other).trans (if_neg same)).trans head),
        Relation.ReflTransGen.refl⟩
  · exact ⟨tip, Or.inr ⟨move, kept move logged, named, origin⟩, Relation.ReflTransGen.refl⟩

theorem Appended.sound (appended : Appended store next session first reason messages ids)
    (sound : Sound store) : Sound next := by
  obtain ⟨last, ends, heads⟩ := appended.head
  have lastNew : last ∈ ids := List.mem_of_getLast? ends
  have lastRow : next.IsRow last := by
    obtain ⟨lower, upper⟩ := appended.new_id.mp lastNew
    exact ⟨Nat.one_le_of_lt lower, upper⟩
  have oldTip : ∀ other tip, Tip store other tip → next.IsRow tip :=
    fun other tip among => appended.is_row (sound.tip_is_row among)
  refine ⟨appended.older sound.older, appended.grounded sound.grounded, ?_, ?_, ?_, ?_, ?_⟩
  · intro other head found
    rw [heads] at found
    split at found
    · exact Option.some.inj found ▸ lastRow
    · exact appended.is_row (sound.heads other head found)
  · intro move logged tip origin
    rcases appended.logged with ⟨-, log⟩ | ⟨added, log, -, displaced, -⟩
    · rw [log] at logged
      exact appended.is_row (sound.origins move logged tip origin)
    · rw [log] at logged
      rcases List.mem_append.mp logged with logged | logged
      · exact appended.is_row (sound.origins move logged tip origin)
      · rw [List.mem_singleton.mp logged] at origin
        exact oldTip session tip (Or.inl (displaced.symm.trans origin))
  · intro move logged
    rcases appended.logged with ⟨-, log⟩ | ⟨added, log, -, -, target⟩
    · rw [log] at logged
      exact appended.is_row (sound.targets move logged)
    · rw [log] at logged
      rcases List.mem_append.mp logged with logged | logged
      · exact appended.is_row (sound.targets move logged)
      · rw [List.mem_singleton.mp logged]
        obtain rfl := Option.some.inj (ends.symm.trans target)
        exact lastRow
  · intro id row found
    by_cases fresh : id ∈ ids
    · rw [appended.row_session fresh found]
      refine ⟨last, Or.inl ((heads session).trans (if_pos rfl)), ?_⟩
      obtain ⟨chain, below⟩ : ∃ chain, ChainOf store first chain := by
        cases first with
        | none => exact ⟨[], rfl⟩
        | some elder => exact sound.older.lineage elder
      refine (appended.chain chain sound.older below last ends).mem_iff.mp ?_
      exact List.mem_append_left _ (List.mem_reverse.mpr fresh)
    · obtain ⟨tip, among, reached⟩ := sound.kept id row (appended.row_before found fresh)
      obtain ⟨later, still, further⟩ := appended.tip sound among
      have grown := reached.grown sound.older appended.same_below (sound.tip_is_row among).2
      exact ⟨later, still, Relation.ReflTransGen.trans further grown⟩
  · intro id row found
    rw [heads]
    by_cases same : row.session = session
    · exact ⟨last, if_pos same⟩
    · rw [if_neg same]
      by_cases fresh : id ∈ ids
      · exact absurd (appended.row_session fresh found) same
      · exact sound.headed id row (appended.row_before found fresh)

theorem append_sound (sound : Sound store) (session : Str) (messages : List Message)
    (call : AppendCall) (fault : Option AppendFault) :
    Sound (store.append session messages call fault).1 := by
  rcases append_cases store session messages call fault with
    ⟨same, -⟩ | ⟨reason, ids, -, appended, -⟩
  · rw [same]
    exact sound
  · exact appended.sound sound

end Appends

section Operations

variable {store : Store}

theorem new_session_sound (sound : Sound store) {session agentId : Str} {next : Store}
    (opened : store.newSession session agentId = .ok next) : Sound next := by
  unfold Store.newSession at opened
  split at opened
  · cases opened
  rename_i fresh
  cases opened
  have headless : store.readHead session = none := by
    unfold Store.readHead
    have absent : store.sessions.get? session = none := by
      unfold Dict.contains at fresh
      simpa using fresh
    rw [absent]
    rfl
  have same : SameTree store { store with
      sessions := store.sessions.set session ⟨none, some agentId, none, none⟩ } := by
    refine ⟨rfl, rfl, ?_⟩
    intro other
    unfold Store.readHead
    dsimp only
    rw [Dict.get_set]
    split
    · rename_i same
      rw [← same]
      exact headless.symm
    · rfl
  exact same.sound sound

theorem fork_sound (sound : Sound store) {session fresh : Str} {atMessage : Nat} {next : Store}
    (forked : store.fork session atMessage fresh = .ok next) : Sound next := by
  unfold Store.fork at forked
  obtain ⟨walked, walk, forked⟩ := except_bind_ok.mp forked
  obtain ⟨_, resolved, forked⟩ := except_bind_ok.mp forked
  have there : store.IsRow atMessage := by
    have among : atMessage ∈ walked.reverse := List.mem_reverse.mpr (walk_from_head walk)
    unfold Store.requireResolved at resolved
    dsimp only at resolved
    split at resolved
    · rename_i complete
      have held := List.filter_eq_nil_iff.mp complete atMessage among
      rw [Bool.not_eq_true, Option.isNone_eq_false_iff, Option.isSome_iff_exists] at held
      obtain ⟨row, found⟩ := held
      exact is_row_of_row found
    · cases resolved
  split at forked
  · cases forked
  rename_i source _
  split at forked
  · cases forked
  rename_i unknown
  have headless : store.readHead fresh = none := by
    unfold Store.readHead
    have absent : store.sessions.get? fresh = none := by
      unfold Dict.contains at unknown
      simpa using unknown
    rw [absent]
    rfl
  cases forked
  have heads : ∀ other, Store.readHead { store with
      sessions := store.sessions.set fresh
        ⟨some session, source.agentId, some atMessage, some walked.length⟩
      headLog := store.headLog ++ [⟨fresh, none, atMessage, none, .fork⟩] } other =
      if fresh = other then some atMessage else store.readHead other := by
    intro other
    unfold Store.readHead
    dsimp only
    rw [Dict.get_set]
    split
    · rfl
    · rfl
  refine ⟨sound.older, sound.grounded, ?_, ?_, ?_, ?_, ?_⟩
  · intro other head found
    rw [heads] at found
    split at found
    · exact Option.some.inj found ▸ there
    · exact sound.heads other head found
  · intro move logged tip origin
    rcases List.mem_append.mp logged with logged | logged
    · exact sound.origins move logged tip origin
    · rw [List.mem_singleton.mp logged] at origin
      cases origin
  · intro move logged
    rcases List.mem_append.mp logged with logged | logged
    · exact sound.targets move logged
    · rw [List.mem_singleton.mp logged]
      exact there
  · intro id row found
    obtain ⟨tip, among, reached⟩ := sound.kept id row found
    refine ⟨tip, ?_, reached⟩
    rcases among with head | ⟨move, logged, named, origin⟩
    · left
      rw [heads]
      split
      · rename_i same
        rw [← same, headless] at head
        cases head
      · exact head
    · exact Or.inr ⟨move, List.mem_append_left _ logged, named, origin⟩
  · intro id row found
    obtain ⟨head, held⟩ := sound.headed id row found
    rw [heads]
    split
    · exact ⟨atMessage, rfl⟩
    · exact ⟨head, held⟩

theorem fold_sound (sound : Sound store) (session agentId : Str) (boundary : Option Int)
    (runId conversationId : Option Str) (text : FoldText) (fault : Option AppendFault) :
    Sound (store.fold session agentId boundary runId conversationId text fault).1 := by
  unfold Store.fold
  cases boundary with
  | none => exact sound
  | some boundary =>
    dsimp only
    cases store.frontierRow session agentId boundary with
    | some id => exact sound
    | none =>
      dsimp only
      cases store.foldRoot session with
      | error error => exact sound
      | ok root =>
        cases Store.composedText boundary text with
        | error error => exact sound
        | ok content =>
          have kept := append_sound sound session
            [Store.frontierMessage content runId conversationId]
            ⟨agentId, some root, true, some boundary, none, some "fold"⟩ fault
          dsimp only
          split
          · rename_i _ next _ written
            rw [written] at kept
            exact kept
          · rename_i _ next _ written
            rw [written] at kept
            split
            · exact kept
            · exact kept

theorem append_tail_sound {session agentId : Str} {answers : Nat → Option AppendFault}
    (messages : List Message) (sound : Sound store) (place : Nat) (parent : Option Nat)
    (stamp : Option Stamp) :
    Sound (Store.appendTail session agentId answers place store parent stamp messages).1 := by
  induction messages generalizing store place parent stamp with
  | nil => exact sound
  | cons first rest ih =>
    have kept := append_sound sound session [first]
      (Store.tailCall agentId parent (if first.kind = .request then stamp else none))
      (answers place)
    unfold Store.appendTail
    dsimp only
    split
    · rename_i next error written
      rw [written] at kept
      exact kept
    · rename_i next ids written
      rw [written] at kept
      have further := ih kept (place + 1) ids.head?
        (if first.kind = .request then none else stamp)
      split
      · rename_i final error ended
        rw [ended] at further
        exact further
      · rename_i final more ended
        rw [ended] at further
        exact further

theorem ingest_sound (sound : Sound store) (session agentId : Str) (live : List Message)
    (marking : Option StoreError) (answers : Nat → Option AppendFault) :
    Sound (store.ingest session agentId live marking answers).1 := by
  have marked := (set_last_render_len_same store session live.length).sound sound
  unfold Store.ingest
  dsimp only
  split
  · exact sound
  · cases marking with
    | some error => exact sound
    | none =>
      dsimp only
      split
      · exact marked
      · split
        · exact marked
        · have taken : SameTree (store.setLastRenderLen session live.length)
              ((store.setLastRenderLen session live.length).takeStamp session).1 :=
            ⟨rfl, rfl, fun _ => rfl⟩
          exact append_tail_sound _ (taken.sound marked) 0 _ _

theorem fold_first_sound (sound : Sound store) (session : Str) (call : Rendering) :
    Sound (store.foldFirst session call).1 := by
  unfold Store.foldFirst
  cases call.folding with
  | none => exact sound
  | some folding =>
    have kept := fold_sound sound session call.agentId folding.boundary call.runId
      call.conversationId folding.text folding.fault
    dsimp only
    split
    · rename_i next error done
      rw [done] at kept
      exact kept
    · rename_i next id done
      rw [done] at kept
      exact kept

theorem render_sound (wireDigest : List Message → Str) (sound : Sound store) (session : Str)
    (call : Rendering) : Sound (store.render wireDigest session call).1 := by
  have folded := fold_first_sound sound session call
  unfold Store.render
  split
  · rename_i next error done
    rw [done] at folded
    exact folded
  · rename_i next _ done
    rw [done] at folded
    split
    · exact folded
    · exact folded
    · rename_i rendered _ _
      have marked := (set_last_render_len_same next session rendered.length).sound folded
      dsimp only
      cases call.runStep with
      | none => exact marked
      | some step =>
        have stamped : SameTree (next.setLastRenderLen session rendered.length)
            { next.setLastRenderLen session rendered.length with
              pendingStamps := (next.setLastRenderLen session rendered.length).pendingStamps.set
                session ⟨step, call.durationMs, wireDigest rendered⟩ } :=
          ⟨rfl, rfl, fun _ => rfl⟩
        exact stamped.sound marked

theorem or_as_it_was_sound (sound : Sound store) {result : Except StoreError Store}
    (done : ∀ next, result = .ok next → Sound next) : Sound (orAsItWas store result) := by
  cases result with
  | error error => exact sound
  | ok next => exact done next rfl

theorem perform_sound (wireDigest : List Message → Str) (sound : Sound store)
    (operation : Operation) : Sound (perform wireDigest store operation) := by
  cases operation with
  | newSession session agentId =>
    exact or_as_it_was_sound sound fun next opened => new_session_sound sound opened
  | fork session atMessage fresh =>
    exact or_as_it_was_sound sound fun next forked => fork_sound sound forked
  | append session messages call fault => exact append_sound sound session messages call fault
  | fold session agentId boundary runId conversationId text fault =>
    exact fold_sound sound session agentId boundary runId conversationId text fault
  | ingest session agentId live marking answers =>
    exact ingest_sound sound session agentId live marking answers
  | render session call => exact render_sound wireDigest sound session call
  | setLastRenderLen session length =>
    exact (set_last_render_len_same store session length).sound sound

theorem reachable_sound (wireDigest : List Message → Str) (reachable : Reachable wireDigest store) :
    Sound store := by
  obtain ⟨operations, rfl⟩ := reachable
  have general : ∀ (operations : List Operation) (store : Store), Sound store →
      Sound (operations.foldl (perform wireDigest) store) := by
    intro operations
    induction operations with
    | nil => exact fun _ sound => sound
    | cons operation rest ih =>
      exact fun store sound => ih _ (perform_sound wireDigest sound operation)
  exact general operations .empty sound_empty

end Operations

section Folded

variable {store : Store} {session : Str}

theorem fold_root_ok (sound : Sound store) {root : Nat} (found : store.foldRoot session = .ok root) :
    ∃ rest, store.pathRowIds session = .ok (root :: rest) ∧ store.parentOf root = none := by
  obtain ⟨ids, path⟩ := sound.path session
  have walked := sound.path_row_ids path
  unfold Store.foldRoot at found
  rw [walked] at found
  cases ids with
  | nil => cases found
  | cons first rest =>
    change (if _ then Except.ok first else _) = _ at found
    split at found
    · cases found
      refine ⟨rest, walked, ?_⟩
      unfold PathOf at path
      split at path
      · cases path
      · refine path.last_root ?_
        rw [List.getLast?_reverse]
        rfl
    · cases found

theorem Appended.frontier {next : Store} {root : Nat} {reason : Option MoveReason}
    {frontier : Message} {ids : List Nat}
    (appended : Appended store next session (some root) reason [frontier] ids)
    (sound : Sound store) (parentless : store.parentOf root = none) :
    ids = [store.messages.length + 1] ∧
      next.pathRowIds session = .ok [root, store.messages.length + 1] ∧
      (next.row? (store.messages.length + 1)).map MessageRow.message = some frontier := by
  have single : ids = [store.messages.length + 1] := appended.numbered
  refine ⟨single, ?_, ?_⟩
  · obtain ⟨last, ends, heads⟩ := appended.head
    have lineage := appended.chain [root] sound.older (.root parentless) last ends
    have path : PathOf next session [root, store.messages.length + 1] := by
      unfold PathOf
      rw [heads, if_pos rfl, ← single]
      rw [single] at lineage
      rw [single]
      exact lineage
    exact (appended.sound sound).path_row_ids path
  · obtain ⟨rows, grown, held, -⟩ := appended.rows
    rw [show store.messages.length + 1 = store.messages.length + 1 + 0 by rfl,
      row_added grown, ← List.getElem?_map, held]
    rfl

/-- A fold that returns found its boundary's frontier and did nothing, or minted one, and the
path is the root and the new frontier. -/
theorem fold_leaves (sound : Sound store) {agentId : Str} {boundary : Option Int}
    {runId conversationId : Option Str} {text : FoldText} {fault : Option AppendFault} {id : Nat}
    (folded : (store.fold session agentId boundary runId conversationId text fault).2 = .ok id) :
    (∃ place, boundary = some place ∧ store.frontierRow session agentId place = some id ∧
      (store.fold session agentId boundary runId conversationId text fault).1 = store) ∨
    ∃ place root rest content, boundary = some place ∧
      Store.composedText place text = .ok content ∧
      store.pathRowIds session = .ok (root :: rest) ∧
      (store.fold session agentId boundary runId conversationId text fault).1.pathRowIds session =
        .ok [root, id] ∧
      ((store.fold session agentId boundary runId conversationId text fault).1.row? id).map
        MessageRow.message = some (Store.frontierMessage content runId conversationId) := by
  cases boundary with
  | none => cases folded
  | some place =>
    unfold Store.fold at folded ⊢
    dsimp only at folded ⊢
    cases known : store.frontierRow session agentId place with
    | some held =>
      rw [known] at folded
      cases folded
      exact Or.inl ⟨place, rfl, known, rfl⟩
    | none =>
      rw [known] at folded
      dsimp only at folded ⊢
      cases rooted : store.foldRoot session with
      | error error =>
        rw [rooted] at folded
        cases folded
      | ok root =>
        cases composing : Store.composedText place text with
        | error error =>
          rw [rooted, composing] at folded
          cases folded
        | ok content =>
          rw [rooted, composing] at folded
          dsimp only at folded ⊢
          obtain ⟨rest, path, parentless⟩ := fold_root_ok sound rooted
          let call : AppendCall := ⟨agentId, some root, true, some place, none, some "fold"⟩
          let frontier := Store.frontierMessage content runId conversationId
          have outcome := append_cases store session [frontier] call fault
          generalize written : store.append session [frontier] call fault = done at folded outcome ⊢
          obtain ⟨next, result⟩ := done
          dsimp only at folded outcome ⊢
          rcases outcome with ⟨-, ⟨-, none⟩ | ⟨error, raised⟩⟩ | ⟨reason, ids, -, appended, ended⟩
          · cases none
          · rw [raised] at folded
            cases folded
          · rcases ended with ⟨-, committed⟩ | ⟨error, -, raised⟩
            · rw [committed] at folded ⊢
              have minted := appended.frontier sound parentless
              dsimp only at folded ⊢
              cases landed : Store.landedAction text with
              | some error =>
                rw [landed] at folded
                cases folded
              | none =>
                rw [landed] at folded
                obtain ⟨rfl, pathNow, rowNow⟩ := minted
                cases folded
                exact Or.inr ⟨place, root, rest, content, rfl, composing, path, pathNow, rowNow⟩
            · rw [raised] at folded
              cases folded

/-- The parent links have no cycle. -/
def Acyclic (store : Store) : Prop :=
  ∀ id, ¬Relation.TransGen (fun child elder => store.parentOf child = some elder) id id

def NoneLost (store : Store) : Prop :=
  ∀ id row, store.row? id = some row →
    ∃ tip, Tip store row.session tip ∧ Ancestor store.parentOf tip id

theorem no_message_lost (wireDigest : List Message → Str) (store : Store)
    (reachable : Reachable wireDigest store) :
    Acyclic store ∧ NoneLost store ∧
      ∀ session agentId boundary runId conversationId text fault id,
        (store.fold session agentId boundary runId conversationId text fault).2 = .ok id →
        (∃ place, boundary = some place ∧ store.frontierRow session agentId place = some id ∧
          (store.fold session agentId boundary runId conversationId text fault).1 = store) ∨
        ∃ place root rest content, boundary = some place ∧
          Store.composedText place text = .ok content ∧
          store.pathRowIds session = .ok (root :: rest) ∧
          (store.fold session agentId boundary runId conversationId text
            fault).1.pathRowIds session = .ok [root, id] ∧
          ((store.fold session agentId boundary runId conversationId text fault).1.row? id).map
            MessageRow.message = some (Store.frontierMessage content runId conversationId) := by
  have sound := reachable_sound wireDigest reachable
  exact ⟨sound.older.acyclic, sound.kept, fun _ _ _ _ _ _ _ _ folded => fold_leaves sound folded⟩

namespace Sample

def question : Message := ⟨.request, [.userPrompt "orientation"], none, none⟩

def answer : Message := ⟨.response, [.other "text" "noted"], none, none⟩

def plain : AppendCall := ⟨"main", none, false, none, none, none⟩

def noDigest : List Message → Str := fun _ => []

def askedOperations : List Operation :=
  [.newSession "s" "main", .append "s" [question] plain none]

def foldedOperations : List Operation :=
  askedOperations ++ [.fold "s" "main" (some 1) none none .placeholder none,
    .append "s" [answer] plain none]

def asked : Store := askedOperations.foldl (perform noDigest) .empty

def folded : Store := foldedOperations.foldl (perform noDigest) .empty

/-- A fold of a boundary that has its frontier leaves the message after the frontier on the
path. -/
theorem reused_frontier_keeps_path :
    ¬∀ store : Store, Reachable noDigest store →
      ∀ session agentId boundary runId conversationId text fault id,
        (store.fold session agentId boundary runId conversationId text fault).2 = .ok id →
        ∃ root, (store.fold session agentId boundary runId conversationId text
          fault).1.pathRowIds session = .ok [root, id] := by
  intro always
  obtain ⟨root, path⟩ := always folded ⟨foldedOperations, rfl⟩ "s" "main" (some 1) none none
    .placeholder none 2 rfl
  have kept : (folded.fold "s" "main" (some 1) none none .placeholder none).1.pathRowIds "s" =
      .ok [1, 2, 3] := rfl
  rw [kept] at path
  cases path

theorem asked_keeps_messages :
    Acyclic asked ∧ NoneLost asked ∧
      ∀ session agentId boundary runId conversationId text fault id,
        (asked.fold session agentId boundary runId conversationId text fault).2 = .ok id →
        (∃ place, boundary = some place ∧ asked.frontierRow session agentId place = some id ∧
          (asked.fold session agentId boundary runId conversationId text fault).1 = asked) ∨
        ∃ place root rest content, boundary = some place ∧
          Store.composedText place text = .ok content ∧
          asked.pathRowIds session = .ok (root :: rest) ∧
          (asked.fold session agentId boundary runId conversationId text
            fault).1.pathRowIds session = .ok [root, id] ∧
          ((asked.fold session agentId boundary runId conversationId text fault).1.row? id).map
            MessageRow.message = some (Store.frontierMessage content runId conversationId) :=
  no_message_lost noDigest asked ⟨askedOperations, rfl⟩

end Sample

end Folded

end Defender.Records
