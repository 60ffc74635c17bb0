import Defender.Records.IngestMark

/-!
# Rendering and ingesting back

The framework goes on from the history a render handed it, and ingests that history with what
came after. The session then hydrates to the same list, where the render handed out the whole
path.
-/

namespace Defender.Records

open Defender.Python Defender.Library.OrderedDict Defender.Library.ParentChain
open Defender.Library.Wire

section Complete

variable {early whole tail messages : List Message}

def EndsUnanswered (messages : List Message) : Prop :=
  ∃ last, messages.getLast? = some last ∧ last.kind = .response ∧
    ∃ id ∈ calledIds last, id ∉ returnedIds messages

theorem complete_prefix_len_unanswered (unanswered : EndsUnanswered messages) :
    completePrefixLen messages + 1 = messages.length := by
  obtain ⟨last, ends, response, id, called, unreturned⟩ := unanswered
  have held : ∃ id ∈ calledIds last, (!(returnedIds messages).contains id) = true :=
    ⟨id, called, by simpa using unreturned⟩
  have filled : messages ≠ [] := by
    rintro rfl
    cases ends
  unfold completePrefixLen
  rw [ends]
  dsimp only
  rw [if_pos ⟨response, List.any_eq_true.mpr held⟩]
  exact Nat.sub_add_cancel (List.length_pos_of_ne_nil filled)

theorem complete_prefix_len_complete (complete : ¬EndsUnanswered messages) :
    completePrefixLen messages = messages.length := by
  unfold completePrefixLen
  split
  · rename_i empty
    rw [List.getLast?_eq_none_iff.mp empty]
    rfl
  · rename_i last ends
    rw [if_neg]
    rintro ⟨response, called⟩
    obtain ⟨id, among, unreturned⟩ := List.any_eq_true.mp called
    exact complete ⟨last, ends, response, id, among, by simpa using unreturned⟩

theorem EndsUnanswered.fewer (unanswered : EndsUnanswered (whole ++ tail))
    (among : ∀ message ∈ early, message ∈ whole) (filled : tail ≠ []) :
    EndsUnanswered (early ++ tail) := by
  obtain ⟨last, ends, response, id, called, unreturned⟩ := unanswered
  have found := List.getLast?_eq_some_getLast filled
  refine ⟨last, ?_, response, id, called, ?_⟩
  · rw [List.getLast?_append, found] at ends ⊢
    exact ends
  · intro returned
    apply unreturned
    unfold returnedIds at returned ⊢
    obtain ⟨part, held, named⟩ := List.mem_filterMap.mp returned
    refine List.mem_filterMap.mpr ⟨part, ?_, named⟩
    obtain ⟨message, present, inside⟩ := List.mem_flatMap.mp held
    refine List.mem_flatMap.mpr ⟨message, ?_, inside⟩
    rcases List.mem_append.mp present with present | present
    · exact List.mem_append_left _ (among message present)
    · exact List.mem_append_right _ present

end Complete

section Rendered

variable {store next : Store} {session : Str} {ids : List Nat}

/-- The path ends on a turn that never finished, and is not the session's own fork point. -/
def WithholdsTail (store : Store) (session : Str) : Prop :=
  ∃ ids, store.pathRowIds session = .ok ids ∧ store.branchPoint session ≠ ids.getLast? ∧
    EndsUnanswered (messagesOf store ids)

theorem send_view_whole (sound : Sound store) (path : PathOf store session ids)
    (hands : ¬WithholdsTail store session) : viewOf store session ids .send = messagesOf store ids := by
  unfold viewOf Store.sendLen
  dsimp only
  split
  · exact List.take_length
  · rename_i moved
    have complete : ¬EndsUnanswered (messagesOf store ids) := by
      intro unanswered
      refine hands ⟨ids, sound.path_row_ids path, ?_, unanswered⟩
      intro same
      refine moved ⟨?_, same⟩
      rintro rfl
      obtain ⟨last, ends, -⟩ := unanswered
      cases ends
    rw [complete_prefix_len_complete complete, List.take_length]

theorem send_view_short (sound : Sound store) (path : PathOf store session ids)
    (withholds : WithholdsTail store session) :
    ∃ dropped, messagesOf store ids = viewOf store session ids .send ++ [dropped] := by
  obtain ⟨walked, found, moved, unanswered⟩ := withholds
  obtain rfl := Except.ok.inj ((sound.path_row_ids path).symm.trans found)
  have short := complete_prefix_len_unanswered unanswered
  unfold viewOf Store.sendLen
  dsimp only
  rw [if_neg fun same => moved same.2]
  have rest : ((messagesOf store ids).drop (completePrefixLen (messagesOf store ids))).length =
      1 := by
    rw [List.length_drop]
    omega
  obtain ⟨dropped, single⟩ := List.length_eq_one_iff.mp rest
  refine ⟨dropped, ?_⟩
  rw [← single, List.take_append_drop]

theorem SameTree.view (same : SameTree store next) (role : Store.Role) :
    viewOf next session ids role = viewOf store session ids role := by
  have messages : messagesOf next ids = messagesOf store ids := by
    unfold messagesOf Store.rowsOf
    rw [List.filterMap_congr fun id _ => same.row id]
  have point : next.branchPoint session = store.branchPoint session := by
    unfold Store.branchPoint
    rw [same.headLog]
  cases role with
  | send =>
    unfold viewOf Store.sendLen
    dsimp only
    rw [messages, point]
  | analysis => exact messages

theorem fold_known (known : store.sessions.contains session) (agentId : Str)
    (boundary : Option Int) (runId conversationId : Option Str) (text : FoldText)
    (fault : Option AppendFault) :
    (store.fold session agentId boundary runId conversationId text
      fault).1.sessions.contains session := by
  have written : ∀ messages call, (store.append session messages call
      fault).1.sessions.contains session := by
    intro messages call
    rcases append_cases store session messages call fault with ⟨same, -⟩ | ⟨_, _, -, appended, -⟩
    · rw [same]
      exact known
    · exact appended.known
  unfold Store.fold
  cases boundary with
  | none => exact known
  | some boundary =>
    dsimp only
    split
    · exact known
    · split
      · exact known
      · exact known
      · have kept := written
          [Store.frontierMessage ‹Str› runId conversationId]
          ⟨agentId, some ‹Nat›, true, some boundary, none, some "fold"⟩
        split
        · rename_i next _ done
          rw [done] at kept
          exact kept
        · rename_i next _ done
          rw [done] at kept
          split
          · exact kept
          · exact kept

theorem fold_first_known (known : store.sessions.contains session) (call : Rendering) :
    (store.foldFirst session call).1.sessions.contains session := by
  unfold Store.foldFirst
  cases call.folding with
  | none => exact known
  | some folding =>
    have kept := fold_known known call.agentId folding.boundary call.runId call.conversationId
      folding.text folding.fault
    dsimp only
    split
    · rename_i next error done
      rw [done] at kept
      exact kept
    · rename_i next id done
      rw [done] at kept
      exact kept

/-- A render that returns leaves the history it handed out as the session's send view, marked
to its length. -/
theorem render_hands (wireDigest : List Message → Str) (sound : Sound store)
    (known : store.sessions.contains session) {call : Rendering} {history : List Message}
    (rendered : (store.render wireDigest session call).2 = .ok history) :
    (store.render wireDigest session call).1.sessions.contains session ∧
      markOf (store.render wireDigest session call).1 session = history.length ∧
      ∀ ids, PathOf (store.render wireDigest session call).1 session ids →
        viewOf (store.render wireDigest session call).1 session ids .send = history := by
  have folded := fold_first_sound sound session call
  have knownFolded := fold_first_known known call
  unfold Store.render at rendered ⊢
  generalize store.foldFirst session call = done at rendered folded knownFolded ⊢
  obtain ⟨next, result⟩ := done
  dsimp only at folded knownFolded rendered ⊢
  cases result with
  | error error => cases rendered
  | ok _ =>
    obtain ⟨ids, path⟩ := folded.path session
    dsimp only at rendered ⊢
    rw [folded.hydrate path] at rendered ⊢
    cases marking : call.marking with
    | some error =>
      rw [marking] at rendered
      cases rendered
    | none =>
      rw [marking] at rendered
      let view := viewOf next session ids .send
      have marked := set_mark knownFolded view.length
      have same := set_last_render_len_same next session view.length
      have shown : ∀ ids', PathOf (next.setLastRenderLen session view.length) session ids' →
          viewOf (next.setLastRenderLen session view.length) session ids' .send = view := by
        intro ids' again
        have equal := Except.ok.inj ((folded.path_row_ids (same.path.mp again)).symm.trans
          (folded.path_row_ids path))
        rw [equal, same.view]
      have handed : view = history := by
        cases step : call.runStep with
        | none =>
          rw [step] at rendered
          exact Except.ok.inj rendered
        | some step' =>
          rw [step] at rendered
          exact Except.ok.inj rendered
      have counted : (some view.length).getD 0 = history.length := by
        rw [← handed]
        rfl
      cases call.runStep with
      | none =>
        refine ⟨marked.1, ?_, fun ids' again => (shown ids' again).trans handed⟩
        exact (congrArg (Option.getD · 0) marked.2).trans counted
      | some step =>
        refine ⟨marked.1, ?_, fun ids' again => (shown ids' again).trans handed⟩
        exact (congrArg (Option.getD · 0) marked.2).trans counted

theorem along_branch_point {length : Nat} {added : List Message}
    (along : Along (store.setLastRenderLen session length) next session added) :
    next.branchPoint session = store.branchPoint session := by
  unfold Store.branchPoint
  rw [along.headLog, (set_last_render_len_same store session length).headLog]

theorem Sound.branch_point_is_row (sound : Sound store) {point : Nat}
    (found : store.branchPoint session = some point) : store.IsRow point := by
  obtain ⟨move, first, rfl⟩ := Option.map_eq_some_iff.mp found
  exact sound.targets move (List.mem_reverse.mp (List.mem_of_find?_eq_some first))

theorem grown_view {length : Nat} {added : List Message} (filled : added ≠ [])
    (sound : Sound store) (path : PathOf store session ids)
    (along : Along (store.setLastRenderLen session length) next session added) :
    next.hydrate session .send = .ok ((messagesOf store ids ++ added).take
      (completePrefixLen (messagesOf store ids ++ added))) := by
  obtain ⟨grown, messages⟩ := along.onto sound path
  have moved : next.branchPoint session ≠
      (ids ++ List.range' (store.messages.length + 1) added.length).getLast? := by
    rw [along_branch_point along]
    intro same
    obtain ⟨fewer, counted⟩ := Nat.exists_eq_succ_of_ne_zero
      (Nat.ne_of_gt (List.length_pos_of_ne_nil filled))
    rw [counted, Nat.succ_eq_add_one, List.range'_1_concat, ← List.append_assoc,
      List.getLast?_concat] at same
    have bound := (sound.branch_point_is_row same).2
    omega
  rw [along.sound.hydrate grown]
  unfold viewOf Store.sendLen
  dsimp only
  rw [if_neg fun same => moved same.2, messages]

/-- What the framework ingests after a render is what the session hydrates to, exactly where
the render did not withhold the path's last message. -/
theorem render_ingest_inverse_iff (wireDigest : List Message → Str) (store : Store)
    (reachable : Reachable wireDigest store) (session : Str)
    (known : store.sessions.contains session) (call : Rendering) (history : List Message)
    (rendered : (store.render wireDigest session call).2 = .ok history) (agentId : Str)
    (turns : List Message) (complete : turns ≠ [] → ¬EndsUnanswered (history ++ turns))
    (answers : Nat → Option AppendFault) (ids : List Nat)
    (ingested : ((store.render wireDigest session call).1.ingest session agentId
      (history ++ turns) none answers).2 = .ok ids) :
    ((store.render wireDigest session call).1.ingest session agentId (history ++ turns) none
        answers).1.hydrate session .send = .ok (history ++ turns) ↔
      turns = [] ∨ ¬WithholdsTail (store.render wireDigest session call).1 session := by
  have sound := render_sound wireDigest (reachable_sound wireDigest reachable) session call
  obtain ⟨there, mark, handed⟩ :=
    render_hands wireDigest (reachable_sound wireDigest reachable) known rendered
  generalize (store.render wireDigest session call).1 = shown at *
  obtain ⟨path, walked⟩ := sound.path session
  have view := handed path walked
  have enough : markOf shown session ≤ (history ++ turns).length := by
    rw [mark, List.length_append]
    exact Nat.le_add_right _ _
  obtain ⟨next, along, ended⟩ := ingest_along sound there agentId enough answers
  have tail : (history ++ turns).drop (markOf shown session) = turns := by
    rw [mark, List.drop_left]
  rw [tail] at along ended
  rw [ended] at ingested ⊢
  have whole : committedOf answers 0 turns.length = turns.length := by
    apply all_committed
    cases fate : faultOf answers 0 turns.length with
    | none => rfl
    | some fault =>
      rw [fate] at ingested
      cases ingested
  rw [whole, List.take_length] at along
  by_cases empty : turns = []
  · subst empty
    have same : viewOf next session path .send = viewOf shown session path .send := by
      have messages := (along.onto sound walked).2
      rw [List.length_nil, List.range'_zero, List.append_nil, List.append_nil] at messages
      unfold viewOf Store.sendLen
      dsimp only
      rw [messages, along_branch_point along]
    have walkedNext := (along.onto sound walked).1
    rw [List.length_nil, List.range'_zero, List.append_nil] at walkedNext
    rw [along.sound.hydrate walkedNext, same, view, List.append_nil]
    exact ⟨fun _ => Or.inl rfl, fun _ => rfl⟩
  · have grown := grown_view empty sound walked along
    have among : ∀ message ∈ history, message ∈ messagesOf shown path := by
      intro message held
      rw [← view] at held
      exact List.mem_of_mem_take held
    have finished : ¬EndsUnanswered (messagesOf shown path ++ turns) :=
      fun unanswered => complete empty (unanswered.fewer among empty)
    rw [complete_prefix_len_complete finished, List.take_length] at grown
    rw [grown]
    constructor
    · intro same
      refine Or.inr fun withholds => ?_
      obtain ⟨dropped, longer⟩ := send_view_short sound walked withholds
      rw [view] at longer
      have lengths := congrArg List.length (Except.ok.inj same)
      rw [longer] at lengths
      simp at lengths
    · rintro (none | hands)
      · exact absurd none empty
      · rw [← send_view_whole sound walked hands, view]

namespace Sample

def calling : Message := ⟨.response, [.toolCall "query" "c1" "\x7b\x7d"], none, none⟩

def unfinishedOperations : List Operation := askedOperations ++ [.append "s" [calling] plain none]

def unfinished : Store := unfinishedOperations.foldl (perform noDigest) .empty

def plainly : Rendering := ⟨"main", none, none, none, none, none, none⟩

/-- The turn the render withheld stands between the history and what came after. -/
theorem withheld_turn_comes_back :
    ¬∀ store : Store, Reachable noDigest store → ∀ session : Str,
      store.sessions.contains session → ∀ (call : Rendering) (history : List Message),
      (store.render noDigest session call).2 = .ok history → ∀ (agentId : Str)
        (turns : List Message), (turns ≠ [] → ¬EndsUnanswered (history ++ turns)) →
      ∀ (answers : Nat → Option AppendFault) (ids : List Nat),
      ((store.render noDigest session call).1.ingest session agentId (history ++ turns) none
        answers).2 = .ok ids →
      ((store.render noDigest session call).1.ingest session agentId (history ++ turns) none
        answers).1.hydrate session .send = .ok (history ++ turns) := by
  intro always
  have complete : [answer] ≠ [] → ¬EndsUnanswered ([question] ++ [answer]) := by
    rintro - ⟨last, ends, -, id, called, -⟩
    obtain rfl := Option.some.inj ends
    cases called
  have same := always unfinished ⟨unfinishedOperations, rfl⟩ "s" rfl plainly [question] rfl "main"
    [answer] complete noFault [3] rfl
  have kept : ((unfinished.render noDigest "s" plainly).1.ingest "s" "main"
      ([question] ++ [answer]) none noFault).1.hydrate "s" .send =
      .ok [question, calling, answer] := rfl
  have equal := Except.ok.inj (kept.symm.trans same)
  exact absurd equal (by decide)

theorem asked_comes_back_iff :
    ((asked.render noDigest "s" plainly).1.ingest "s" "main" ([question] ++ [answer]) none
        noFault).1.hydrate "s" .send = .ok ([question] ++ [answer]) ↔
      [answer] = [] ∨ ¬WithholdsTail (asked.render noDigest "s" plainly).1 "s" := by
  have complete : [answer] ≠ [] → ¬EndsUnanswered ([question] ++ [answer]) := by
    rintro - ⟨last, ends, -, id, called, -⟩
    obtain rfl := Option.some.inj ends
    cases called
  exact render_ingest_inverse_iff noDigest asked ⟨askedOperations, rfl⟩ "s" rfl plainly [question]
    rfl "main" [answer] complete noFault [2] rfl

end Sample

end Rendered

end Defender.Records
