import Defender.Records.IngestTail

/-!
# The render mark

An ingest moves the mark to the end of its live list before it appends anything, so what a
fault keeps it from appending no later ingest looks at. A render that withholds a path's last
message marks one less than the path has, and the next ingest hangs its tail behind that
message all the same.
-/

namespace Defender.Records

open Defender.Python Defender.Library.OrderedDict Defender.Library.ParentChain
open Defender.Library.Wire

section Views

variable {store next : Store} {session : Str} {ids : List Nat}

def messagesOf (store : Store) (ids : List Nat) : List Message :=
  (store.rowsOf ids).map MessageRow.message

theorem path_last (path : PathOf store session ids) : ids.getLast? = store.readHead session := by
  unfold PathOf at path
  split at path
  · rename_i headless
    rw [path, headless]
    rfl
  · rename_i head found
    rw [found, ← path.head, List.head?_reverse]

theorem Sound.path_rows (sound : Sound store) (path : PathOf store session ids) :
    ∀ id ∈ ids, store.IsRow id := by
  unfold PathOf at path
  split at path
  · rw [path]
    exact fun _ none => nomatch none
  · rename_i head found
    have onward : ∀ {node chain}, Lineage store.parentOf node chain → store.IsRow node →
        ∀ id ∈ chain, store.IsRow id := by
      intro node chain lineage there
      induction lineage with
      | root =>
        intro id among
        rw [List.mem_singleton.mp among]
        exact there
      | child link _ ih =>
        intro id among
        rcases List.mem_cons.mp among with rfl | among
        · exact there
        · exact ih ⟨sound.grounded _ _ link,
            (Nat.le_of_lt (sound.older _ _ link)).trans there.2⟩ id among
    intro id among
    exact onward path (sound.heads session head found) id (List.mem_reverse.mpr among)

def viewOf (store : Store) (session : Str) (ids : List Nat) : Store.Role → List Message
  | .send => (messagesOf store ids).take (store.sendLen session ids (messagesOf store ids))
  | .analysis => messagesOf store ids

theorem Sound.hydrate (sound : Sound store) (path : PathOf store session ids) (role : Store.Role) :
    store.hydrate session role = .ok (viewOf store session ids role) := by
  have resolved : store.requireResolved ids = .ok () := by
    unfold Store.requireResolved
    have complete : (ids.filter fun id => (store.row? id).isNone) = [] := by
      rw [List.filter_eq_nil_iff]
      intro id among
      obtain ⟨row, found⟩ := row_of_is_row (sound.path_rows path id among)
      rw [found]
      exact Bool.false_ne_true
    rw [complete]
    rfl
  unfold Store.hydrate
  rw [sound.path_row_ids path]
  change (if ids = [] then Except.ok [] else _) = _
  by_cases empty : ids = []
  · rw [if_pos empty, empty]
    cases role with
    | send => rfl
    | analysis => rfl
  · rw [if_neg empty, resolved]
    cases role with
    | send => rfl
    | analysis => rfl

theorem filter_map_range {Value : Type} (found : Nat → Option Value) (values : List Value)
    (start : Nat) (placed : ∀ place, found (start + place) = values[place]?) :
    (List.range' start values.length).filterMap found = values := by
  induction values generalizing start with
  | nil => rfl
  | cons first rest ih =>
    have here : found start = some first := placed 0
    rw [List.length_cons, List.range'_succ, List.filterMap_cons_some here]
    congr 1
    refine ih (start + 1) fun place => ?_
    rw [Nat.add_assoc, Nat.add_comm 1]
    exact placed (place + 1)

theorem Along.messages {added : List Message} (along : Along store next session added)
    (there : ∀ id ∈ ids, store.IsRow id) :
    messagesOf next (ids ++ List.range' (store.messages.length + 1) added.length) =
      messagesOf store ids ++ added := by
  obtain ⟨rows, grown, held⟩ := along.rows
  have old : next.rowsOf ids = store.rowsOf ids :=
    List.filterMap_congr fun id among => row_grown grown (there id among).2
  have fresh : next.rowsOf (List.range' (store.messages.length + 1) added.length) = rows := by
    have counted : added.length = rows.length := by rw [← held, List.length_map]
    rw [counted]
    exact filter_map_range _ rows _ (row_added grown)
  unfold messagesOf
  have split : next.rowsOf (ids ++ List.range' (store.messages.length + 1) added.length) =
      next.rowsOf ids ++ next.rowsOf (List.range' (store.messages.length + 1) added.length) :=
    List.filterMap_append
  rw [split, old, fresh, List.map_append, held]

end Views

section Ingests

variable {store : Store} {session : Str}

def markOf (store : Store) (session : Str) : Nat := (store.lastRenderLen session).getD 0

theorem set_mark (known : store.sessions.contains session) (length : Nat) :
    (store.setLastRenderLen session length).sessions.contains session ∧
      (store.setLastRenderLen session length).lastRenderLen session = some length := by
  obtain ⟨held, found⟩ := Option.isSome_iff_exists.mp known
  unfold Store.setLastRenderLen
  rw [found]
  unfold Dict.contains Store.lastRenderLen
  dsimp only
  rw [Dict.get_set_self]
  exact ⟨rfl, rfl⟩

theorem Along.onto {next : Store} {length : Nat} {added : List Message} {ids : List Nat}
    (along : Along (store.setLastRenderLen session length) next session added)
    (sound : Sound store) (path : PathOf store session ids) :
    PathOf next session (ids ++ List.range' (store.messages.length + 1) added.length) ∧
      messagesOf next (ids ++ List.range' (store.messages.length + 1) added.length) =
        messagesOf store ids ++ added := by
  have same := set_last_render_len_same store session length
  have counted : (store.setLastRenderLen session length).messages.length =
      store.messages.length := congrArg List.length same.messages
  have messages : messagesOf (store.setLastRenderLen session length) ids =
      messagesOf store ids := by
    unfold messagesOf Store.rowsOf
    rw [List.filterMap_congr fun id _ => same.row id]
  have there : ∀ id ∈ ids, (store.setLastRenderLen session length).IsRow id := by
    intro id among
    unfold Store.IsRow
    rw [counted]
    exact sound.path_rows path id among
  have further := along.path ids (same.path.mpr path)
  have shown := along.messages there
  rw [counted] at further shown
  rw [messages] at shown
  exact ⟨further, shown⟩

/-- An ingest moves the mark, then appends its tail up to the first fault. -/
theorem ingest_along (sound : Sound store) (known : store.sessions.contains session)
    (agentId : Str) {live : List Message} (enough : markOf store session ≤ live.length)
    (answers : Nat → Option AppendFault) :
    ∃ next, Along (store.setLastRenderLen session live.length) next session
        ((live.drop (markOf store session)).take
          (committedOf answers 0 (live.drop (markOf store session)).length)) ∧
      store.ingest session agentId live none answers =
        (next, match faultOf answers 0 (live.drop (markOf store session)).length with
          | none => .ok (List.range' (store.messages.length + 1)
              (live.drop (markOf store session)).length)
          | some fault => .error fault.error) := by
  have same := set_last_render_len_same store session live.length
  have marked := same.sound sound
  have known' := (set_mark known live.length).1
  unfold Store.ingest
  change ∃ next, _ ∧ (if live.length < markOf store session then _ else _) = _
  rw [if_neg (Nat.not_lt.mpr enough)]
  dsimp only
  change ∃ next, _ ∧ (if live.drop (markOf store session) = [] then _ else _) = _
  by_cases empty : live.drop (markOf store session) = []
  · rw [if_pos empty, empty]
    exact ⟨_, along_refl marked known', rfl⟩
  · rw [if_neg empty]
    obtain ⟨ids, path⟩ := marked.path session
    have tip : (store.setLastRenderLen session live.length).currentTip session =
        .ok ((store.setLastRenderLen session live.length).readHead session) := by
      unfold Store.currentTip
      rw [marked.path_row_ids path, ← path_last path]
      rfl
    rw [tip]
    let taken := ((store.setLastRenderLen session live.length).takeStamp session).1
    have takenSame : SameTree (store.setLastRenderLen session live.length) taken :=
      ⟨rfl, rfl, fun _ => rfl⟩
    have tipped : (store.setLastRenderLen session live.length).readHead session =
        taken.readHead session := rfl
    obtain ⟨next, along, ended⟩ := @append_tail_along taken session agentId answers
      (live.drop (markOf store session)) (takenSame.sound marked) known' 0 _ tipped
      ((store.setLastRenderLen session live.length).takeStamp session).2
    have counted : taken.messages.length = store.messages.length :=
      congrArg List.length same.messages
    refine ⟨next, ⟨along.sound, along.known, along.rows, along.path, along.headLog,
      along.marks⟩, ?_⟩
    rw [← counted]
    exact ended

end Ingests

section Failures

variable {store : Store} {session : Str}

theorem stopped_at {answers : Nat → Option AppendFault} {fault : AppendFault} (ahead : Nat)
    {place count : Nat} (reaches : ahead < count)
    (clear : ∀ step, step < ahead → answers (place + step) = none)
    (fails : answers (place + ahead) = some fault) :
    faultOf answers place count = some fault ∧ committedOf answers place count =
      match fault with
      | .beforeCommit _ => ahead
      | .afterCommit _ => ahead + 1 := by
  induction ahead generalizing place count with
  | zero =>
    obtain ⟨rest, rfl⟩ := Nat.exists_eq_succ_of_ne_zero (Nat.ne_of_gt reaches)
    rw [Nat.add_zero] at fails
    unfold faultOf committedOf
    rw [fails]
    cases fault with
    | beforeCommit error => exact ⟨rfl, rfl⟩
    | afterCommit error => exact ⟨rfl, rfl⟩
  | succ ahead ih =>
    obtain ⟨rest, rfl⟩ := Nat.exists_eq_succ_of_ne_zero
      (Nat.ne_of_gt (Nat.zero_lt_of_lt reaches))
    have here : answers place = none := clear 0 (Nat.succ_pos ahead)
    have clearLater : ∀ step, step < ahead → answers (place + 1 + step) = none := by
      intro step less
      rw [Nat.add_assoc, Nat.add_comm 1]
      exact clear (step + 1) (Nat.succ_lt_succ less)
    have failsLater : answers (place + 1 + ahead) = some fault := by
      rw [Nat.add_assoc, Nat.add_comm 1]
      exact fails
    obtain ⟨stops, commits⟩ := ih (Nat.lt_of_succ_lt_succ reaches) clearLater failsLater
    unfold faultOf committedOf
    rw [here]
    refine ⟨stops, ?_⟩
    dsimp only
    rw [commits]
    cases fault with
    | beforeCommit error => rfl
    | afterCommit error => rfl

theorem all_committed {answers : Nat → Option AppendFault} {place count : Nat}
    (clear : faultOf answers place count = none) : committedOf answers place count = count := by
  induction count generalizing place with
  | zero => rfl
  | succ count ih =>
    obtain ⟨here, later⟩ := Option.or_eq_none_iff.mp clear
    unfold committedOf
    rw [here]
    dsimp only
    rw [ih later]

/-- The messages are on the session's path after what it held, in order, and in no other new
row. -/
def StoredOnce (before after : Store) (session : Str) (tail : List Message) : Prop :=
  ∃ held, before.hydrate session .analysis = .ok held ∧
    after.hydrate session .analysis = .ok (held ++ tail) ∧
    (after.messages.drop before.messages.length).map MessageRow.message = tail

/-- Two ingests after one another store what each of them committed. -/
theorem ingests_store (sound : Sound store) {middle after : Store} {early late : List Message}
    {length later : Nat}
    (first : Along (store.setLastRenderLen session length) middle session early)
    (second : Along (middle.setLastRenderLen session later) after session late)
    (tail : List Message) : StoredOnce store after session tail ↔ early ++ late = tail := by
  have same := set_last_render_len_same store session length
  have again := set_last_render_len_same middle session later
  obtain ⟨ids, path⟩ := sound.path session
  have shown : after.hydrate session .analysis =
      .ok (messagesOf store ids ++ (early ++ late)) := by
    obtain ⟨pathEarly, messagesEarly⟩ := first.onto sound path
    obtain ⟨pathLate, messagesLate⟩ := second.onto first.sound pathEarly
    rw [second.sound.hydrate pathLate]
    show Except.ok (messagesOf after _) = _
    rw [messagesLate, messagesEarly, List.append_assoc]
  have rows : (after.messages.drop store.messages.length).map MessageRow.message =
      early ++ late := by
    obtain ⟨one, grown, held⟩ := first.rows
    obtain ⟨two, further, holds⟩ := second.rows
    rw [same.messages] at grown
    rw [again.messages, grown] at further
    rw [further, List.append_assoc, List.drop_left, List.map_append, held, holds]
  constructor
  · rintro ⟨held, -, -, stored⟩
    rw [← rows]
    exact stored
  · rintro rfl
    exact ⟨messagesOf store ids, sound.hydrate path .analysis, shown, rows⟩

/-- After an ingest that raised at a message of its tail, a later one leaves the whole tail
stored exactly when the append that raised had committed and was the last. -/
theorem failed_ingest_recovers_iff (wireDigest : List Message → Str) (store : Store)
    (reachable : Reachable wireDigest store) (session agentId : Str)
    (known : store.sessions.contains session) (live extra : List Message)
    (enough : markOf store session ≤ live.length) (answers later : Nat → Option AppendFault)
    (ahead : Nat) (fault : AppendFault)
    (reaches : ahead < (live.drop (markOf store session)).length)
    (clear : ∀ step, step < ahead → answers step = none) (fails : answers ahead = some fault)
    (ids : List Nat)
    (completes : ((store.ingest session agentId live none answers).1.ingest session agentId
      (live ++ extra) none later).2 = .ok ids) :
    (store.ingest session agentId live none answers).2 = .error fault.error ∧
      (StoredOnce store ((store.ingest session agentId live none answers).1.ingest session
          agentId (live ++ extra) none later).1 session
          ((live ++ extra).drop (markOf store session)) ↔
        (∃ error, fault = .afterCommit error) ∧
          ahead + 1 = (live.drop (markOf store session)).length) := by
  have sound := reachable_sound wireDigest reachable
  obtain ⟨middle, first, failed⟩ := ingest_along sound known agentId enough answers
  have clearFromStart : ∀ step, step < ahead → answers (0 + step) = none := by
    intro step less
    rw [Nat.zero_add]
    exact clear step less
  have failsFromStart : answers (0 + ahead) = some fault := by
    rw [Nat.zero_add]
    exact fails
  obtain ⟨stops, commits⟩ := stopped_at ahead reaches clearFromStart failsFromStart
  rw [failed] at completes ⊢
  have mark : markOf middle session = live.length := by
    unfold markOf
    rw [first.marks, (set_mark known live.length).2]
    rfl
  have left : (live ++ extra).drop (markOf middle session) = extra := by
    rw [mark, List.drop_left]
  have enoughLater : markOf middle session ≤ (live ++ extra).length := by
    rw [mark, List.length_append]
    exact Nat.le_add_right _ _
  obtain ⟨after, second, ended⟩ := ingest_along first.sound first.known agentId enoughLater later
  rw [left] at second ended
  rw [ended] at completes ⊢
  have whole : committedOf later 0 extra.length = extra.length := by
    apply all_committed
    cases fate : faultOf later 0 extra.length with
    | none => rfl
    | some fault =>
      rw [fate] at completes
      cases completes
  rw [whole, List.take_length] at second
  refine ⟨by rw [stops], ?_⟩
  rw [ingests_store sound first second, List.drop_append_of_le_length enough,
    List.append_left_inj, List.take_eq_self_iff, commits]
  cases fault with
  | beforeCommit error =>
    constructor
    · intro beyond
      exact absurd reaches (Nat.not_lt.mpr beyond)
    · rintro ⟨⟨other, differs⟩, -⟩
      cases differs
  | afterCommit error =>
    dsimp only
    constructor
    · intro all
      exact ⟨⟨error, rfl⟩, Nat.le_antisymm reaches all⟩
    · rintro ⟨-, same⟩
      exact same.ge

namespace Sample

def openedOperations : List Operation := [.newSession "s" "main"]

def opened : Store := openedOperations.foldl (perform noDigest) .empty

def diskFull : AppendFault := .beforeCommit (.sqlite "database or disk is full")

def secondFails (place : Nat) : Option AppendFault := if place = 1 then some diskFull else none

def noFault (_ : Nat) : Option AppendFault := none

/-- The message an ingest failed to append, the next ingest takes for appended. -/
theorem failed_message_is_skipped :
    ¬∀ store : Store, Reachable noDigest store → ∀ session agentId : Str,
      store.sessions.contains session → ∀ live extra : List Message,
      markOf store session ≤ live.length → ∀ (answers later : Nat → Option AppendFault)
        (ahead : Nat) (fault : AppendFault) (ids : List Nat),
      ahead < (live.drop (markOf store session)).length →
      (∀ step, step < ahead → answers step = none) → answers ahead = some fault →
      ((store.ingest session agentId live none answers).1.ingest session agentId
        (live ++ extra) none later).2 = .ok ids →
      StoredOnce store ((store.ingest session agentId live none answers).1.ingest session agentId
        (live ++ extra) none later).1 session ((live ++ extra).drop (markOf store session)) := by
  intro always
  have clear : ∀ step, step < 1 → secondFails step = none := by
    intro step less
    exact if_neg (Nat.ne_of_lt less)
  obtain ⟨held, before, after, -⟩ := always opened ⟨openedOperations, rfl⟩ "s" "main" rfl
    [question, answer] [] (by decide) secondFails noFault 1 diskFull [] (by decide) clear rfl rfl
  have started : opened.hydrate "s" .analysis = .ok [] := rfl
  have kept : ((opened.ingest "s" "main" [question, answer] none secondFails).1.ingest "s" "main"
      ([question, answer] ++ []) none noFault).1.hydrate "s" .analysis = .ok [question] := rfl
  obtain rfl := Except.ok.inj (started.symm.trans before)
  have same := Except.ok.inj (kept.symm.trans after)
  exact absurd same (by decide)

theorem opened_recovers_iff :
    (opened.ingest "s" "main" [question, answer] none secondFails).2 = .error diskFull.error ∧
      (StoredOnce opened ((opened.ingest "s" "main" [question, answer] none secondFails).1.ingest
          "s" "main" ([question, answer] ++ [question]) none noFault).1 "s"
          (([question, answer] ++ [question]).drop (markOf opened "s")) ↔
        (∃ error, diskFull = .afterCommit error) ∧
          1 + 1 = ([question, answer].drop (markOf opened "s")).length) :=
  failed_ingest_recovers_iff noDigest opened ⟨openedOperations, rfl⟩ "s" "main" rfl
    [question, answer] [question] (by decide) secondFails noFault 1 diskFull (by decide)
    (fun _ less => if_neg (Nat.ne_of_lt less)) rfl [2] rfl

end Sample

end Failures

end Defender.Records
