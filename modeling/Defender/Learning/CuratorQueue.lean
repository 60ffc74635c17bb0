import Defender.Library.OrderedDict
import Defender.Library.Wire
import Defender.Python.Json

/-!
# The curators' queues

The rows of the findings and questioner channels. Appends read the queue and drop the
ids it holds; the gate sorts what a tick read into held, consumed and to be authored;
the closing rotation replaces the queue by the held rows and whatever the tick did not
handle, and appends the consumed rows to the ledger.
-/

namespace Defender.Learning.Curator

open Defender.Python Defender.Library.OrderedDict Defender.Library.Wire

section Rows

abbrev Row := Dict Str Json

def idKey : Str := "finding_id"

def textAt (row : Row) (key : Str) : Option Str :=
  match row.get? key with
  | some (.string text) => some text
  | _ => none

def holdsText (row : Row) (key text : Str) : Bool := textAt row key == some text

def rowId (row : Row) : Option Str := textAt row idKey

def idsOf (rows : List Row) : List Str := rows.filterMap rowId

/-- Every row has a non-empty string id, and no two the same. -/
def Keyed (rows : List Row) : Prop :=
  (∀ row ∈ rows, ∃ id, rowId row = some id ∧ id ≠ []) ∧ (idsOf rows).Nodup

theorem ids_of_cons (row : Row) (rest : List Row) :
    idsOf (row :: rest) = (rowId row).toList ++ idsOf rest := by
  unfold idsOf
  cases named : rowId row with
  | none => simp [named]
  | some id => simp [named]

def withText (row : Row) (key value : Str) : Row := row.set key (.string value)

@[simp]
theorem row_id_set {row : Row} {key : Str} (value : Json) (other : idKey ≠ key) :
    rowId (row.set key value) = rowId row := by
  unfold rowId textAt
  rw [Dict.get_set_of_ne _ _ other.symm]

theorem row_id_erase {row : Row} {key : Str} (other : idKey ≠ key) :
    rowId (row.erase key) = rowId row := by
  unfold rowId textAt
  rw [Dict.get_erase, if_neg other.symm]

end Rows

def unseen : List Str → List Row → List Row
  | _, [] => []
  | seen, row :: rest =>
    match rowId row with
    | none => row :: unseen seen rest
    | some id => if id ∈ seen then unseen seen rest else row :: unseen (id :: seen) rest

def append (queue rows : List Row) : List Row := queue ++ unseen (idsOf queue) rows

def appendAll (queue : List Row) (appends : List (List Row)) : List Row :=
  appends.foldl append queue

theorem unseen_ids (rows : List Row) {seen : List Str} {row : Row}
    (written : row ∈ unseen seen rows) {id : Str} (named : rowId row = some id) : id ∉ seen := by
  induction rows generalizing seen with
  | nil => exact nomatch written
  | cons first rest ih =>
    rw [unseen] at written
    split at written
    · rename_i unnamed
      rcases List.mem_cons.mp written with rfl | written
      · rw [unnamed] at named
        cases named
      · exact ih written
    · rename_i firstId firstNamed
      split at written
      · exact ih written
      · rename_i fresh
        rcases List.mem_cons.mp written with rfl | written
        · obtain rfl := Option.some.inj (firstNamed.symm.trans named)
          exact fresh
        · exact fun among => ih written (List.mem_cons_of_mem _ among)

theorem append_all_grows (queue : List Row) (appends : List (List Row)) :
    ∃ written, appendAll queue appends = queue ++ written ∧
      ∀ row ∈ written, ∀ id, rowId row = some id → id ∉ idsOf queue := by
  induction appends generalizing queue with
  | nil => exact ⟨[], (List.append_nil _).symm, fun _ among => nomatch among⟩
  | cons rows rest ih =>
    obtain ⟨written, same, fresh⟩ := ih (append queue rows)
    refine ⟨unseen (idsOf queue) rows ++ written, ?_, ?_⟩
    · rw [appendAll, List.foldl_cons]
      exact same.trans (List.append_assoc _ _ _)
    · intro row among id named
      rcases List.mem_append.mp among with among | among
      · exact unseen_ids rows among named
      · intro held
        refine fresh row among id named ?_
        rw [append, idsOf, List.filterMap_append]
        exact List.mem_append_left _ held

/-- Whether a row of the queue outlives the rotation; `none` is a `TypeError`, for an id
that cannot be hashed. -/
def outlives (processed : List Str) (row : Row) : Option Bool :=
  match row.get? idKey with
  | some (.string id) => some !processed.contains id
  | some (.array _) | some (.object _) => none
  | _ => some true

def survivors (processed : List Str) : List Row → Option (List Row)
  | [] => some []
  | row :: rest => do
    let stays ← outlives processed row
    let others ← survivors processed rest
    pure (if stays then row :: others else others)

def committedCategory : Str := "consumed_committed"

def stamped (now : Str) (commit : Option Str) (entry : Row) : Row :=
  let dated := entry.setDefault "consumed_at" (.string now)
  match textAt dated "consumed_category", commit with
  | some category, some sha =>
    if category = committedCategory ∧ sha ≠ [] then withText dated "consumed_commit" sha
    else dated
  | _, _ => dated

/-- The queue's new rows and the ledger's appended ones. -/
def rotate (queue held consumed : List Row) (commit : Option Str) (now : Str) :
    Option (List Row × List Row) := do
  let kept ← survivors (idsOf (held ++ consumed)) queue
  pure (held ++ kept, consumed.map (stamped now commit))

theorem survivors_mem {processed : List Str} {queue kept : List Row}
    (ok : survivors processed queue = some kept) {row : Row} :
    row ∈ kept ↔ row ∈ queue ∧ ∀ id, rowId row = some id → id ∉ processed := by
  have stays {first : Row} {answer : Bool} (asked : outlives processed first = some answer) :
      answer = true ↔ ∀ id, rowId first = some id → id ∉ processed := by
    unfold outlives at asked
    unfold rowId textAt
    split at asked
    · rename_i id held
      cases asked
      simp [held]
    · cases asked
    · cases asked
    · rename_i notText _ _
      cases asked
      refine ⟨fun _ id named => ?_, fun _ => rfl⟩
      split at named
      · rename_i text held
        exact absurd held (notText text)
      · cases named
  induction queue generalizing kept with
  | nil =>
    cases ok
    simp
  | cons first rest ih =>
    rw [survivors] at ok
    obtain ⟨answer, asked, ok⟩ := Option.bind_eq_some_iff.mp ok
    obtain ⟨others, restKept, ok⟩ := Option.bind_eq_some_iff.mp ok
    cases ok
    have alive := stays asked
    have inRest : row ∈ others ↔ row ∈ rest ∧ ∀ id, rowId row = some id → id ∉ processed :=
      ih restKept
    cases answer with
    | true =>
      rw [if_pos rfl, List.mem_cons, List.mem_cons, inRest]
      constructor
      · rintro (rfl | ⟨among, free⟩)
        · exact ⟨.inl rfl, alive.mp rfl⟩
        · exact ⟨.inr among, free⟩
      · rintro ⟨rfl | among, free⟩
        · exact .inl rfl
        · exact .inr ⟨among, free⟩
    | false =>
      rw [if_neg Bool.false_ne_true, inRest, List.mem_cons]
      constructor
      · rintro ⟨among, free⟩
        exact ⟨.inr among, free⟩
      · rintro ⟨rfl | among, free⟩
        · cases alive.mpr free
        · exact ⟨among, free⟩

theorem stamped_id (now : Str) (commit : Option Str) (entry : Row) :
    rowId (stamped now commit entry) = rowId entry := by
  have dated : rowId (entry.setDefault "consumed_at" (.string now)) = rowId entry := by
    unfold Dict.setDefault
    split
    · rfl
    · exact row_id_set _ (by decide)
  unfold stamped
  dsimp only
  split
  · split
    · exact (row_id_set _ (by decide)).trans dated
    · exact dated
  · exact dated

theorem stamped_category (now : Str) (commit : Option Str) (entry : Row) :
    textAt (stamped now commit entry) "consumed_category" = textAt entry "consumed_category" := by
  have dated : textAt (entry.setDefault "consumed_at" (.string now)) "consumed_category" =
      textAt entry "consumed_category" := by
    unfold Dict.setDefault
    split
    · rfl
    · unfold textAt
      rw [Dict.get_set_of_ne _ _ (by decide)]
  unfold stamped
  dsimp only
  split
  · split
    · refine Eq.trans ?_ dated
      unfold textAt withText
      rw [Dict.get_set_of_ne _ _ (by decide)]
    · exact dated
  · exact dated

section Gate

def retiredRecordFields : List Str :=
  ["judge_outcome", "verdict_word", "episode_outcome", "family_outcome"]

def retiredRowNames (row : Row) : List Str :=
  sorted (retiredRecordFields.filter fun name => row.contains name) ++
    ([("observability" : Str)].filter fun name => holdsText row "type" name)

/-- Where the gate sends a row; `author` leaves it as it was read. -/
inductive Route where
  | held (entry : Row)
  | consumed (entry : Row)
  | author

def consumeAs (row : Row) (category : Str) : Row := withText row "consumed_category" category

def holdFor (row : Row) (reason : Str) : Row := withText row "held_reason" reason

def isFilledList : Option Json → Bool
  | some (.array items) => !items.isEmpty
  | _ => false

def isBool : Option Json → Bool
  | some (.bool _) => true
  | _ => false

def missingFields (entry : Row) : List Str :=
  ((([("contrast_evidence", isFilledList (entry.get? "contrast_evidence")),
    ("on_verdict_path", isBool (entry.get? "on_verdict_path")),
    ("world_label_doubted", isBool (entry.get? "world_label_doubted"))] : List (Str × Bool)).filter
      fun field => !field.2).map Prod.fst)

def gateFamily (entry : Row) : Route :=
  if retiredRowNames entry ≠ [] then
    .held (holdFor entry (message ["retired_name(", join ", " (retiredRowNames entry), ")"]))
  else if missingFields entry ≠ [] then
    .held (holdFor entry (message ["missing_field(", join ", " (missingFields entry), ")"]))
  else .author

-- Python's `repr` of a decoded value
variable (reprOf : Option Json → Str)

def routeFinding (existing : List Str) (entry : Row) : Except Str Route :=
  if holdsText entry "direction" "world" || holdsText entry "subject" "world" then
    .error (message ["a 'world'-subject row (finding_id=", reprOf (entry.get? idKey),
      ") reached the defender curator's gate — it belongs on the questioner channel"])
  else if (rowId entry).any existing.contains then
    .ok (.consumed (consumeAs entry "consumed_idempotent"))
  else if !holdsText entry "direction" "family" then
    .ok (.held (holdFor entry
      (message ["retired_direction(", reprOf (entry.get? "direction"), ")"])))
  else if entry.contains "run_id" then .ok (gateFamily entry)
  else .error "'run_id'"

def namesSystems : Option Json → Bool
  | some (.array items) => !items.isEmpty && items.all fun item =>
      match item with
      | .string name => strip name != []
      | _ => false
  | _ => false

def routeQuestioner (existing : List Str) (entry : Row) : Except Str Route :=
  if (rowId entry).any existing.contains then
    .ok (.consumed (consumeAs entry "consumed_idempotent"))
  else if retiredRowNames entry ≠ [] then
    .ok (.held (holdFor entry
      (message ["retired_name(", join ", " (retiredRowNames entry), ")"])))
  else if namesSystems (entry.get? "systems") then .ok .author
  else .ok (.consumed (consumeAs entry "consumed_no_systems"))

def routeAll (route : Row → Except Str Route) : List Row → Except Str (List (Row × Route))
  | [] => .ok []
  | entry :: rest => do
    let routed ← route entry
    let others ← routeAll route rest
    pure ((entry, routed) :: others)

def Route.heldEntry : Route → Option Row
  | .held entry => some entry
  | _ => none

def Route.consumedEntry : Route → Option Row
  | .consumed entry => some entry
  | _ => none

def Route.isAuthor : Route → Bool
  | .author => true
  | _ => false

structure Gated where
  held : List Row
  consumed : List Row
  toAuthor : List Row

inductive Channel where
  | findings
  | questioner
deriving DecidableEq

/-- What the channel's gate makes of a batch, against the ids its corpus already cites.
The findings gate reads what to author off the ids it did not sort. -/
def gate (channel : Channel) (existing : List Str) (batch : List Row) : Except Str Gated :=
  match channel with
  | .findings => do
    let routes ← routeAll (routeFinding reprOf existing) batch
    let held := routes.filterMap fun row => row.2.heldEntry
    let consumed := routes.filterMap fun row => row.2.consumedEntry
    pure ⟨held, consumed, batch.filter fun row =>
      !(rowId row).any (idsOf held ++ idsOf consumed).contains⟩
  | .questioner => do
    let routes ← routeAll (routeQuestioner existing) batch
    pure ⟨routes.filterMap fun row => row.2.heldEntry,
      routes.filterMap fun row => row.2.consumedEntry,
      (routes.filter fun row => row.2.isAuthor).map Prod.fst⟩

end Gate

section Sorted

variable {reprOf : Option Json → Str}

def Route.Keeps (row : Row) : Route → Prop
  | .held entry => rowId entry = rowId row
  | .consumed entry =>
    rowId entry = rowId row ∧ textAt entry "consumed_category" ≠ some committedCategory
  | .author => True

/-- Each row of the batch goes one way, by its id. -/
structure Sorts (batch : List Row) (gated : Gated) : Prop where
  ids : (idsOf gated.held ++ (idsOf gated.consumed ++ idsOf gated.toAuthor)).Perm (idsOf batch)
  authored : gated.toAuthor ⊆ batch
  category : ∀ entry ∈ gated.consumed,
    textAt entry "consumed_category" ≠ some committedCategory

theorem keeps_held (row : Row) (reason : Str) : (Route.held (holdFor row reason)).Keeps row :=
  row_id_set _ (by decide)

theorem keeps_consumed (row : Row) {category : Str} (other : category ≠ committedCategory) :
    (Route.consumed (consumeAs row category)).Keeps row := by
  refine ⟨row_id_set _ (by decide), ?_⟩
  unfold textAt consumeAs withText
  rw [Dict.get_set, if_pos rfl]
  exact fun same => other (Option.some.inj same)

theorem route_finding_keeps {existing : List Str} {row : Row} {routed : Route}
    (ok : routeFinding reprOf existing row = .ok routed) : routed.Keeps row := by
  unfold routeFinding at ok
  split at ok
  · cases ok
  split at ok
  · cases ok
    exact keeps_consumed row (by decide)
  split at ok
  · cases ok
    exact keeps_held row _
  split at ok
  · cases ok
    unfold gateFamily
    split
    · exact keeps_held row _
    · split
      · exact keeps_held row _
      · trivial
  · cases ok

theorem route_questioner_keeps {existing : List Str} {row : Row} {routed : Route}
    (ok : routeQuestioner existing row = .ok routed) : routed.Keeps row := by
  unfold routeQuestioner at ok
  split at ok
  · cases ok
    exact keeps_consumed row (by decide)
  split at ok
  · cases ok
    exact keeps_held row _
  split at ok
  · cases ok
    trivial
  · cases ok
    exact keeps_consumed row (by decide)

theorem route_all_ok {route : Row → Except Str Route} {batch : List Row}
    {routes : List (Row × Route)} (ok : routeAll route batch = .ok routes) :
    routes.map Prod.fst = batch ∧ ∀ row ∈ routes, route row.1 = .ok row.2 := by
  induction batch generalizing routes with
  | nil =>
    cases ok
    exact ⟨rfl, fun _ among => nomatch among⟩
  | cons first rest ih =>
    obtain ⟨routed, firstOk, ok⟩ := except_bind_ok.mp ok
    obtain ⟨others, restOk, ok⟩ := except_bind_ok.mp ok
    cases ok
    obtain ⟨same, each⟩ := ih restOk
    refine ⟨by rw [List.map_cons, same], fun row among => ?_⟩
    rcases List.mem_cons.mp among with rfl | among
    · exact firstOk
    · exact each row among

/-- The routes' entries and the rows left to author have the batch's ids. -/
theorem routes_perm {routes : List (Row × Route)} (keeps : ∀ row ∈ routes, row.2.Keeps row.1) :
    (idsOf (routes.filterMap fun row => row.2.heldEntry) ++
      (idsOf (routes.filterMap fun row => row.2.consumedEntry) ++
        idsOf ((routes.filter fun row => row.2.isAuthor).map Prod.fst))).Perm
      (idsOf (routes.map Prod.fst)) := by
  induction routes with
  | nil => exact List.Perm.refl _
  | cons first rest ih =>
    have others := ih fun row among => keeps row (List.mem_cons_of_mem _ among)
    have firstKeeps := keeps first List.mem_cons_self
    obtain ⟨row, routed⟩ := first
    rw [List.map_cons, ids_of_cons]
    refine List.Perm.trans ?_ (others.append_left _)
    cases routed with
    | held entry =>
      have same : rowId entry = rowId row := firstKeeps
      simp [Route.heldEntry, Route.consumedEntry, Route.isAuthor, ids_of_cons, same]
    | consumed entry =>
      have same : rowId entry = rowId row := firstKeeps.1
      simp only [Route.heldEntry, Route.consumedEntry, Route.isAuthor, List.filterMap_cons,
        List.filter_cons, ids_of_cons, same, List.append_assoc, Bool.false_eq_true, if_false]
      exact List.perm_append_comm_assoc _ _ _
    | author =>
      simp only [Route.heldEntry, Route.consumedEntry, Route.isAuthor, List.filterMap_cons,
        List.filter_cons, if_true, List.map_cons, ids_of_cons]
      exact ((List.perm_append_comm_assoc _ _ _).append_left _).trans
        (List.perm_append_comm_assoc _ _ _)

theorem mem_ids_of {rows : List Row} {id : Str} :
    id ∈ idsOf rows ↔ ∃ row ∈ rows, rowId row = some id := List.mem_filterMap

def authored (routes : List (Row × Route)) : List Row :=
  (routes.filter fun row => row.2.isAuthor).map Prod.fst

theorem routes_sort {routes : List (Row × Route)} (keeps : ∀ row ∈ routes, row.2.Keeps row.1) :
    Sorts (routes.map Prod.fst) ⟨routes.filterMap fun row => row.2.heldEntry,
      routes.filterMap fun row => row.2.consumedEntry, authored routes⟩ := by
  refine ⟨routes_perm keeps, List.map_subset _ List.filter_sublist.subset, ?_⟩
  intro entry among
  obtain ⟨⟨row, routed⟩, inRoutes, entryOf⟩ := List.mem_filterMap.mp among
  have kept := keeps _ inRoutes
  cases routed with
  | held other => cases entryOf
  | author => cases entryOf
  | consumed other =>
    cases entryOf
    exact kept.2

/-- In a keyed batch the rows that were not sorted are those left to author. -/
theorem unsorted_authored {routes : List (Row × Route)} (keyed : Keyed (routes.map Prod.fst))
    (keeps : ∀ row ∈ routes, row.2.Keeps row.1) :
    ((routes.map Prod.fst).filter fun row => !(rowId row).any
      (idsOf (routes.filterMap fun row => row.2.heldEntry) ++
        idsOf (routes.filterMap fun row => row.2.consumedEntry)).contains) = authored routes := by
  have distinct := (routes_perm keeps).nodup_iff.mpr keyed.2
  rw [← List.append_assoc] at distinct
  have apart := List.disjoint_of_nodup_append distinct
  rw [List.filter_map, authored]
  congr 1
  refine List.filter_congr fun row among => ?_
  obtain ⟨id, named, -⟩ := keyed.1 row.1 (List.mem_map_of_mem among)
  dsimp only [Function.comp_apply]
  rw [named, Option.any_some]
  have kept := keeps row among
  obtain ⟨row, routed⟩ := row
  cases routed with
  | held entry =>
    have sorted : id ∈ idsOf (routes.filterMap fun row => row.2.heldEntry) :=
      mem_ids_of.mpr ⟨entry, List.mem_filterMap.mpr ⟨_, among, rfl⟩, kept.trans named⟩
    simp [Route.isAuthor, sorted]
  | consumed entry =>
    have sorted : id ∈ idsOf (routes.filterMap fun row => row.2.consumedEntry) :=
      mem_ids_of.mpr ⟨entry, List.mem_filterMap.mpr ⟨_, among, rfl⟩, kept.1.trans named⟩
    simp [Route.isAuthor, sorted]
  | author =>
    have left : id ∈ idsOf ((routes.filter fun row => row.2.isAuthor).map Prod.fst) :=
      mem_ids_of.mpr ⟨row, List.mem_map_of_mem (f := Prod.fst)
        (List.mem_filter.mpr ⟨among, rfl⟩), named⟩
    have unsorted := fun sorted => apart sorted left
    simpa [Route.isAuthor] using unsorted

theorem gate_sorts {channel : Channel} {existing : List Str} {batch : List Row} {gated : Gated}
    (keyed : Keyed batch) (ok : gate reprOf channel existing batch = .ok gated) :
    Sorts batch gated := by
  cases channel with
  | questioner =>
    obtain ⟨routes, routed, ok⟩ := except_bind_ok.mp ok
    cases ok
    obtain ⟨rfl, each⟩ := route_all_ok routed
    exact routes_sort fun row among => route_questioner_keeps (each row among)
  | findings =>
    obtain ⟨routes, routed, ok⟩ := except_bind_ok.mp ok
    cases ok
    obtain ⟨rfl, each⟩ := route_all_ok routed
    have keeps : ∀ row ∈ routes, row.2.Keeps row.1 := fun row among =>
      route_finding_keeps (each row among)
    rw [unsorted_authored keyed keeps]
    exact routes_sort keeps

end Sorted

end Defender.Learning.Curator
