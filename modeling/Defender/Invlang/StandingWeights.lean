import Defender.Invlang.AppendedDocument
import Defender.Invlang.Validate.Predictions
import Mathlib.Data.Int.Lemmas

/-!
# Standing at a weight

The completeness rule takes a hypothesis to stand at `++` by counting the moves into the weight
less the moves out of it. Along a chain of moves that count is where the chain ends less where it
began, so a hypothesis declared at `++` never counts as standing there.
-/

namespace Defender.Invlang

open Defender.Python Defender.Library.OrderedDict

/-- The rows of one hypothesis, in the order readers meet them. -/
def rowsOf (hid : Str) (entries : List (Str × ResolutionRecord)) : List ResolutionRecord :=
  (entries.map Prod.snd).filter fun row => row.hypothesis = hid

def Vocab.nullWeightCells : List Str := [Vocab.nullWeight, "∅"]

def SpellsWeight (cell : Str) : Option Str → Prop
  | none => cell ∈ Vocab.nullWeightCells
  | some weight => cell = weight

instance (cell : Str) : (weight : Option Str) → Decidable (SpellsWeight cell weight)
  | none => inferInstanceAs (Decidable (cell ∈ Vocab.nullWeightCells))
  | some weight => inferInstanceAs (Decidable (cell = weight))

def Chained : Option Str → List ResolutionRecord → Prop
  | _, [] => True
  | weight, row :: rest =>
      SpellsWeight row.before weight ∧ row.after ∈ Vocab.weightCellValues ∧
        Chained (some row.after) rest

instance : ∀ weight rows, Decidable (Chained weight rows)
  | _, [] => .isTrue trivial
  | weight, row :: rest =>
      have : Decidable (Chained (some row.after) rest) := instDecidableChained (some row.after) rest
      inferInstanceAs (Decidable (SpellsWeight row.before weight ∧
        row.after ∈ Vocab.weightCellValues ∧ Chained (some row.after) rest))

def lastWeight (weight : Option Str) (rows : List ResolutionRecord) : Option Str :=
  ((rows.map ResolutionRecord.after).getLast?).or weight

def declaredWeight (companion : CompanionBody) (hid : Str) : Option (Option Str) :=
  ((allHypotheses companion).get? hid).map HypothesisRecord.weight

def WeightsChained (companion : CompanionBody) (hid : Str) : Prop :=
  rowsOf hid (iterResolutions companion) = [] ∨
    ∃ weight, declaredWeight companion hid = some weight ∧
      (∀ cell ∈ weight, cell ∈ Vocab.weightCellValues) ∧
      Chained weight (rowsOf hid (iterResolutions companion))

def StandsConfirmed (companion : CompanionBody) (hid : Str) : Prop :=
  hid ∈ (confirmedAndStanding companion).map Prod.fst

def MovedToConfirmed (companion : CompanionBody) (hid : Str) : Prop :=
  ∃ row ∈ rowsOf hid (iterResolutions companion), resolutionMove row = Vocab.confirmedWeight

def EndsConfirmed (companion : CompanionBody) (hid : Str) : Prop :=
  (finalWeights companion).get? hid = some (some Vocab.confirmedWeight)

/-- Declared at `++`, and its last row leaves it there. -/
def ReturnsToDeclaredConfirmed (companion : CompanionBody) (hid : Str) : Prop :=
  declaredWeight companion hid = some (some Vocab.confirmedWeight) ∧
    ((rowsOf hid (iterResolutions companion)).getLast?).map ResolutionRecord.after =
      some Vocab.confirmedWeight

def countedMove (row : ResolutionRecord) : Int :=
  if resolutionMove row = Vocab.confirmedWeight ∧ strip row.before ≠ Vocab.confirmedWeight then 1
  else if strip row.before = Vocab.confirmedWeight ∧ strip row.after ≠ Vocab.confirmedWeight ∧
      strip row.after ∈ Vocab.weightCellValues then -1
  else 0

theorem rows_of_cons (hid : Str) (entry : Str × ResolutionRecord)
    (entries : List (Str × ResolutionRecord)) :
    rowsOf hid (entry :: entries) =
      if entry.2.hypothesis = hid then entry.2 :: rowsOf hid entries else rowsOf hid entries := by
  unfold rowsOf
  rw [List.map_cons, List.filter_cons]
  simp

theorem step_net (standing : Standing) (entry : Str × ResolutionRecord) (hid : Str) :
    ((standing.step entry).net.get? hid).getD 0 =
      (standing.net.get? hid).getD 0 +
        if entry.2.hypothesis = hid then countedMove entry.2 else 0 := by
  unfold Standing.step countedMove
  dsimp only
  by_cases own : entry.2.hypothesis = hid
  · rw [if_pos own]
    split
    · simp [Dict.get_modify, own]
    · split
      · simp [Dict.get_modify, own, sub_eq_add_neg]
      · simp
  · rw [if_neg own, add_zero]
    split
    · rw [Dict.get_modify, if_neg own]
    · split
      · rw [Dict.get_modify, if_neg own]
      · rfl

theorem net_counted (hid : Str) (entries : List (Str × ResolutionRecord)) (standing : Standing) :
    ((entries.foldl Standing.step standing).net.get? hid).getD 0 =
      (standing.net.get? hid).getD 0 + ((rowsOf hid entries).map countedMove).sum := by
  induction entries generalizing standing with
  | nil => simp [rowsOf]
  | cons entry rest ih =>
      rw [List.foldl_cons, ih, step_net, rows_of_cons]
      by_cases own : entry.2.hypothesis = hid
      · rw [if_pos own, if_pos own, List.map_cons, List.sum_cons, add_assoc]
      · rw [if_neg own, if_neg own, add_zero]

theorem step_confirmed (standing : Standing) (entry : Str × ResolutionRecord) (hid : Str) :
    (standing.step entry).confirmed.contains hid = true ↔
      standing.confirmed.contains hid = true ∨
        entry.2.hypothesis = hid ∧ resolutionMove entry.2 = Vocab.confirmedWeight := by
  unfold Standing.step
  dsimp only
  by_cases entered : resolutionMove entry.2 = Vocab.confirmedWeight
  · rw [if_pos entered, Dict.contains, Dict.contains, Dict.get_set_default]
    by_cases own : entry.2.hypothesis = hid
    · cases standing.confirmed.get? hid <;> simp [own, entered]
    · simp [own]
  · rw [if_neg entered]
    simp [entered]

theorem confirmed_met (hid : Str) (entries : List (Str × ResolutionRecord)) (standing : Standing) :
    (entries.foldl Standing.step standing).confirmed.contains hid = true ↔
      standing.confirmed.contains hid = true ∨
        ∃ row ∈ rowsOf hid entries, resolutionMove row = Vocab.confirmedWeight := by
  induction entries generalizing standing with
  | nil => simp [rowsOf]
  | cons entry rest ih =>
      rw [List.foldl_cons, ih, step_confirmed, rows_of_cons]
      by_cases own : entry.2.hypothesis = hid
      · simp [own, or_assoc]
      · simp [own]

theorem stands_iff (companion : CompanionBody) (hid : Str) :
    StandsConfirmed companion hid ↔ MovedToConfirmed companion hid ∧
      0 < ((rowsOf hid (iterResolutions companion)).map countedMove).sum := by
  have met := confirmed_met hid (iterResolutions companion) ⟨Dict.empty, Dict.empty⟩
  have counted := net_counted hid (iterResolutions companion) ⟨Dict.empty, Dict.empty⟩
  have fresh : (Dict.empty : Dict Str Str).contains hid = true ↔ False := by
    simp [Dict.contains]
  rw [fresh, false_or, Dict.contains_iff] at met
  simp only [Dict.get_empty, Option.getD_none, zero_add] at counted
  unfold StandsConfirmed MovedToConfirmed confirmedAndStanding
  rw [← met, ← counted]
  simp only [List.mem_map, List.mem_filter, decide_eq_true_eq, Dict.keys]
  constructor
  · rintro ⟨entry, ⟨member, positive⟩, rfl⟩
    exact ⟨⟨entry, member, rfl⟩, positive⟩
  · rintro ⟨⟨entry, member, rfl⟩, positive⟩
    exact ⟨entry, ⟨member, positive⟩, rfl⟩

section Chains

def standingAt (weight : Option Str) : Int := if weight = some Vocab.confirmedWeight then 1 else 0

theorem standing_between (start last : Option Str) :
    0 < standingAt last - standingAt start ↔
      last = some Vocab.confirmedWeight ∧ start ≠ some Vocab.confirmedWeight := by
  unfold standingAt
  by_cases ends : last = some Vocab.confirmedWeight
  · rw [if_pos ends]
    by_cases starts : start = some Vocab.confirmedWeight
    · simp [starts]
    · simp [ends, starts]
  · rw [if_neg ends]
    by_cases starts : start = some Vocab.confirmedWeight
    · simp [starts]
    · simp [ends, starts]

theorem cell_values_bare : ∀ cell ∈ Vocab.weightCellValues, strip cell = cell := by decide

theorem confirmed_bucket : Vocab.weightBuckets.contains Vocab.confirmedWeight = true := by decide

theorem move_to_confirmed (row : ResolutionRecord) :
    resolutionMove row = Vocab.confirmedWeight ↔ strip row.after = Vocab.confirmedWeight := by
  unfold resolutionMove
  dsimp only
  constructor
  · intro moved
    split at moved
    · exact moved
    · exact absurd moved (by decide)
  · intro confirmed
    rw [confirmed, if_pos confirmed_bucket]

theorem last_row_confirmed (weight : Option Str) (rows : List ResolutionRecord) :
    rows.getLast?.map ResolutionRecord.after = some Vocab.confirmedWeight ↔
      (∃ row ∈ rows, resolutionMove row = Vocab.confirmedWeight) ∧
        lastWeight weight rows = some Vocab.confirmedWeight := by
  unfold lastWeight
  rw [List.getLast?_map]
  cases last : rows.getLast? with
  | none => simp [List.getLast?_eq_none_iff.mp last]
  | some row =>
      have member : row ∈ rows := List.mem_of_getLast? last
      simp only [Option.map_some, Option.some.injEq, Option.some_or]
      constructor
      · intro confirmed
        exact ⟨⟨row, member, (move_to_confirmed row).mpr (by rw [confirmed]; decide)⟩, confirmed⟩
      · exact And.right

theorem null_not_confirmed : Vocab.confirmedWeight ∉ Vocab.nullWeightCells := by decide

theorem spelled_known {cell : Str} {weight : Option Str} (spells : SpellsWeight cell weight)
    (known : ∀ held ∈ weight, held ∈ Vocab.weightCellValues) :
    cell ∈ Vocab.weightCellValues := by
  cases weight with
  | none => exact List.mem_append_right _ spells
  | some weight =>
      rw [SpellsWeight] at spells
      exact spells ▸ known weight rfl

theorem spelled_confirmed {cell : Str} {weight : Option Str} (spells : SpellsWeight cell weight) :
    cell = Vocab.confirmedWeight ↔ weight = some Vocab.confirmedWeight := by
  cases weight with
  | none =>
      have apart : cell ≠ Vocab.confirmedWeight := fun same =>
        null_not_confirmed (same ▸ spells)
      simp [apart]
  | some weight =>
      rw [SpellsWeight] at spells
      rw [spells, Option.some.injEq]

theorem counted_between {row : ResolutionRecord} {weight : Option Str}
    (spells : SpellsWeight row.before weight)
    (known : ∀ held ∈ weight, held ∈ Vocab.weightCellValues)
    (after : row.after ∈ Vocab.weightCellValues) :
    countedMove row = standingAt (some row.after) - standingAt weight := by
  have before := spelled_confirmed spells
  unfold countedMove standingAt
  simp only [move_to_confirmed, cell_values_bare _ (spelled_known spells known),
    cell_values_bare _ after, ne_eq, before, Option.some.injEq]
  by_cases ends : row.after = Vocab.confirmedWeight
  · by_cases starts : weight = some Vocab.confirmedWeight
    · simp [ends, starts]
    · simp [ends, starts]
  · by_cases starts : weight = some Vocab.confirmedWeight
    · simp [ends, starts, after]
    · simp [ends, starts]

theorem last_weight_cons (weight : Option Str) (row : ResolutionRecord)
    (rows : List ResolutionRecord) :
    lastWeight weight (row :: rows) = lastWeight (some row.after) rows := by
  unfold lastWeight
  rw [List.map_cons, List.getLast?_cons]
  cases (rows.map ResolutionRecord.after).getLast? <;> rfl

theorem chain_counted {weight : Option Str} {rows : List ResolutionRecord}
    (known : ∀ held ∈ weight, held ∈ Vocab.weightCellValues) (chained : Chained weight rows) :
    (rows.map countedMove).sum = standingAt (lastWeight weight rows) - standingAt weight := by
  induction rows generalizing weight with
  | nil => simp [lastWeight]
  | cons row rest ih =>
      obtain ⟨starts, after, later⟩ := chained
      have carried : ∀ held ∈ some row.after, held ∈ Vocab.weightCellValues := by
        rintro held ⟨⟩
        exact after
      rw [List.map_cons, List.sum_cons, ih carried later, counted_between starts known after,
        last_weight_cons]
      omega

end Chains

theorem fold_weights (declared : Dict Str HypothesisRecord) (hid : Str)
    (given : declared.contains hid = true) (entries : List (Str × ResolutionRecord))
    (held : Dict Str (Option Str)) (weight : Option Str) (holds : held.get? hid = some weight) :
    (entries.foldl (fun held move =>
      if declared.contains move.2.hypothesis then held.set move.2.hypothesis (some move.2.after)
      else held) held).get? hid = some (lastWeight weight (rowsOf hid entries)) := by
  induction entries generalizing held weight with
  | nil => simpa [lastWeight, rowsOf] using holds
  | cons entry rest ih =>
      rw [List.foldl_cons, rows_of_cons]
      by_cases own : entry.2.hypothesis = hid
      · rw [if_pos own, own, if_pos given, last_weight_cons]
        exact ih _ _ (Dict.get_set_self held hid (some entry.2.after))
      · rw [if_neg own]
        apply ih
        split
        · rw [Dict.get_set_of_ne held _ own]
          exact holds
        · exact holds

theorem final_weight_of_chain {companion : CompanionBody} {hid : Str} {weight : Option Str}
    (declared : declaredWeight companion hid = some weight) :
    (finalWeights companion).get? hid =
      some (lastWeight weight (rowsOf hid (iterResolutions companion))) := by
  unfold declaredWeight at declared
  obtain ⟨hyp, found, weighs⟩ := Option.map_eq_some_iff.mp declared
  unfold finalWeights
  dsimp only
  apply fold_weights
  · rw [Dict.contains, found]
    rfl
  · rw [Dict.get_foldl_set_values, found, Option.map_some, weighs]

theorem standing_matches_end_iff (companion : CompanionBody) (hid : Str)
    (chained : WeightsChained companion hid) :
    (StandsConfirmed companion hid ↔
        MovedToConfirmed companion hid ∧ EndsConfirmed companion hid) ↔
      ¬ ReturnsToDeclaredConfirmed companion hid := by
  rw [stands_iff]
  rcases chained with none | ⟨weight, declared, known, chained⟩
  · have unmoved : ¬ MovedToConfirmed companion hid := by
      simp [MovedToConfirmed, none]
    have stays : ¬ ReturnsToDeclaredConfirmed companion hid := by
      simp [ReturnsToDeclaredConfirmed, none]
    simp [unmoved, stays]
  · have counted := chain_counted known chained
    have ends : EndsConfirmed companion hid ↔
        lastWeight weight (rowsOf hid (iterResolutions companion)) =
          some Vocab.confirmedWeight := by
      rw [EndsConfirmed, final_weight_of_chain declared, Option.some.injEq]
    have returns : ReturnsToDeclaredConfirmed companion hid ↔
        weight = some Vocab.confirmedWeight ∧
          MovedToConfirmed companion hid ∧ EndsConfirmed companion hid := by
      rw [ReturnsToDeclaredConfirmed, declared, Option.some.injEq, last_row_confirmed weight, ends]
      rfl
    have positive : 0 < ((rowsOf hid (iterResolutions companion)).map countedMove).sum ↔
        EndsConfirmed companion hid ∧ weight ≠ some Vocab.confirmedWeight := by
      rw [counted, ends, standing_between]
    rw [positive, returns]
    tauto

def weighedText (weight : Str) (rows : List Str) : Str :=
  message ["# t\n```invlang\n",
    ":H hypothesize.hypotheses [id|name|attached_to|rel|parent_type|parent_class|",
    "integrity_waived?|weight|status]\n",
    "h-001|?web-shell|v-001|spawned|process|shell||", weight, "|active\n",
    ":L findings [id|name]\nl-001|probe\nl-002|confirm\n:T resolutions\n", message rows,
    "```\n"]

def confirmedText : Str := weighedText "null" ["h-001 null → ++ [l-001 p1 severe ⟂ e-001]\n"]

def probeRow (before after : Str) (severity : Str) : ResolutionRecord :=
  { hypothesis := "h-001", before := before, after := after, severityOfTest := severity,
    supportingEdges := ["e-001"], matchedPredictionIds := ["p1"], matchedRefutationIds := [],
    supportingMarker := none, reasoning := none }

theorem confirmed_read :
    declaredWeight (@companionOf asciiDatabase confirmedText) "h-001" = some none ∧
      rowsOf "h-001" (iterResolutions (@companionOf asciiDatabase confirmedText)) =
        [probeRow "null" "++" "severe"] := by
  decide +kernel

theorem confirmed_stands :
    (StandsConfirmed (@companionOf asciiDatabase confirmedText) "h-001" ↔
        MovedToConfirmed (@companionOf asciiDatabase confirmedText) "h-001" ∧
          EndsConfirmed (@companionOf asciiDatabase confirmedText) "h-001") ↔
      ¬ ReturnsToDeclaredConfirmed (@companionOf asciiDatabase confirmedText) "h-001" := by
  obtain ⟨declared, rows⟩ := confirmed_read
  apply standing_matches_end_iff
  exact .inr ⟨none, declared, by simp, by rw [rows]; decide⟩

/-- Declared at `++`, withdrawn to `+`, and re-asserted. -/
def reassertedText : Str := weighedText "++"
  ["h-001 ++ → + [l-001 p1 moderate ⟂ e-001]\n", "h-001 + → ++ [l-002 p1 severe ⟂ e-001]\n"]

theorem reasserted_read :
    declaredWeight (@companionOf asciiDatabase reassertedText) "h-001" =
        some (some ("++" : Str)) ∧
      rowsOf "h-001" (iterResolutions (@companionOf asciiDatabase reassertedText)) =
        [probeRow "++" "+" "moderate", probeRow "+" "++" "severe"] ∧
      ¬ StandsConfirmed (@companionOf asciiDatabase reassertedText) "h-001" := by
  unfold StandsConfirmed
  decide +kernel

/-- The re-asserted hypothesis was moved to `++` and ends there, and does not stand at it. -/
theorem reasserted_does_not_stand :
    WeightsChained (@companionOf asciiDatabase reassertedText) "h-001" ∧
      MovedToConfirmed (@companionOf asciiDatabase reassertedText) "h-001" ∧
      EndsConfirmed (@companionOf asciiDatabase reassertedText) "h-001" ∧
      ¬ StandsConfirmed (@companionOf asciiDatabase reassertedText) "h-001" := by
  obtain ⟨declared, rows, apart⟩ := reasserted_read
  refine ⟨.inr ⟨_, declared, by decide, by rw [rows]; decide⟩, ?_, ?_, apart⟩
  · rw [MovedToConfirmed, rows]
    decide
  · rw [EndsConfirmed, final_weight_of_chain declared, rows]
    rfl

end Defender.Invlang
