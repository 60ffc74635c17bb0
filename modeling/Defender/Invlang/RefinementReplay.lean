import Defender.Invlang.AppendedDocument
import Defender.Invlang.EffectiveState
import Defender.Invlang.LeadOrder

/-!
# The order in which refinements replay

The parser keeps one value per lead, target and key, the one of the lead's last
row, and the fold replays leads in the order first mentioned. So a slot ends on
the row of the last mentioned lead whose own last row of the slot is not blank,
which need not be the last row of the document.
-/

namespace Defender.Invlang

open Defender.Python Defender.Library.OrderedDict

def Refinement.refines (target key : Str) (row : Refinement) : Bool :=
  row.target == target && row.key == key

def lastWritten (rows : List Refinement) (target key : Str) : Option Str :=
  ((rows.filter fun row => row.refines target key && !isBlank row.value).getLast?).map
    Refinement.value

def lastRowOf (rows : List Refinement) (target key lead : Str) : Option Refinement :=
  (rows.filter fun row => row.lead == lead && row.refines target key).getLast?

def leftBy (rows : List Refinement) (target key lead : Str) : Option Str :=
  ((lastRowOf rows target key lead).map Refinement.value).filter fun value => !isBlank value

def enteredValue (entries : List AttributeUpdate) (target key : Str) : Option Str :=
  (entries.find? fun entry => entry.target == target).bind fun entry => entry.updates.get? key

theorem entered_value_add (entries : List AttributeUpdate) (target key value : Str)
    (other name : Str) : enteredValue (addAttrUpdate target key value entries) other name =
      if target = other ∧ key = name then some value else enteredValue entries other name := by
  induction entries with
  | nil =>
      by_cases here : target = other
      · by_cases same : key = name
        · simp [addAttrUpdate, enteredValue, here, same]
        · simp [addAttrUpdate, enteredValue, here, same, Dict.get_set]
      · simp [addAttrUpdate, enteredValue, here]
  | cons entry rest ih =>
      unfold enteredValue at ih ⊢
      by_cases own : entry.target = target
      · by_cases here : target = other
        · by_cases same : key = name
          · simp [addAttrUpdate, own, here, same]
          · simp [addAttrUpdate, own, here, same, Dict.get_set]
        · simp [addAttrUpdate, own, here]
      · by_cases there : entry.target = other
        · have apart : target ≠ other := fun same => own (there.trans same.symm)
          rw [addAttrUpdate, if_neg own]
          simp [there, apart]
        · simp [addAttrUpdate, own, there, ih]

theorem targets_add (target key value : Str) (entries : List AttributeUpdate) :
    (addAttrUpdate target key value entries).map AttributeUpdate.target =
      enroll (entries.map AttributeUpdate.target) target := by
  induction entries with
  | nil => rfl
  | cons entry rest ih =>
      unfold enroll at ih ⊢
      by_cases own : entry.target = target
      · simp [addAttrUpdate, own]
      · have apart : target ≠ entry.target := Ne.symm own
        simp only [addAttrUpdate, if_neg own, List.map_cons, ih, List.mem_cons, apart, false_or]
        split
        · rfl
        · rfl

theorem settled_by_entries (slot : Slot) (target : Str) {entries : List AttributeUpdate}
    (distinct : (entries.map AttributeUpdate.target).Nodup) :
    entries.filterMap (settledBy slot target) =
      ((enteredValue entries target slot.key).filter fun value => !isBlank value).toList := by
  induction entries with
  | nil => rfl
  | cons entry rest ih =>
      rw [List.map_cons, List.nodup_cons] at distinct
      rw [List.filterMap_cons, ih distinct.2]
      by_cases here : entry.target = target
      · have absent : rest.find? (fun entry => entry.target == target) = none := by
          rw [List.find?_eq_none]
          intro other member same
          exact distinct.1 (List.mem_map.mpr ⟨other, member, (eq_of_beq same).trans here.symm⟩)
        have later : enteredValue rest target slot.key = none := by
          rw [enteredValue, absent]
          rfl
        have first : enteredValue (entry :: rest) target slot.key =
            entry.updates.get? slot.key := by
          simp [enteredValue, here]
        rw [later, first, settledBy, if_pos here]
        cases (entry.updates.get? slot.key).filter fun value => !isBlank value with
        | none => rfl
        | some value => rfl
      · simp [settledBy, enteredValue, here]

theorem targets_entered (id : Str) (rows : List Refinement) {held : List AttributeUpdate}
    (distinct : (held.map AttributeUpdate.target).Nodup) :
    ((rows.foldl (enterRefinement id) held).map AttributeUpdate.target).Nodup := by
  induction rows generalizing held with
  | nil => exact distinct
  | cons row rest ih =>
      apply ih
      unfold enterRefinement
      split
      · rw [targets_add]
        exact enroll_nodup distinct row.target
      · exact distinct

/-- A lead's entry is the value of its last row of the slot. -/
theorem entered_value_last (id target key : Str) (rows : List Refinement)
    (held : List AttributeUpdate) :
    enteredValue (rows.foldl (enterRefinement id) held) target key =
      ((lastRowOf rows target key id).map Refinement.value).or (enteredValue held target key) := by
  induction rows generalizing held with
  | nil => rfl
  | cons row rest ih =>
      have entered : enteredValue (enterRefinement id held row) target key =
          if row.lead = id ∧ row.target = target ∧ row.key = key then some row.value
          else enteredValue held target key := by
        unfold enterRefinement
        by_cases own : row.lead = id
        · simp [own, entered_value_add]
        · simp [own]
      have accepted : (row.lead == id && row.refines target key) = true ↔
          row.lead = id ∧ row.target = target ∧ row.key = key := by
        simp [Refinement.refines]
      rw [List.foldl_cons, ih, entered]
      unfold lastRowOf
      rw [List.filter_cons]
      by_cases here : row.lead = id ∧ row.target = target ∧ row.key = key
      · rw [if_pos here, if_pos (accepted.mpr here), List.getLast?_cons]
        cases (rest.filter fun row => row.lead == id && row.refines target key).getLast? with
        | none => rfl
        | some last => rfl
      · rw [if_neg here, if_neg fun found => here (accepted.mp found)]

section Replaying

variable [UnicodeDatabase]

theorem lead_settles (blocks : List Block) (slot : Slot) (target id : Str) :
    (leadUpdates (projectBlocks blocks) id).filterMap (settledBy slot target) =
      (leftBy (refinementRows blocks) target slot.key id).toList := by
  have distinct : (((refinementRows blocks).foldl (enterRefinement id) []).map
      AttributeUpdate.target).Nodup :=
    targets_entered id (refinementRows blocks) (by simp)
  rw [lead_updates_entered, settled_by_entries slot target distinct, entered_value_last]
  unfold leftBy
  cases lastRowOf (refinementRows blocks) target slot.key id with
  | none => rfl
  | some row => rfl

/-- The values the leads leave in a slot, in the order the leads are first mentioned. -/
def valuesLeft (blocks : List Block) (target key : Str) : List Str :=
  (dedup (leadMentions blocks)).filterMap (leftBy (refinementRows blocks) target key)

theorem effective_value_left (blocks : List Block) (slot : Slot) (target : Str) :
    slotValue slot (effectiveVertexState (projectBlocks blocks).companion) target =
      ((valuesLeft blocks target slot.key).getLast?).or
        (slotValue slot (seedVertexState (projectBlocks blocks).companion) target) := by
  have entered : (iterAttrUpdates (projectBlocks blocks).companion).filterMap
      (settledBy slot target) = valuesLeft blocks target slot.key := by
    rw [iter_attr_updates_keys, findings_keys_mentions, List.filterMap_flatMap]
    simp only [lead_settles]
    exact (List.filterMap_eq_flatMap_toList _ _).symm
  rw [slot_value_effective, entered]

end Replaying

/-- The slots a refinement can address. -/
inductive SlotName where
  | classification
  | identifier
  | attr (name : Str)

def SlotName.slot : SlotName → Slot
  | .classification => .classification
  | .identifier => .identifier
  | .attr name => .attr name

section Documents

variable [UnicodeDatabase]

def LastRowWins (text : Str) : Prop :=
  ∀ (name : SlotName) (target value : Str),
    lastWritten (refinementRows (iterBlocks text)) target name.slot.key = some value →
    slotValue name.slot (effectiveVertexState (companionOf text)) target = some value

/-- The last mentioned lead that leaves a value in the slot leaves this one; where no
lead leaves any, the vertex is declared with it. -/
def LeadsAgree (text : Str) (slot : Slot) (target value : Str) : Prop :=
  (∀ left, (valuesLeft (iterBlocks text) target slot.key).getLast? = some left → left = value) ∧
    (valuesLeft (iterBlocks text) target slot.key = [] →
      slotValue slot (seedVertexState (companionOf text)) target = some value)

/-- Refinements replay in document order exactly when, in every slot, the replay by
leads ends on the last written row. -/
theorem last_row_wins_iff (text : Str) : LastRowWins text ↔
    ∀ (name : SlotName) (target value : Str),
      lastWritten (refinementRows (iterBlocks text)) target name.slot.key = some value →
      LeadsAgree text name.slot target value := by
  have step : ∀ (slot : Slot) (target value : Str),
      slotValue slot (effectiveVertexState (companionOf text)) target = some value ↔
        LeadsAgree text slot target value := by
    intro slot target value
    unfold LeadsAgree
    rw [companion_of_blocks, effective_value_left]
    cases left : valuesLeft (iterBlocks text) target slot.key with
    | nil => simp
    | cons first others => simp [List.getLast?_cons]
  unfold LastRowWins
  simp only [step]

end Documents

/-- The lead mentioned first refines the class last. -/
def crossedText : Str :=
  message ["```invlang\n", ":R attr_updates [resolved_by|target|key|value]\n",
    "l-001|v-001|ident|h-1\n", "l-002|v-001|class|bastion\n", "l-001|v-001|class|kiosk\n",
    "```\n"]

/-- The class is refined to `kiosk` last and reads `bastion`. -/
theorem last_row_loses_to_later_lead : ¬ @LastRowWins asciiDatabase crossedText := by
  intro wins
  have last : lastWritten (@refinementRows asciiDatabase (@iterBlocks asciiDatabase crossedText)) "v-001"
      slotClass = some "kiosk" := by
    decide +kernel
  have read := wins .classification "v-001" "kiosk" last
  exact absurd read (by decide +kernel)

end Defender.Invlang
