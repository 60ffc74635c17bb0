import Defender.Invlang.AppendedDocument
import Defender.Invlang.EffectiveState
import Defender.Invlang.LeadOrder
import Defender.Invlang.Validate.AppendOnly

/-!
# When settled values stay settled

An append without refinement rows changes effective state only through declared
rows. The class of a vertex, and its identifier, is the one of the first settled
row in walk order, so an append that adds a settled row at a site walked earlier
replaces it.
-/

namespace Defender.Invlang

open Defender.Python Defender.Library.OrderedDict Defender.Library.Growth
open Defender.Library.SiteWalk

section Unrefined

variable [UnicodeDatabase]

def addedBlocks (text more : Str) : List Block :=
  (iterBlocks (text ++ more)).drop (iterBlocks text).length

def NoRefinementRows (blocks : List Block) : Prop :=
  ∀ block ∈ blocks, block.tag = 'R' → block.name = ResolutionBucket.attrUpdates.blockName →
    block.rows = []

omit [UnicodeDatabase] in
theorem refining_block {block : Block}
    (kind : Projector.blockKind block = .resolution .attrUpdates) :
    block.tag = 'R' ∧ block.name = ResolutionBucket.attrUpdates.blockName := by
  unfold Projector.blockKind at kind
  repeat' split at kind
  all_goals try contradiction
  rename_i bucket found
  cases kind
  split at found
  · rename_i tagged
    have named := List.find?_some found
    exact ⟨tagged, (of_decide_eq_true named).symm⟩
  · contradiction

theorem block_refines_nothing {block : Block}
    (none : block.tag = 'R' → block.name = ResolutionBucket.attrUpdates.blockName →
      block.rows = []) : blockRefinements block = [] := by
  unfold blockRefinements
  split
  · rename_i kind
    rcases refining_block kind with ⟨tagged, named⟩
    rw [none tagged named]
    rfl
  · rfl

theorem attr_updates_kept (blocks added : List Block) (unrefined : NoRefinementRows added) :
    iterAttrUpdates (projectBlocks (blocks ++ added)).companion =
      iterAttrUpdates (projectBlocks blocks).companion := by
  have rows : refinementRows added = [] := by
    apply List.flatMap_eq_nil_iff.mpr
    intro block member
    exact block_refines_nothing (unrefined block member)
  have same : leadUpdates (projectBlocks (blocks ++ added)) = leadUpdates (projectBlocks blocks) := by
    funext id
    rw [lead_updates_entered, lead_updates_entered, refinementRows, List.flatMap_append]
    change (refinementRows blocks ++ refinementRows added).foldl _ _ = _
    rw [rows, List.append_nil]
  rcases (project_blocks_grow blocks added).findings.keys with ⟨fresh, keys⟩
  rw [iter_attr_updates_keys, iter_attr_updates_keys, same, ← keys, List.flatMap_append]
  -- a lead met only in the append holds no refinement
  have none : fresh.flatMap (leadUpdates (projectBlocks blocks)) = [] := by
    apply List.flatMap_eq_nil_iff.mpr
    intro id member
    have distinct := (projectBlocks (blocks ++ added)).findings.nodup
    change (projectBlocks (blocks ++ added)).findings.keys.Nodup at distinct
    rw [← keys] at distinct
    have unmet : id ∉ (projectBlocks blocks).findings.keys :=
      fun met => List.disjoint_of_nodup_append distinct met member
    rw [← Dict.contains_iff, Dict.contains, Bool.not_eq_true, Option.isSome_eq_false_iff,
      Option.isNone_iff_eq_none] at unmet
    rw [leadUpdates, unmet]
    rfl
  rw [none, List.append_nil]

end Unrefined

section Slots

variable (slot : DeclaredSlot)

def SettledStays (before after : CompanionBody) : Prop :=
  ∀ id held, (effectiveVertexState before).get? id = some held →
    slot.settled (slot.held held) = true →
    ∃ later, (effectiveVertexState after).get? id = some later ∧ slot.held later = slot.held held

/-- Unless the slot of a vertex is refined, the first settled row added ahead of
its first settled row, if any, says the same. -/
def SettledAheadAgrees (before after : CompanionBody) : Prop :=
  ∀ id item added, (∀ update ∈ iterAttrUpdates before, settledBy slot.toSlot id update = none) →
    (allVertices before).find? (settledRecord slot id) = some item →
    (addedAhead (settledRecord slot id) (vertexSites before) (vertexSites after)).find?
      (settledRecord slot id) = some added →
    slot.cell added = slot.cell item

theorem held_iff_slot_value (state : StateMap) (id : Str) {value : Str}
    (final : slot.settled value = true) :
    (state.get? id).map slot.held = some value ↔
      slotValue slot.toSlot state id = some value := by
  unfold slotValue
  rw [slot.reads]
  cases state.get? id with
  | none =>
      have blank : slot.held .blank ≠ value := by
        intro same
        rw [← same, slot.blank] at final
        contradiction
      simp [blank]
  | some held => simp

theorem effective_settled_iff (companion : CompanionBody) (id : Str) {value : Str}
    (final : slot.settled value = true) :
    ((effectiveVertexState companion).get? id).map slot.held = some value ↔
      (((iterAttrUpdates companion).filterMap (settledBy slot.toSlot id)).getLast?).or
        (((seedVertexState companion).get? id).map slot.held) = some value := by
  rw [held_iff_slot_value slot _ id final, slot_value_effective]
  cases ((iterAttrUpdates companion).filterMap (settledBy slot.toSlot id)).getLast? with
  | none => rw [Option.none_or, Option.none_or, held_iff_slot_value slot _ id final]
  | some refined => rfl

variable {slot} {restated : Restatable → Prop} {before after : CompanionBody}

theorem settled_stays_iff_map : SettledStays slot before after ↔
    ∀ id value, slot.settled value = true →
      ((effectiveVertexState before).get? id).map slot.held = some value →
      ((effectiveVertexState after).get? id).map slot.held = some value := by
  constructor
  · intro stays id value final found
    rcases Option.map_eq_some_iff.mp found with ⟨held, here, rfl⟩
    rcases stays id held here final with ⟨later, there, same⟩
    rw [there, Option.map_some, same]
  · intro stays id held here final
    have found := stays id (slot.held held) final (by rw [here, Option.map_some])
    rcases Option.map_eq_some_iff.mp found with ⟨later, there, same⟩
    exact ⟨later, there, same⟩

/-- Without a refinement the first settled row decides, before and after. -/
theorem first_settled_kept_iff (grows : CompanionGrows restated before after) (id : Str) :
    (∀ value, slot.settled value = true →
      ((seedVertexState before).get? id).map slot.held = some value →
      ((seedVertexState after).get? id).map slot.held = some value) ↔
    ∀ item added, (allVertices before).find? (settledRecord slot id) = some item →
      (addedAhead (settledRecord slot id) (vertexSites before) (vertexSites after)).find?
        (settledRecord slot id) = some added → slot.cell added = slot.cell item := by
  have settles : ∀ {record : VertexRecord}, settledRecord slot id record = true →
      slot.settled (slot.cell record) = true :=
    fun accepted => (Bool.and_eq_true_iff.mp accepted).2
  have walk : ∀ item, (allVertices before).find? (settledRecord slot id) = some item →
      (allVertices after).find? (settledRecord slot id) =
        ((addedAhead (settledRecord slot id) (vertexSites before) (vertexSites after)).find?
          (settledRecord slot id)).or (some item) := by
    intro item found
    rw [all_vertices_sites] at found ⊢
    exact find_grown (vertex_sites_grow grows) found
  constructor
  · intro kept item added found ahead
    have final := settles (List.find?_some found)
    have later := kept (slot.cell item) final
      ((seed_settled_iff slot before id final).mpr (by rw [found, Option.map_some]))
    rw [seed_settled_iff slot after id final, walk item found, ahead] at later
    simpa using later
  · intro agrees value final declared
    rw [seed_settled_iff slot before id final] at declared
    rcases Option.map_eq_some_iff.mp declared with ⟨item, found, rfl⟩
    rw [seed_settled_iff slot after id final, walk item found]
    cases ahead : (addedAhead (settledRecord slot id) (vertexSites before)
        (vertexSites after)).find? (settledRecord slot id) with
    | none => rfl
    | some added => simp [agrees item added found ahead]

theorem settled_stays_iff_agrees (grows : CompanionGrows restated before after)
    (same : iterAttrUpdates after = iterAttrUpdates before) :
    SettledStays slot before after ↔ SettledAheadAgrees slot before after := by
  rw [settled_stays_iff_map]
  constructor
  · intro stays id item added unrefined
    have none : (iterAttrUpdates before).filterMap (settledBy slot.toSlot id) = [] :=
      List.filterMap_eq_nil_iff.mpr unrefined
    apply (first_settled_kept_iff grows id).mp
    intro value final declared
    have later := stays id value final (by
      rw [effective_settled_iff slot before id final, none]
      exact declared)
    rw [effective_settled_iff slot after id final, same, none] at later
    exact later
  · intro agrees id value final held
    rw [effective_settled_iff slot before id final] at held
    rw [effective_settled_iff slot after id final, same]
    cases refined : (iterAttrUpdates before).filterMap (settledBy slot.toSlot id) with
    | nil =>
        rw [refined] at held
        have unrefined := List.filterMap_eq_nil_iff.mp refined
        exact (first_settled_kept_iff grows id).mpr
          (fun item added => agrees id item added unrefined) value final held
    | cons first others =>
        rw [refined] at held
        rw [List.getLast?_cons] at held ⊢
        exact held

end Slots

section Documents

variable [UnicodeDatabase]

def ClassesStay (before after : CompanionBody) : Prop :=
  ∀ id held, (effectiveVertexState before).get? id = some held →
    isBlank held.classification = false → hasOpenSlot held.classification = false →
    ∃ later, (effectiveVertexState after).get? id = some later ∧
      later.classification = held.classification

def IdentifiersStay (before after : CompanionBody) : Prop :=
  ∀ id held, (effectiveVertexState before).get? id = some held →
    isBlank held.identifier = false → isIdentOpen held.identifier = false →
    ∃ later, (effectiveVertexState after).get? id = some later ∧
      later.identifier = held.identifier

omit [UnicodeDatabase] in
theorem classes_stay_iff (before after : CompanionBody) :
    ClassesStay before after ↔ SettledStays .classification before after := by
  unfold ClassesStay SettledStays
  simp [DeclaredSlot.classification, classUnsettled]

omit [UnicodeDatabase] in
theorem identifiers_stay_iff (before after : CompanionBody) :
    IdentifiersStay before after ↔ SettledStays .identifier before after := by
  unfold IdentifiersStay SettledStays
  simp [DeclaredSlot.identifier, identUnsettled]

/-- Under an append without refinement rows, settled classes and identifiers stay
exactly when no settled row that is added ahead disagrees. -/
theorem settled_stays_under_append_iff (text more : Str)
    (unrefined : NoRefinementRows (addedBlocks text more)) :
    ClassesStay (companionOf text) (companionOf (text ++ more)) ∧
        IdentifiersStay (companionOf text) (companionOf (text ++ more)) ↔
      SettledAheadAgrees .classification (companionOf text) (companionOf (text ++ more)) ∧
        SettledAheadAgrees .identifier (companionOf text) (companionOf (text ++ more)) := by
  have grows := companion_append_grows text more
  have same : iterAttrUpdates (companionOf (text ++ more)) = iterAttrUpdates (companionOf text) := by
    rcases iter_blocks_append text more with ⟨added, blocks⟩
    have tail : addedBlocks text more = added := by
      rw [addedBlocks, ← blocks, List.drop_left]
    rw [tail] at unrefined
    rw [companion_of_blocks, companion_of_blocks, ← blocks]
    exact attr_updates_kept _ _ unrefined
  rw [classes_stay_iff, identifiers_stay_iff, settled_stays_iff_agrees grows same,
    settled_stays_iff_agrees grows same]

end Documents

/-- A vertex opened by one lead and settled by a later one, with a lead between. -/
def settledText : Str :=
  message ["```invlang\n", ":V l-001.observations.vertices [id|type|class|ident]\n",
    "v-001|compute|??|h-1\n", ":V l-002.observations.vertices [id|type|class|ident]\n",
    "v-002|compute|server|s-1\n", ":V l-003.observations.vertices [id|type|class|ident]\n",
    "v-001|compute|bastion|h-1\n", "```\n"]

/-- The lead between observes the vertex under another class. -/
def reobservedText : Str :=
  message ["```invlang\n", ":V l-002.observations.vertices [id|type|class|ident]\n",
    "v-001|compute|kiosk|h-1\n", "```\n"]

theorem settled_stays_iff_reobserved :
    NoRefinementRows (@addedBlocks asciiDatabase settledText reobservedText) ∧
      (ClassesStay (@companionOf asciiDatabase settledText)
          (@companionOf asciiDatabase (settledText ++ reobservedText)) ∧
        IdentifiersStay (@companionOf asciiDatabase settledText)
          (@companionOf asciiDatabase (settledText ++ reobservedText)) ↔
      SettledAheadAgrees .classification (@companionOf asciiDatabase settledText)
          (@companionOf asciiDatabase (settledText ++ reobservedText)) ∧
        SettledAheadAgrees .identifier (@companionOf asciiDatabase settledText)
          (@companionOf asciiDatabase (settledText ++ reobservedText))) := by
  have unrefined : NoRefinementRows (@addedBlocks asciiDatabase settledText reobservedText) := by
    unfold NoRefinementRows
    decide +kernel
  exact ⟨unrefined, @settled_stays_under_append_iff asciiDatabase _ _ unrefined⟩

/-- The appended row is walked between the two committed ones; the rule is silent and
the settled class changes. -/
theorem settled_class_replaced :
    @checkAppendOnly asciiDatabase (settledText ++ reobservedText) (some settledText)
        (some (@companionOf asciiDatabase (settledText ++ reobservedText)))
        (some (@companionOf asciiDatabase settledText)) = [] ∧
      NoRefinementRows (@addedBlocks asciiDatabase settledText reobservedText) ∧
      ¬ ClassesStay (@companionOf asciiDatabase settledText)
        (@companionOf asciiDatabase (settledText ++ reobservedText)) := by
  refine ⟨by decide +kernel, by unfold NoRefinementRows; decide +kernel, ?_⟩
  intro stays
  have later : (effectiveVertexState
      (@companionOf asciiDatabase (settledText ++ reobservedText))).get? "v-001" =
        some ⟨"kiosk", "h-1", Dict.empty⟩ := by
    decide +kernel
  rcases stays "v-001" ⟨"bastion", "h-1", Dict.empty⟩ (by decide +kernel) (by decide +kernel)
    (by decide +kernel) with ⟨held, found, same⟩
  rw [later] at found
  cases found
  exact absurd same (by decide +kernel)

end Defender.Invlang
