import Defender.Library.SiteWalk
import Defender.Invlang.Validate.VertexState

/-!
# Reading effective vertex state slot by slot

A slot is a cell of a vertex that a refinement key addresses. Refinements leave
the last value entered that is not blank, and without one the declared value. A
class or an identifier is declared by the first settled row.
-/

namespace Defender.Invlang

open Defender.Python Defender.Library.OrderedDict Defender.Library.SiteWalk

/-- A cell of a vertex and the key that refines it. -/
structure Slot where
  key : Str
  read : VertexState → Option Str
  refined : ∀ (held : VertexState) (other value : Str), read (held.refine other value) =
    if other = key ∧ isBlank value = false then some value else read held

def Slot.classification : Slot where
  key := slotClass
  read held := some held.classification
  refined := by
    intro held other value
    unfold VertexState.refine
    by_cases blank : isBlank value = true
    · simp [blank]
    · by_cases here : other = slotClass
      · simp [blank, here]
      · have kept : ¬ (other = slotClass ∧ isBlank value = false) := fun both => here both.1
        rw [if_neg kept, if_neg blank, if_neg here]
        split
        · rfl
        · split
          · rfl
          · rfl

theorem slot_ident_ne_class : slotIdent ≠ slotClass := by decide

def Slot.identifier : Slot where
  key := slotIdent
  read held := some held.identifier
  refined := by
    intro held other value
    unfold VertexState.refine
    by_cases blank : isBlank value = true
    · simp [blank]
    · by_cases here : other = slotIdent
      · simp [blank, here, slot_ident_ne_class]
      · have kept : ¬ (other = slotIdent ∧ isBlank value = false) := fun both => here both.1
        rw [if_neg kept, if_neg blank]
        split
        · rfl
        · split
          · rfl
          · rfl

theorem attr_key_ne_class (name : Str) : attrPrefix ++ name ≠ slotClass := by
  intro same
  have heads : some 'a' = some 'c' := congrArg List.head? same
  exact absurd heads (by decide)

theorem attr_key_ne_ident (name : Str) : attrPrefix ++ name ≠ slotIdent := by
  intro same
  have heads : some 'a' = some 'i' := congrArg List.head? same
  exact absurd heads (by decide)

def Slot.attr (name : Str) : Slot where
  key := attrPrefix ++ name
  read held := held.attributes.get? name
  refined := by
    intro held other value
    unfold VertexState.refine
    by_cases blank : isBlank value = true
    · simp [blank]
    · by_cases asClass : other = slotClass
      · simp [blank, asClass, (attr_key_ne_class name).symm]
      · by_cases asIdent : other = slotIdent
        · simp [blank, asIdent, slot_ident_ne_class, (attr_key_ne_ident name).symm]
        · simp only [blank, asClass, asIdent, if_false]
          by_cases attr : startsWith attrPrefix other = true
          · rcases List.isPrefixOf_iff_prefix.mp attr with ⟨rest, rfl⟩
            simp [attr, Dict.get_set]
          · have differs : other ≠ attrPrefix ++ name := by
              rintro rfl
              exact attr (List.isPrefixOf_iff_prefix.mpr ⟨name, rfl⟩)
            simp [attr, differs]

def slotValue (slot : Slot) (state : StateMap) (target : Str) : Option Str :=
  slot.read ((state.get? target).getD .blank)

def settledBy (slot : Slot) (target : Str) (update : AttributeUpdate) : Option Str :=
  if update.target = target then
    (update.updates.get? slot.key).filter fun value => !isBlank value
  else none

section Refining

variable (slot : Slot)

theorem read_refine_all {entries : List (Str × Str)} (distinct : (entries.map Prod.fst).Nodup)
    (held : VertexState) : slot.read (held.refineAll entries) =
      ((Dict.lookup slot.key entries).filter fun value => !isBlank value).or (slot.read held) := by
  induction entries generalizing held with
  | nil => rfl
  | cons entry rest ih =>
      rcases entry with ⟨key, value⟩
      simp only [List.map_cons, List.nodup_cons] at distinct
      change slot.read ((held.refine key value).refineAll rest) = _
      rw [ih distinct.2, slot.refined]
      by_cases here : key = slot.key
      · have absent : Dict.lookup slot.key rest = none := by
          rw [← Option.not_isSome_iff_eq_none, Dict.lookup_isSome_iff, ← here]
          exact distinct.1
        by_cases blank : isBlank value = true
        · simp [Dict.lookup, here, absent, blank, Option.filter]
        · simp [Dict.lookup, here, absent, blank, Option.filter]
      · simp [Dict.lookup, here]

theorem slot_value_apply (state : StateMap) (target : Str) (update : AttributeUpdate) :
    slotValue slot (applyAttrUpdateTo state update) target =
      (settledBy slot target update).or (slotValue slot state target) := by
  unfold slotValue applyAttrUpdateTo settledBy
  rw [Dict.get_modify]
  by_cases here : update.target = target
  · subst here
    rw [if_pos rfl, if_pos rfl, Option.getD_some, read_refine_all slot update.updates.nodup]
    rfl
  · rw [if_neg here, if_neg here, Option.none_or]

theorem slot_value_replay (updates : List AttributeUpdate) (state : StateMap) (target : Str) :
    slotValue slot (updates.foldl applyAttrUpdateTo state) target =
      ((updates.filterMap (settledBy slot target)).getLast?).or (slotValue slot state target) := by
  induction updates generalizing state with
  | nil => rfl
  | cons update rest ih =>
      rw [List.foldl_cons, ih, slot_value_apply, List.filterMap_cons]
      cases settledBy slot target update with
      | none => rfl
      | some value =>
          cases rest.filterMap (settledBy slot target) with
          | nil => rfl
          | cons first others => simp [List.getLast?_cons]

theorem slot_value_effective (companion : CompanionBody) (target : Str) :
    slotValue slot (effectiveVertexState companion) target =
      (((iterAttrUpdates companion).filterMap (settledBy slot target)).getLast?).or
        (slotValue slot (seedVertexState companion) target) :=
  slot_value_replay slot _ _ target

end Refining

/-- A slot that declared rows fill until it is settled. -/
structure DeclaredSlot extends Slot where
  cell : VertexRecord → Str
  held : VertexState → Str
  accepts : Str → Bool
  settled : Str → Bool
  settles : ∀ value, settled value = true → accepts value = true
  reads : ∀ state, read state = some (held state)
  declared : ∀ vertex, held (.declare vertex) = cell vertex
  observed : ∀ state vertex,
    held (state.observe vertex) = supersede accepts settled (held state) (cell vertex)
  blank : settled (held .blank) = false

theorem class_settled_concrete (value : Str) (settled : (!classUnsettled value) = true) :
    isConcrete value = true := by
  have written : value ≠ [] := by
    rintro rfl
    exact absurd settled (by decide)
  simp only [classUnsettled, Bool.not_or, Bool.and_eq_true] at settled
  simp [isConcrete, written, settled.2]

def DeclaredSlot.classification : DeclaredSlot where
  toSlot := .classification
  cell := VertexRecord.classification
  held := VertexState.classification
  accepts := isConcrete
  settled value := !classUnsettled value
  settles := class_settled_concrete
  reads _ := rfl
  declared _ := rfl
  observed state vertex := by simp [VertexState.observe, supersede]
  blank := by decide

def DeclaredSlot.identifier : DeclaredSlot where
  toSlot := .identifier
  cell := VertexRecord.identifier
  held := VertexState.identifier
  accepts value := !isBlank value
  settled value := !identUnsettled value
  settles := by
    intro value settled
    simp only [identUnsettled, Bool.not_or, Bool.and_eq_true] at settled
    exact settled.1
  reads _ := rfl
  declared _ := rfl
  observed state vertex := by simp [VertexState.observe, supersede]
  blank := by decide

section Declaring

variable (slot : DeclaredSlot)

def settledRecord (id : Str) (record : VertexRecord) : Bool :=
  record.id == id && slot.settled (slot.cell record)

/-- What the slot holds once a row of its vertex is read. -/
def declareNext (held : Option Str) (vertex : VertexRecord) : Option Str :=
  match held with
  | none => some (slot.cell vertex)
  | some value => some (supersede slot.accepts slot.settled value (slot.cell vertex))

theorem seed_vertex_held (state : StateMap) (vertex : VertexRecord) (id : Str) :
    ((seedVertex state vertex).get? id).map slot.held =
      if vertex.id = id then declareNext slot ((state.get? id).map slot.held) vertex
      else (state.get? id).map slot.held := by
  unfold seedVertex declareNext
  rw [Dict.get_modify]
  by_cases here : vertex.id = id
  · rw [if_pos here, if_pos here, here]
    cases state.get? id with
    | none => simp [slot.observed, slot.declared, supersede_self]
    | some held => simp [slot.observed]
  · rw [if_neg here, if_neg here]

theorem seed_held (records : List VertexRecord) (state : StateMap) (id : Str) :
    ((records.foldl seedVertex state).get? id).map slot.held =
      (records.filter fun record => record.id == id).foldl (declareNext slot)
        ((state.get? id).map slot.held) := by
  induction records generalizing state with
  | nil => rfl
  | cons record rest ih =>
      rw [List.foldl_cons, ih, seed_vertex_held, List.filter_cons]
      by_cases here : record.id = id
      · simp [here]
      · simp [here]

theorem foldl_declare_next (records : List VertexRecord) (held : Str) :
    records.foldl (declareNext slot) (some held) =
      some ((records.map slot.cell).foldl (supersede slot.accepts slot.settled) held) := by
  induction records generalizing held with
  | nil => rfl
  | cons record rest ih => exact ih _

theorem seed_settled_iff (companion : CompanionBody) (id : Str) {value : Str}
    (final : slot.settled value = true) :
    ((seedVertexState companion).get? id).map slot.held = some value ↔
      ((allVertices companion).find? (settledRecord slot id)).map slot.cell = some value := by
  have first : (allVertices companion).find? (settledRecord slot id) =
      ((allVertices companion).filter fun record => record.id == id).find? fun record =>
        slot.settled (slot.cell record) := by
    rw [List.find?_filter]
    congr 1
    funext record
    by_cases here : record.id = id
    · simp [settledRecord, here]
    · simp [settledRecord, here]
  unfold seedVertexState
  rw [seed_held, first]
  cases (allVertices companion).filter fun record => record.id == id with
  | nil => simp
  | cons record rest =>
      change rest.foldl (declareNext slot) (some (slot.cell record)) = _ ↔ _
      have mapped : ((record :: rest).find? fun record => slot.settled (slot.cell record)).map
          slot.cell = (slot.cell record :: rest.map slot.cell).find? slot.settled := by
        rw [← List.map_cons, List.find?_map]
        rfl
      rw [foldl_declare_next, mapped, Option.some_inj,
        foldl_supersede_iff slot.accepts slot.settled slot.settles final]

end Declaring

end Defender.Invlang
