import Defender.Invlang.Walkers
import Defender.Invlang.Validate.Slots

/-!
# Effective vertex state

Every vertex as it stands now: the declared rows folded in walk order, then
every refinement applied, the last one winning.
-/

namespace Defender.Invlang

open Defender.Python Defender.Library.OrderedDict

structure VertexState where
  classification : Str
  identifier : Str
  attributes : AttributesMap
deriving DecidableEq

def VertexState.blank : VertexState := ⟨[], [], Dict.empty⟩

abbrev StateMap := Dict Str VertexState

/-- A class that settles a held one: written, with no open slot. -/
def isConcrete (classification : Str) : Bool := classification ≠ [] && !hasOpenSlot classification

def classUnsettled (held : Str) : Bool := isBlank held || hasOpenSlot held

def identUnsettled (held : Str) : Bool := isBlank held || isIdentOpen held

def VertexState.observe (held : VertexState) (vertex : VertexRecord) : VertexState where
  classification :=
    if isConcrete vertex.classification && classUnsettled held.classification then
      vertex.classification
    else held.classification
  identifier :=
    if !isBlank vertex.identifier && identUnsettled held.identifier then vertex.identifier
    else held.identifier
  attributes := held.attributes.update (vertex.attributes.getD Dict.empty)

def VertexState.declare (vertex : VertexRecord) : VertexState :=
  ⟨vertex.classification, vertex.identifier, vertex.attributes.getD Dict.empty⟩

def seedVertex (state : StateMap) (vertex : VertexRecord) : StateMap :=
  state.modify vertex.id (.declare vertex) fun held => held.observe vertex

def seedVertexState (companion : CompanionBody) : StateMap :=
  (allVertices companion).foldl seedVertex Dict.empty

def slotClass : Str := "class"

def slotIdent : Str := "ident"

def attrPrefix : Str := "attrs."

def VertexState.refine (held : VertexState) (key value : Str) : VertexState :=
  if isBlank value then held
  else if key = slotClass then { held with classification := value }
  else if key = slotIdent then { held with identifier := value }
  else if startsWith attrPrefix key then
    { held with attributes := held.attributes.set (key.drop attrPrefix.length) value }
  else held

def VertexState.refineAll (held : VertexState) (updates : List (Str × Str)) : VertexState :=
  updates.foldl (fun held update => held.refine update.1 update.2) held

def applyAttrUpdateTo (state : StateMap) (update : AttributeUpdate) : StateMap :=
  state.modify update.target .blank fun held => held.refineAll update.updates.entries

def applyAttrUpdates (companion : CompanionBody) (state : StateMap) : StateMap :=
  (iterAttrUpdates companion).foldl applyAttrUpdateTo state

def effectiveVertexState (companion : CompanionBody) : StateMap :=
  applyAttrUpdates companion (seedVertexState companion)

end Defender.Invlang
