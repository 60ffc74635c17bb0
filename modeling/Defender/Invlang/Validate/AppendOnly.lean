import Defender.Invlang.Walkers

/-!
# The append-only rule

Every committed vertex and edge must keep the core of its first record in walk
order.
-/

namespace Defender.Invlang

open Defender.Python Defender.Library.OrderedDict

/-- The compared cells of a record; `none` is an absent one. -/
abbrev Core := List (Option Str)

def vertexCore (vertex : VertexRecord) : Core :=
  [some vertex.type, some vertex.classification, some vertex.identifier]

def authKindOf (edge : EdgeRecord) : Option Str := edge.authority.map AuthorityRef.kind

def edgeCore (edge : EdgeRecord) : Core :=
  [some edge.relation, some edge.sourceVertex, some edge.targetVertex, authKindOf edge]

def byIdFirst {α : Type*} (idOf : α → Str) (core : α → Core) (records : List α) :
    Dict Str Core :=
  records.foldl (fun index record => index.setDefault (idOf record) (core record)) Dict.empty

section Messages

variable [UnicodeDatabase]

def reprCore (core : Core) : Str := message ["(", join ", " (core.map reprOption), ")"]

def fencesRemovedReason (kept committed : Nat) : Str :=
  message ["append-only violation: proposed content has ", decimalText kept, " ```invlang ",
    "block(s) but the on-disk file has ", decimalText committed,
    " — existing blocks must ",
    "not be removed (defender SKILL §Authoring discipline: append only)"]

def recordMissingReason (label id : Str) : Str :=
  message ["append-only violation: committed ", label, " ", id, " present ",
    "on-disk is missing from the proposed write — existing ", "records must not be removed"]

def recordMutatedReason (label id : Str) (committed proposed : Core) : Str :=
  message ["append-only violation: committed ", label, " ", id, " was ",
    "mutated in place (", reprCore committed, " → ", reprCore proposed, ") — refine via a ",
    "new :R attr_updates / observation row, never by rewriting ", "the original declaration"]

def compareRecords (label : Str) (current proposed : Dict Str Core) : List Str :=
  current.entries.filterMap fun entry =>
    match proposed.get? entry.1 with
    | none => some (recordMissingReason label entry.1)
    | some core =>
        if core = entry.2 then none else some (recordMutatedReason label entry.1 entry.2 core)

def checkAppendOnly (proposedText : Str) (currentText : Option Str)
    (proposed current : Option CompanionBody) : List Str :=
  match currentText with
  | none => []
  | some committed =>
      let curFences := (scanFences committed).bodies.length
      let newFences := (scanFences proposedText).bodies.length
      let removed := if newFences < curFences then [fencesRemovedReason newFences curFences] else []
      match current with
      | none => removed
      | some held =>
          if held.isEmpty then removed
          else
            let after := proposed.getD .empty
            removed ++
              compareRecords "vertex"
                (byIdFirst VertexRecord.id vertexCore (allVertices held))
                (byIdFirst VertexRecord.id vertexCore (allVertices after)) ++
              compareRecords "edge"
                (byIdFirst EdgeRecord.id edgeCore (allEdges held))
                (byIdFirst EdgeRecord.id edgeCore (allEdges after))

end Messages

end Defender.Invlang
