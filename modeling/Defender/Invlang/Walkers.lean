import Defender.Invlang.Project

/-!
# Walks over a companion

The orders in which readers see records: the prologue or the table first, then
the leads in the order they were first mentioned.
-/

namespace Defender.Invlang

open Defender.Python Defender.Library.OrderedDict

def refutedWeight : Str := "--"

def prologueVertices (companion : CompanionBody) : List VertexRecord :=
  (companion.prologue.map Prologue.vertices).getD []

def prologueEdges (companion : CompanionBody) : List EdgeRecord :=
  (companion.prologue.map Prologue.edges).getD []

def leadVertices (lead : FindingRecord) : List VertexRecord :=
  (lead.outcome.observations.map Observations.vertices).getD []

def leadEdges (lead : FindingRecord) : List EdgeRecord :=
  (lead.outcome.observations.map Observations.edges).getD []

def allVertices (companion : CompanionBody) : List VertexRecord :=
  prologueVertices companion ++ companion.findings.flatMap leadVertices

def allEdges (companion : CompanionBody) : List EdgeRecord :=
  prologueEdges companion ++ companion.findings.flatMap leadEdges

def vertexTypes (companion : CompanionBody) : Dict Str Str :=
  (allVertices companion).foldl (fun types vertex =>
    if vertex.id = [] then types else types.setDefault vertex.id vertex.type) Dict.empty

def tableHypotheses (companion : CompanionBody) : List HypothesisRecord :=
  companion.hypothesize.getD []

def declaredHypotheses (companion : CompanionBody) : List HypothesisRecord :=
  tableHypotheses companion ++ companion.findings.flatMap FindingRecord.newHypotheses

def allHypotheses (companion : CompanionBody) : Dict Str HypothesisRecord :=
  (declaredHypotheses companion).foldl (fun held hyp => held.setDefault hyp.id hyp) Dict.empty

def iterResolutions (companion : CompanionBody) : List (Str × ResolutionRecord) :=
  companion.findings.flatMap fun lead => lead.resolutions.map fun record => (lead.id, record)

def iterOutcomeRows {α : Type*} (companion : CompanionBody) (select : LeadOutcome → List α) :
    List α :=
  companion.findings.flatMap fun lead => select lead.outcome

def iterAuthzResolutions (companion : CompanionBody) : List ResolutionRow :=
  iterOutcomeRows companion LeadOutcome.authorizationResolutions

def iterAttrUpdates (companion : CompanionBody) : List AttributeUpdate :=
  iterOutcomeRows companion LeadOutcome.attributeUpdates

def iterAnchorConsultations (companion : CompanionBody) : List ResolutionRow :=
  iterOutcomeRows companion LeadOutcome.anchorConsultations

def iterImpactResolutions (companion : CompanionBody) : List ResolutionRow :=
  iterOutcomeRows companion LeadOutcome.impactResolutions

def iterGroundedResolutions (companion : CompanionBody) : List ResolutionRow :=
  iterAuthzResolutions companion ++ iterAnchorConsultations companion ++
    iterImpactResolutions companion

def finalWeights (companion : CompanionBody) : Dict Str (Option Str) :=
  let declared := allHypotheses companion
  let seeded := declared.entries.foldl (fun held entry => held.set entry.1 entry.2.weight)
    Dict.empty
  (iterResolutions companion).foldl (fun held move =>
    if declared.contains move.2.hypothesis then held.set move.2.hypothesis (some move.2.after)
    else held) seeded

def liveHypothesisIds (companion : CompanionBody) : List Str :=
  ((finalWeights companion).entries.filter fun entry => entry.2 ≠ some refutedWeight).map
    Prod.fst

end Defender.Invlang
