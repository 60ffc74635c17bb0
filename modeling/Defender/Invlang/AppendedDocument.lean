import Defender.Library.SiteWalk
import Defender.Invlang.Fences
import Defender.Invlang.ProjectionGrowth

/-!
# A document and its append

The blocks of a document are the first blocks of everything appended to it, so
its companion grows. Vertices and edges are read site by site: the prologue,
then the leads in the order first mentioned.
-/

namespace Defender.Invlang

open Defender.Python Defender.Library.Growth Defender.Library.SiteWalk

section Parsing

variable [UnicodeDatabase]

def companionOf (text : Str) : CompanionBody := (parseDenseCompanion text).1

theorem companion_of_blocks (text : Str) :
    companionOf text = (projectBlocks (iterBlocks text)).companion := by
  have blocks : ((scanFences text).bodies.map tokenizeFence).flatMap Prod.fst =
      iterBlocks text := by
    simp [iterBlocks, iterFenceBlocks, List.flatMap]
    rfl
  unfold companionOf parseDenseCompanion
  dsimp only
  rw [blocks]
  split
  · rename_i none
    rw [none]
    rfl
  · rfl

theorem iter_fence_blocks_append (text more : Str) :
    iterFenceBlocks text <+: iterFenceBlocks (text ++ more) :=
  (fence_scan_prefix_stable text more).2.1.map _

theorem iter_blocks_append (text more : Str) : iterBlocks text <+: iterBlocks (text ++ more) := by
  rcases iter_fence_blocks_append text more with ⟨added, same⟩
  exact ⟨added.flatten, by rw [iterBlocks, iterBlocks, ← same, List.flatten_append]⟩

theorem companion_append_grows (text more : Str) :
    CompanionGrows (fun _ => True) (companionOf text) (companionOf (text ++ more)) := by
  rcases iter_blocks_append text more with ⟨added, same⟩
  rw [companion_of_blocks, companion_of_blocks, ← same]
  exact (project_blocks_grow (iterBlocks text) added).companion

end Parsing

section Sites

def vertexSites (companion : CompanionBody) : List (List VertexRecord) :=
  prologueVertices companion :: companion.findings.map leadVertices

def edgeSites (companion : CompanionBody) : List (List EdgeRecord) :=
  prologueEdges companion :: companion.findings.map leadEdges

theorem all_vertices_sites (companion : CompanionBody) :
    allVertices companion = (vertexSites companion).flatten := by
  simp [allVertices, vertexSites, List.flatMap]

theorem all_edges_sites (companion : CompanionBody) :
    allEdges companion = (edgeSites companion).flatten := by
  simp [allEdges, edgeSites, List.flatMap]

variable {restated : Restatable → Prop} {before after : CompanionBody}

theorem vertex_sites_grow (grows : CompanionGrows restated before after) :
    PrefixUpTo (· <+: ·) (vertexSites before) (vertexSites after) :=
  .cons grows.vertices (prefix_up_to_map grows.findings leadVertices fun _ _ kept => kept.vertices)

theorem edge_sites_grow (grows : CompanionGrows restated before after) :
    PrefixUpTo (· <+: ·) (edgeSites before) (edgeSites after) :=
  .cons grows.edges (prefix_up_to_map grows.findings leadEdges fun _ _ kept => kept.edges)

end Sites

end Defender.Invlang
