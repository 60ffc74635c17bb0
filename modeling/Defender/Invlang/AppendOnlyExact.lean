import Defender.Invlang.AppendedDocument
import Defender.Invlang.Validate.AppendOnly

/-!
# When an append passes the append-only rule

The rule compares the first record of each id in walk order. An append changes
which record is first when it adds one at a site that is walked earlier than the
committed first record: in the prologue, or at a lead mentioned before.
-/

namespace Defender.Invlang

open Defender.Python Defender.Library.OrderedDict Defender.Library.Growth
open Defender.Library.SiteWalk

section Records

variable {α : Type*} (idOf : α → Str) (core : α → Core)

def hasId (id : Str) (record : α) : Bool := idOf record == id

theorem by_id_first_get (records : List α) (id : Str) :
    (byIdFirst idOf core records).get? id = (records.find? (hasId idOf id)).map core := by
  unfold byIdFirst
  rw [Dict.get_foldl_set_default, Dict.get_empty, Option.none_or]
  congr 2
  funext record
  by_cases same : idOf record = id
  · simp [hasId, same]
  · simp [hasId, same]

def FirstsKept (sites grown : List (List α)) : Prop :=
  ∀ id item added, sites.flatten.find? (hasId idOf id) = some item →
    (addedAhead (hasId idOf id) sites grown).find? (hasId idOf id) = some added →
    core added = core item

theorem firsts_kept_iff {sites grown : List (List α)}
    (grows : PrefixUpTo (· <+: ·) sites grown) :
    FirstsKept idOf core sites grown ↔
      ∀ id item, sites.flatten.find? (hasId idOf id) = some item →
        (byIdFirst idOf core grown.flatten).get? id = some (core item) := by
  constructor
  · intro kept id item found
    rw [by_id_first_get, find_grown grows found]
    cases ahead : (addedAhead (hasId idOf id) sites grown).find? (hasId idOf id) with
    | none => rfl
    | some added => simp [kept id item added found ahead]
  · intro same id item added found ahead
    have first := same id item found
    rw [by_id_first_get, find_grown grows found, ahead] at first
    simpa using first

variable [UnicodeDatabase]

theorem compare_records_nil_iff (label : Str) (current proposed : Dict Str Core) :
    compareRecords label current proposed = [] ↔
      ∀ id held, current.get? id = some held → proposed.get? id = some held := by
  unfold compareRecords
  rw [List.filterMap_eq_nil_iff]
  constructor
  · intro silent id held found
    have here := silent (id, held) ((Dict.mem_entries_iff current id held).mpr found)
    dsimp only at here
    split at here
    · contradiction
    · rename_i kept same
      split at here
      · rename_i equal
        rw [same, equal]
      · contradiction
  · rintro kept ⟨id, held⟩ member
    have same := kept id held ((Dict.mem_entries_iff current id held).mp member)
    simp [same]

theorem records_pass_iff (label : Str) {sites grown : List (List α)}
    (grows : PrefixUpTo (· <+: ·) sites grown) :
    compareRecords label (byIdFirst idOf core sites.flatten)
        (byIdFirst idOf core grown.flatten) = [] ↔
      FirstsKept idOf core sites grown := by
  rw [compare_records_nil_iff, firsts_kept_iff idOf core grows]
  constructor
  · intro kept id item found
    exact kept id (core item) (by rw [by_id_first_get, found]; rfl)
  · intro kept id held found
    rw [by_id_first_get] at found
    rcases Option.map_eq_some_iff.mp found with ⟨item, first, rfl⟩
    exact kept id item first

end Records

section Documents

variable [UnicodeDatabase]

omit [UnicodeDatabase] in
theorem fences_not_removed (text more : Str) :
    ¬ (scanFences (text ++ more)).bodies.length < (scanFences text).bodies.length := by
  have kept := (fence_scan_prefix_stable text more).2.1.length_le
  omega

omit [UnicodeDatabase] in
theorem empty_companion_sites {companion : CompanionBody} (empty : companion.isEmpty = true) :
    allVertices companion = [] ∧ allEdges companion = [] := by
  simp only [CompanionBody.isEmpty, Bool.and_eq_true, Option.isNone_iff_eq_none,
    List.isEmpty_iff] at empty
  rcases empty with ⟨⟨⟨⟨prologue, _⟩, _⟩, _⟩, findings⟩
  simp [allVertices, allEdges, prologueVertices, prologueEdges, prologue, findings]

/-- An append passes exactly when no vertex and no edge that it adds ahead of a
committed first record differs from it. -/
theorem append_passes_iff (text more : Str) :
    checkAppendOnly (text ++ more) (some text) (some (companionOf (text ++ more)))
        (some (companionOf text)) = [] ↔
      FirstsKept VertexRecord.id vertexCore (vertexSites (companionOf text))
          (vertexSites (companionOf (text ++ more))) ∧
        FirstsKept EdgeRecord.id edgeCore (edgeSites (companionOf text))
          (edgeSites (companionOf (text ++ more))) := by
  have grows := companion_append_grows text more
  unfold checkAppendOnly
  simp only [if_neg (fences_not_removed text more), List.nil_append, Option.getD_some]
  split
  · rename_i empty
    rcases empty_companion_sites empty with ⟨vertices, edges⟩
    rw [all_vertices_sites] at vertices
    rw [all_edges_sites] at edges
    simp [FirstsKept, vertices, edges]
  · simp only [all_vertices_sites, all_edges_sites, List.append_eq_nil_iff]
    rw [records_pass_iff _ _ _ (vertex_sites_grow grows),
      records_pass_iff _ _ _ (edge_sites_grow grows)]

/-- A lead observes a vertex. -/
def observedText : Str :=
  message ["```invlang\n", ":V l-001.observations.vertices [id|type|class|ident]\n",
    "v-002|compute|bastion|b-1\n", "```\n"]

/-- The vertex again, in the prologue and under another class. -/
def prologueText : Str :=
  message ["```invlang\n", ":V prologue.vertices [id|type|class|ident]\n",
    "v-002|compute|kiosk|b-1\n", "```\n"]

end Documents

/-- The appended prologue row is walked before the committed observation. -/
theorem append_trips_on_prologue_row :
    (scanFences observedText).openTail = none ∧
      @checkAppendOnly asciiDatabase (observedText ++ prologueText) (some observedText)
        (some (@companionOf asciiDatabase (observedText ++ prologueText)))
        (some (@companionOf asciiDatabase observedText)) ≠ [] := by
  decide +kernel

end Defender.Invlang
