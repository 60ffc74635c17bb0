import Defender.Investigation.FrontierRecall
import Defender.Investigation.LessonSelectors
import Defender.Investigation.MemberOrder
import Defender.Library.Coverage
import Mathlib.Data.List.Perm.Basic

/-!
# The lessons a frontier recalls

A lesson's best score is taken over its lanes together, and with it every item of the frontier it
reaches that score on. The lessons are ranked by score and name, each is put on the least covered
of its items, and the head of the list covers every item before it gives one a second lesson.
-/

namespace Defender.Investigation.LessonLane

open Defender.Python Defender.Invlang Defender.Library.Coverage

/-- A value of a lesson's front matter. Of a scalar that is no text there is what `str` and `repr`
show and whether it counts as true. -/
inductive Yaml where
  | null
  | text (value : Str)
  | scalar (shown spelled : Str) (truthy : Bool)
  | list (items : List Yaml)
  | mapping (entries : List (Yaml × Yaml))

namespace Yaml

def isText (key : Str) : Yaml → Bool
  | text value => value == key
  | _ => false

def truthy : Yaml → Bool
  | null => false
  | text value => value ≠ []
  | scalar _ _ truthy => truthy
  | list items => !items.isEmpty
  | mapping entries => !entries.isEmpty

section Shown

variable [UnicodeDatabase]

mutual

def spelled : Yaml → Str
  | null => "None"
  | text value => reprText value
  | scalar _ spelled _ => spelled
  | list items => "[" ++ join ", " (spelledItems items) ++ "]"
  | mapping entries => ['{'] ++ join ", " (spelledEntries entries) ++ ['}']

def spelledItems : List Yaml → List Str
  | [] => []
  | item :: items => spelled item :: spelledItems items

def spelledEntries : List (Yaml × Yaml) → List Str
  | [] => []
  | (key, value) :: entries => (spelled key ++ ": " ++ spelled value) :: spelledEntries entries

end

/-- `str(value)`. -/
def shown : Yaml → Str
  | text value => value
  | scalar shown _ _ => shown
  | value => spelled value

end Shown

/-- `as_list`: nothing is no item, a scalar is one. -/
def asList : Yaml → List Yaml
  | null => []
  | list items => items
  | value => [value]

end Yaml

abbrev Frontmatter := List (Yaml × Yaml)

/-- `fm.get(key)`. -/
def Frontmatter.get (frontmatter : Frontmatter) (key : Str) : Yaml :=
  ((frontmatter.find? fun entry => entry.1.isText key).map Prod.snd).getD .null

/-- A cell that is a text or absent; an absent one reads as empty. -/
def textCell (entries : Frontmatter) (key : Str) : Option Str :=
  match entries.get key with
  | .null => some []
  | .text value => some value
  | _ => none

def nodeSelector (raw : Yaml) : Option NodeSelector :=
  match raw with
  | .mapping entries =>
      match textCell entries "type", textCell entries "class", textCell entries "slot" with
      | some type, some pattern, some slot =>
          let selector : NodeSelector := ⟨strip type,
            strip (if pattern = [] then wildcard else pattern), strip slot⟩
          if selector.type ≠ [] ∧ selector.slot ≠ [] then some selector else none
      | _, _, _ => none
  | _ => none

structure EdgeSelector where
  rel : Str
  authKind : Str
  anchorKind : Str
deriving DecidableEq

def anchorKindWeight : Nat := 3

def relWeight : Nat := 1

def authKindWeight : Nat := 1

def EdgeSelector.specificity (selector : EdgeSelector) : Nat :=
  (if selector.anchorKind = [] then 0 else anchorKindWeight) +
    (if selector.rel = [] then 0 else relWeight) +
    (if selector.authKind = [] then 0 else authKindWeight)

def edgeSelector (raw : Yaml) : Option EdgeSelector :=
  match raw with
  | .mapping entries =>
      match textCell entries "rel", textCell entries "auth_kind",
        textCell entries "anchor_kind" with
      | some rel, some authKind, some anchorKind =>
          let selector : EdgeSelector := ⟨strip rel, strip authKind, strip anchorKind⟩
          if selector.anchorKind ≠ [] then some selector else none
      | _, _, _ => none
  | _ => none

structure Selectors where
  nodes : List NodeSelector
  edges : List EdgeSelector
  observed : List NodeSelector

def parseSelectors (frontmatter : Frontmatter) : Selectors :=
  { nodes := (frontmatter.get "frontier_nodes").asList.filterMap nodeSelector,
    edges := (frontmatter.get "frontier_edges").asList.filterMap edgeSelector,
    observed := (frontmatter.get "observed_nodes").asList.filterMap nodeSelector }

/-- What a selector does not declare constrains nothing. -/
def edgeMatches (selector : EdgeSelector) (contract : OpenContract) : Bool :=
  [(selector.anchorKind, contract.anchorKind), (selector.rel, contract.rel.getD []),
    (selector.authKind, contract.authKind.getD [])].all fun (want, got) =>
      want == [] || want == got

def cellItem (vertexId type slot value : Str) : Str :=
  message [vertexId, " ", type, " ", slot, "=", value]

def contractItem (contract : OpenContract) : Str :=
  message [contract.contractId, " on ", contract.hypothesisId, " anchor=", contract.anchorKind]

def scoredSlots (selector : NodeSelector) (slots : List OpenSlot) : List (Nat × Str) :=
  slots.filterMap fun item =>
    (nodeMatchScore selector item.type item.classTuple item.slot).map fun score =>
      (score, cellItem item.vertexId item.type item.slot item.value)

def scoredFacts (selector : NodeSelector) (held : List HeldFact) : List (Nat × Str) :=
  held.filterMap fun item =>
    (nodeMatchScore selector item.type item.classTuple item.slot).map fun score =>
      (score, cellItem item.vertexId item.type item.slot item.value)

def scoredContracts (selector : EdgeSelector) (contracts : List OpenContract) : List (Nat × Str) :=
  (contracts.filter (edgeMatches selector)).map fun contract =>
    (selector.specificity, contractItem contract)

def scoredItems (selectors : Selectors) (frontier : Frontier) : List (Nat × Str) :=
  selectors.nodes.flatMap (scoredSlots · frontier.slots) ++
    selectors.observed.flatMap (scoredFacts · frontier.held) ++
    selectors.edges.flatMap (scoredContracts · frontier.contracts)

def bestOf (scored : List (Nat × Str)) : Option (Nat × List Str) :=
  (scored.map Prod.fst).max?.map fun best =>
    (best, sorted (dedup ((scored.filter fun pair => pair.1 = best).map Prod.snd)))

def bestMatch (selectors : Selectors) (frontier : Frontier) : Option (Nat × List Str) :=
  bestOf (scoredItems selectors frontier)

structure Lesson where
  path : Str
  frontmatter : Frontmatter

/-- `path.stem`: the last component without its suffix. -/
def pathStem (path : Str) : Str :=
  let name := ((splitOn '/' path).getLast?).getD []
  let (stem, found, suffix) := rpartition ['.'] name
  if found = true ∧ stem ≠ [] ∧ suffix ≠ [] then stem else name

structure Hit where
  path : Str
  name : Str
  frontmatter : Frontmatter
  score : Nat
  matched : Str

def Hit.compared (hit : Hit) : Str × Str × Nat × Str := (hit.path, hit.name, hit.score, hit.matched)

section Recall

variable [UnicodeDatabase]

def Lesson.name (lesson : Lesson) : Str :=
  let named := lesson.frontmatter.get "name"
  if named.truthy then named.shown else pathStem lesson.path

def hitOf (frontier : Frontier) (lesson : Lesson) : Option (Hit × List Str) :=
  (bestMatch (parseSelectors lesson.frontmatter) frontier).map fun (score, candidates) =>
    ({ path := lesson.path, name := lesson.name, frontmatter := lesson.frontmatter,
       score := score, matched := candidates.headD [] }, candidates)

def RankedBefore (left right : Hit × List Str) : Prop :=
  right.1.score < left.1.score ∨
    left.1.score = right.1.score ∧ textLe left.1.name right.1.name = true

instance (left right : Hit × List Str) : Decidable (RankedBefore left right) :=
  inferInstanceAs (Decidable (_ ∨ _))

def leastCovered (used : Str → Nat) (pair : Hit × List Str) : Str :=
  pair.2.tail.foldl (fun least candidate =>
    if used candidate < used least ∨ used candidate = used least ∧ ¬textLe least candidate then
      candidate else least) (pair.2.headD [])

def rankedHits (frontier : Frontier) (lessons : List Lesson) : List (Hit × List Str) :=
  (lessons.filterMap (hitOf frontier)).insertionSort RankedBefore

def spreadOverItems (ranked : List (Hit × List Str)) : List Hit :=
  (spread leastCovered ranked).map fun placed => { placed.load.1 with matched := placed.spot }

def matchLoaded (frontier : Frontier) (lessons : List Lesson) (topK : Int) : List Hit :=
  if frontier.isEmpty ∨ topK ≤ 0 then []
  else (spreadOverItems (rankedHits frontier lessons)).take topK.toNat

end Recall

section Best

variable {scored scored' : List (Nat × Str)} {best : Nat} {candidates : List Str}

theorem best_of_none_iff : bestOf scored = none ↔ scored = [] := by
  unfold bestOf
  rw [Option.map_eq_none_iff, List.max?_eq_none_iff, List.map_eq_nil_iff]

theorem mem_dedup_iff {items : List Str} {item : Str} : item ∈ dedup items ↔ item ∈ items := by
  unfold dedup
  rw [mem_enrolled_iff]
  simp

theorem best_of_spec (found : bestOf scored = some (best, candidates)) :
    (∀ item, item ∈ candidates ↔ (best, item) ∈ scored) ∧ ∀ pair ∈ scored, pair.1 ≤ best := by
  obtain ⟨top, reached, same⟩ := Option.map_eq_some_iff.mp found
  obtain ⟨rfl, rfl⟩ := Prod.mk.inj same
  obtain ⟨-, bound⟩ := List.max?_eq_some_iff.mp reached
  constructor
  · intro item
    rw [(sorted_perm _).mem_iff, mem_dedup_iff, List.mem_map]
    constructor
    · rintro ⟨⟨score, other⟩, inside, rfl⟩
      obtain ⟨kept, level⟩ := List.mem_filter.mp inside
      rw [decide_eq_true_iff] at level
      subst level
      exact kept
    · intro inside
      exact ⟨(top, item), List.mem_filter.mpr ⟨inside, decide_eq_true rfl⟩, rfl⟩
  · exact fun pair inside => bound pair.1 (List.mem_map_of_mem inside)

theorem candidates_filled (found : bestOf scored = some (best, candidates)) : candidates ≠ [] := by
  obtain ⟨top, reached, same⟩ := Option.map_eq_some_iff.mp found
  obtain ⟨inside, -⟩ := List.max?_eq_some_iff.mp reached
  obtain ⟨rfl, -⟩ := Prod.mk.inj same
  obtain ⟨⟨score, item⟩, member, rfl⟩ := List.mem_map.mp inside
  exact List.ne_nil_of_mem (((best_of_spec found).1 item).mpr member)

theorem max_of_perm {left right : List Nat} (moved : left.Perm right) : left.max? = right.max? := by
  cases top : right.max? with
  | none =>
      rw [List.max?_eq_none_iff] at top ⊢
      rw [top] at moved
      exact moved.eq_nil
  | some best =>
      rw [List.max?_eq_some_iff] at top ⊢
      exact ⟨moved.mem_iff.mpr top.1, fun other inside => top.2 other (moved.mem_iff.mp inside)⟩

theorem best_of_perm (moved : scored.Perm scored') : bestOf scored = bestOf scored' := by
  unfold bestOf
  rw [max_of_perm (moved.map Prod.fst)]
  apply congrArg (Option.map · _)
  funext best
  have kept := (moved.filter fun pair => decide (pair.1 = best)).map Prod.snd
  have distinct : (dedup ((scored.filter fun pair => pair.1 = best).map Prod.snd)).Perm
      (dedup ((scored'.filter fun pair => pair.1 = best).map Prod.snd)) := by
    rw [List.perm_ext_iff_of_nodup (dedup_nodup _) (dedup_nodup _)]
    intro item
    rw [mem_dedup_iff, mem_dedup_iff, kept.mem_iff]
  rw [sorted_of_perm distinct]

end Best

section Order

/-- A frontier with the same content in another order. -/
structure FrontierMoved (left right : Frontier) : Prop where
  slots : left.slots.Perm right.slots
  contracts : left.contracts.Perm right.contracts
  held : left.held.Perm right.held

/-- A lesson whose selectors are listed in another order. -/
structure LessonMoved (left right : Lesson) : Prop where
  path : left.path = right.path
  name : left.frontmatter.get "name" = right.frontmatter.get "name"
  nodes : (left.frontmatter.get "frontier_nodes").asList.Perm
    (right.frontmatter.get "frontier_nodes").asList
  edges : (left.frontmatter.get "frontier_edges").asList.Perm
    (right.frontmatter.get "frontier_edges").asList
  observed : (left.frontmatter.get "observed_nodes").asList.Perm
    (right.frontmatter.get "observed_nodes").asList

variable {frontier frontier' : Frontier}

theorem scored_items_moved (content : FrontierMoved frontier frontier') {left right : Lesson}
    (moved : LessonMoved left right) :
    (scoredItems (parseSelectors left.frontmatter) frontier).Perm
      (scoredItems (parseSelectors right.frontmatter) frontier') := by
  have slots := (moved.nodes.filterMap nodeSelector).flatMap fun selector _ =>
    content.slots.filterMap fun item => (nodeMatchScore selector item.type item.classTuple
      item.slot).map fun score => (score, cellItem item.vertexId item.type item.slot item.value)
  have facts := (moved.observed.filterMap nodeSelector).flatMap fun selector _ =>
    content.held.filterMap fun item => (nodeMatchScore selector item.type item.classTuple
      item.slot).map fun score => (score, cellItem item.vertexId item.type item.slot item.value)
  have contracts := (moved.edges.filterMap edgeSelector).flatMap fun selector _ =>
    (content.contracts.filter (edgeMatches selector)).map fun contract =>
      (selector.specificity, contractItem contract)
  exact (slots.append facts).append contracts

theorem best_match_moved (content : FrontierMoved frontier frontier') {left right : Lesson}
    (moved : LessonMoved left right) :
    bestMatch (parseSelectors left.frontmatter) frontier =
      bestMatch (parseSelectors right.frontmatter) frontier' :=
  best_of_perm (scored_items_moved content moved)

theorem is_empty_moved (content : FrontierMoved frontier frontier') :
    frontier.isEmpty = frontier'.isEmpty := by
  unfold Frontier.isEmpty
  rw [content.slots.isEmpty_eq, content.contracts.isEmpty_eq, content.held.isEmpty_eq]

end Order

section Ranked

variable [UnicodeDatabase] {frontier frontier' : Frontier} {lessons lessons' : List Lesson}

def Matches (frontier : Frontier) (lesson : Lesson) : Prop :=
  scoredItems (parseSelectors lesson.frontmatter) frontier ≠ []

omit [UnicodeDatabase] in
instance (lesson : Lesson) : Decidable (Matches frontier lesson) :=
  inferInstanceAs (Decidable (_ ≠ _))

theorem hit_of_some {lesson : Lesson} {entry : Hit × List Str}
    (found : hitOf frontier lesson = some entry) :
    entry.1.path = lesson.path ∧ entry.1.name = lesson.name ∧
      entry.1.frontmatter = lesson.frontmatter ∧
      bestMatch (parseSelectors lesson.frontmatter) frontier = some (entry.1.score, entry.2) := by
  obtain ⟨⟨score, candidates⟩, best, rfl⟩ := Option.map_eq_some_iff.mp found
  exact ⟨rfl, rfl, rfl, best⟩

theorem hit_of_none_iff {lesson : Lesson} :
    hitOf frontier lesson = none ↔ ¬Matches frontier lesson := by
  unfold hitOf bestMatch Matches
  rw [Option.map_eq_none_iff, best_of_none_iff, not_not]

theorem hit_names (lessons : List Lesson) :
    (lessons.filterMap (hitOf frontier)).map (·.1.name) =
      (lessons.filter (Matches frontier ·)).map Lesson.name := by
  induction lessons with
  | nil => rfl
  | cons lesson lessons ih =>
      cases found : hitOf frontier lesson with
      | none =>
          have unmatched := hit_of_none_iff.mp found
          rw [List.filterMap_cons_none found, ih]
          simp [unmatched]
      | some entry =>
          have matched : Matches frontier lesson := by
            by_contra unmatched
            rw [hit_of_none_iff.mpr unmatched] at found
            cases found
          rw [List.filterMap_cons_some found, List.map_cons, ih]
          simp [matched, (hit_of_some found).2.1]

omit [UnicodeDatabase] in
theorem ranked_total (left right : Hit × List Str) :
    RankedBefore left right ∨ RankedBefore right left := by
  unfold RankedBefore
  rcases Nat.lt_trichotomy left.1.score right.1.score with less | same | more
  · exact .inr (.inl less)
  · rcases text_le_total left.1.name right.1.name with below | above
    · exact .inl (.inr ⟨same, below⟩)
    · exact .inr (.inr ⟨same.symm, above⟩)
  · exact .inl (.inl more)

omit [UnicodeDatabase] in
theorem ranked_trans {left middle right : Hit × List Str} (first : RankedBefore left middle)
    (second : RankedBefore middle right) : RankedBefore left right := by
  unfold RankedBefore at *
  rcases first with more | ⟨same, below⟩
  · rcases second with further | ⟨level, -⟩
    · exact .inl (further.trans more)
    · exact .inl (level ▸ more)
  · rcases second with further | ⟨level, above⟩
    · exact .inl (same ▸ further)
    · exact .inr ⟨same.trans level, text_le_trans below above⟩

omit [UnicodeDatabase] in
theorem ranked_names {left right : Hit × List Str} (first : RankedBefore left right)
    (second : RankedBefore right left) : left.1.name = right.1.name := by
  unfold RankedBefore at *
  rcases first with more | ⟨same, below⟩
  · rcases second with less | ⟨level, -⟩ <;> omega
  · rcases second with less | ⟨-, above⟩
    · omega
    · exact text_le_antisymm below above

theorem ranked_hits_perm (frontier : Frontier) (lessons : List Lesson) :
    (rankedHits frontier lessons).Perm (lessons.filterMap (hitOf frontier)) :=
  List.perm_insertionSort _ _

theorem ranked_hits_moved (distinct : (lessons.map Lesson.name).Nodup)
    (moved : lessons.Perm lessons') : rankedHits frontier lessons = rankedHits frontier lessons' := by
  have : Std.Total RankedBefore := ⟨ranked_total⟩
  have : IsTrans (Hit × List Str) RankedBefore := ⟨fun _ _ _ => ranked_trans⟩
  have both : (rankedHits frontier lessons).Perm (rankedHits frontier lessons') :=
    ((ranked_hits_perm frontier lessons).trans (moved.filterMap _)).trans
      (ranked_hits_perm frontier lessons').symm
  have named : ((rankedHits frontier lessons).map (·.1.name)).Nodup := by
    rw [((ranked_hits_perm frontier lessons).map _).nodup_iff, hit_names]
    exact distinct.sublist (List.filter_sublist.map _)
  apply both.eq_of_pairwise
  · intro left right inside also first second
    exact List.inj_on_of_nodup_map named inside (both.mem_iff.mpr also) (ranked_names first second)
  · exact List.pairwise_insertionSort RankedBefore _
  · exact List.pairwise_insertionSort RankedBefore _

omit [UnicodeDatabase] in
/-- An entry without the front matter its hit carries along. -/
def bare (entry : Hit × List Str) : Hit × List Str := ({ entry.1 with frontmatter := [] }, entry.2)

theorem hit_of_moved (content : FrontierMoved frontier frontier') {left right : Lesson}
    (moved : LessonMoved left right) :
    (hitOf frontier left).map bare = (hitOf frontier' right).map bare := by
  have named : left.name = right.name := by
    unfold Lesson.name
    rw [moved.path, moved.name]
  unfold hitOf
  rw [best_match_moved content moved, Option.map_map, Option.map_map]
  apply congrArg (Option.map · _)
  funext best
  simp only [Function.comp_apply, bare, moved.path, named]

theorem ranked_hits_bare (content : FrontierMoved frontier frontier')
    (moved : List.Forall₂ LessonMoved lessons lessons') :
    (rankedHits frontier lessons).map bare = (rankedHits frontier' lessons').map bare := by
  have entries : (lessons.filterMap (hitOf frontier)).map bare =
      (lessons'.filterMap (hitOf frontier')).map bare := by
    rw [List.map_filterMap, List.map_filterMap]
    induction moved with
    | nil => rfl
    | cons first _ ih => rw [List.filterMap_cons, List.filterMap_cons, hit_of_moved content first, ih]
  unfold rankedHits
  rw [List.map_insertionSort RankedBefore RankedBefore bare _ fun _ _ _ _ => Iff.rfl, entries,
    ← List.map_insertionSort RankedBefore RankedBefore bare _ fun _ _ _ _ => Iff.rfl]

end Ranked

section Spread

variable {ranked : List (Hit × List Str)}

theorem least_covered_mem {used : Str → Nat} {pair : Hit × List Str} (filled : pair.2 ≠ []) :
    leastCovered used pair ∈ pair.2 := by
  obtain ⟨first, others, same⟩ := List.exists_cons_of_ne_nil filled
  unfold leastCovered
  rw [same, List.headD_cons, List.tail_cons]
  have general : ∀ (candidates : List Str) (least : Str), least ∈ first :: others →
      candidates ⊆ first :: others → candidates.foldl (fun least candidate =>
        if used candidate < used least ∨
          used candidate = used least ∧ ¬textLe least candidate = true then candidate
        else least) least ∈ first :: others := by
    intro candidates
    induction candidates with
    | nil => exact fun _ inside _ => inside
    | cons candidate candidates ih =>
        intro least inside within
        rw [List.foldl_cons]
        apply ih
        · split
          · exact within List.mem_cons_self
          · exact inside
        · exact fun _ member => within (List.mem_cons_of_mem _ member)
  exact general others first List.mem_cons_self (List.subset_cons_self _ _)

theorem spread_names (ranked : List (Hit × List Str)) :
    ((spreadOverItems ranked).map Hit.name).Perm (ranked.map (·.1.name)) := by
  have moved := (spread_loads leastCovered ranked).map fun entry => entry.1.name
  rw [List.map_map] at moved
  unfold spreadOverItems
  rw [List.map_map]
  exact moved

theorem spread_hit (filled : ∀ entry ∈ ranked, entry.2 ≠ []) {hit : Hit}
    (inside : hit ∈ spreadOverItems ranked) :
    ∃ entry ∈ ranked, hit = { entry.1 with matched := hit.matched } ∧ hit.matched ∈ entry.2 := by
  obtain ⟨placed, member, rfl⟩ := List.mem_map.mp inside
  have load : placed.load ∈ ranked :=
    (spread_loads leastCovered ranked).mem_iff.mp (List.mem_map_of_mem member)
  obtain ⟨used, chosen⟩ := place_chosen leastCovered
    ((spread_perm leastCovered ranked).mem_iff.mp member)
  refine ⟨placed.load, load, rfl, ?_⟩
  change placed.spot ∈ _
  rw [chosen]
  exact least_covered_mem (filled placed.load load)

theorem spread_compared (ranked : List (Hit × List Str)) :
    (spreadOverItems (ranked.map bare)).map Hit.compared =
      (spreadOverItems ranked).map Hit.compared := by
  have carried : spread leastCovered (ranked.map bare) =
      (spread leastCovered ranked).map (Placed.mapLoad bare) :=
    spread_map leastCovered bare (fun _ _ => rfl) ranked
  unfold spreadOverItems
  rw [carried, List.map_map, List.map_map, List.map_map]
  rfl

theorem spread_covers {before after : List Hit} {hit : Hit}
    (cut : spreadOverItems ranked = before ++ hit :: after)
    (again : hit.matched ∈ before.map Hit.matched) {other : Hit}
    (inside : other ∈ spreadOverItems ranked) : other.matched ∈ before.map Hit.matched := by
  obtain ⟨front, back, whole, rfl, behind⟩ := List.map_eq_append_iff.mp cut
  obtain ⟨placed, rest, rfl, rfl, -⟩ := List.map_eq_cons_iff.mp behind
  obtain ⟨last, member, rfl⟩ := List.mem_map.mp inside
  rw [List.map_map] at again ⊢
  exact covered_before_repeat leastCovered whole again member

end Spread

section Results

variable [UnicodeDatabase] {frontier frontier' : Frontier} {lessons middle lessons' : List Lesson}

theorem match_loaded_ahead (frontier : Frontier) (lessons : List Lesson) (topK : Int) :
    matchLoaded frontier lessons topK <+: spreadOverItems (rankedHits frontier lessons) := by
  unfold matchLoaded
  split
  · exact List.nil_prefix
  · exact List.take_prefix _ _

theorem match_loaded_grows {topK topK' : Int} (fewer : topK ≤ topK') :
    matchLoaded frontier lessons topK <+: matchLoaded frontier lessons topK' := by
  unfold matchLoaded
  by_cases none : frontier.isEmpty = true ∨ topK ≤ 0
  · rw [if_pos none]
    exact List.nil_prefix
  · have more : ¬(frontier.isEmpty = true ∨ topK' ≤ 0) := by
      rw [not_or] at none ⊢
      exact ⟨none.1, by omega⟩
    rw [if_neg none, if_neg more]
    exact List.take_prefix_take_left (Int.toNat_le_toNat fewer)

def RecordedOn (frontier : Frontier) (hit : Hit) (lesson : Lesson) : Prop :=
  hit.path = lesson.path ∧ hit.name = lesson.name ∧ hit.frontmatter = lesson.frontmatter ∧
    (hit.score, hit.matched) ∈ scoredItems (parseSelectors lesson.frontmatter) frontier ∧
    ∀ scored ∈ scoredItems (parseSelectors lesson.frontmatter) frontier, scored.1 ≤ hit.score

theorem ranked_entry {entry : Hit × List Str} (inside : entry ∈ rankedHits frontier lessons) :
    ∃ lesson ∈ lessons, hitOf frontier lesson = some entry :=
  List.mem_filterMap.mp ((ranked_hits_perm frontier lessons).mem_iff.mp inside)

theorem match_loaded_recorded {topK : Int} {hit : Hit}
    (inside : hit ∈ matchLoaded frontier lessons topK) :
    ∃ lesson ∈ lessons, RecordedOn frontier hit lesson := by
  have filled : ∀ entry ∈ rankedHits frontier lessons, entry.2 ≠ [] := by
    intro entry member
    obtain ⟨lesson, -, found⟩ := ranked_entry member
    exact candidates_filled (hit_of_some found).2.2.2
  obtain ⟨entry, member, same, item⟩ :=
    spread_hit filled ((match_loaded_ahead frontier lessons topK).subset inside)
  obtain ⟨lesson, known, found⟩ := ranked_entry member
  obtain ⟨path, named, front, best⟩ := hit_of_some found
  obtain ⟨reached, bound⟩ := best_of_spec best
  refine ⟨lesson, known, ?_⟩
  rw [same]
  exact ⟨path, named, front, (reached _).mp item, bound⟩

omit [UnicodeDatabase] in
theorem scored_items_empty (none : frontier.isEmpty = true) (selectors : Selectors) :
    scoredItems selectors frontier = [] := by
  simp only [Frontier.isEmpty, Bool.and_eq_true, List.isEmpty_iff] at none
  obtain ⟨⟨slots, contracts⟩, held⟩ := none
  have nothing : ∀ {Selector : Type} (selectors : List Selector),
      selectors.flatMap (fun _ => ([] : List (Nat × Str))) = [] := by
    intro Selector selectors
    simp
  unfold scoredItems
  rw [slots, contracts, held]
  exact congrArg₂ (· ++ ·) (congrArg₂ (· ++ ·) (nothing _) (nothing _)) (nothing _)

theorem match_loaded_whole {topK : Int}
    (room : ((lessons.filter (Matches frontier ·)).length : Int) ≤ topK) :
    ((matchLoaded frontier lessons topK).map Hit.name).Perm
      ((lessons.filter (Matches frontier ·)).map Lesson.name) := by
  have names : ((spreadOverItems (rankedHits frontier lessons)).map Hit.name).Perm
      ((lessons.filter (Matches frontier ·)).map Lesson.name) := by
    have ranked := (ranked_hits_perm frontier lessons).map (·.1.name)
    rw [hit_names] at ranked
    exact (spread_names _).trans ranked
  have count := names.length_eq
  rw [List.length_map, List.length_map] at count
  unfold matchLoaded
  split
  · rename_i none
    have unmatched : lessons.filter (Matches frontier ·) = [] := by
      rcases none with empty | nonpositive
      · rw [List.filter_eq_nil_iff]
        intro lesson _
        simp [Matches, scored_items_empty empty]
      · exact List.length_eq_zero_iff.mp (by omega)
    rw [unmatched]
    exact .nil
  · rw [List.take_of_length_le (by omega)]
    exact names

/-- What is recalled depends on content alone: every matching lesson has its place on an item it
speaks to best, every item is covered before one is covered twice, and more room only adds to the
end. -/
theorem match_loaded_exact (distinct : (lessons.map Lesson.name).Nodup)
    (content : FrontierMoved frontier frontier') (moved : lessons.Perm middle)
    (listed : List.Forall₂ LessonMoved middle lessons') (topK : Int) :
    (matchLoaded frontier lessons topK).map Hit.compared =
        (matchLoaded frontier' lessons' topK).map Hit.compared ∧
      (((lessons.filter (Matches frontier ·)).length : Int) ≤ topK →
        ((matchLoaded frontier lessons topK).map Hit.name).Perm
            ((lessons.filter (Matches frontier ·)).map Lesson.name) ∧
          ∀ hit ∈ matchLoaded frontier lessons topK,
            ∃ lesson ∈ lessons, RecordedOn frontier hit lesson) ∧
      (∀ before hit after, matchLoaded frontier lessons topK = before ++ hit :: after →
        hit.matched ∈ before.map Hit.matched → ∀ other ∈ matchLoaded frontier lessons topK,
          other.matched ∈ before.map Hit.matched) ∧
      ∀ topK' ≥ topK, matchLoaded frontier lessons topK <+: matchLoaded frontier lessons topK' := by
  refine ⟨?_, ?_, ?_, fun topK' more => match_loaded_grows more⟩
  · have ranking : (rankedHits frontier lessons).map bare =
        (rankedHits frontier' lessons').map bare := by
      rw [ranked_hits_moved distinct moved, ranked_hits_bare content listed]
    have spreading : (spreadOverItems (rankedHits frontier lessons)).map Hit.compared =
        (spreadOverItems (rankedHits frontier' lessons')).map Hit.compared := by
      rw [← spread_compared, ranking, spread_compared]
    unfold matchLoaded
    rw [is_empty_moved content]
    split
    · rfl
    · rw [List.map_take, List.map_take, spreading]
  · exact fun room => ⟨match_loaded_whole room, fun _ inside => match_loaded_recorded inside⟩
  · intro before hit after cut again other inside
    obtain ⟨rest, whole⟩ := match_loaded_ahead frontier lessons topK
    have placed : spreadOverItems (rankedHits frontier lessons) =
        before ++ hit :: (after ++ rest) := by
      rw [← whole, cut, List.append_assoc, List.cons_append]
    exact spread_covers placed again ((match_loaded_ahead frontier lessons topK).subset inside)

omit [UnicodeDatabase] in
theorem LessonMoved.refl (lesson : Lesson) : LessonMoved lesson lesson :=
  ⟨rfl, rfl, .refl _, .refl _, .refl _⟩

omit [UnicodeDatabase] in
/-- Two lessons on two open slots, in either order. -/
theorem match_loaded_swapped :
    let _ : UnicodeDatabase := asciiDatabase
    let role : OpenSlot := ⟨"v-001", "compute", "??/??/??", "class", "??"⟩
    let account : OpenSlot := ⟨"v-002", "identity", "??/??", "ident", "??"⟩
    let about (name type slot : Str) : Lesson := ⟨name ++ ".md", [(.text "frontier_nodes",
      .mapping [(.text "type", .text type), (.text "slot", .text slot)])]⟩
    let first := about "host-role" "compute" "class"
    let second := about "service-account" "identity" "ident"
    (matchLoaded ⟨[role, account], [], []⟩ [first, second] 3).map Hit.compared =
      (matchLoaded ⟨[account, role], [], []⟩ [second, first] 3).map Hit.compared := by
  intro _ role account about first second
  have distinct : ([first, second].map Lesson.name).Nodup := by decide
  have content : FrontierMoved ⟨[role, account], [], []⟩ ⟨[account, role], [], []⟩ :=
    ⟨.swap _ _ _, .refl _, .refl _⟩
  exact (match_loaded_exact distinct content (.swap _ _ _)
    (.cons (.refl second) (.cons (.refl first) .nil)) 3).1

end Results

end Defender.Investigation.LessonLane
