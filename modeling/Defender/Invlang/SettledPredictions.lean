import Defender.Invlang.StandingWeights
import Defender.Invlang.SubBlocksCarried

/-!
# Settled predictions under an append

A moving row settles the predictions it cites and those that the refutations it cites are scoped
to. The scopes are read from the hypothesis record that readers see, and an appended block can put
a record with no refutations in its place: it declares the hypothesis once more, at a lead that is
mentioned ahead. What only a scope had settled is then no longer settled.
-/

namespace Defender.Invlang

open Defender.Python Defender.Library.OrderedDict Defender.Library.Growth

/-- The predictions a refutation's `refutes` cell names. -/
def scopeNamed (shape : RefutationRecord) : List Str :=
  shape.refutesPredictions.filter fun id => id ≠ [] && !isConcludeEmptyMarker id

/-- The predictions a cited refutation stands for, read from the record readers see. -/
def scopeRead (companion : CompanionBody) (hid rid : Str) : List Str :=
  (((((allHypotheses companion).get? hid).map refutationScopes).getD Dict.empty).get? rid).getD []

theorem lookup_scopes (shapes : List RefutationRecord) (rid : Str) :
    Dict.lookup rid (shapes.map fun shape => (shape.id, scopeNamed shape)) =
      (shapes.find? fun shape => shape.id == rid).map scopeNamed := by
  induction shapes with
  | nil => rfl
  | cons shape rest ih =>
      rw [List.map_cons, Dict.lookup, ih, List.find?_cons]
      by_cases own : shape.id = rid
      · simp [own]
      · rw [if_neg own, beq_false_of_ne own]

theorem scopes_of_distinct {hyp : HypothesisRecord}
    (distinct : (hyp.refutationShape.map RefutationRecord.id).Nodup) (rid : Str) :
    (refutationScopes hyp).get? rid =
      (hyp.refutationShape.find? fun shape => shape.id == rid).map scopeNamed := by
  have keys : ((hyp.refutationShape.map fun shape => (shape.id, scopeNamed shape)).map
      Prod.fst).Nodup := by
    rw [List.map_map]
    exact distinct
  rw [← lookup_scopes, ← Dict.of_list_entries keys]
  rfl

theorem extend_by_id_distinct {Item : Type*} (idOf : Item → Str) {rows : List Item}
    (named : ∀ row ∈ rows, idOf row ≠ []) {held : List Item} (distinct : (held.map idOf).Nodup) :
    ((extendById idOf held rows).map idOf).Nodup := by
  induction rows generalizing held with
  | nil => exact distinct
  | cons row rest ih =>
      rw [List.forall_mem_cons] at named
      apply ih named.2
      unfold addById
      by_cases known : idOf row ∈ held.map idOf
      · rw [if_pos ⟨named.1, known⟩]
        exact distinct
      · rw [if_neg fun both => known both.2, List.map_append, List.map_singleton]
        exact List.nodup_append.mpr ⟨distinct, List.nodup_singleton _, by
          rintro id member other single rfl
          exact known (List.mem_singleton.mp single ▸ member)⟩

section Settling

variable [UnicodeDatabase]

theorem mem_settled_by_row (companion : CompanionBody) (row : ResolutionRecord) (pid : Str) :
    pid ∈ settledByRow companion row ↔
      ((pid ∈ row.matchedPredictionIds ∧ pid ≠ []) ∨
        ∃ rid ∈ row.matchedRefutationIds, pid ∈ scopeRead companion row.hypothesis rid) ∧
      pid ∉ contradictedPredictions row := by
  unfold settledByRow scopeRead
  dsimp only
  rw [List.mem_filter, List.mem_append, List.mem_filter, List.mem_flatMap]
  simp

theorem settled_fold (companion : CompanionBody) (hid pid : Str)
    (entries : List (Str × ResolutionRecord)) (held : Dict Str (List Str)) :
    pid ∈ ((entries.foldl (fun held entry =>
        if resolutionMove entry.2 = [] then held
        else held.modify entry.2.hypothesis [] (· ++ settledByRow companion entry.2))
          held).get? hid).getD [] ↔
      pid ∈ (held.get? hid).getD [] ∨
        ∃ row ∈ rowsOf hid entries, resolutionMove row ≠ [] ∧ pid ∈ settledByRow companion row := by
  induction entries generalizing held with
  | nil => simp [rowsOf]
  | cons entry rest ih =>
      rw [List.foldl_cons, ih, rows_of_cons]
      by_cases still : resolutionMove entry.2 = []
      · by_cases own : entry.2.hypothesis = hid
        · simp [still, own]
        · simp [still, own]
      · by_cases own : entry.2.hypothesis = hid
        · simp [still, own, Dict.get_modify, or_assoc]
        · simp [still, own, Dict.get_modify]

theorem mem_settled_iff (companion : CompanionBody) (hid pid : Str) :
    pid ∈ ((settledPredictions companion).get? hid).getD [] ↔
      ∃ row ∈ rowsOf hid (iterResolutions companion),
        resolutionMove row ≠ [] ∧ pid ∈ settledByRow companion row := by
  unfold settledPredictions
  rw [settled_fold]
  simp

theorem refut_row_named {block : Block} {row : Str} {record : RefutationRecord}
    (reads : hypSubRefutRow block row = .ok record) : record.id ≠ [] := by
  unfold hypSubRefutRow at reads
  rcases bind_read reads with ⟨raw, _, checked⟩
  rcases bind_read checked with ⟨_, required, made⟩
  cases made
  unfold requireCells at required
  split at required
  · rename_i all
    simpa using all
  · contradiction

theorem declared_refuts_named {blocks : List Block} {hid : Str} {record : RefutationRecord}
    (member : record ∈ refutsTable.declared blocks hid) : record.id ≠ [] := by
  obtain ⟨block, _, inside⟩ := List.mem_flatMap.mp member
  cases kind : Projector.blockKind block with
  | hypSub named sub =>
      rw [kind] at inside
      dsimp only at inside
      split at inside
      · obtain ⟨row, _, reads⟩ := List.mem_filterMap.mp inside
        change (hypSubRefutRow block row).toOption = some record at reads
        cases result : hypSubRefutRow block row with
        | error reason =>
            rw [result] at reads
            contradiction
        | ok read =>
            rw [result] at reads
            cases reads
            exact refut_row_named result
      · contradiction
  | _ =>
      rw [kind] at inside
      contradiction

end Settling

section Reading

variable [UnicodeDatabase] {blocks : List Block}

theorem record_looked (landed : Landed (projectBlocks blocks) blocks) (hid : Str) :
    (allHypotheses (companionFromBlocks blocks).1).get? hid =
      (recordAt (projectBlocks blocks) .table hid).or
        (((leadMentions blocks).find? (declaredByLead blocks hid)).bind fun id =>
          recordAt (projectBlocks blocks) (.lead id) hid) := by
  rw [← lead_record_found landed]
  exact all_hypotheses_record (projectBlocks blocks) hid

theorem declared_seen (silent : (companionFromBlocks blocks).2 = []) {hid : Str}
    (declared : declarers blocks hid ≠ []) :
    ((allHypotheses (companionFromBlocks blocks).1).get? hid).isSome := by
  have landed := landed_blocks blocks (silent_projection silent)
  rw [record_looked landed]
  obtain ⟨site, member⟩ := List.exists_mem_of_ne_nil _ declared
  cases site with
  | table =>
      have stands := (landed.stands .table hid).mpr member
      rw [Option.isSome_or, stands]
      rfl
  | lead lead =>
      obtain ⟨other, earliest⟩ :=
        Option.isSome_iff_exists.mp (declaring_lead_mentioned landed member)
      have declares : declaredByLead blocks hid other = true := List.find?_some earliest
      have stands := (landed.stands (.lead other) hid).mpr (of_decide_eq_true declares)
      rw [earliest, Option.bind_some, Option.isSome_or, stands, Bool.or_true]

/-- The site whose record readers see is the first declarer's exactly where the first declaring
lead is mentioned first. -/
theorem record_seen (silent : (companionFromBlocks blocks).2 = []) {hid : Str}
    {record : HypothesisRecord}
    (seen : (allHypotheses (companionFromBlocks blocks).1).get? hid = some record) :
    ∃ site bare, Bare bare ∧ record = attachAll (attachedAt blocks site hid) bare ∧
      ((declarers blocks hid).head? = some site ↔ FirstDeclarerMentionedFirst blocks hid) := by
  have landed := landed_blocks blocks (silent_projection silent)
  rw [record_looked landed] at seen
  cases table : recordAt (projectBlocks blocks) .table hid with
  | some held =>
      rw [table] at seen
      cases seen
      obtain ⟨bare, isBare, same⟩ := landed.carried .table hid record table
      refine ⟨.table, bare, isBare, same, ?_⟩
      have stands := (landed.stands .table hid).mp (by rw [table]; rfl)
      have head : (declarers blocks hid).head? = some .table := by
        cases sites : declarers blocks hid with
        | nil =>
            rw [sites] at stands
            contradiction
        | cons first others =>
            have alone := landed.registry.alone hid stands first (by rw [sites]; simp)
            rw [alone]
            rfl
      refine iff_of_true head fun lead first => ?_
      rw [head] at first
      cases first
  | none =>
      rw [table, Option.none_or] at seen
      obtain ⟨lead, mentioned, held⟩ := Option.bind_eq_some_iff.mp seen
      obtain ⟨bare, isBare, same⟩ := landed.carried (.lead lead) hid record held
      refine ⟨.lead lead, bare, isBare, same, ?_⟩
      constructor
      · intro head other first
        rw [head] at first
        cases first
        exact mentioned
      · intro order
        have stands := (landed.stands (.lead lead) hid).mp (by rw [held]; rfl)
        cases sites : declarers blocks hid with
        | nil =>
            rw [sites] at stands
            contradiction
        | cons first others =>
            cases first with
            | table =>
                have declares : HypSite.table ∈ declarers blocks hid := by rw [sites]; simp
                have found := (landed.stands .table hid).mpr declares
                rw [table] at found
                contradiction
            | lead other =>
                have earliest := order other (by rw [sites]; rfl)
                rw [mentioned] at earliest
                cases earliest
                rfl

theorem attachments_declared (blocks : List Block) {hid : Str} {bare : HypothesisRecord}
    (isBare : Bare bare) (site : HypSite) :
    (attachAll (attachedAt blocks site hid) bare).refutationShape =
      extendById RefutationRecord.id []
        (if (declarers blocks hid).head? = some site then refutsTable.declared blocks hid else []) := by
  change refutsTable.held _ = _
  rw [attach_all_held, refutsTable.bare bare isBare]
  unfold attachedAt
  split
  · rw [attachments_rows]
    rfl
  · rfl

theorem scope_of_record {hid rid : Str} {record : HypothesisRecord}
    (seen : (allHypotheses (companionFromBlocks blocks).1).get? hid = some record)
    {rows : List RefutationRecord} (named : ∀ row ∈ rows, row.id ≠ [])
    (shape : record.refutationShape = extendById RefutationRecord.id [] rows) :
    scopeRead (companionFromBlocks blocks).1 hid rid =
      ((rows.find? fun row => row.id == rid).map scopeNamed).getD [] := by
  have distinct : (record.refutationShape.map RefutationRecord.id).Nodup := by
    rw [shape]
    exact extend_by_id_distinct RefutationRecord.id named List.nodup_nil
  rw [scopeRead, seen, Option.map_some, Option.getD_some, scopes_of_distinct distinct, shape,
    extend_by_id_find]
  rfl

theorem scope_read_first (silent : (companionFromBlocks blocks).2 = []) {hid rid : Str}
    (first : FirstDeclarerMentionedFirst blocks hid) {record : HypothesisRecord}
    (seen : (allHypotheses (companionFromBlocks blocks).1).get? hid = some record) :
    scopeRead (companionFromBlocks blocks).1 hid rid =
      (((refutsTable.declared blocks hid).find? fun row => row.id == rid).map
        scopeNamed).getD [] := by
  obtain ⟨site, bare, isBare, same, head⟩ := record_seen silent seen
  apply scope_of_record seen fun row member => declared_refuts_named member
  rw [same, attachments_declared blocks isBare, if_pos (head.mpr first)]

theorem scope_read_shadowed (silent : (companionFromBlocks blocks).2 = []) {hid : Str}
    (shadowed : ¬ FirstDeclarerMentionedFirst blocks hid) (rid : Str) :
    scopeRead (companionFromBlocks blocks).1 hid rid = [] := by
  cases seen : (allHypotheses (companionFromBlocks blocks).1).get? hid with
  | none =>
      rw [scopeRead, seen]
      rfl
  | some record =>
      obtain ⟨site, bare, isBare, same, head⟩ := record_seen silent seen
      have shape : record.refutationShape = extendById RefutationRecord.id [] [] := by
        rw [same, attachments_declared blocks isBare, if_neg fun found => shadowed (head.mp found)]
      rw [scope_of_record seen (List.forall_mem_nil _) shape]
      rfl

end Reading

def SettledKept [UnicodeDatabase] (before after : CompanionBody) : Prop :=
  ∀ hid, ((settledPredictions before).get? hid).getD [] ⊆
    ((settledPredictions after).get? hid).getD []

def SettlesByCitation [UnicodeDatabase] (pid : Str) (row : ResolutionRecord) : Prop :=
  resolutionMove row ≠ [] ∧ pid ∈ row.matchedPredictionIds ∧ pid ≠ [] ∧
    pid ∉ contradictedPredictions row

def CitedWithoutScopes [UnicodeDatabase] (before after : CompanionBody) (hid : Str) : Prop :=
  ∀ row ∈ rowsOf hid (iterResolutions before), resolutionMove row ≠ [] →
    ∀ rid ∈ row.matchedRefutationIds, ∀ pid ∈ scopeRead before hid rid,
      pid ∉ contradictedPredictions row →
        ∃ other ∈ rowsOf hid (iterResolutions after), SettlesByCitation pid other

section Appending

theorem rows_kept {restated : Restatable → Prop} {before after : CompanionBody}
    (grows : CompanionGrows restated before after) (hid : Str) {row : ResolutionRecord}
    (member : row ∈ rowsOf hid (iterResolutions before)) :
    row ∈ rowsOf hid (iterResolutions after) := by
  have carried : ∀ {early late : List FindingRecord}, PrefixUpTo (LeadGrows restated) early late →
      ∀ entry ∈ early.flatMap fun lead => lead.resolutions.map fun record => (lead.id, record),
        entry ∈ late.flatMap fun lead => lead.resolutions.map fun record => (lead.id, record) := by
    intro early late longer
    induction longer with
    | nil after => simp
    | cons same rest ih =>
        intro entry among
        rw [List.flatMap_cons, List.mem_append] at among ⊢
        rcases among with first | later
        · left
          rw [← same.id]
          exact List.map_subset _ same.resolutions.subset first
        · exact .inr (ih entry later)
  unfold rowsOf at member ⊢
  rw [List.mem_filter, List.mem_map] at member ⊢
  obtain ⟨⟨entry, among, rfl⟩, own⟩ := member
  exact ⟨⟨entry, carried grows.findings entry among, rfl⟩, own⟩

variable [UnicodeDatabase] {blocks : List Block} {block : Block}

theorem declarers_kept {hid : Str} (declared : declarers blocks hid ≠ []) :
    declarers (blocks ++ [block]) hid ≠ [] := by
  rw [declarers_extend]
  simp [declared]

theorem scope_kept (silent : (companionFromBlocks blocks).2 = [])
    (quiet : (companionFromBlocks (blocks ++ [block])).2 = []) {hid rid pid : Str}
    (before : FirstDeclarerMentionedFirst blocks hid)
    (after : FirstDeclarerMentionedFirst (blocks ++ [block]) hid)
    (within : pid ∈ scopeRead (companionFromBlocks blocks).1 hid rid) :
    pid ∈ scopeRead (companionFromBlocks (blocks ++ [block])).1 hid rid := by
  cases seen : (allHypotheses (companionFromBlocks blocks).1).get? hid with
  | none =>
      rw [scopeRead, seen] at within
      exact absurd within List.not_mem_nil
  | some record =>
      obtain ⟨site, _, _, _, head⟩ := record_seen silent seen
      have declared : declarers blocks hid ≠ [] := by
        intro none
        rw [none] at head
        exact absurd (head.mpr before) (by simp)
      obtain ⟨later, found⟩ := Option.isSome_iff_exists.mp
        (declared_seen quiet (declarers_kept declared))
      rw [scope_read_first silent before seen] at within
      rw [scope_read_first quiet after found]
      have split : refutsTable.declared (blocks ++ [block]) hid =
          refutsTable.declared blocks hid ++ refutsTable.declared [block] hid := List.flatMap_append
      rw [split, List.find?_append]
      cases first : (refutsTable.declared blocks hid).find? fun row => row.id == rid with
      | none =>
          rw [first] at within
          exact absurd within List.not_mem_nil
      | some shape =>
          rw [first] at within
          exact within

theorem settled_by_citation {companion : CompanionBody} {hid pid : Str} {row : ResolutionRecord}
    (member : row ∈ rowsOf hid (iterResolutions companion)) (settles : SettlesByCitation pid row) :
    pid ∈ ((settledPredictions companion).get? hid).getD [] := by
  obtain ⟨moved, cited, named, upheld⟩ := settles
  exact (mem_settled_iff companion hid pid).mpr
    ⟨row, member, moved, (mem_settled_by_row companion row pid).mpr ⟨.inl ⟨cited, named⟩, upheld⟩⟩

/-- Without warnings, the settled predictions only grow with an appended block exactly where it
leaves the first declarer the first mentioned, or the citations settle what the scopes had. -/
theorem settled_kept_iff (blocks : List Block) (block : Block)
    (silent : (companionFromBlocks blocks).2 = [])
    (quiet : (companionFromBlocks (blocks ++ [block])).2 = []) :
    SettledKept (companionFromBlocks blocks).1 (companionFromBlocks (blocks ++ [block])).1 ↔
      ∀ hid, FirstDeclarerMentionedFirst blocks hid →
        ¬ FirstDeclarerMentionedFirst (blocks ++ [block]) hid →
          CitedWithoutScopes (companionFromBlocks blocks).1
            (companionFromBlocks (blocks ++ [block])).1 hid := by
  have grows := companion_from_blocks_grows blocks block
  constructor
  · intro kept hid before after row member moved rid cited pid within upheld
    have own : row.hypothesis = hid := by
      simpa using (List.mem_filter.mp member).2
    have settled := kept hid ((mem_settled_iff _ hid pid).mpr ⟨row, member, moved,
      (mem_settled_by_row _ row pid).mpr ⟨.inr ⟨rid, cited, own ▸ within⟩, upheld⟩⟩)
    obtain ⟨other, among, shifts, settles⟩ := (mem_settled_iff _ hid pid).mp settled
    have whose : other.hypothesis = hid := by
      simpa using (List.mem_filter.mp among).2
    rw [mem_settled_by_row] at settles
    obtain ⟨⟨named, some⟩ | ⟨ref, _, shadowed⟩, stands⟩ := settles
    · exact ⟨other, among, shifts, named, some, stands⟩
    · rw [whose, scope_read_shadowed quiet after] at shadowed
      exact absurd shadowed List.not_mem_nil
  · intro covered hid pid settled
    obtain ⟨row, member, moved, settles⟩ := (mem_settled_iff _ hid pid).mp settled
    have own : row.hypothesis = hid := by
      simpa using (List.mem_filter.mp member).2
    rw [mem_settled_by_row, own] at settles
    obtain ⟨⟨cited, named⟩ | ⟨rid, cited, within⟩, upheld⟩ := settles
    · exact settled_by_citation (rows_kept grows hid member) ⟨moved, cited, named, upheld⟩
    · by_cases before : FirstDeclarerMentionedFirst blocks hid
      · by_cases after : FirstDeclarerMentionedFirst (blocks ++ [block]) hid
        · have kept := scope_kept silent quiet before after within
          exact (mem_settled_iff _ hid pid).mpr ⟨row, rows_kept grows hid member, moved,
            (mem_settled_by_row _ row pid).mpr ⟨.inr ⟨rid, cited, own ▸ kept⟩, upheld⟩⟩
        · obtain ⟨other, among, settles⟩ :=
            covered hid before after row member moved rid cited pid within upheld
          exact settled_by_citation among settles
      · rw [scope_read_shadowed silent before] at within
        exact absurd within List.not_mem_nil

end Appending

def refutationBlock : Block :=
  ⟨'H', "h-001.refuts", some hypRefutCols, ["r1|p1|no shell was spawned"], 3⟩

def movingBlock : Block :=
  ⟨'T', "resolutions", none, ["h-001 + → - [l-002 r1 moderate ⟂ e-001]"], 0⟩

/-- The second lead declares `h-001`, and a row moves it on a refutation of `p1`. -/
def refutedOnce : List Block :=
  [leadsBlock, declaringBlock "l-002", predictionBlock, refutationBlock, movingBlock]

theorem refuted_once_silent : (@companionFromBlocks asciiDatabase refutedOnce).2 = [] := by
  decide +kernel

theorem declared_again_silent :
    (@companionFromBlocks asciiDatabase (refutedOnce ++ [declaringBlock "l-001"])).2 = [] := by
  decide +kernel

theorem settled_kept_iff_declared_again :
    @SettledKept asciiDatabase (@companionFromBlocks asciiDatabase refutedOnce).1
        (@companionFromBlocks asciiDatabase (refutedOnce ++ [declaringBlock "l-001"])).1 ↔
      ∀ hid, @FirstDeclarerMentionedFirst asciiDatabase refutedOnce hid →
        ¬ @FirstDeclarerMentionedFirst asciiDatabase (refutedOnce ++ [declaringBlock "l-001"]) hid →
          @CitedWithoutScopes asciiDatabase (@companionFromBlocks asciiDatabase refutedOnce).1
            (@companionFromBlocks asciiDatabase (refutedOnce ++ [declaringBlock "l-001"])).1 hid :=
  @settled_kept_iff asciiDatabase _ _ refuted_once_silent declared_again_silent

/-- The lead mentioned first declares `h-001` once more, and `p1` is no longer settled. -/
theorem declared_again_unsettles :
    (@companionFromBlocks asciiDatabase refutedOnce).2 = [] ∧
      (@companionFromBlocks asciiDatabase (refutedOnce ++ [declaringBlock "l-001"])).2 = [] ∧
      ¬ @SettledKept asciiDatabase (@companionFromBlocks asciiDatabase refutedOnce).1
        (@companionFromBlocks asciiDatabase (refutedOnce ++ [declaringBlock "l-001"])).1 := by
  refine ⟨refuted_once_silent, declared_again_silent, ?_⟩
  intro kept
  have before : ((@settledPredictions asciiDatabase
      (@companionFromBlocks asciiDatabase refutedOnce).1).get? "h-001").getD [] = ["p1"] := by
    decide +kernel
  have after : ((@settledPredictions asciiDatabase (@companionFromBlocks asciiDatabase
      (refutedOnce ++ [declaringBlock "l-001"])).1).get? "h-001").getD [] = [] := by
    decide +kernel
  have settled := kept "h-001"
  rw [before, after] at settled
  exact absurd (settled List.mem_cons_self) List.not_mem_nil

end Defender.Invlang
