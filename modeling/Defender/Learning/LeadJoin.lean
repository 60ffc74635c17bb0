import Defender.Investigation.QueryGuards
import Mathlib.Data.List.Perm.Basic

/-!
# Leads joined with their rows

The claims of a run's leads and the rows of its queries table are two tables, and either may name a
lead the other does not. Joined, every lead of either stands once: those with rows by their first
row, those with a claim alone, and last those with rows alone. Each row is in one list of its lead.
-/

namespace Defender.Learning.LeadJoin

open Defender.Python Defender.Library.OrderedDict
open Defender.Investigation (isReservedQueryId deniedExitCode infraExitCodes agentFixableErrorClass)

/-- What a lead's claim file says. -/
structure LeadClaim where
  goal : Str
  whatToSummarize : List Json
  provenance : Option Str

/-- One row of the queries table as its readers see it, and the record it was read from. -/
structure QueryRow where
  leadId : Str
  seq : Int
  system : Str
  verb : Str
  queryId : Str
  params : Dict Str Json
  rawCommand : Str
  exitCode : Int
  errorClass : Option Str
  payloadStatus : Str
  payloadDigest : Str
  rawRef : Option Str
  payloadSha256 : Str
  systemKey : Str
  receivedAt : Str
  record : Dict Str Json

/-- A record only its writer makes, of a query that was not run. -/
def QueryRow.isSentinel (row : QueryRow) : Bool := isReservedQueryId row.queryId

structure JoinedLead where
  leadId : Str
  goal : Option Str
  whatToSummarize : List Json
  queries : List QueryRow
  orphan : Bool
  provenance : Option Str
  sentinels : List QueryRow

section Load

def isLeadIdChar (char : Char) : Bool := isAsciiAlnum char

def leadIdMaxBody : Nat := 64

/-- `^l-[A-Za-z0-9]{1,64}\Z`. -/
def isLeadId : Str → Bool
  | 'l' :: '-' :: body => body ≠ [] && body.length ≤ leadIdMaxBody && body.all isLeadIdChar
  | _ => false

/-- How a stored value that is no text is rendered, the whole number one stands for, and the
payload file a path names inside the run folder, are given. -/
structure Coercions where
  render : Json → Str
  whole : Json → Option Int
  payload : Option Json → Option Str

variable (coerce : Coercions)

/-- `str(rec.get(key, ""))`. -/
def strCell (row : Dict Str Json) (key : Str) : Str :=
  match row.get? key with
  | none => []
  | some (.string text) => text
  | some value => coerce.render value

/-- `_as_int(rec.get(key, 0))`. -/
def intCell (row : Dict Str Json) (key : Str) : Int := ((row.get? key).bind coerce.whole).getD 0

def errorClassOf (exitCode : Int) : Option Str :=
  if exitCode = 0 then none
  else if exitCode = deniedExitCode then some "denied"
  else if infraExitCodes.any fun code => (code : Int) = exitCode then some "infra"
  else some agentFixableErrorClass

def errorClassCell (row : Dict Str Json) : Option Str :=
  match row.get? "error_class" with
  | none => errorClassOf (intCell coerce row "exit_code")
  | some .null => none
  | some _ => some (strCell coerce row "error_class")

def paramsCell (row : Dict Str Json) : Dict Str Json :=
  match row.get? "params" with
  | some (.object entries) => Dict.ofList entries
  | _ => Dict.empty

def readRow (row : Dict Str Json) : Option QueryRow :=
  match row.get? "lead_id" with
  | some (.string leadId) =>
      if isLeadId leadId then
        some {
          leadId := leadId, seq := intCell coerce row "seq"
          system := strCell coerce row "system", verb := strCell coerce row "verb"
          queryId := strCell coerce row "query_id", params := paramsCell row
          rawCommand := strCell coerce row "raw_command"
          exitCode := intCell coerce row "exit_code", errorClass := errorClassCell coerce row
          payloadStatus := strCell coerce row "payload_status"
          payloadDigest := strCell coerce row "payload_digest"
          rawRef := coerce.payload (row.get? "payload_path")
          payloadSha256 := Json.asStr (row.get? "payload_sha256")
          systemKey := Json.asStr (row.get? "system_key")
          receivedAt := Json.asStr (row.get? "received_at"), record := row }
      else none
  | _ => none

def loadQueriesReport (records : List (Dict Str Json)) (unreadable : Nat) : List QueryRow × Nat :=
  records.foldl (fun report record =>
    match readRow coerce record with
    | some row => (report.1 ++ [row], report.2)
    | none => (report.1, report.2 + 1)) ([], unreadable)

theorem load_report_rows (records : List (Dict Str Json)) (unreadable : Nat) :
    loadQueriesReport coerce records unreadable = (records.filterMap (readRow coerce),
      unreadable + (records.filter fun record => (readRow coerce record).isNone).length) := by
  have general : ∀ report : List QueryRow × Nat, records.foldl (fun report record =>
      match readRow coerce record with
      | some row => (report.1 ++ [row], report.2)
      | none => (report.1, report.2 + 1)) report =
      (report.1 ++ records.filterMap (readRow coerce), report.2 +
        (records.filter fun record => (readRow coerce record).isNone).length) := by
    induction records with
    | nil => simp
    | cons record records ih =>
        intro report
        rw [List.foldl_cons, ih]
        cases read : readRow coerce record with
        | none => simp [read]; omega
        | some row => simp [read]
  simpa [loadQueriesReport] using general ([], unreadable)

end Load

section Join

def seqLe (left right : QueryRow) : Bool := left.seq ≤ right.seq

/-- The queries of a lead and its sentinels, each by their numbers. -/
def partitionRows (rows : List QueryRow) : List QueryRow × List QueryRow :=
  let ordered := rows.insertionSort fun left right => seqLe left right = true
  (ordered.filter fun row => !row.isSentinel, ordered.filter QueryRow.isSentinel)

variable (leads : Dict Str LeadClaim) (queries : List QueryRow)

def buckets : Dict Str (List QueryRow) :=
  queries.foldl (fun held row => held.modify row.leadId [] (· ++ [row]))
    (Dict.ofList (leads.keys.map fun lead => (lead, [])))

def firstSeen : Dict Str Nat :=
  queries.zipIdx.foldl (fun seen entry => seen.setDefault entry.1.leadId entry.2) Dict.empty

def bucket (lead : Str) : List QueryRow := ((buckets leads queries).get? lead).getD []

def seenAt (lead : Str) : Nat := ((firstSeen queries).get? lead).getD queries.length

/-- The leads with rows, by their first row. -/
def ranIds : List Str :=
  ((buckets leads queries).keys.filter fun lead => !(bucket leads queries lead).isEmpty).insertionSort
    fun left right => seenAt queries left ≤ seenAt queries right

def querylessIds : List Str :=
  sorted (leads.keys.filter fun lead => (bucket leads queries lead).isEmpty)

def orphanIds : List Str :=
  sorted ((buckets leads queries).keys.filter fun lead => !leads.contains lead)

def claimedLead (lead : Str) : JoinedLead :=
  let (issued, observed) := partitionRows (bucket leads queries lead)
  let claim := leads.get? lead
  { leadId := lead, goal := claim.map LeadClaim.goal
    whatToSummarize := (claim.map LeadClaim.whatToSummarize).getD [], queries := issued
    orphan := !leads.contains lead, provenance := claim.bind LeadClaim.provenance
    sentinels := observed }

def orphanLead (lead : Str) : JoinedLead :=
  let (issued, observed) := partitionRows (bucket leads queries lead)
  { leadId := lead, goal := none, whatToSummarize := [], queries := issued, orphan := true
    provenance := none, sentinels := observed }

def joined : List JoinedLead :=
  ((ranIds leads queries ++ querylessIds leads queries).filter fun lead =>
      !(orphanIds leads queries).contains lead).map (claimedLead leads queries) ++
    (orphanIds leads queries).map (orphanLead leads queries)

end Join

section Buckets

variable (leads : Dict Str LeadClaim) (queries : List QueryRow)

theorem claims_entries : (Dict.ofList (leads.keys.map fun lead =>
    (lead, ([] : List QueryRow)))).entries = leads.keys.map fun lead => (lead, []) := by
  apply Dict.of_list_entries
  rw [List.map_map]
  simpa [Function.comp_def, Dict.keys] using leads.nodup

theorem bucket_rows (lead : Str) :
    bucket leads queries lead = queries.filter fun row => row.leadId = lead := by
  have start : ((Dict.ofList (leads.keys.map fun lead =>
      (lead, ([] : List QueryRow)))).get? lead).getD [] = [] := by
    cases found : (Dict.ofList (leads.keys.map fun lead =>
        (lead, ([] : List QueryRow)))).get? lead with
    | none => rfl
    | some rows =>
        have held := Dict.mem_of_list_entries ((Dict.mem_entries_iff _ lead rows).mpr found)
        obtain ⟨_, _, same⟩ := List.mem_map.mp held
        rw [← (Prod.mk.inj same).2]
        rfl
  have collected := Dict.get_foldl_collect QueryRow.leadId id queries
    (Dict.ofList (leads.keys.map fun lead => (lead, ([] : List QueryRow)))) lead
  rw [start, List.nil_append, List.map_id] at collected
  exact collected

theorem bucket_empty_iff (lead : Str) :
    (bucket leads queries lead).isEmpty = true ↔ ∀ row ∈ queries, row.leadId ≠ lead := by
  rw [bucket_rows, List.isEmpty_iff, List.filter_eq_nil_iff]
  simp

theorem mem_bucket_keys (lead : Str) :
    lead ∈ (buckets leads queries).keys ↔ lead ∈ leads.keys ∨ ∃ row ∈ queries, row.leadId = lead := by
  have general : ∀ held : Dict Str (List QueryRow),
      lead ∈ (queries.foldl (fun held row => held.modify row.leadId [] (· ++ [row])) held).keys ↔
        lead ∈ held.keys ∨ ∃ row ∈ queries, row.leadId = lead := by
    induction queries with
    | nil => simp
    | cons row queries ih =>
        intro held
        rw [List.foldl_cons, ih, Dict.modify, Dict.keys_set]
        split
        · rename_i known
          constructor
          · rintro (member | ⟨later, among, same⟩)
            · exact .inl member
            · exact .inr ⟨later, List.mem_cons_of_mem _ among, same⟩
          · rintro (member | ⟨later, among, same⟩)
            · exact .inl member
            · rcases List.mem_cons.mp among with rfl | among
              · exact .inl (same ▸ known)
              · exact .inr ⟨later, among, same⟩
        · rw [List.mem_append, List.mem_singleton, or_assoc]
          simp only [List.mem_cons, exists_eq_or_imp]
          exact or_congr_right (or_congr_left eq_comm)
  have start : (Dict.ofList (leads.keys.map fun lead => (lead, ([] : List QueryRow)))).keys =
      leads.keys := by
    rw [Dict.keys, claims_entries, List.map_map]
    simp [Function.comp_def]
  rw [buckets, general, start]

theorem seen_at_first (lead : Str) :
    seenAt queries lead = queries.findIdx fun row => row.leadId = lead := by
  have general : ∀ start, (((queries.zipIdx start).find? fun entry =>
      decide (entry.1.leadId = lead)).map Prod.snd).getD (start + queries.length) =
        start + queries.findIdx fun row => row.leadId = lead := by
    induction queries with
    | nil => simp
    | cons row queries ih =>
        intro start
        rw [List.zipIdx_cons, List.find?_cons, List.findIdx_cons]
        by_cases same : row.leadId = lead
        · simp [same]
        · have further := ih (start + 1)
          simp only [same, decide_false, cond_false, List.length_cons] at further ⊢
          rw [Nat.add_comm queries.length, ← Nat.add_assoc, further]
          omega
  have seen := Dict.get_foldl_set_default (fun entry : QueryRow × Nat => entry.1.leadId) Prod.snd
    queries.zipIdx Dict.empty lead
  rw [Dict.get_empty, Option.none_or] at seen
  have found := general 0
  rw [Nat.zero_add, Nat.zero_add] at found
  rw [seenAt, firstSeen, seen, found]

end Buckets

section Ids

variable (leads : Dict Str LeadClaim) (queries : List QueryRow)

theorem mem_ran_iff (lead : Str) :
    lead ∈ ranIds leads queries ↔ ∃ row ∈ queries, row.leadId = lead := by
  have empty := bucket_empty_iff leads queries lead
  rw [ranIds, List.mem_insertionSort, List.mem_filter, mem_bucket_keys, Bool.not_eq_true',
    ← Bool.not_eq_true, empty]
  simp only [not_forall, not_not, exists_prop]
  exact ⟨And.right, fun has => ⟨.inr has, has⟩⟩

theorem mem_queryless_iff (lead : Str) :
    lead ∈ querylessIds leads queries ↔
      lead ∈ leads.keys ∧ ∀ row ∈ queries, row.leadId ≠ lead := by
  rw [querylessIds, (sorted_perm _).mem_iff, List.mem_filter, bucket_empty_iff]

theorem mem_orphans_iff (lead : Str) :
    lead ∈ orphanIds leads queries ↔ lead ∉ leads.keys ∧ ∃ row ∈ queries, row.leadId = lead := by
  rw [orphanIds, (sorted_perm _).mem_iff, List.mem_filter, mem_bucket_keys, Bool.not_eq_true',
    ← Bool.not_eq_true, Dict.contains_iff]
  tauto

theorem ran_nodup : (ranIds leads queries).Nodup := by
  rw [ranIds, (List.perm_insertionSort _ _).nodup_iff]
  exact (buckets leads queries).nodup.filter _

theorem queryless_nodup : (querylessIds leads queries).Nodup := by
  rw [querylessIds, (sorted_perm _).nodup_iff]
  exact leads.nodup.filter _

theorem orphans_nodup : (orphanIds leads queries).Nodup := by
  rw [orphanIds, (sorted_perm _).nodup_iff]
  exact (buckets leads queries).nodup.filter _

def claimedIds : List Str :=
  (ranIds leads queries ++ querylessIds leads queries).filter fun lead =>
    !(orphanIds leads queries).contains lead

theorem mem_claimed_iff (lead : Str) : lead ∈ claimedIds leads queries ↔ lead ∈ leads.keys := by
  rw [claimedIds, List.mem_filter, List.mem_append, mem_ran_iff, mem_queryless_iff,
    Bool.not_eq_true', ← Bool.not_eq_true, List.contains_iff_mem, mem_orphans_iff]
  constructor
  · rintro ⟨has | ⟨known, -⟩, orphan⟩
    · by_contra unknown
      exact orphan ⟨unknown, has⟩
    · exact known
  · intro known
    refine ⟨?_, fun orphan => orphan.1 known⟩
    by_cases has : ∃ row ∈ queries, row.leadId = lead
    · exact .inl has
    · exact .inr ⟨known, fun row member same => has ⟨row, member, same⟩⟩

theorem claimed_nodup : (claimedIds leads queries).Nodup := by
  apply List.Nodup.filter
  rw [List.nodup_append]
  refine ⟨ran_nodup leads queries, queryless_nodup leads queries, ?_⟩
  intro ran member idle among same
  obtain ⟨row, inside, own⟩ := (mem_ran_iff leads queries ran).mp member
  exact ((mem_queryless_iff leads queries idle).mp among).2 row inside (own.trans same)

theorem joined_ids : (joined leads queries).map JoinedLead.leadId =
    claimedIds leads queries ++ orphanIds leads queries := by
  simp [joined, claimedIds, claimedLead, orphanLead, Function.comp_def]

theorem joined_ids_nodup : ((joined leads queries).map JoinedLead.leadId).Nodup := by
  rw [joined_ids, List.nodup_append]
  refine ⟨claimed_nodup leads queries, orphans_nodup leads queries, ?_⟩
  intro lead known orphan among same
  subst same
  exact ((mem_orphans_iff leads queries lead).mp among).1 ((mem_claimed_iff leads queries lead).mp known)

theorem mem_joined_ids (lead : Str) : lead ∈ (joined leads queries).map JoinedLead.leadId ↔
    lead ∈ leads.keys ∨ ∃ row ∈ queries, row.leadId = lead := by
  rw [joined_ids, List.mem_append, mem_claimed_iff, mem_orphans_iff]
  tauto

theorem ran_ordered : (ranIds leads queries).Pairwise fun left right =>
    (queries.findIdx fun row => row.leadId = left) <
      queries.findIdx fun row => row.leadId = right := by
  let earlier := fun left right : Str => seenAt queries left ≤ seenAt queries right
  have : Std.Total earlier := ⟨fun left right => Nat.le_total _ _⟩
  have : IsTrans Str earlier := ⟨fun _ _ _ below above => Nat.le_trans below above⟩
  have ordered : (ranIds leads queries).Pairwise earlier := List.pairwise_insertionSort earlier _
  have apart : (ranIds leads queries).Pairwise (· ≠ ·) := ran_nodup leads queries
  have inside : ∀ lead ∈ ranIds leads queries,
      (queries.findIdx fun row => row.leadId = lead) < queries.length := by
    intro lead member
    rw [List.findIdx_lt_length]
    simpa using (mem_ran_iff leads queries lead).mp member
  refine (ordered.and apart).imp_of_mem ?_
  intro left right first second ⟨below, different⟩
  simp only [earlier, seen_at_first] at below
  refine Nat.lt_of_le_of_ne below ?_
  intro same
  have own := List.findIdx_getElem (w := inside left first)
  have other := List.findIdx_getElem (w := inside right second)
  simp only [decide_eq_true_eq, same] at own other
  exact different (own.symm.trans other)

end Ids

section Stable

/-- Ordered by number, and the rows of one number as they stood. -/
structure StableBySeq (rows listed : List QueryRow) : Prop where
  perm : listed.Perm rows
  increasing : listed.Pairwise fun left right => left.seq ≤ right.seq
  stable : ∀ seq, (listed.filter fun row => row.seq = seq) = rows.filter fun row => row.seq = seq

theorem sorted_stable (rows : List QueryRow) :
    StableBySeq rows (rows.insertionSort fun left right => seqLe left right = true) := by
  let le := fun left right : QueryRow => seqLe left right = true
  have seq : ∀ left right : QueryRow, le left right ↔ left.seq ≤ right.seq := by
    intro left right
    exact decide_eq_true_iff
  have : Std.Total le := ⟨fun left right => by
    rw [seq, seq]
    exact Int.le_total _ _⟩
  have : IsTrans QueryRow le := ⟨fun left middle right below above => by
    rw [seq] at below above ⊢
    exact Int.le_trans below above⟩
  have moved : (rows.insertionSort le).Perm rows := List.perm_insertionSort le rows
  refine ⟨moved, (List.pairwise_insertionSort le rows).imp fun below => (seq _ _).mp below, ?_⟩
  intro number
  have equal : (rows.filter fun row => row.seq = number).Pairwise le := by
    apply List.pairwise_of_forall_mem_list
    intro left first right second
    have here := (List.mem_filter.mp first).2
    have there := (List.mem_filter.mp second).2
    rw [decide_eq_true_eq] at here there
    exact (seq _ _).mpr (by omega)
  have inside := (List.sublist_insertionSort equal List.filter_sublist).filter
    fun row => decide (row.seq = number)
  rw [List.filter_filter] at inside
  simp only [Bool.and_self] at inside
  exact (inside.eq_of_length (moved.filter _).length_eq.symm).symm

theorem StableBySeq.filter {rows listed : List QueryRow} (sorted : StableBySeq rows listed)
    (keep : QueryRow → Bool) : StableBySeq (rows.filter keep) (listed.filter keep) where
  perm := sorted.perm.filter keep
  increasing := sorted.increasing.filter keep
  stable := fun seq => by
    have same := congrArg (List.filter keep) (sorted.stable seq)
    rw [List.filter_filter, List.filter_filter] at same ⊢
    simpa only [Bool.and_comm] using same

variable (leads : Dict Str LeadClaim) (queries : List QueryRow)

/-- A lead's two lists hold the rows of it, those of queries apart from the sentinels. -/
structure HoldsRows (lead : JoinedLead) : Prop where
  issued : StableBySeq
    (queries.filter fun row => row.leadId = lead.leadId && !row.isSentinel) lead.queries
  observed : StableBySeq
    (queries.filter fun row => row.leadId = lead.leadId && row.isSentinel) lead.sentinels

theorem partition_holds (lead : Str) :
    StableBySeq (queries.filter fun row => row.leadId = lead && !row.isSentinel)
        (partitionRows (bucket leads queries lead)).1 ∧
      StableBySeq (queries.filter fun row => row.leadId = lead && row.isSentinel)
        (partitionRows (bucket leads queries lead)).2 := by
  have sorted := sorted_stable (bucket leads queries lead)
  have issued := sorted.filter fun row => !row.isSentinel
  have observed := sorted.filter QueryRow.isSentinel
  simp only [bucket_rows, List.filter_filter, Bool.and_comm] at issued observed
  rw [partitionRows, bucket_rows]
  exact ⟨by simpa only [Bool.and_comm] using issued, by simpa only [Bool.and_comm] using observed⟩

theorem joined_holds : ∀ lead ∈ joined leads queries, HoldsRows queries lead := by
  intro lead member
  rw [joined, List.mem_append] at member
  rcases member with member | member
  · obtain ⟨id, -, rfl⟩ := List.mem_map.mp member
    have holds := partition_holds leads queries id
    exact ⟨holds.1, holds.2⟩
  · obtain ⟨id, -, rfl⟩ := List.mem_map.mp member
    have holds := partition_holds leads queries id
    exact ⟨holds.1, holds.2⟩

theorem HoldsRows.perm {lead : JoinedLead} (holds : HoldsRows queries lead) :
    (lead.queries ++ lead.sentinels).Perm (queries.filter fun row => row.leadId = lead.leadId) := by
  have split := List.filter_append_perm (fun row : QueryRow => !row.isSentinel)
    (queries.filter fun row => row.leadId = lead.leadId)
  simp only [List.filter_filter, Bool.not_not] at split
  refine (holds.issued.perm.append holds.observed.perm).trans ?_
  simpa only [Bool.and_comm] using split

/-- The rows of distinct leads that have all of them, taken lead by lead. -/
theorem rows_by_lead {ids : List Str} (distinct : ids.Nodup) {rows : List QueryRow}
    (known : ∀ row ∈ rows, row.leadId ∈ ids) :
    (ids.flatMap fun lead => rows.filter fun row => row.leadId = lead).Perm rows := by
  induction ids generalizing rows with
  | nil =>
      have none : rows = [] := List.eq_nil_iff_forall_not_mem.mpr fun row member =>
        List.not_mem_nil (known row member)
      rw [none]
      exact List.Perm.refl _
  | cons lead ids ih =>
      rw [List.nodup_cons] at distinct
      have others : (ids.flatMap fun other => rows.filter fun row => row.leadId = other) =
          ids.flatMap fun other => (rows.filter fun row => !decide (row.leadId = lead)).filter
            fun row => row.leadId = other := by
        apply List.flatMap_congr
        intro other among
        rw [List.filter_filter]
        apply List.filter_congr
        intro row _
        by_cases own : row.leadId = other
        · have apart : row.leadId ≠ lead := by
            intro same
            exact distinct.1 (same ▸ own ▸ among)
          simp [own, own ▸ apart]
        · simp [own]
      have rest := @ih distinct.2 (rows.filter fun row => !decide (row.leadId = lead)) (by
        intro row member
        obtain ⟨inside, apart⟩ := List.mem_filter.mp member
        rcases List.mem_cons.mp (known row inside) with same | later
        · simp [same] at apart
        · exact later)
      rw [List.flatMap_cons, others]
      exact (rest.append_left _).trans (List.filter_append_perm _ rows)

theorem joined_rows_perm :
    ((joined leads queries).flatMap fun lead => lead.queries ++ lead.sentinels).Perm queries := by
  have each : ((joined leads queries).flatMap fun lead => lead.queries ++ lead.sentinels).Perm
      ((joined leads queries).flatMap fun lead =>
        queries.filter fun row => row.leadId = lead.leadId) :=
    List.Perm.flatMap_left _ fun lead member => (joined_holds leads queries lead member).perm queries
  have known : ∀ row ∈ queries, row.leadId ∈ (joined leads queries).map (·.leadId) :=
    fun row member => (mem_joined_ids leads queries row.leadId).mpr (.inr ⟨row, member, rfl⟩)
  have gathered := rows_by_lead (joined_ids_nodup leads queries) known
  rw [List.flatMap_map] at gathered
  exact each.trans gathered

end Stable

section Exact

variable (leads : Dict Str LeadClaim) (queries : List QueryRow)

def ranLeads : List JoinedLead :=
  ((ranIds leads queries).filter fun lead => !(orphanIds leads queries).contains lead).map
    (claimedLead leads queries)

def idleLeads : List JoinedLead :=
  ((querylessIds leads queries).filter fun lead => !(orphanIds leads queries).contains lead).map
    (claimedLead leads queries)

def orphanLeads : List JoinedLead := (orphanIds leads queries).map (orphanLead leads queries)

theorem joined_stretches : joined leads queries =
    ranLeads leads queries ++ idleLeads leads queries ++ orphanLeads leads queries := by
  rw [joined, List.filter_append, List.map_append, ranLeads, idleLeads, orphanLeads]

theorem contains_of_not_orphan {lead : Str} (claimed : lead ∈ claimedIds leads queries) :
    leads.contains lead = true :=
  (leads.contains_iff lead).mpr ((mem_claimed_iff leads queries lead).mp claimed)

/-- The join loses and invents nothing. -/
theorem joined_exact :
    ((joined leads queries).map JoinedLead.leadId).Nodup ∧
      (∀ lead, lead ∈ (joined leads queries).map JoinedLead.leadId ↔
        lead ∈ leads.keys ∨ ∃ row ∈ queries, row.leadId = lead) ∧
      (∀ lead ∈ joined leads queries, (lead.orphan = true ↔ lead.leadId ∉ leads.keys) ∧
        lead.goal = (leads.get? lead.leadId).map LeadClaim.goal ∧
        lead.whatToSummarize =
          ((leads.get? lead.leadId).map LeadClaim.whatToSummarize).getD [] ∧
        lead.provenance = (leads.get? lead.leadId).bind LeadClaim.provenance) ∧
      (∃ ran idle orphans, joined leads queries = ran ++ idle ++ orphans ∧
        (∀ lead ∈ ran, lead.orphan = false ∧ ∃ row ∈ queries, row.leadId = lead.leadId) ∧
        (∀ lead ∈ idle, lead.orphan = false ∧ ∀ row ∈ queries, row.leadId ≠ lead.leadId) ∧
        (∀ lead ∈ orphans, lead.orphan = true) ∧
        ran.Pairwise fun left right => (queries.findIdx fun row => row.leadId = left.leadId) <
          queries.findIdx fun row => row.leadId = right.leadId) ∧
      (∀ lead ∈ joined leads queries, HoldsRows queries lead) ∧
      ((joined leads queries).flatMap fun lead => lead.queries ++ lead.sentinels).Perm queries := by
  have claimed : ∀ lead ∈ claimedIds leads queries, (claimedLead leads queries lead).orphan = false := by
    intro lead member
    simp [claimedLead, contains_of_not_orphan leads queries member]
  have split : claimedIds leads queries =
      ((ranIds leads queries).filter fun lead => !(orphanIds leads queries).contains lead) ++
        (querylessIds leads queries).filter fun lead => !(orphanIds leads queries).contains lead :=
    List.filter_append ..
  refine ⟨joined_ids_nodup leads queries, mem_joined_ids leads queries, ?_, ?_,
    joined_holds leads queries, joined_rows_perm leads queries⟩
  · intro lead member
    rw [joined, List.mem_append] at member
    rcases member with member | member
    · obtain ⟨id, among, rfl⟩ := List.mem_map.mp member
      refine ⟨?_, rfl, rfl, rfl⟩
      rw [claimed id among]
      simp only [Bool.false_eq_true, false_iff, not_not]
      exact (mem_claimed_iff leads queries id).mp among
    · obtain ⟨id, among, rfl⟩ := List.mem_map.mp member
      have unknown := ((mem_orphans_iff leads queries id).mp among).1
      have absent : leads.get? id = none := by
        rw [← leads.contains_iff id, Dict.contains, Bool.not_eq_true, Option.isSome_eq_false_iff,
          Option.isNone_iff_eq_none] at unknown
        exact unknown
      refine ⟨iff_of_true rfl unknown, ?_, ?_, ?_⟩ <;> simp [orphanLead, absent]
  · refine ⟨ranLeads leads queries, idleLeads leads queries, orphanLeads leads queries,
      joined_stretches leads queries, ?_, ?_, ?_, ?_⟩
    · intro lead member
      obtain ⟨id, among, rfl⟩ := List.mem_map.mp member
      refine ⟨claimed id (split ▸ List.mem_append_left _ among), ?_⟩
      exact (mem_ran_iff leads queries id).mp (List.mem_filter.mp among).1
    · intro lead member
      obtain ⟨id, among, rfl⟩ := List.mem_map.mp member
      refine ⟨claimed id (split ▸ List.mem_append_right _ among), ?_⟩
      exact ((mem_queryless_iff leads queries id).mp (List.mem_filter.mp among).1).2
    · intro lead member
      obtain ⟨id, -, rfl⟩ := List.mem_map.mp member
      rfl
    · exact List.pairwise_map.mpr ((ran_ordered leads queries).filter _)

end Exact

end Defender.Learning.LeadJoin
