import Defender.Learning.CuratorQueue
import Defender.Learning.DraftTree

/-!
# One tick of a corpus author

The gate sorts the rows read, the agent works on the rest, and each row's ending is read
off what its claim changed: a row some landed change cites is committed, a row the agent
claims without a citation is deferred, the agent's own buckets come after both, and a row
in none of them stays queued as it was. One rotation writes all endings.
-/

namespace Defender.Learning.Curator

open Defender.Python Defender.Library.OrderedDict Defender.Library.Wire

section Model

inductive Disposition where
  | committed
  | consumed
  | held
deriving DecidableEq

structure BucketSpec where
  name : Str
  disposition : Disposition
  reasonField : Option Str

/-- `FINDINGS_BUCKETS` and `QUESTIONER_BUCKETS`. -/
def authorBuckets : List BucketSpec :=
  [⟨"committed", .committed, none⟩, ⟨"consumed_skip", .consumed, some ("skip_reason" : Str)⟩]

/-- What ends a claim without its closing rotation. -/
inductive Fault where
  | gate (text : Str)
  | notAList (key : Str)
  | badEntry (bucket : Str)
  | unknownIds (ids : List Str)
  | classifiedTwice (ids : List Str)
  | strayKeys (keys : List Str)
  | committedUnchanged
  | editsUnreported
  | strayPaths (paths : List Str)
  | unattributed (paths : List Str)
  | noMessage
  | unknownEntry (bucket : Str)
  | badCount
  | refused (text : Str)
  | raised (text : Str)

/-- What the spawn, the batch and git answer during one claim. `citedIds` reads the
provenance of the bytes a change would land. -/
structure Claim where
  result : Except Fault (Dict Str Json)
  changes : Except Fault (List Draft.AgentChange)
  base : List Str
  citedIds : Draft.AgentChange → List Str
  commit : List Draft.AgentChange → Str → Except Fault Str

def resultList (result : Dict Str Json) (key : Str) : Except Fault (List Json) :=
  match result.get? key with
  | none | some .null => .ok []
  | some (.array items) => .ok items
  | some _ => .error (.notAList key)

variable [UnicodeDatabase]

def isContentLess (text : Str) : Bool :=
  text.all fun char => isSpace char || UnicodeDatabase.invisible char

def commitMessage (result : Dict Str Json) : Except Fault Str :=
  match result.get? "commit_message" with
  | some (.string text) => if isContentLess text then .error .noMessage else .ok text
  | _ => .error .noMessage

def namedEntry (bucket : Str) : Option Json → Except Fault Str
  | some (.string id) => if isContentLess id then .error (.badEntry bucket) else .ok id
  | _ => .error (.badEntry bucket)

def resultEntryId (bucket : Str) (entry : Json) : Except Fault Str :=
  if bucket = "committed" then namedEntry bucket (some entry)
  else namedEntry bucket (entry.get? idKey)

def entryIds (bucket : Str) : List Json → Except Fault (List Str)
  | [] => .ok []
  | entry :: rest => do
    let id ← resultEntryId bucket entry
    let others ← entryIds bucket rest
    pure (id :: others)

def occurrences (result : Dict Str Json) : List BucketSpec → Except Fault (List Str)
  | [] => .ok []
  | bucket :: rest => do
    let entries ← resultList result bucket.name
    let ids ← entryIds bucket.name entries
    let others ← occurrences result rest
    pure (ids ++ others)

def isObject : Json → Bool
  | .object _ => true
  | _ => false

def isBucketShaped : Json → Bool
  | .array items => items.any isObject
  | _ => false

def validateAgentResultPartition (result : Dict Str Json) (toAuthor : List Row)
    (buckets : List BucketSpec) : Except Fault Unit := do
  let ids ← occurrences result buckets
  let unknown := ids.filter fun id => !(idsOf toAuthor).contains id
  if unknown ≠ [] then throw (.unknownIds (sorted (dedup unknown)))
  if ¬ids.Nodup then throw (.classifiedTwice (sorted (dedup (ids.filter fun id => ids.count id ≠ 1))))
  let stray := result.entries.filter fun field =>
    !((buckets.map BucketSpec.name).contains field.1 || field.1 == ("commit_message" : Str)) &&
      isBucketShaped field.2
  if stray ≠ [] then throw (.strayKeys (sorted (stray.map Prod.fst)))

structure Tree where
  changed : List Draft.AgentChange
  deleted : List Draft.AgentChange

def settleTree (corpusRel : Str) (changes : List Draft.AgentChange) : Except Fault Tree :=
  let strays := changes.filter fun change => !startsWith corpusRel change.path
  if strays ≠ [] then .error (.strayPaths (sorted (strays.map Draft.AgentChange.path)))
  else .ok ⟨changes.filter fun change => change.content.isSome && endsWith ".md" change.path,
    changes.filter fun change => change.content.isNone⟩

def verifyAgentReport (result : Dict Str Json) (tree : Tree) : Except Fault Unit := do
  let committed ← resultList result "committed"
  let changed := !tree.changed.isEmpty || !tree.deleted.isEmpty
  if !committed.isEmpty && !changed then throw .committedUnchanged
  if committed.isEmpty && changed then throw .editsUnreported

/-- Every addition, and every edit that still claims a provenance, cites the batch. -/
def assertCorpusAttributable (claim : Claim) (tree : Tree) (ids : List Str) :
    Except Fault Unit :=
  let unattributed := tree.changed.filter fun change =>
    (!claim.base.contains change.path || !(claim.citedIds change).isEmpty) &&
      !(claim.citedIds change).any ids.contains
  if unattributed ≠ [] then .error (.unattributed (unattributed.map Draft.AgentChange.path)) else .ok ()

def readCitations (claim : Claim) (changed : List Draft.AgentChange) (ids : List Str) :
    Dict Str (List Str) :=
  Dict.ofList (changed.map fun change =>
    (change.path, (claim.citedIds change).filter fun id => ids.contains id))

structure Fates where
  committed : List Str
  deferred : List Str

def decideFates (ids : List Str) (cites : Dict Str (List Str)) (claimed : List Str) : Fates where
  committed := sorted (ids.filter fun id => cites.values.flatten.contains id)
  deferred := ids.filter fun id => !cites.values.flatten.contains id && claimed.contains id

def landing (claim : Claim) (tree : Tree) (ids : List Str) : List Draft.AgentChange :=
  (tree.changed.filter fun change =>
    !(((readCitations claim tree.changed ids).get? change.path).getD []).isEmpty) ++ tree.deleted

-- Python's `str` of a decoded value
variable (textOf : Json → Str)

def projectEntry (bucket : BucketSpec) (source : Row) (entry : Json) : Row :=
  let marked :=
    if bucket.disposition = .consumed then consumeAs source bucket.name else source
  match bucket.reasonField with
  | none => marked
  | some field => withText marked field (textOf ((entry.get? "reason").getD (.string [])))

def projectEntries (allRows : Dict Str Row) (exclude : List Str) (bucket : BucketSpec) :
    List Json → Except Fault (List Row)
  | [] => .ok []
  | entry :: rest =>
    match entry.get? idKey with
    | some (.string id) =>
      match allRows.get? id with
      | none => .error (.unknownEntry bucket.name)
      | some source => do
        let others ← projectEntries allRows exclude bucket rest
        pure (if exclude.contains id then others
          else projectEntry textOf bucket source entry :: others)
    | _ => .error (.unknownEntry bucket.name)

/-- The agent's held and consumed buckets as queue rows, less the ids already fated. -/
def project (result : Dict Str Json) (allRows : Dict Str Row) (exclude : List Str) :
    List BucketSpec → Except Fault (Dict Str (List Row) × Dict Str (List Row))
  | [] => .ok (.empty, .empty)
  | bucket :: rest => do
    if bucket.disposition = .committed then project result allRows exclude rest
    else
      let entries ← resultList result bucket.name
      let rows ← projectEntries textOf allRows exclude bucket entries
      let (held, consumed) ← project result allRows exclude rest
      pure (if bucket.disposition = .consumed then (held, consumed.set bucket.name rows)
        else (held.set bucket.name rows, consumed))

structure BatchOutcome where
  commitSha : Option Str
  committed : List Row
  bucketHeld : Dict Str (List Row)
  bucketConsumed : Dict Str (List Row)
  deferredIds : List Str

def texts (items : List Json) : List Str :=
  items.filterMap fun item =>
    match item with
    | .string text => some text
    | _ => none

def commitLanding (claim : Claim) (result : Dict Str Json) (landed : List Draft.AgentChange) :
    Except Fault (Option Str) :=
  if landed = [] then .ok none
  else do
    let message ← commitMessage result
    let sha ← claim.commit landed message
    pure (some sha)

def authorBatch (claim : Claim) (corpusRel : Str) (buckets : List BucketSpec)
    (toAuthor : List Row) (allRows : Dict Str Row) : Except Fault BatchOutcome := do
  let ids := idsOf toAuthor
  let result ← claim.result
  let changes ← claim.changes
  let tree ← settleTree corpusRel changes
  verifyAgentReport result tree
  validateAgentResultPartition result toAuthor buckets
  assertCorpusAttributable claim tree ids
  let claimed ← resultList result "committed"
  let fates := decideFates ids (readCitations claim tree.changed ids) (texts claimed)
  let commitSha ← commitLanding claim result (landing claim tree ids)
  let (bucketHeld, bucketConsumed) ←
    project textOf result allRows (fates.committed ++ fates.deferred) buckets
  pure
    { commitSha
      committed := (fates.committed.filterMap allRows.get?).map fun row =>
        consumeAs row committedCategory
      bucketHeld
      bucketConsumed
      deferredIds := fates.deferred }

-- `int(value or 0)`; `none` where it raises
variable (countOf : Option Json → Option Int)

def bumpRows (counterKey : Str) (maxAttempts : Int) :
    List Row → Except Fault (List Row × List Row)
  | [] => .ok ([], [])
  | row :: rest =>
    match countOf (row.get? counterKey) with
    | none => .error .badCount
    | some count => do
      let (survivors, retired) ← bumpRows counterKey maxAttempts rest
      let bumped := row.set counterKey (.number (showInt (count + 1)))
      pure (if maxAttempts ≤ count + 1 then (survivors, bumped :: retired)
        else (bumped :: survivors, retired))

def foldDeferrals (maxAttempts : Int) (deferredIds : List Str) (allRows : Dict Str Row) :
    Except Fault (List Row × List Row) := do
  let (survivors, retired) ← bumpRows countOf "deferrals" maxAttempts
    ((sorted deferredIds).filterMap allRows.get?)
  pure (survivors, retired.map fun row => consumeAs row "consumed_retired")

def flattenBuckets (buckets : List BucketSpec) (rows : Dict Str (List Row)) : List Row :=
  buckets.flatMap fun bucket => (rows.get? bucket.name).getD []

def partitionCommitted (committed : List Row) (holdCommitted : Bool) : List Row × List Row :=
  if holdCommitted then (committed.map fun row => row.erase "consumed_category", [])
  else ([], committed)

/-- What the closing rotation leaves, with the rows held as committed. -/
structure Closing where
  queue : List Row
  ledger : List Row
  heldCommitted : List Row
  commitSha : Option Str

structure Settings where
  corpusRel : Str
  maxAttempts : Int
  holdCommitted : Bool
  now : Str

def authorRows (settings : Settings) (claim : Claim) (allRows : Dict Str Row)
    (toAuthor : List Row) : Except Fault BatchOutcome :=
  if toAuthor = [] then .ok ⟨none, [], .empty, .empty, []⟩
  else authorBatch textOf claim settings.corpusRel authorBuckets toAuthor allRows

/-- `queueNow` is the queue the rotation finds. -/
def authorAndRotate (settings : Settings) (claim : Claim) (allRows : Dict Str Row)
    (gated : Gated) (queueNow : List Row) : Except Fault Closing := do
  let outcome ← authorRows textOf settings claim allRows gated.toAuthor
  let parted := partitionCommitted outcome.committed settings.holdCommitted
  let deferred ← foldDeferrals countOf settings.maxAttempts outcome.deferredIds allRows
  match rotate queueNow
      (gated.held ++ flattenBuckets authorBuckets outcome.bucketHeld ++ parted.1 ++ deferred.1)
      (gated.consumed ++ parted.2 ++ flattenBuckets authorBuckets outcome.bucketConsumed ++
        deferred.2)
      outcome.commitSha settings.now with
  | none => .error (.raised "unhashable type")
  | some (queue, ledger) => .ok ⟨queue, ledger, parted.1, outcome.commitSha⟩

def byId (rows : List Row) : Dict Str Row :=
  Dict.ofList (rows.filterMap fun row => (rowId row).map fun id => (id, row))

variable (reprOf : Option Json → Str)

def tick (channel : Channel) (settings : Settings) (existing : List Str) (claim : Claim)
    (batch : List Row) (appends : List (List Row)) : Except Fault Closing := do
  let gated ← (gate reprOf channel existing batch).mapError .gate
  authorAndRotate textOf countOf settings claim (byId batch) gated
    (appendAll batch appends)

end Model

theorem ids_of_append (front back : List Row) : idsOf (front ++ back) = idsOf front ++ idsOf back :=
  List.filterMap_append

theorem ids_of_map {mark : Row → Row} (keeps : ∀ row, rowId (mark row) = rowId row)
    (rows : List Row) : idsOf (rows.map mark) = idsOf rows := by
  unfold idsOf
  rw [List.filterMap_map]
  exact List.filterMap_congr fun row _ => keeps row

theorem consume_as_id (category : Str) (row : Row) : rowId (consumeAs row category) = rowId row :=
  row_id_set _ (by decide)

theorem consume_as_category (category : Str) (row : Row) :
    textAt (consumeAs row category) "consumed_category" = some category := by
  unfold textAt consumeAs withText
  rw [Dict.get_set, if_pos rfl]

theorem by_id_get {batch : List Row} (keyed : Keyed batch) {id : Str} (among : id ∈ idsOf batch) :
    ∃ row, (byId batch).get? id = some row ∧ rowId row = some id := by
  have keys : (batch.filterMap fun row => (rowId row).map fun id => (id, row)).map Prod.fst =
      idsOf batch := by
    rw [List.map_filterMap]
    refine List.filterMap_congr fun row _ => ?_
    cases rowId row with
    | none => rfl
    | some id => rfl
  have entries := Dict.of_list_entries (keys ▸ keyed.2)
  obtain ⟨row, inBatch, named⟩ := mem_ids_of.mp among
  refine ⟨row, ?_, named⟩
  rw [← Dict.mem_entries_iff, byId, entries]
  exact List.mem_filterMap.mpr ⟨row, inBatch, by rw [named]; rfl⟩

theorem by_id_named {batch : List Row} {id : Str} {row : Row}
    (held : (byId batch).get? id = some row) : rowId row = some id := by
  have entry := Dict.mem_of_list_entries ((Dict.mem_entries_iff _ _ _).mpr held)
  obtain ⟨source, -, made⟩ := List.mem_filterMap.mp entry
  obtain ⟨other, named, same⟩ := Option.map_eq_some_iff.mp made
  cases same
  exact named

theorem ids_of_found {allRows : Dict Str Row} {ids : List Str}
    (found : ∀ id ∈ ids, ∃ row, allRows.get? id = some row ∧ rowId row = some id) :
    idsOf (ids.filterMap allRows.get?) = ids := by
  induction ids with
  | nil => rfl
  | cons first rest ih =>
    obtain ⟨row, held, named⟩ := found first List.mem_cons_self
    rw [List.filterMap_cons_some held, ids_of_cons, named,
      ih fun id among => found id (List.mem_cons_of_mem _ among)]
    rfl

theorem bump_rows_perm {countOf : Option Json → Option Int} {counterKey : Str} {ceiling : Int}
    (other : idKey ≠ counterKey) {rows survivors retired : List Row}
    (ok : bumpRows countOf counterKey ceiling rows = .ok (survivors, retired)) :
    (idsOf survivors ++ idsOf retired).Perm (idsOf rows) := by
  induction rows generalizing survivors retired with
  | nil =>
    cases ok
    exact List.Perm.refl _
  | cons row rest ih =>
    rw [bumpRows] at ok
    split at ok
    · cases ok
    · rename_i count _
      obtain ⟨⟨alive, gone⟩, restOk, ok⟩ := except_bind_ok.mp ok
      have others := ih restOk
      have same : rowId (row.set counterKey (.number (showInt (count + 1)))) = rowId row :=
        row_id_set _ other
      dsimp only at ok
      split at ok
      · cases ok
        rw [ids_of_cons, ids_of_cons, same]
        exact (List.perm_append_comm_assoc _ _ _).trans (others.append_left _)
      · cases ok
        rw [ids_of_cons, ids_of_cons, same, List.append_assoc]
        exact others.append_left _

/-- Where the handled rows are apart and of the batch, each row of the batch ends in one
place and what was appended stays. -/
theorem rotate_conserves {batch held consumed queue ledger : List Row}
    {appends : List (List Row)} {commit : Option Str} {now : Str} (keyed : Keyed batch)
    (apart : (idsOf held).Disjoint (idsOf consumed))
    (ofBatch : ∀ id, id ∈ idsOf held ∨ id ∈ idsOf consumed → id ∈ idsOf batch)
    (ok : rotate (appendAll batch appends) held consumed commit now = some (queue, ledger)) :
    (∀ row ∈ batch, ∃ id, rowId row = some id ∧
      Xor (id ∈ idsOf queue) (id ∈ idsOf ledger)) ∧
    ∀ row ∈ (appendAll batch appends).drop batch.length, row ∈ queue := by
  obtain ⟨kept, survive, ok⟩ := Option.bind_eq_some_iff.mp ok
  cases ok
  obtain ⟨written, grown, fresh⟩ := append_all_grows batch appends
  have keeps (row : Row) : row ∈ kept ↔ row ∈ appendAll batch appends ∧
      ∀ id, rowId row = some id → id ∉ idsOf (held ++ consumed) := survivors_mem survive
  rw [grown] at keeps ⊢
  rw [ids_of_map (stamped_id now commit)]
  constructor
  · intro row among
    obtain ⟨id, named, -⟩ := keyed.1 row among
    refine ⟨id, named, ?_⟩
    rw [ids_of_append, List.mem_append]
    by_cases inHeld : id ∈ idsOf held
    · exact .inl ⟨.inl inHeld, fun inConsumed => apart inHeld inConsumed⟩
    by_cases inConsumed : id ∈ idsOf consumed
    · refine .inr ⟨inConsumed, ?_⟩
      rintro (inHeld' | inKept)
      · exact inHeld inHeld'
      · obtain ⟨other, otherKept, otherId⟩ := mem_ids_of.mp inKept
        refine ((keeps other).mp otherKept).2 id otherId ?_
        rw [ids_of_append]
        exact List.mem_append_right _ inConsumed
    · refine .inl ⟨.inr (mem_ids_of.mpr ⟨row, (keeps row).mpr ⟨?_, ?_⟩, named⟩), inConsumed⟩
      · exact List.mem_append_left _ among
      · intro other otherId
        obtain rfl := Option.some.inj (named.symm.trans otherId)
        rw [ids_of_append, List.mem_append]
        rintro (inHeld' | inConsumed')
        · exact inHeld inHeld'
        · exact inConsumed inConsumed'
  · intro row among
    rw [List.drop_left] at among
    refine List.mem_append_right _ ((keeps row).mpr ⟨List.mem_append_right _ among, ?_⟩)
    intro id named handled
    rw [ids_of_append, List.mem_append] at handled
    exact fresh row among id named (ofBatch id handled)

theorem rotate_ledger {queueNow held consumed queue ledger : List Row} {commit : Option Str}
    {now : Str} (ok : rotate queueNow held consumed commit now = some (queue, ledger)) :
    ledger = consumed.map (stamped now commit) := by
  obtain ⟨kept, -, ok⟩ := Option.bind_eq_some_iff.mp ok
  cases ok
  rfl

section Fates

variable [UnicodeDatabase]

def Landed (claim : Claim) (corpusRel : Str) (ids : List Str) (commitSha : Option Str)
    (change : Draft.AgentChange) : Prop :=
  ∃ changes tree message sha, claim.changes = .ok changes ∧
    settleTree corpusRel changes = .ok tree ∧ change ∈ landing claim tree ids ∧
    claim.commit (landing claim tree ids) message = .ok sha ∧ commitSha = some sha

/-- The endings of an authored batch: apart from each other, of the batch, and committed
only where a landed change cites the row. -/
structure Fated (claim : Claim) (corpusRel : Str) (toAuthor : List Row) (outcome : BatchOutcome) :
    Prop where
  distinct : (idsOf outcome.committed ++ (outcome.deferredIds ++
    idsOf (flattenBuckets authorBuckets outcome.bucketConsumed))).Nodup
  among : ∀ id ∈ idsOf outcome.committed ++ (outcome.deferredIds ++
    idsOf (flattenBuckets authorBuckets outcome.bucketConsumed)), id ∈ idsOf toAuthor
  noneHeld : flattenBuckets authorBuckets outcome.bucketHeld = []
  skipped : ∀ row ∈ flattenBuckets authorBuckets outcome.bucketConsumed,
    textAt row "consumed_category" ≠ some committedCategory
  cited : ∀ id ∈ idsOf outcome.committed, ∃ change,
    Landed claim corpusRel (idsOf toAuthor) outcome.commitSha change ∧ id ∈ claim.citedIds change

theorem validated_ids {result : Dict Str Json} {toAuthor : List Row} {buckets : List BucketSpec}
    (ok : validateAgentResultPartition result toAuthor buckets = .ok ()) :
    ∃ ids, occurrences result buckets = .ok ids ∧ ids.Nodup ∧ ∀ id ∈ ids, id ∈ idsOf toAuthor := by
  obtain ⟨ids, listed, ok⟩ := except_bind_ok.mp ok
  refine ⟨ids, listed, ?_⟩
  dsimp only at ok
  split at ok
  · cases ok
  rename_i known
  split at ok
  · cases ok
  rename_i distinct
  refine ⟨not_not.mp distinct, fun id among => ?_⟩
  have unlisted := List.filter_eq_nil_iff.mp (not_not.mp known) id among
  simpa using unlisted

theorem named_entry_ok {bucket id : Str} {value : Option Json}
    (ok : namedEntry bucket value = .ok id) : value = some (.string id) := by
  unfold namedEntry at ok
  split at ok
  · split at ok
    · cases ok
    · cases ok
      rfl
  · cases ok

omit [UnicodeDatabase] in
theorem project_entry_id {textOf : Json → Str} {bucket : BucketSpec} {source : Row} {entry : Json}
    (other : bucket.reasonField ≠ some idKey) :
    rowId (projectEntry textOf bucket source entry) = rowId source := by
  have marked : rowId (if bucket.disposition = .consumed then consumeAs source bucket.name
      else source) = rowId source := by
    split
    · exact consume_as_id _ source
    · rfl
  unfold projectEntry
  dsimp only
  split
  · exact marked
  · rename_i field held
    refine (row_id_set _ fun same => other ?_).trans marked
    rw [held, same]

/-- A bucket's rows are those of its entries' ids that have no fate yet. -/
theorem project_entries_ids {textOf : Json → Str} {allRows : Dict Str Row} {exclude : List Str}
    {bucket : BucketSpec} {entries : List Json} {rows : List Row} {ids : List Str}
    (notCommitted : bucket.name ≠ "committed") (other : bucket.reasonField ≠ some idKey)
    (named : ∀ id row, allRows.get? id = some row → rowId row = some id)
    (listed : entryIds bucket.name entries = .ok ids)
    (ok : projectEntries textOf allRows exclude bucket entries = .ok rows) :
    idsOf rows = ids.filter fun id => !exclude.contains id := by
  induction entries generalizing rows ids with
  | nil =>
    cases listed
    cases ok
    rfl
  | cons entry rest ih =>
    obtain ⟨id, entryId, listed⟩ := except_bind_ok.mp listed
    obtain ⟨others, restListed, listed⟩ := except_bind_ok.mp listed
    cases listed
    rw [resultEntryId, if_neg notCommitted] at entryId
    rw [projectEntries, named_entry_ok entryId] at ok
    dsimp only at ok
    split at ok
    · cases ok
    · rename_i source held
      obtain ⟨otherRows, restOk, ok⟩ := except_bind_ok.mp ok
      cases ok
      have sameRest := ih restListed restOk
      by_cases excluded : exclude.contains id = true
      · rw [if_pos excluded, sameRest, List.filter_cons_of_neg (by simpa using excluded)]
      · rw [if_neg excluded, ids_of_cons, project_entry_id other, named id source held, sameRest,
          List.filter_cons_of_pos (by simpa using excluded)]
        rfl

omit [UnicodeDatabase] in
/-- A consumed bucket's rows carry its name. -/
theorem project_entries_category {textOf : Json → Str} {allRows : Dict Str Row}
    {exclude : List Str} {bucket : BucketSpec} {entries : List Json} {rows : List Row}
    (consumed : bucket.disposition = .consumed)
    (other : bucket.reasonField ≠ some ("consumed_category" : Str))
    (ok : projectEntries textOf allRows exclude bucket entries = .ok rows) :
    ∀ row ∈ rows, textAt row "consumed_category" = some bucket.name := by
  induction entries generalizing rows with
  | nil =>
    cases ok
    exact fun _ among => nomatch among
  | cons entry rest ih =>
    rw [projectEntries] at ok
    split at ok
    · split at ok
      · cases ok
      · rename_i source _
        obtain ⟨otherRows, restOk, ok⟩ := except_bind_ok.mp ok
        cases ok
        split
        · exact ih restOk
        · intro row among
          rcases List.mem_cons.mp among with rfl | among
          · unfold projectEntry
            rw [if_pos consumed]
            dsimp only
            split
            · exact consume_as_category _ source
            · rename_i field held
              have apart : field ≠ "consumed_category" := fun same => other (by rw [held, same])
              unfold textAt withText
              rw [Dict.get_set_of_ne _ _ apart]
              exact consume_as_category _ source
          · exact ih restOk row among
    · cases ok

omit [UnicodeDatabase] in
theorem project_author_buckets {textOf : Json → Str} {result : Dict Str Json}
    {allRows : Dict Str Row} {exclude : List Str} {held consumed : Dict Str (List Row)}
    (ok : project textOf result allRows exclude authorBuckets = .ok (held, consumed)) :
    flattenBuckets authorBuckets held = [] ∧
      ∃ entries, resultList result "consumed_skip" = .ok entries ∧
        projectEntries textOf allRows exclude
          ⟨"consumed_skip", .consumed, some ("skip_reason" : Str)⟩ entries =
            .ok (flattenBuckets authorBuckets consumed) := by
  unfold authorBuckets project at ok
  rw [if_pos rfl, project, if_neg (by decide)] at ok
  obtain ⟨entries, listed, ok⟩ := except_bind_ok.mp ok
  obtain ⟨rows, projected, ok⟩ := except_bind_ok.mp ok
  obtain ⟨none, nothing, ok⟩ := except_bind_ok.mp ok
  cases nothing
  cases ok
  refine ⟨rfl, entries, listed, ?_⟩
  rw [projected]
  exact congrArg Except.ok (List.append_nil rows).symm

omit [UnicodeDatabase] in
theorem cited_change_lands {claim : Claim} {tree : Tree} {ids : List Str} {id : Str}
    (among : id ∈ (readCitations claim tree.changed ids).values.flatten) :
    ∃ change ∈ landing claim tree ids, id ∈ claim.citedIds change := by
  obtain ⟨cited, inValues, holds⟩ := List.mem_flatten.mp among
  obtain ⟨⟨path, value⟩, entry, rfl⟩ := List.mem_map.mp inValues
  obtain ⟨change, inTree, same⟩ := List.mem_map.mp (Dict.mem_of_list_entries entry)
  obtain ⟨rfl, rfl⟩ := Prod.mk.inj same
  refine ⟨change, List.mem_append_left _ (List.mem_filter.mpr ⟨inTree, ?_⟩),
    (List.mem_filter.mp holds).1⟩
  rw [(Dict.mem_entries_iff _ _ _).mp entry, Option.getD_some]
  cases filled : (claim.citedIds change).filter fun id => ids.contains id with
  | nil =>
    rw [filled] at holds
    exact nomatch holds
  | cons first rest => rfl

theorem skipped_ids {result : Dict Str Json} {toAuthor : List Row} {entries : List Json}
    (valid : validateAgentResultPartition result toAuthor authorBuckets = .ok ())
    (listed : resultList result "consumed_skip" = .ok entries) :
    ∃ ids, entryIds "consumed_skip" entries = .ok ids ∧ ids.Nodup ∧
      ∀ id ∈ ids, id ∈ idsOf toAuthor := by
  obtain ⟨all, named, distinct, known⟩ := validated_ids valid
  obtain ⟨_, -, named⟩ := except_bind_ok.mp named
  obtain ⟨committedIds, -, named⟩ := except_bind_ok.mp named
  obtain ⟨others, skip, named⟩ := except_bind_ok.mp named
  cases named
  obtain ⟨skipEntries, skipListed, skip⟩ := except_bind_ok.mp skip
  cases listed.symm.trans skipListed
  obtain ⟨ids, skipIds, skip⟩ := except_bind_ok.mp skip
  cases skip
  refine ⟨ids, skipIds, ?_, fun id among => known id ?_⟩
  · exact distinct.of_append_right.of_append_left
  · exact List.mem_append_right _ (List.mem_append_left _ among)

omit [UnicodeDatabase] in
theorem decide_fates_apart {ids claimed : List Str} {cites : Dict Str (List Str)}
    (distinct : ids.Nodup) :
    ((decideFates ids cites claimed).committed ++
      (decideFates ids cites claimed).deferred).Nodup := by
  refine List.Nodup.append ?_ (distinct.filter _) ?_
  · exact (sorted_perm _).nodup_iff.mpr (distinct.filter _)
  · intro id inCommitted inDeferred
    have cited := (List.mem_filter.mp ((sorted_perm _).mem_iff.mp inCommitted)).2
    have uncited := ((Bool.and_eq_true _ _).mp (List.mem_filter.mp inDeferred).2).1
    rw [cited] at uncited
    cases uncited

omit [UnicodeDatabase] in
theorem decide_fates_known {ids claimed : List Str} {cites : Dict Str (List Str)} {id : Str}
    (fated : id ∈ (decideFates ids cites claimed).committed ++
      (decideFates ids cites claimed).deferred) : id ∈ ids := by
  rcases List.mem_append.mp fated with among | among
  · exact (List.mem_filter.mp ((sorted_perm _).mem_iff.mp among)).1
  · exact (List.mem_filter.mp among).1

theorem commit_landing_some {claim : Claim} {result : Dict Str Json} {landed : List Draft.AgentChange}
    {commitSha : Option Str} (ok : commitLanding claim result landed = .ok commitSha)
    (some : landed ≠ []) : ∃ message sha, claim.commit landed message = .ok sha ∧
      commitSha = .some sha := by
  unfold commitLanding at ok
  rw [if_neg some] at ok
  obtain ⟨message, -, ok⟩ := except_bind_ok.mp ok
  obtain ⟨sha, committed, ok⟩ := except_bind_ok.mp ok
  exact ⟨message, sha, committed, (Except.ok.inj ok).symm⟩

theorem author_batch_fated {textOf : Json → Str} {claim : Claim} {corpusRel : Str}
    {batch toAuthor : List Row} {outcome : BatchOutcome} (keyed : Keyed batch)
    (distinct : (idsOf toAuthor).Nodup) (ofBatch : ∀ id ∈ idsOf toAuthor, id ∈ idsOf batch)
    (ok : authorBatch textOf claim corpusRel authorBuckets toAuthor (byId batch) = .ok outcome) :
    Fated claim corpusRel toAuthor outcome := by
  obtain ⟨result, -, ok⟩ := except_bind_ok.mp ok
  obtain ⟨changes, changed, ok⟩ := except_bind_ok.mp ok
  obtain ⟨tree, settled, ok⟩ := except_bind_ok.mp ok
  obtain ⟨_, -, ok⟩ := except_bind_ok.mp ok
  obtain ⟨_, valid, ok⟩ := except_bind_ok.mp ok
  obtain ⟨_, -, ok⟩ := except_bind_ok.mp ok
  obtain ⟨claimed, -, ok⟩ := except_bind_ok.mp ok
  obtain ⟨commitSha, committing, ok⟩ := except_bind_ok.mp ok
  obtain ⟨⟨held, consumed⟩, projected, ok⟩ := except_bind_ok.mp ok
  cases ok
  generalize fatesAre : decideFates (idsOf toAuthor)
    (readCitations claim tree.changed (idsOf toAuthor)) (texts claimed) = fates at *
  have apart : (fates.committed ++ fates.deferred).Nodup := by
    rw [← fatesAre]
    exact decide_fates_apart distinct
  have known : ∀ id ∈ fates.committed ++ fates.deferred, id ∈ idsOf toAuthor := by
    rw [← fatesAre]
    exact fun id => decide_fates_known
  obtain ⟨noneHeld, entries, listed, rowsOk⟩ := project_author_buckets projected
  obtain ⟨skipIds, skipNamed, skipDistinct, skipKnown⟩ := skipped_ids valid listed
  have skipped : idsOf (flattenBuckets authorBuckets consumed) =
      skipIds.filter fun id => !(fates.committed ++ fates.deferred).contains id :=
    project_entries_ids (by decide) (by decide) (fun id row => by_id_named) skipNamed rowsOk
  have committed : idsOf ((fates.committed.filterMap (byId batch).get?).map fun row =>
      consumeAs row committedCategory) = fates.committed := by
    rw [ids_of_map (consume_as_id _)]
    exact ids_of_found fun id among =>
      by_id_get keyed (ofBatch id (known id (List.mem_append_left _ among)))
  constructor
  case distinct =>
    dsimp only
    rw [committed, skipped, ← List.append_assoc]
    refine List.Nodup.append apart (skipDistinct.filter _) ?_
    intro id fated inSkip
    have unfated := (List.mem_filter.mp inSkip).2
    rw [List.contains_iff_mem.mpr fated] at unfated
    cases unfated
  case among =>
    dsimp only
    rw [committed, skipped, ← List.append_assoc]
    intro id among
    rcases List.mem_append.mp among with fated | inSkip
    · exact known id fated
    · exact skipKnown id (List.mem_filter.mp inSkip).1
  case noneHeld => exact noneHeld
  case skipped =>
    intro row among
    rw [project_entries_category rfl (by decide) rowsOk row among]
    decide
  case cited =>
    dsimp only
    rw [committed, ← fatesAre]
    intro id among
    have cited := (List.mem_filter.mp ((sorted_perm _).mem_iff.mp among)).2
    obtain ⟨change, lands, cites⟩ := cited_change_lands (List.contains_iff_mem.mp cited)
    obtain ⟨message, sha, made, same⟩ := commit_landing_some committing (List.ne_nil_of_mem lands)
    exact ⟨change, ⟨changes, tree, message, sha, changed, settled, lands, made, same⟩, cites⟩

end Fates

section Tick

variable [UnicodeDatabase] {textOf : Json → Str} {countOf : Option Json → Option Int}
variable {reprOf : Option Json → Str} {channel : Channel} {settings : Settings}
variable {existing : List Str} {claim : Claim} {batch : List Row} {appends : List (List Row)}

theorem author_rows_fated {toAuthor : List Row} {outcome : BatchOutcome}
    (keyed : Keyed batch) (distinct : (idsOf toAuthor).Nodup)
    (ofBatch : ∀ id ∈ idsOf toAuthor, id ∈ idsOf batch)
    (ok : authorRows textOf settings claim (byId batch) toAuthor = .ok outcome) :
    Fated claim settings.corpusRel toAuthor outcome := by
  unfold authorRows at ok
  split at ok
  · cases ok
    exact ⟨List.nodup_nil, fun _ among => (nomatch among), rfl, fun _ among => (nomatch among),
      fun _ among => (nomatch among)⟩
  · exact author_batch_fated keyed distinct ofBatch ok

omit [UnicodeDatabase] in
theorem fold_deferrals_perm {ceiling : Int} {deferredIds : List Str} {held consumed : List Row}
    (keyed : Keyed batch) (ofBatch : ∀ id ∈ deferredIds, id ∈ idsOf batch)
    (ok : foldDeferrals countOf ceiling deferredIds (byId batch) = .ok (held, consumed)) :
    (idsOf held ++ idsOf consumed).Perm deferredIds ∧
      ∀ row ∈ consumed, textAt row "consumed_category" ≠ some committedCategory := by
  obtain ⟨⟨alive, gone⟩, bumped, ok⟩ := except_bind_ok.mp ok
  cases ok
  constructor
  · rw [ids_of_map (consume_as_id _)]
    refine (bump_rows_perm (by decide) bumped).trans ?_
    rw [ids_of_found fun id among => by_id_get keyed (ofBatch id
      ((sorted_perm _).mem_iff.mp among))]
    exact sorted_perm _
  · intro row among
    obtain ⟨source, -, rfl⟩ := List.mem_map.mp among
    rw [consume_as_category]
    decide

omit [UnicodeDatabase] in
theorem partition_committed_ids (committed : List Row) (hold : Bool) :
    (idsOf (partitionCommitted committed hold).1 ++
      idsOf (partitionCommitted committed hold).2) = idsOf committed := by
  cases hold with
  | false => rfl
  | true =>
    change idsOf (committed.map fun row => row.erase "consumed_category") ++ [] = idsOf committed
    rw [List.append_nil]
    exact ids_of_map (fun row => row_id_erase (by decide)) committed

omit [UnicodeDatabase] in
/-- The rows the closing rotation is given: apart, and of the batch. -/
theorem handled_apart {gated : Gated} {outcome : BatchOutcome} {held consumed : List Row}
    {hold : Bool} (keyed : Keyed batch) (sorts : Sorts batch gated)
    (fated : Fated claim settings.corpusRel gated.toAuthor outcome)
    (deferred : (idsOf held ++ idsOf consumed).Perm outcome.deferredIds) :
    (idsOf (gated.held ++ flattenBuckets authorBuckets outcome.bucketHeld ++
        (partitionCommitted outcome.committed hold).1 ++ held) ++
      idsOf (gated.consumed ++ (partitionCommitted outcome.committed hold).2 ++
        flattenBuckets authorBuckets outcome.bucketConsumed ++ consumed)).Nodup ∧
    ∀ id, id ∈ idsOf (gated.held ++ flattenBuckets authorBuckets outcome.bucketHeld ++
        (partitionCommitted outcome.committed hold).1 ++ held) ++
      idsOf (gated.consumed ++ (partitionCommitted outcome.committed hold).2 ++
        flattenBuckets authorBuckets outcome.bucketConsumed ++ consumed) → id ∈ idsOf batch := by
  have handled : (idsOf (gated.held ++ flattenBuckets authorBuckets outcome.bucketHeld ++
        (partitionCommitted outcome.committed hold).1 ++ held) ++
      idsOf (gated.consumed ++ (partitionCommitted outcome.committed hold).2 ++
        flattenBuckets authorBuckets outcome.bucketConsumed ++ consumed)).Perm
      (idsOf gated.held ++ (idsOf gated.consumed ++ (idsOf outcome.committed ++
        (outcome.deferredIds ++
          idsOf (flattenBuckets authorBuckets outcome.bucketConsumed))))) := by
    rw [List.perm_iff_count]
    intro id
    have parted := congrArg (List.count id) (partition_committed_ids outcome.committed hold)
    have bumped := deferred.count_eq id
    simp only [ids_of_append, List.count_append, fated.noneHeld] at parted bumped ⊢
    have none : (idsOf []).count id = 0 := rfl
    omega
  have sorted := sorts.ids.nodup_iff.mpr keyed.2
  constructor
  · refine handled.nodup_iff.mpr (List.Nodup.append sorted.of_append_left
      (List.Nodup.append sorted.of_append_right.of_append_left fated.distinct ?_) ?_)
    · intro id inConsumed inFates
      exact List.disjoint_of_nodup_append sorted.of_append_right inConsumed
        (fated.among id inFates)
    · intro id inHeld inOthers
      refine List.disjoint_of_nodup_append sorted inHeld ?_
      rcases List.mem_append.mp inOthers with inConsumed | inFates
      · exact List.mem_append_left _ inConsumed
      · exact List.mem_append_right _ (fated.among id inFates)
  · intro id among
    refine sorts.ids.mem_iff.mp ?_
    rcases List.mem_append.mp (handled.mem_iff.mp among) with inHeld | inOthers
    · exact List.mem_append_left _ inHeld
    · refine List.mem_append_right _ ?_
      rcases List.mem_append.mp inOthers with inConsumed | inFates
      · exact List.mem_append_left _ inConsumed
      · exact List.mem_append_right _ (fated.among id inFates)

/-- A tick that rotates keeps every row: what it read ends in the queue or on the ledger
and not on both, what was appended meanwhile is in the queue, and a row is recorded or
held as committed only where a landed change cites it. -/
theorem tick_conserves_rows {closing : Closing} (keyed : Keyed batch)
    (closed : tick textOf countOf reprOf channel settings existing claim batch appends =
      .ok closing) :
    (∀ row ∈ batch, ∃ id, rowId row = some id ∧
      Xor (id ∈ idsOf closing.queue) (id ∈ idsOf closing.ledger)) ∧
    (∀ row ∈ (appendAll batch appends).drop batch.length, row ∈ closing.queue) ∧
    ∀ row id, rowId row = some id →
      row ∈ closing.heldCommitted ∨
        row ∈ closing.ledger ∧ textAt row "consumed_category" = some committedCategory →
      ∃ gated change, gate reprOf channel existing batch = .ok gated ∧
        Landed claim settings.corpusRel (idsOf gated.toAuthor) closing.commitSha change ∧
        id ∈ claim.citedIds change := by
  obtain ⟨gated, gateOk, closed⟩ := except_bind_ok.mp closed
  have gateOk := map_error_ok gateOk
  have sorts := gate_sorts keyed gateOk
  have toAuthorDistinct : (idsOf gated.toAuthor).Nodup :=
    (sorts.ids.nodup_iff.mpr keyed.2).of_append_right.of_append_right
  have ofBatch : ∀ id ∈ idsOf gated.toAuthor, id ∈ idsOf batch := fun id among =>
    sorts.ids.mem_iff.mp (List.mem_append_right _ (List.mem_append_right _ among))
  obtain ⟨outcome, authored, closed⟩ := except_bind_ok.mp closed
  have fated := author_rows_fated keyed toAuthorDistinct ofBatch authored
  obtain ⟨⟨deferredHeld, deferredConsumed⟩, folded, closed⟩ := except_bind_ok.mp closed
  obtain ⟨deferred, retiredCategory⟩ := fold_deferrals_perm keyed (fun id among =>
    ofBatch id (fated.among id (List.mem_append_right _ (List.mem_append_left _ among)))) folded
  dsimp only at closed
  split at closed
  · cases closed
  rename_i queue ledger rotated
  cases closed
  obtain ⟨apart, known⟩ := handled_apart keyed sorts fated deferred
  obtain ⟨once, appended⟩ := rotate_conserves keyed (List.disjoint_of_nodup_append apart)
    (fun id handled => known id (List.mem_append.mpr handled)) rotated
  refine ⟨once, appended, ?_⟩
  intro row id named recorded
  suffices isCommitted : id ∈ idsOf outcome.committed by
    obtain ⟨change, landed, cites⟩ := fated.cited id isCommitted
    exact ⟨gated, change, gateOk, landed, cites⟩
  rw [← partition_committed_ids outcome.committed settings.holdCommitted]
  rcases recorded with inHeld | ⟨inLedger, category⟩
  · exact List.mem_append_left _ (mem_ids_of.mpr ⟨row, inHeld, named⟩)
  · rw [rotate_ledger rotated] at inLedger
    obtain ⟨entry, among, rfl⟩ := List.mem_map.mp inLedger
    rw [stamped_category] at category
    rw [stamped_id] at named
    rcases List.mem_append.mp among with among | inDeferred
    · rcases List.mem_append.mp among with among | inSkipped
      · rcases List.mem_append.mp among with inGated | inRotated
        · exact absurd category (sorts.category entry inGated)
        · exact List.mem_append_right _ (mem_ids_of.mpr ⟨entry, inRotated, named⟩)
      · exact absurd category (fated.skipped entry inSkipped)
    · exact absurd category (retiredCategory entry inDeferred)

end Tick

namespace Sample

def row (id : Str) : Row :=
  Dict.ofList [("finding_id", .string id), ("systems", .array [.string "siem"])]

/-- One row is cited by the new lesson, the other skipped. -/
def claim : Claim where
  result := .ok (Dict.ofList [("committed", .array [.string "f-1"]),
    ("consumed_skip", .array [.object [("finding_id", .string "f-2"), ("reason", .string "old")]]),
    ("commit_message", .string "a lesson")])
  changes := .ok [⟨"agent/lessons/a.md", some [35]⟩]
  base := []
  citedIds _ := ["f-1"]
  commit _ _ := .ok "c1"

def settings : Settings := ⟨"agent/lessons/", 3, false, "now"⟩

def textOf : Json → Str
  | .string text => text
  | _ => []

def closing : Closing :=
  match @tick asciiDatabase textOf (fun _ => some 0) (fun _ => []) .questioner settings [] claim
      [row "f-1", row "f-2"] [[row "f-2", row "f-3"]] with
  | .ok closing => closing
  | .error _ => ⟨[], [], [], none⟩

theorem two_rows_conserved :
    Keyed [row "f-1", row "f-2"] ∧ idsOf closing.queue = [("f-3" : Str)] ∧
      idsOf closing.ledger = [("f-1" : Str), "f-2"] ∧
      ∀ read ∈ [row "f-1", row "f-2"], ∃ id, rowId read = some id ∧
        Xor (id ∈ idsOf closing.queue) (id ∈ idsOf closing.ledger) := by
  let _ : UnicodeDatabase := asciiDatabase
  have keyed : Keyed [row "f-1", row "f-2"] := by
    refine ⟨?_, by decide⟩
    intro read among
    rcases List.mem_cons.mp among with rfl | among
    · exact ⟨"f-1", rfl, by decide⟩
    · obtain rfl := List.mem_singleton.mp among
      exact ⟨"f-2", rfl, by decide⟩
  have closed : @tick asciiDatabase textOf (fun _ => some 0) (fun _ => []) .questioner settings []
      claim [row "f-1", row "f-2"] [[row "f-2", row "f-3"]] = .ok closing := rfl
  exact ⟨keyed, by decide, by decide, (tick_conserves_rows keyed closed).1⟩

end Sample

end Defender.Learning.Curator
