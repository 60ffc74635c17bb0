import Defender.Python.Json
import Mathlib.Logic.Function.Basic

/-!
# Drafts and the pitfalls residue

Two passes read the executed leads of a run against one catalog. `synthesizeDrafts`
mints a draft at a path named by the digest of a coined query id; the failures that
have no candidate draft are collected as rows of the pitfalls queue. They share the
candidate test, and only the first has the guards that come after it: a declared
system, nothing else at the path, a write the mount takes. A failure that is turned
away there lands in neither.
-/

namespace Defender.Learning.Leads

open Defender.Python

section Model

structure ExecutedLead where
  leadId : Str
  queryIndex : Nat
  queryId : Str
  system : Str
  verb : Str
  params : List (Str × Json)
  goalText : Str
  payloadStatus : Str
  payloadDigest : Str
  errorClass : Option Str
  isSentinel : Bool

structure Template where
  id : Str
  covers : List Str

def engineDecl : List ((Str × Str) × (Str × Str)) :=
  [(("elastic", "esql"), ("esql", "query")), (("elastic", "query"), ("lucene", "native_query")),
    (("elastic", "alerts"), ("lucene", "native_query"))]

def engineFor (system verb : Str) : Str :=
  ((engineDecl.find? fun decl => decl.1 == (system, verb)).map fun decl => decl.2.1).getD "none"

def bodyParamFor (system verb : Str) : Option Str :=
  (engineDecl.find? fun decl => decl.1 == (system, verb)).map fun decl => decl.2.2

/-- `[A-Za-z0-9][A-Za-z0-9._-]*`, the whole text. -/
def safeIdSegment : Str → Bool
  | [] => false
  | first :: rest =>
    isAsciiAlnum first &&
      rest.all fun char => isAsciiAlnum char || char == '.' || char == '_' || char == '-'

def answeredIdentities (catalog : List Template) : List Str :=
  catalog.map Template.id ++ catalog.flatMap Template.covers

/-- Rows with an `ok` payload first. -/
def mintOrder (executed : List ExecutedLead) : List ExecutedLead :=
  executed.filter (fun lead => lead.payloadStatus == ("ok" : Str)) ++
    executed.filter fun lead => lead.payloadStatus != ("ok" : Str)

-- the hex digest of a text's SHA-256, and the YAML text of a verb with its parameters
variable (hexdigest : Str → Str) (structuredCall : Str → List (Str × Json) → Str)

def draftBasename (queryId : Str) : Str := (hexdigest queryId).take 12

def draftCandidateSegments (queryId verb : Str) (byId : List Str) (rowSystem : Str) :
    Option (Str × Str) :=
  if queryId = [] ∨ '.' ∉ queryId ∨ queryId ∈ byId then none
  else
    let (system, _, suffix) := partition "." queryId
    if system = [] ∨ suffix = [] ∨ suffix = verb then none
    else if system ≠ rowSystem then none
    else if !safeIdSegment verb then none
    else if !safeIdSegment system || !safeIdSegment suffix then none
    else some (system, draftBasename hexdigest queryId)

def executedQuery (lead : ExecutedLead) : Str :=
  let recorded := structuredCall lead.verb lead.params
  if engineFor lead.system lead.verb = "none" then recorded
  else
    match (bodyParamFor lead.system lead.verb).bind fun name =>
        (lead.params.find? fun param => param.1 == name).map Prod.snd with
    | some (.string body) => if strip body = [] then recorded else body
    | _ => recorded

/-- What `_draft_skeleton` renders. -/
structure Draft where
  id : Str
  verb : Str
  engine : Str
  params : List Str
  covers : List Str
  goal : Str
  record : Str

def draftOf (lead : ExecutedLead) (system suffix : Str) : Draft where
  id := system ++ "." ++ suffix
  verb := lead.verb
  engine := engineFor lead.system lead.verb
  params := sorted ((lead.params.map Prod.fst).filter fun name =>
    bodyParamFor lead.system lead.verb != some name)
  covers := [system ++ "." ++ suffix, lead.queryId]
  goal := lead.goalText
  record :=
    if executedQuery structuredCall lead = [] then "# (no command captured for this query)"
    else executedQuery structuredCall lead

/-- What the `skills/` mount holds at a name. `other` is a link, or an entry whose
holding folder could not be listed. -/
inductive Entry where
  | absent
  | folder
  | file (covers : List Str)
  | other
deriving DecidableEq

def Entry.held : Entry → Bool
  | .folder | .file _ => true
  | .absent | .other => false

def draftName (system suffix : Str) : Str :=
  "gather/queries/" ++ system ++ "/_draft/" ++ suffix ++ ".md"

structure Synthesis where
  mount : Str → Entry
  byId : List Str
  created : List (Str × Draft)

-- the writes the mount refuses: which row's, at which name
variable (systems : List Str) (refuses : Nat → Str → Bool)

def mint (state : Synthesis) (row : ExecutedLead × Nat) : Synthesis :=
  if row.1.isSentinel then state
  else
    match draftCandidateSegments hexdigest row.1.queryId row.1.verb state.byId row.1.system with
    | none => state
    | some (system, suffix) =>
      if system ∉ systems then state
      else if draftName system suffix ∈ state.created.map Prod.fst then state
      else if (state.mount (draftName system suffix)).held then state
      else if refuses row.2 (draftName system suffix) then state
      else
        let draft := draftOf structuredCall row.1 system suffix
        { mount := Function.update state.mount (draftName system suffix) (.file draft.covers)
          byId := row.1.queryId :: state.byId
          created := state.created ++ [(draftName system suffix, draft)] }

def synthesizeDrafts (executed : List ExecutedLead) (catalog : List Template)
    (mount : Str → Entry) : Synthesis :=
  (mintOrder executed).zipIdx.foldl (mint hexdigest structuredCall systems refuses)
    ⟨mount, answeredIdentities catalog, []⟩

def bashShimQueryId : Str := "∅.bash-shim"

def isReducerFailure (lead : ExecutedLead) : Bool :=
  lead.isSentinel && lead.queryId == bashShimQueryId

/-- The leads a row is made of, in their order. -/
def collectedLeads (catalog : List Template) (executed : List ExecutedLead) : List ExecutedLead :=
  executed.filter fun lead =>
    lead.errorClass == some "agent-fixable" &&
      (isReducerFailure lead || strip lead.system != []) &&
      !(answeredIdentities catalog).contains lead.queryId &&
      (draftCandidateSegments hexdigest lead.queryId lead.verb (answeredIdentities catalog)
        lead.system).isNone

end Model

section Property

variable (hexdigest : Str → Str) (structuredCall : Str → List (Str × Json) → Str)
variable (systems : List Str) (refuses : Nat → Str → Bool)

def digestPath (queryId : Str) : Str :=
  draftName (partition "." queryId).1 (draftBasename hexdigest queryId)

def Covered (mount : Str → Entry) (queryId : Str) : Prop :=
  ∃ covers, mount (digestPath hexdigest queryId) = .file covers ∧ queryId ∈ covers

def Unanswered (catalog : List Template) (lead : ExecutedLead) : Prop :=
  lead.errorClass = some "agent-fixable" ∧
    (isReducerFailure lead = true ∨ strip lead.system ≠ []) ∧
    lead.queryId ∉ answeredIdentities catalog

def EveryFailureLands (executed : List ExecutedLead) (catalog : List Template)
    (mount : Str → Entry) : Prop :=
  ∀ lead ∈ executed, Unanswered catalog lead →
    lead ∈ collectedLeads hexdigest catalog executed ∨
      Covered hexdigest (synthesizeDrafts hexdigest structuredCall systems refuses executed catalog
        mount).mount lead.queryId

/-- Whether the row's own draft would go to the name. -/
def draftsAt (catalog : List Template) (name : Str) (lead : ExecutedLead) : Bool :=
  !lead.isSentinel &&
    (draftCandidateSegments hexdigest lead.queryId lead.verb (answeredIdentities catalog)
      lead.system).any fun segments =>
        systems.contains segments.1 && draftName segments.1 segments.2 == name

def writesAt (catalog : List Template) (name : Str) (row : ExecutedLead × Nat) : Bool :=
  draftsAt hexdigest systems catalog name row.1 && !refuses row.2 name

def coveredBy (lead : ExecutedLead) : List Str :=
  [(partition "." lead.queryId).1 ++ "." ++ draftBasename hexdigest lead.queryId, lead.queryId]

/-- What the name holds once the rows are read: the entry held at first, else the draft
of the first row that goes there and whose write is taken. -/
def settledEntry (catalog : List Template) (name : Str) (rows : List (ExecutedLead × Nat))
    (entry : Entry) : Entry :=
  if entry.held then entry
  else
    match rows.find? (writesAt hexdigest systems refuses catalog name) with
    | some row => .file (coveredBy hexdigest row.1)
    | none => entry

/-- Each failure with a candidate draft finds one that covers it: at its path before the
run, or as the first draft the mount takes there. -/
def DraftsReach (executed : List ExecutedLead) (catalog : List Template)
    (mount : Str → Entry) : Prop :=
  ∀ lead ∈ executed, Unanswered catalog lead →
    (draftCandidateSegments hexdigest lead.queryId lead.verb (answeredIdentities catalog)
      lead.system).isSome →
    match mount (digestPath hexdigest lead.queryId) with
    | .file covers => lead.queryId ∈ covers
    | .folder => False
    | .absent | .other =>
      ∃ row, (mintOrder executed).zipIdx.find? (writesAt hexdigest systems refuses catalog
          (digestPath hexdigest lead.queryId)) = some row ∧
        lead.queryId ∈ coveredBy hexdigest row.1

end Property

section Minting

variable {hexdigest : Str → Str} {structuredCall : Str → List (Str × Json) → Str}
variable {systems : List Str} {refuses : Nat → Str → Bool} {catalog : List Template}

theorem candidate_segments_some {queryId verb rowSystem : Str} {byId : List Str}
    {segments : Str × Str}
    (found : draftCandidateSegments hexdigest queryId verb byId rowSystem = some segments) :
    queryId ∉ byId ∧ segments = ((partition "." queryId).1, draftBasename hexdigest queryId) := by
  unfold draftCandidateSegments at found
  split at found
  · cases found
  rename_i shaped
  dsimp only at found
  split at found
  · cases found
  split at found
  · cases found
  split at found
  · cases found
  split at found
  · cases found
  exact ⟨fun among => shaped (.inr (.inr among)), (Option.some.inj found).symm⟩

theorem candidate_segments_narrow {queryId verb rowSystem : Str} {byId fewer : List Str}
    (unanswered : queryId ∉ byId) (fewerUnanswered : queryId ∉ fewer) :
    draftCandidateSegments hexdigest queryId verb byId rowSystem =
      draftCandidateSegments hexdigest queryId verb fewer rowSystem := by
  unfold draftCandidateSegments
  simp only [unanswered, fewerUnanswered]

/-- What has been minted stands at its path. -/
structure Minted (catalog : List Template) (hexdigest : Str → Str) (state : Synthesis) : Prop where
  answered : ∀ queryId ∈ answeredIdentities catalog, queryId ∈ state.byId
  minted : ∀ queryId ∈ state.byId, queryId ∈ answeredIdentities catalog ∨
    (state.mount (digestPath hexdigest queryId)).held
  created : ∀ name ∈ state.created.map Prod.fst, (state.mount name).held

theorem drafts_at_iff {name system suffix : Str} {lead : ExecutedLead}
    (candidate : draftCandidateSegments hexdigest lead.queryId lead.verb
      (answeredIdentities catalog) lead.system = some (system, suffix)) :
    draftsAt hexdigest systems catalog name lead = true ↔
      lead.isSentinel = false ∧ system ∈ systems ∧ draftName system suffix = name := by
  simp [draftsAt, candidate]

theorem candidate_path {queryId verb rowSystem system suffix : Str} {byId : List Str}
    (found : draftCandidateSegments hexdigest queryId verb byId rowSystem = some (system, suffix)) :
    draftName system suffix = digestPath hexdigest queryId := by
  cases (candidate_segments_some found).2
  rfl

theorem drafts_at_path {name : Str} {lead : ExecutedLead}
    (drafts : draftsAt hexdigest systems catalog name lead = true) :
    name = digestPath hexdigest lead.queryId := by
  cases found : draftCandidateSegments hexdigest lead.queryId lead.verb
      (answeredIdentities catalog) lead.system with
  | none => simp [draftsAt, found] at drafts
  | some segments =>
    obtain ⟨-, -, named⟩ := (drafts_at_iff found).mp drafts
    rw [← named, candidate_path found]

/-- A row leaves the state alone, with a reason for each name its draft would go to, or
its draft is written at its path. -/
theorem mint_cases {state : Synthesis} (minted : Minted catalog hexdigest state)
    (row : ExecutedLead × Nat) :
    (mint hexdigest structuredCall systems refuses state row = state ∧
      ∀ name, draftsAt hexdigest systems catalog name row.1 = true →
        (state.mount name).held = true ∨ refuses row.2 name = true) ∨
    (draftsAt hexdigest systems catalog (digestPath hexdigest row.1.queryId) row.1 = true ∧
      (state.mount (digestPath hexdigest row.1.queryId)).held = false ∧
      refuses row.2 (digestPath hexdigest row.1.queryId) = false ∧
      ∃ draft, mint hexdigest structuredCall systems refuses state row =
        { mount := Function.update state.mount (digestPath hexdigest row.1.queryId)
            (.file (coveredBy hexdigest row.1))
          byId := row.1.queryId :: state.byId
          created := state.created ++ [(digestPath hexdigest row.1.queryId, draft)] }) := by
  have noCandidate (none : draftCandidateSegments hexdigest row.1.queryId row.1.verb
      (answeredIdentities catalog) row.1.system = none) (name : Str)
      (drafts : draftsAt hexdigest systems catalog name row.1 = true) :
      (state.mount name).held = true ∨ refuses row.2 name = true := by
    simp [draftsAt, none] at drafts
  unfold mint
  split
  · rename_i sentinel
    exact .inl ⟨rfl, fun name drafts => by simp [draftsAt, sentinel] at drafts⟩
  rename_i ran
  split
  · rename_i notFound
    refine .inl ⟨rfl, fun name drafts => ?_⟩
    by_cases known : row.1.queryId ∈ state.byId
    · rcases minted.minted _ known with answered | held
      · refine noCandidate ?_ name drafts
        unfold draftCandidateSegments
        simp [answered]
      · rw [drafts_at_path drafts]
        exact .inl held
    · refine noCandidate ?_ name drafts
      rw [← notFound]
      exact candidate_segments_narrow (fun answered => known (minted.answered _ answered)) known
  · rename_i system suffix found
    have path := candidate_path found
    have unknown := (candidate_segments_some found).1
    have candidate := (candidate_segments_narrow (fun answered =>
      unknown (minted.answered _ answered)) unknown).trans found
    split
    · rename_i undeclared
      refine .inl ⟨rfl, fun name drafts => ?_⟩
      exact absurd ((drafts_at_iff candidate).mp drafts).2.1 undeclared
    rename_i declared
    rw [not_not] at declared
    rw [path]
    split
    · rename_i among
      refine .inl ⟨rfl, fun name drafts => .inl ?_⟩
      rw [drafts_at_path drafts]
      exact minted.created _ among
    split
    · rename_i held
      refine .inl ⟨rfl, fun name drafts => .inl ?_⟩
      rw [drafts_at_path drafts]
      exact held
    rename_i free
    split
    · rename_i refused
      refine .inl ⟨rfl, fun name drafts => .inr ?_⟩
      rw [drafts_at_path drafts]
      exact refused
    rename_i taken
    have covers : (draftOf structuredCall row.1 system suffix).covers =
        coveredBy hexdigest row.1 := by
      cases (candidate_segments_some found).2
      rfl
    have drafts := (drafts_at_iff candidate).mpr ⟨Bool.eq_false_of_not_eq_true ran, declared, path⟩
    exact .inr ⟨drafts, Bool.eq_false_of_not_eq_true free, Bool.eq_false_of_not_eq_true taken,
      draftOf structuredCall row.1 system suffix, by rw [← covers]⟩

theorem settled_entry_held (name : Str) (rows : List (ExecutedLead × Nat)) {entry : Entry}
    (held : entry.held = true) :
    settledEntry hexdigest systems refuses catalog name rows entry = entry := by
  rw [settledEntry, if_pos held]

/-- One row's effect on a name, whatever was minted before. -/
theorem mint_mount {state : Synthesis} (minted : Minted catalog hexdigest state)
    (row : ExecutedLead × Nat) (name : Str) (rows : List (ExecutedLead × Nat)) :
    settledEntry hexdigest systems refuses catalog name rows
        ((mint hexdigest structuredCall systems refuses state row).mount name) =
      settledEntry hexdigest systems refuses catalog name (row :: rows) (state.mount name) := by
  obtain ⟨same, turnedAway⟩ | ⟨drafts, free, taken, draft, same⟩ :=
    @mint_cases hexdigest structuredCall systems refuses catalog state minted row
  · rw [same]
    by_cases held : (state.mount name).held = true
    · rw [settled_entry_held _ _ held, settled_entry_held _ _ held]
    · have passed : ¬writesAt hexdigest systems refuses catalog name row = true := by
        intro goes
        obtain ⟨drafts, taken⟩ := (Bool.and_eq_true _ _).mp goes
        rcases turnedAway name drafts with held' | refused
        · exact held held'
        · rw [refused] at taken
          cases taken
      unfold settledEntry
      rw [if_neg held, if_neg held, List.find?_cons_of_neg passed]
  · rw [same]
    by_cases here : name = digestPath hexdigest row.1.queryId
    · subst here
      have goes : writesAt hexdigest systems refuses catalog
          (digestPath hexdigest row.1.queryId) row = true := by
        rw [writesAt, drafts, taken]
        rfl
      have notHeld : ¬(state.mount (digestPath hexdigest row.1.queryId)).held = true := by
        rw [free]
        exact Bool.false_ne_true
      dsimp only
      rw [Function.update_self, settled_entry_held _ _ rfl, settledEntry, if_neg notHeld,
        List.find?_cons_of_pos goes]
    · have passed : ¬writesAt hexdigest systems refuses catalog name row = true :=
        fun goes => here (drafts_at_path ((Bool.and_eq_true _ _).mp goes).1)
      dsimp only
      rw [Function.update_of_ne here]
      unfold settledEntry
      rw [List.find?_cons_of_neg passed]

theorem minted_step {state : Synthesis} (minted : Minted catalog hexdigest state)
    (row : ExecutedLead × Nat) :
    Minted catalog hexdigest (mint hexdigest structuredCall systems refuses state row) := by
  rcases mint_cases minted row with ⟨same, -⟩ | ⟨-, -, -, draft, same⟩
  · rw [same]
    exact minted
  · rw [same]
    have keeps (name : Str) (held : (state.mount name).held = true) :
        (Function.update state.mount (digestPath hexdigest row.1.queryId)
          (.file (coveredBy hexdigest row.1)) name).held = true := by
      by_cases here : name = digestPath hexdigest row.1.queryId
      · rw [here, Function.update_self]
        rfl
      · rw [Function.update_of_ne here]
        exact held
    constructor
    case answered =>
      exact fun queryId known => List.mem_cons_of_mem _ (minted.answered queryId known)
    case minted =>
      intro queryId known
      rcases List.mem_cons.mp known with rfl | known
      · refine .inr ?_
        dsimp only
        rw [Function.update_self]
        rfl
      · exact (minted.minted queryId known).imp_right (keeps _)
    case created =>
      intro name among
      rw [List.map_append] at among
      rcases List.mem_append.mp among with among | among
      · exact keeps name (minted.created name among)
      · rw [List.mem_singleton.mp among]
        dsimp only
        rw [Function.update_self]
        rfl

theorem synthesized_mount (rows : List (ExecutedLead × Nat)) {state : Synthesis}
    (minted : Minted catalog hexdigest state) (name : Str) :
    (rows.foldl (mint hexdigest structuredCall systems refuses) state).mount name =
      settledEntry hexdigest systems refuses catalog name rows (state.mount name) := by
  induction rows generalizing state with
  | nil =>
    unfold settledEntry
    split
    · rfl
    · rfl
  | cons row rest ih => rw [List.foldl_cons, ih (minted_step minted row), mint_mount minted]

end Minting

section Landing

variable {hexdigest : Str → Str} {structuredCall : Str → List (Str × Json) → Str}
variable {systems : List Str} {refuses : Nat → Str → Bool}

theorem covered_iff (executed : List ExecutedLead) (catalog : List Template)
    (mount : Str → Entry) (queryId : Str) :
    Covered hexdigest (synthesizeDrafts hexdigest structuredCall systems refuses executed catalog
        mount).mount queryId ↔
      match mount (digestPath hexdigest queryId) with
      | .file covers => queryId ∈ covers
      | .folder => False
      | .absent | .other =>
        ∃ row, (mintOrder executed).zipIdx.find? (writesAt hexdigest systems refuses catalog
            (digestPath hexdigest queryId)) = some row ∧
          queryId ∈ coveredBy hexdigest row.1 := by
  have fresh : Minted catalog hexdigest ⟨mount, answeredIdentities catalog, []⟩ :=
    ⟨fun _ known => known, fun _ known => .inl known, fun _ among => nomatch among⟩
  unfold Covered synthesizeDrafts
  rw [synthesized_mount _ fresh]
  dsimp only
  unfold settledEntry
  cases mount (digestPath hexdigest queryId) with
  | folder => simp [Entry.held]
  | file covers => simp [Entry.held]
  | absent =>
    cases (mintOrder executed).zipIdx.find? _ with
    | none => simp [Entry.held]
    | some row => simp [Entry.held]
  | other =>
    cases (mintOrder executed).zipIdx.find? _ with
    | none => simp [Entry.held]
    | some row => simp [Entry.held]

theorem collected_iff {executed : List ExecutedLead} {catalog : List Template}
    {lead : ExecutedLead} (among : lead ∈ executed) (unanswered : Unanswered catalog lead) :
    lead ∈ collectedLeads hexdigest catalog executed ↔
      draftCandidateSegments hexdigest lead.queryId lead.verb (answeredIdentities catalog)
        lead.system = none := by
  obtain ⟨fixable, owned, unknown⟩ := unanswered
  simp [collectedLeads, among, fixable, owned, unknown]

/-- Every agent-fixable failure lands exactly when those with a candidate draft find one
at their path: the residue takes all others. -/
theorem every_failure_lands_iff (hexdigest : Str → Str)
    (structuredCall : Str → List (Str × Json) → Str) (systems : List Str)
    (refuses : Nat → Str → Bool) (executed : List ExecutedLead) (catalog : List Template)
    (mount : Str → Entry) :
    EveryFailureLands hexdigest structuredCall systems refuses executed catalog mount ↔
      DraftsReach hexdigest systems refuses executed catalog mount := by
  refine forall_congr' fun lead => forall_congr' fun among => forall_congr' fun unanswered => ?_
  rw [covered_iff, collected_iff among unanswered, ← Option.not_isSome_iff_eq_none,
    ← imp_iff_not_or]

/-- A failed query whose system the tenant does not declare. -/
def undeclaredLead : ExecutedLead where
  leadId := "l-001"
  queryIndex := 0
  queryId := "ghost.sweep"
  system := "ghost"
  verb := "query"
  params := []
  goalText := "sweep"
  payloadStatus := "error"
  payloadDigest := "no such index"
  errorClass := some "agent-fixable"
  isSentinel := false

theorem undeclared_failure_lost :
    ¬∃ (hexdigest : Str → Str) (structuredCall : Str → List (Str × Json) → Str),
      EveryFailureLands hexdigest structuredCall ["cmdb"] (fun _ _ => false) [undeclaredLead] []
        fun _ => .absent := by
  rintro ⟨hexdigest, structuredCall, lands⟩
  have unanswered : Unanswered [] undeclaredLead := ⟨rfl, .inr (by decide), by decide⟩
  have elsewhere : writesAt hexdigest ["cmdb"] (fun _ _ => false) []
      (digestPath hexdigest undeclaredLead.queryId) (undeclaredLead, 0) = false := rfl
  have onlyRow : (mintOrder [undeclaredLead]).zipIdx = [(undeclaredLead, 0)] := rfl
  rcases lands undeclaredLead List.mem_cons_self unanswered with collected | covered
  · cases (collected_iff List.mem_cons_self unanswered).mp collected
  · obtain ⟨row, found, -⟩ := (covered_iff _ _ _ _).mp covered
    rw [onlyRow, List.find?_cons_of_neg (Bool.eq_false_iff.mp elsewhere)] at found
    cases found

end Landing

end Defender.Learning.Leads
