import Defender.Invlang.AppendedDocument
import Defender.Invlang.Validate.Closure

/-!
# The two gates on authorization contracts

The benign gate attributes an `:R authz` row to a contract by the id it names,
and by the anchor kind where another hypothesis declares the id too. A contract
has rows of its own unless two records read as one id without being told apart.
The closure gate looks the rows up by kind, under unqualified ids only.
-/

namespace Defender.Invlang

open Defender.Python Defender.Library.OrderedDict

/-- A contract record and the hypothesis that declares it. -/
abbrev OwnedContract := Str × AuthorizationContract

def liveContracts (companion : CompanionBody) : List OwnedContract :=
  (sorted (liveHypothesisIds companion)).flatMap fun hid =>
    ((((allHypotheses companion).get? hid).map HypothesisRecord.authorizationContract).getD []).map
      fun contract => (hid, contract)

/-- The id a contract record is looked up under. -/
def readId (contract : AuthorizationContract) : Str := orUnknown (contractId contract)

def competitors (companion : CompanionBody) (hid id : Str) : List Declarer :=
  ((declarersByContractId companion).of id).filter fun declarer => declarer.hypothesis ≠ hid

def rowsNaming (companion : CompanionBody) (id : Str) : List ResolutionRow :=
  (iterAuthzResolutions companion).filter fun row =>
    fulfilledContract row ≠ [] ∧ fulfilledContract row = id

def attributableRows (companion : CompanionBody) (owned : OwnedContract) : List ResolutionRow :=
  (rowsNaming companion (readId owned.2)).filter fun row =>
    competitors companion owned.1 (readId owned.2) = [] ∨
      rowAnchorKind row = contractAnchorKind owned.2

def verdictOf (row : ResolutionRow) : AuthzVerdict :=
  ⟨(rowText row "verdict").getD "indeterminate", rowAnchorKind row, rowCell row "cites_past_case" ≠ []⟩

theorem authz_verdicts_of (companion : CompanionBody) (id : Str) :
    ((authzVerdicts companion).get? id).getD [] = (rowsNaming companion id).map verdictOf := by
  have skipped : ∀ (rows : List ResolutionRow) (held : Dict Str (List AuthzVerdict)),
      rows.foldl (fun held row =>
        if fulfilledContract row = [] then held
        else held.modify (fulfilledContract row) [] (· ++ [verdictOf row])) held =
      (rows.filter fun row => fulfilledContract row ≠ []).foldl (fun held row =>
        held.modify (fulfilledContract row) [] (· ++ [verdictOf row])) held := by
    intro rows
    induction rows with
    | nil => exact fun _ => rfl
    | cons row rest ih =>
        intro held
        rw [List.foldl_cons, List.filter_cons, ih]
        by_cases unnamed : fulfilledContract row = []
        · simp [unnamed]
        · simp [unnamed]
  have collected : authzVerdicts companion =
      ((iterAuthzResolutions companion).filter fun row => fulfilledContract row ≠ []).foldl
        (fun held row => held.modify (fulfilledContract row) [] (· ++ [verdictOf row]))
        Dict.empty := skipped _ _
  rw [collected, Dict.get_foldl_collect, Dict.get_empty, List.filter_filter]
  unfold rowsNaming
  rw [Option.getD_none, List.nil_append]
  congr 1
  apply List.filter_congr
  intro row _
  simp [Bool.and_comm]

section BenignGate

variable [UnicodeDatabase] (companion : CompanionBody)

/-- Why a contract of the companion does not close benign. -/
def openReason (owned : OwnedContract) : Option Str :=
  authzContractError (declarersByContractId companion) (authzVerdicts companion) owned.1 owned.2

theorem outstanding_nil_iff :
    outstandingAuthzContracts companion = [] ↔
      ∀ owned ∈ liveContracts companion, openReason companion owned = none := by
  unfold outstandingAuthzContracts liveContracts
  simp only [List.flatMap_eq_nil_iff, List.filterMap_eq_nil_iff, Option.map_eq_none_iff,
    List.mem_flatMap, List.mem_map]
  constructor
  · rintro closed owned ⟨hid, live, contract, declared, rfl⟩
    exact closed hid live contract declared
  · intro closed hid live contract declared
    exact closed (hid, contract) ⟨hid, live, contract, declared, rfl⟩

theorem attributed_rows_ne_nil {id hid : Str} {rows : List AuthzVerdict}
    (closed : attributedRowsError id hid rows = none) : rows ≠ [] := by
  rintro rfl
  unfold attributedRowsError at closed
  exact absurd closed (by simp)

/-- A contract that closes has rows of its own, and no declarer of its id elsewhere asks
the same kind of question. -/
theorem closed_contract (owned : OwnedContract) (closed : openReason companion owned = none) :
    attributableRows companion owned ≠ [] ∧
      ∀ declarer ∈ competitors companion owned.1 (readId owned.2),
        declarer.anchorKind ≠ contractAnchorKind owned.2 := by
  rcases owned with ⟨hid, contract⟩
  have verdicts := authz_verdicts_of companion (readId contract)
  unfold openReason authzContractError at closed
  unfold readId at verdicts
  dsimp only at closed
  rw [verdicts] at closed
  unfold attributableRows competitors readId
  dsimp only
  split at closed
  · rename_i alone
    rw [alone]
    refine ⟨?_, by simp⟩
    simp only [true_or, decide_true, List.filter_true]
    intro none
    rw [none] at closed
    exact attributed_rows_ne_nil closed rfl
  · rename_i shared
    split at closed
    · exact absurd closed (by simp)
    · rename_i apart
      rw [not_not] at apart
      have none : (((declarersByContractId companion).of (orUnknown (contractId contract))).filter
          fun declarer => declarer.hypothesis ≠ hid).filter
          (fun declarer => declarer.anchorKind = contractAnchorKind contract) = [] := by
        have length := congrArg List.length apart
        simpa [sorted] using length
      refine ⟨?_, ?_⟩
      · split at closed
        · exact absurd closed (by simp)
        · rename_i found
          intro empty
          apply found
          rw [List.filter_map, List.map_eq_nil_iff]
          simp only [shared, false_or] at empty
          exact empty
      · intro declarer member same
        have present := List.filter_eq_nil_iff.mp none declarer member
        simp [same] at present

end BenignGate

section OwnRows

variable (companion : CompanionBody)

/-- The gate tells the rows of the two contracts apart by their kinds. -/
def ToldApart (left right : OwnedContract) : Prop :=
  competitors companion left.1 (readId left.2) ≠ [] ∧
    competitors companion right.1 (readId right.2) ≠ [] ∧
    contractAnchorKind left.2 ≠ contractAnchorKind right.2

/-- Two records that read as one id, on one hypothesis or with a blank id among them. -/
def SharesId (left right : OwnedContract) : Prop :=
  readId left.2 = readId right.2 ∧
    (left.1 = right.1 ∨ contractId left.2 = [] ∨ contractId right.2 = [])

instance (left right : OwnedContract) : Decidable (SharesId left right) := by
  unfold SharesId
  infer_instance

instance (left right : OwnedContract) : Decidable (ToldApart companion left right) := by
  unfold ToldApart
  infer_instance

def ContractsApart : Prop :=
  (liveContracts companion).Pairwise fun left right =>
    SharesId left right → ToldApart companion left right

def RowsApart (left right : OwnedContract) : Prop :=
  ∀ row, row ∈ attributableRows companion left → row ∉ attributableRows companion right

instance (left right : OwnedContract) : Decidable (RowsApart companion left right) :=
  inferInstanceAs (Decidable (∀ row ∈ attributableRows companion left,
    row ∉ attributableRows companion right))

def DischargedApart : Prop :=
  (∀ owned ∈ liveContracts companion, attributableRows companion owned ≠ []) ∧
    (liveContracts companion).Pairwise (RowsApart companion)

instance : Decidable (DischargedApart companion) := by
  unfold DischargedApart
  infer_instance

variable {companion} {left right : OwnedContract}

theorem mem_attributable_rows (owned : OwnedContract) (row : ResolutionRow) :
    row ∈ attributableRows companion owned ↔
      row ∈ rowsNaming companion (readId owned.2) ∧
        (competitors companion owned.1 (readId owned.2) = [] ∨
          rowAnchorKind row = contractAnchorKind owned.2) := by
  simp [attributableRows]

theorem rows_naming_apart {first second : Str} (differ : first ≠ second) {row : ResolutionRow}
    (named : row ∈ rowsNaming companion first) : row ∉ rowsNaming companion second := by
  intro again
  have one := (List.mem_filter.mp named).2
  have other := (List.mem_filter.mp again).2
  simp only [decide_eq_true_eq] at one other
  exact differ (one.2.symm.trans other.2)

/-- Rows told apart by kind are attributed once; without that a row of the one
contract is a row of the other. -/
theorem rows_apart_iff (ownLeft : attributableRows companion left ≠ [])
    (ownRight : attributableRows companion right ≠ []) (same : readId left.2 = readId right.2) :
    RowsApart companion left right ↔ ToldApart companion left right := by
  constructor
  · intro apart
    obtain ⟨leftRow, inLeft⟩ := List.exists_mem_of_ne_nil _ ownLeft
    obtain ⟨rightRow, inRight⟩ := List.exists_mem_of_ne_nil _ ownRight
    obtain ⟨leftNamed, leftKind⟩ := (mem_attributable_rows left leftRow).mp inLeft
    obtain ⟨rightNamed, rightKind⟩ := (mem_attributable_rows right rightRow).mp inRight
    refine ⟨?_, ?_, ?_⟩
    · intro alone
      apply apart rightRow _ inRight
      rw [mem_attributable_rows, same]
      exact ⟨rightNamed, .inl (same ▸ alone)⟩
    · intro alone
      apply apart leftRow inLeft
      rw [mem_attributable_rows, ← same]
      exact ⟨leftNamed, .inl (same ▸ alone)⟩
    · intro kinds
      rcases leftKind with alone | kind
      · apply apart rightRow _ inRight
        rw [mem_attributable_rows, same]
        exact ⟨rightNamed, .inl (same ▸ alone)⟩
      · apply apart leftRow inLeft
        rw [mem_attributable_rows, ← same]
        exact ⟨leftNamed, .inr (kind.trans kinds)⟩
  · rintro ⟨shared, sharedToo, kinds⟩ row inLeft inRight
    rcases ((mem_attributable_rows left row).mp inLeft).2 with alone | kind
    · exact shared alone
    · rcases ((mem_attributable_rows right row).mp inRight).2 with alone | kindToo
      · exact sharedToo alone
      · exact kinds (kind.symm.trans kindToo)

theorem declarer_of_contract {owned : OwnedContract} (live : owned ∈ liveContracts companion)
    (named : contractId owned.2 ≠ []) :
    ⟨owned.1, contractAnchorKind owned.2⟩ ∈
      (declarersByContractId companion).of (contractId owned.2) := by
  obtain ⟨hid, _, inHyp⟩ := List.mem_flatMap.mp live
  obtain ⟨contract, declared, rfl⟩ := List.mem_map.mp inHyp
  cases found : (allHypotheses companion).get? hid with
  | none =>
      rw [found] at declared
      exact absurd declared (by simp)
  | some hyp =>
      rw [found] at declared
      unfold declarersByContractId DeclarerIndex.of
      rw [Dict.get_foldl_collect, Dict.get_empty, Option.getD_none, List.nil_append]
      refine List.mem_map.mpr ⟨(contractId contract, ⟨hid, contractAnchorKind contract⟩), ?_, rfl⟩
      refine List.mem_filter.mpr ⟨?_, by simp⟩
      refine List.mem_flatMap.mpr ⟨(hid, hyp), (Dict.mem_entries_iff _ _ _).mpr found, ?_⟩
      refine List.mem_map.mpr ⟨contract, List.mem_filter.mpr ⟨declared, ?_⟩, rfl⟩
      simpa using named

theorem read_id_named {contract : AuthorizationContract} (named : contractId contract ≠ []) :
    readId contract = contractId contract := if_neg named

theorem other_contract_competes (live : right ∈ liveContracts companion)
    (named : contractId right.2 ≠ []) (same : readId left.2 = readId right.2)
    (elsewhere : left.1 ≠ right.1) :
    ⟨right.1, contractAnchorKind right.2⟩ ∈ competitors companion left.1 (readId left.2) := by
  unfold competitors
  rw [same, read_id_named named]
  refine List.mem_filter.mpr ⟨declarer_of_contract live named, ?_⟩
  simpa using elsewhere.symm

variable [UnicodeDatabase]

/-- When no contract is outstanding, every contract has rows of its own exactly when the
records that read as one id are told apart. -/
theorem discharged_apart_iff (companion : CompanionBody)
    (closed : outstandingAuthzContracts companion = []) :
    DischargedApart companion ↔ ContractsApart companion := by
  rw [outstanding_nil_iff] at closed
  have own : ∀ owned ∈ liveContracts companion, attributableRows companion owned ≠ [] :=
    fun owned live => (closed_contract companion owned (closed owned live)).1
  unfold DischargedApart ContractsApart
  rw [and_iff_right own]
  apply List.Pairwise.iff_of_mem
  intro left right liveLeft liveRight
  by_cases same : readId left.2 = readId right.2
  · have exact := rows_apart_iff (own left liveLeft) (own right liveRight) same
    rw [exact]
    constructor
    · exact fun apart _ => apart
    · intro apart
      by_cases shares : SharesId left right
      · exact apart shares
      · simp only [SharesId, same, true_and, not_or] at shares
        obtain ⟨elsewhere, leftNamed, rightNamed⟩ := shares
        have competesRight := other_contract_competes liveRight rightNamed same elsewhere
        have competesLeft := other_contract_competes liveLeft leftNamed same.symm
          (Ne.symm elsewhere)
        refine ⟨List.ne_nil_of_mem competesRight, List.ne_nil_of_mem competesLeft, ?_⟩
        have kinds := (closed_contract companion left (closed left liveLeft)).2 _ competesRight
        exact Ne.symm kinds
  · constructor
    · intro _ shares
      exact absurd shares.1 same
    · intro _ row inLeft inRight
      exact rows_naming_apart same ((mem_attributable_rows left row).mp inLeft).1
        ((mem_attributable_rows right row).mp inRight).1

end OwnRows

section ClosureGate

theorem discharged_by_row_iff (companion : CompanionBody) (commitment : Commitment) :
    dischargedByRow (declarersByContractId companion) (kindsByContract companion) commitment =
        true ↔
      let kinds := ((kindsByContract companion).get? commitment.localId).getD []
      kinds ≠ [] ∧ (competingKinds (declarersByContractId companion) commitment = [] ∨
        (∀ kind ∈ ownKinds (declarersByContractId companion) commitment,
          kind ∉ competingKinds (declarersByContractId companion) commitment) ∧
        ∃ kind ∈ ownKinds (declarersByContractId companion) commitment, kind ∈ kinds) := by
  unfold dischargedByRow
  cases (kindsByContract companion).get? commitment.localId with
  | none => simp
  | some kinds => simp

/-- The kinds recorded for an id are those of the rows that name it, unless the id is
written like a qualified one. -/
theorem mem_kinds_by_contract (companion : CompanionBody) (id kind : Str) :
    kind ∈ ((kindsByContract companion).get? id).getD [] ↔
      isQualifiedContract id = false ∧
        ∃ row ∈ rowsNaming companion id, rowAnchorKind row = kind := by
  have entered : ∀ (entries : List (Str × Str)) (held : Dict Str (List Str)),
      kind ∈ ((entries.foldl (fun held entry => held.modify entry.1 [] (enroll · entry.2))
        held).get? id).getD [] ↔
        kind ∈ (held.get? id).getD [] ∨ (id, kind) ∈ entries := by
    intro entries
    induction entries with
    | nil => simp
    | cons entry rest ih =>
        intro held
        rw [List.foldl_cons, ih, Dict.get_modify, List.mem_cons]
        rcases entry with ⟨named, asked⟩
        by_cases here : named = id
        · subst here
          simp [mem_enroll_iff, or_assoc]
        · simp [here, Ne.symm here]
  unfold kindsByContract
  rw [entered]
  simp only [Dict.get_empty, Option.getD_none, List.not_mem_nil, false_or, List.mem_filter,
    fulfilledContracts, List.mem_map, Prod.mk.injEq, rowsNaming, decide_eq_true_eq]
  constructor
  · rintro ⟨⟨row, ⟨inRows, named⟩, rfl, rfl⟩, plain⟩
    exact ⟨by simpa using plain, row, ⟨inRows, named, rfl⟩, rfl⟩
  · rintro ⟨plain, row, ⟨inRows, named, rfl⟩, rfl⟩
    exact ⟨⟨row, ⟨inRows, named⟩, rfl, rfl⟩, by simpa using plain⟩

theorem abandoned_iff {declared : List Commitment} {resolved : List Str}
    {deferrals : List DeferralRecord} (commitment : Commitment) :
    (commitment, false) ∈ unclosedCommitments declared resolved deferrals ↔
      commitment ∈ declared ∧ commitment.ref ∉ resolved ∧ commitment.localId ∉ resolved ∧
        deferralRationales deferrals commitment.ref ++
          deferralRationales deferrals commitment.localId = [] := by
  unfold unclosedCommitments
  rw [List.mem_filterMap]
  constructor
  · rintro ⟨other, inside, shown⟩
    split at shown
    · contradiction
    · rename_i open_
      simp only [Bool.or_eq_true, List.contains_iff_mem, not_or] at open_
      dsimp only at shown
      split at shown
      · rename_i silent
        obtain ⟨rfl, _⟩ := Prod.mk.injEq .. ▸ Option.some.inj shown
        exact ⟨inside, open_.1, open_.2, silent⟩
      · split at shown
        · contradiction
        · exact absurd (Option.some.inj shown) (by simp)
  · rintro ⟨inside, unresolved, unnamed, silent⟩
    refine ⟨commitment, inside, ?_⟩
    have open_ : ¬ (resolved.contains commitment.ref || resolved.contains commitment.localId) =
        true := by
      simp [unresolved, unnamed]
    rw [if_neg open_]
    dsimp only
    rw [if_pos silent]

theorem ref_ne_local (commitment : Commitment) : commitment.ref ≠ commitment.localId := by
  intro same
  have lengths := congrArg List.length same
  simp only [Commitment.ref, List.length_append, List.length_singleton] at lengths
  omega

variable [UnicodeDatabase] (companion : CompanionBody) (gated : List Str)

def resolvedContracts : List Str :=
  ((closingContracts companion gated).filter fun commitment =>
    (qualifiedContracts companion).contains commitment.ref ||
      dischargedByRow (declarersByContractId companion) (kindsByContract companion)
        commitment).map Commitment.ref

def contractDeferrals : List DeferralRecord :=
  (companion.conclude.map Conclude.deferredAuthorizations).getD []

/-- The contracts the closure gate refuses; the flag is set for a blank deferral, the
others are abandoned. -/
def closureFindings : List (Commitment × Bool) :=
  if !isClosing companion then []
  else unclosedCommitments (closingContracts companion gated) (resolvedContracts companion gated)
    (contractDeferrals companion)

/-- The closure check renders these findings and no others. -/
theorem contract_closure_rendered : checkAuthzContractClosure companion gated =
    (closureFindings companion gated).map fun entry =>
      closureRefusal (message ["authz contract ", entry.1.ref]) "deferred_authz" entry.1.ref
        (authzClosureRepair (declarersByContractId companion) entry.1) entry.2 := by
  unfold checkAuthzContractClosure closureFindings
  split
  · rfl
  · rfl

def commitmentOf (owned : OwnedContract) : Commitment := ⟨owned.1, contractId owned.2⟩

def ReportedAbandoned (owned : OwnedContract) : Prop :=
  (commitmentOf owned, false) ∈ closureFindings companion gated

def CountedDischarged (owned : OwnedContract) : Prop :=
  ∀ found ∈ outstandingAuthzContracts companion, (found.hypothesis, found.contract) ≠ owned

/-- The closure gate finds the contract's rows: its id is not written like a qualified
one, and none of its hypothesis's records of the id asks a kind of question that
another declarer of the id asks. -/
def RowsSeen (owned : OwnedContract) : Prop :=
  isQualifiedContract (contractId owned.2) = false ∧
    ∀ kind ∈ ownKinds (declarersByContractId companion) (commitmentOf owned),
      kind ∉ competingKinds (declarersByContractId companion) (commitmentOf owned)

/-- The contract is accounted for without its own rows: its id is blank or the
disposition gate refused it already, a row names it in full, a deferral names it, or
another contract that has a row carries its reference, or its id, for a reference. -/
def NamedOtherwise (owned : OwnedContract) : Prop :=
  commitmentOf owned ∉ closingContracts companion gated ∨
    (commitmentOf owned).ref ∈ qualifiedContracts companion ∨
    deferralRationales (contractDeferrals companion) (commitmentOf owned).ref ++
      deferralRationales (contractDeferrals companion) (contractId owned.2) ≠ [] ∨
    ∃ other ∈ closingContracts companion gated, other ≠ commitmentOf owned ∧
      (other.ref = (commitmentOf owned).ref ∨ other.ref = contractId owned.2) ∧
      (other.ref ∈ qualifiedContracts companion ∨
        dischargedByRow (declarersByContractId companion) (kindsByContract companion) other = true)

variable {companion gated} {owned : OwnedContract}

theorem counted_discharged_iff (live : owned ∈ liveContracts companion) :
    CountedDischarged companion owned ↔ openReason companion owned = none := by
  rcases owned with ⟨hid, contract⟩
  obtain ⟨owner, alive, inHyp⟩ := List.mem_flatMap.mp live
  obtain ⟨declaredContract, declared, same⟩ := List.mem_map.mp inHyp
  obtain ⟨rfl, rfl⟩ := Prod.mk.injEq .. ▸ same
  unfold CountedDischarged outstandingAuthzContracts
  constructor
  · intro unreported
    cases found : openReason companion (owner, declaredContract) with
    | none => rfl
    | some why =>
        refine absurd rfl (unreported ⟨owner, declaredContract, why⟩ ?_)
        refine List.mem_flatMap.mpr ⟨owner, alive, ?_⟩
        refine List.mem_filterMap.mpr ⟨declaredContract, declared, ?_⟩
        change (openReason companion (owner, declaredContract)).map _ = _
        rw [found]
        rfl
  · intro closed found reported same
    obtain ⟨hid, _, inside⟩ := List.mem_flatMap.mp reported
    obtain ⟨contract, _, shown⟩ := List.mem_filterMap.mp inside
    obtain ⟨why, reason, rfl⟩ := Option.map_eq_some_iff.mp shown
    obtain ⟨rfl, rfl⟩ := Prod.mk.injEq .. ▸ same
    change openReason companion (hid, contract) = some why at reason
    rw [closed] at reason
    contradiction

/-- On a contract the benign gate counts discharged, the two gates agree exactly when
the closure gate sees the rows. -/
theorem discharged_by_row_seen (live : owned ∈ liveContracts companion)
    (named : contractId owned.2 ≠ []) (closed : openReason companion owned = none) :
    dischargedByRow (declarersByContractId companion) (kindsByContract companion)
        (commitmentOf owned) = true ↔ RowsSeen companion owned := by
  have readAs := read_id_named named
  obtain ⟨rows, _⟩ := closed_contract companion owned closed
  obtain ⟨row, attributed⟩ := List.exists_mem_of_ne_nil _ rows
  obtain ⟨inRows, kind⟩ := (mem_attributable_rows owned row).mp attributed
  rw [readAs] at inRows kind
  have competing : competitors companion owned.1 (contractId owned.2) = [] ↔
      competingKinds (declarersByContractId companion) (commitmentOf owned) = [] := by
    unfold competingKinds competitors
    rw [List.map_eq_nil_iff]
    rfl
  rw [discharged_by_row_iff]
  dsimp only [commitmentOf]
  constructor
  · rintro ⟨some, discharged⟩
    obtain ⟨asked, recorded⟩ := List.exists_mem_of_ne_nil _ some
    refine ⟨((mem_kinds_by_contract _ _ _).mp recorded).1, ?_⟩
    rcases discharged with alone | ⟨apart, _⟩
    · intro own _
      rw [commitmentOf, alone]
      simp
    · exact apart
  · rintro ⟨plain, apart⟩
    have recorded : rowAnchorKind row ∈
        ((kindsByContract companion).get? (contractId owned.2)).getD [] :=
      (mem_kinds_by_contract _ _ _).mpr ⟨plain, row, inRows, rfl⟩
    refine ⟨List.ne_nil_of_mem recorded, ?_⟩
    rcases kind with alone | kind
    · exact .inl (competing.mp alone)
    · right
      refine ⟨apart, contractAnchorKind owned.2, ?_, kind ▸ recorded⟩
      unfold ownKinds
      refine List.mem_map.mpr ⟨⟨owned.1, contractAnchorKind owned.2⟩, ?_, rfl⟩
      exact List.mem_filter.mpr ⟨declarer_of_contract live named, by simp⟩

theorem closing_contract_named {commitment : Commitment}
    (closing : commitment ∈ closingContracts companion gated) : commitment.localId ≠ [] := by
  obtain ⟨entry, _, inside⟩ := List.mem_flatMap.mp (List.mem_of_mem_filter closing)
  obtain ⟨contract, kept, rfl⟩ := List.mem_map.mp inside
  simpa using (List.mem_filter.mp kept).2

theorem mem_resolved_contracts (ref : Str) :
    ref ∈ resolvedContracts companion gated ↔
      ∃ other ∈ closingContracts companion gated, other.ref = ref ∧
        (other.ref ∈ qualifiedContracts companion ∨
          dischargedByRow (declarersByContractId companion) (kindsByContract companion) other =
            true) := by
  unfold resolvedContracts
  simp only [List.mem_map, List.mem_filter, Bool.or_eq_true, List.contains_iff_mem]
  constructor
  · rintro ⟨other, ⟨inside, resolves⟩, same⟩
    exact ⟨other, inside, same, resolves⟩
  · rintro ⟨other, inside, same, resolves⟩
    exact ⟨other, ⟨inside, resolves⟩, same⟩

/-- One contract the benign gate counts discharged. -/
theorem not_abandoned_iff (closing : isClosing companion = true)
    (live : owned ∈ liveContracts companion) (closed : openReason companion owned = none) :
    ¬ ReportedAbandoned companion gated owned ↔
      RowsSeen companion owned ∨ NamedOtherwise companion gated owned := by
  have reported : ReportedAbandoned companion gated owned ↔
      commitmentOf owned ∈ closingContracts companion gated ∧
        (commitmentOf owned).ref ∉ resolvedContracts companion gated ∧
        contractId owned.2 ∉ resolvedContracts companion gated ∧
        deferralRationales (contractDeferrals companion) (commitmentOf owned).ref ++
          deferralRationales (contractDeferrals companion) (contractId owned.2) = [] := by
    unfold ReportedAbandoned closureFindings
    rw [closing, Bool.not_true, if_neg Bool.false_ne_true, abandoned_iff]
    rfl
  rw [reported]
  constructor
  · intro kept
    by_cases declared : commitmentOf owned ∈ closingContracts companion gated
    · have named : contractId owned.2 ≠ [] := closing_contract_named declared
      by_cases byRef : (commitmentOf owned).ref ∈ resolvedContracts companion gated
      · obtain ⟨other, inside, same, resolves⟩ := (mem_resolved_contracts _).mp byRef
        by_cases own : other = commitmentOf owned
        · subst own
          rcases resolves with qualified | discharged
          · exact .inr (.inr (.inl qualified))
          · exact .inl ((discharged_by_row_seen live named closed).mp discharged)
        · exact .inr (.inr (.inr (.inr ⟨other, inside, own, .inl same, resolves⟩)))
      · by_cases byId : contractId owned.2 ∈ resolvedContracts companion gated
        · obtain ⟨other, inside, same, resolves⟩ := (mem_resolved_contracts _).mp byId
          have own : other ≠ commitmentOf owned := by
            rintro rfl
            exact ref_ne_local _ same
          exact .inr (.inr (.inr (.inr ⟨other, inside, own, .inr same, resolves⟩)))
        · exact .inr (.inr (.inr (.inl fun silent => kept ⟨declared, byRef, byId, silent⟩)))
    · exact .inr (.inl declared)
  · rintro (seen | away | qualified | deferred | ⟨other, inside, _, names, resolves⟩)
      ⟨declared, byRef, byId, silent⟩
    · have named : contractId owned.2 ≠ [] := closing_contract_named declared
      have discharged := (discharged_by_row_seen live named closed).mpr seen
      exact byRef ((mem_resolved_contracts _).mpr ⟨_, declared, rfl, .inr discharged⟩)
    · exact away declared
    · exact byRef ((mem_resolved_contracts _).mpr ⟨_, declared, rfl, .inl qualified⟩)
    · exact deferred silent
    · rcases names with same | same
      · exact byRef ((mem_resolved_contracts _).mpr ⟨other, inside, same, resolves⟩)
      · exact byId ((mem_resolved_contracts _).mpr ⟨other, inside, same, resolves⟩)

theorem closure_findings_none_open (gated : List Str)
    (noneOpen : outstandingAuthzContracts companion = []) :
    closureFindings companion gated = closureFindings companion [] := by
  have closing : closingContracts companion gated = closingContracts companion [] := by
    unfold closingContracts
    rw [noneOpen]
    rfl
  unfold closureFindings resolvedContracts
  rw [closing]

/-- On a closing companion the closure gate abandons no contract that the benign gate
counts discharged, exactly when it sees the rows of each or finds it named otherwise. -/
theorem closure_agrees_iff (companion : CompanionBody) (gated : List Str)
    (closing : isClosing companion = true) :
    (∀ owned ∈ liveContracts companion, CountedDischarged companion owned →
        ¬ ReportedAbandoned companion gated owned) ↔
      ∀ owned ∈ liveContracts companion, CountedDischarged companion owned →
        RowsSeen companion owned ∨ NamedOtherwise companion gated owned := by
  apply forall_congr'
  intro owned
  apply forall_congr'
  intro live
  apply forall_congr'
  intro counted
  exact not_abandoned_iff closing live ((counted_discharged_iff live).mp counted)

end ClosureGate

def hypothesisHeader : Str :=
  message [":H hypothesize.hypotheses [id|name|attached_to|rel|parent_type|parent_class|",
    "integrity_waived?|weight|status]\n"]

/-- A live hypothesis with the given contract rows, and the rows that fulfill them. -/
def contractText (contracts fulfilling : List Str) : Str :=
  message ["```invlang\n", hypothesisHeader, "h-001|?who|v-001|spawned|compute|??||null|open\n",
    ":H h-001.authz [id|edge_ref|anchor_kind|predicate|on_unauth|on_indet]\n",
    message contracts, ":R authz [resolved_by|fulfills|verdict|anchor_kind]\n",
    message fulfilling, ":T conclude\n", "disposition unresolved\n", "```\n"]

def twoContractsText : Str :=
  contractText ["ac1|e-001|iam-policy|may run|escalate|escalate\n",
      "ac2|e-001|change-mgmt|may change|escalate|escalate\n"]
    ["l-001|ac1|authorized|iam-policy\n", "l-001|ac2|authorized|change-mgmt\n"]

theorem two_contracts_closing :
    (@outstandingAuthzContracts asciiDatabase
        (@companionOf asciiDatabase twoContractsText)).isEmpty = true ∧
      isClosing (@companionOf asciiDatabase twoContractsText) = true := by
  decide +kernel

theorem discharged_apart_two_contracts :
    @outstandingAuthzContracts asciiDatabase (@companionOf asciiDatabase twoContractsText) = [] ∧
      (DischargedApart (@companionOf asciiDatabase twoContractsText) ↔
        ContractsApart (@companionOf asciiDatabase twoContractsText)) :=
  have closed := List.isEmpty_iff.mp two_contracts_closing.1
  ⟨closed, @discharged_apart_iff asciiDatabase _ closed⟩

/-- Two records of one hypothesis, the id of the second written in quotes. -/
def quotedTwinText : Str :=
  contractText ["ac1|e-001|iam-policy|may run|escalate|escalate\n",
      "\"ac1\"|e-001|change-mgmt|may change|escalate|escalate\n"]
    ["l-001|ac1|authorized|iam-policy\n"]

/-- The one row discharges both contracts. -/
theorem one_row_discharges_quoted_twin :
    (@outstandingAuthzContracts asciiDatabase
        (@companionOf asciiDatabase quotedTwinText)).isEmpty = true ∧
      ¬ DischargedApart (@companionOf asciiDatabase quotedTwinText) := by
  decide +kernel

theorem closure_agrees_two_contracts :
    isClosing (@companionOf asciiDatabase twoContractsText) = true ∧
      ((∀ owned ∈ liveContracts (@companionOf asciiDatabase twoContractsText),
          @CountedDischarged asciiDatabase (@companionOf asciiDatabase twoContractsText) owned →
          ¬ @ReportedAbandoned asciiDatabase (@companionOf asciiDatabase twoContractsText) [] owned) ↔
        ∀ owned ∈ liveContracts (@companionOf asciiDatabase twoContractsText),
          @CountedDischarged asciiDatabase (@companionOf asciiDatabase twoContractsText) owned →
          RowsSeen (@companionOf asciiDatabase twoContractsText) owned ∨
            @NamedOtherwise asciiDatabase (@companionOf asciiDatabase twoContractsText) [] owned) :=
  have closing := two_contracts_closing.2
  ⟨closing, @closure_agrees_iff asciiDatabase _ [] closing⟩

def qualifiedIdText : Str :=
  contractText ["h-001.ac1|e-001|iam-policy|may run|escalate|escalate\n"]
    ["l-001|h-001.ac1|authorized|iam-policy\n"]

/-- The benign gate reports nothing open and the closure gate reports the contract
abandoned, whatever the disposition gate refused before it. -/
theorem qualified_id_abandoned :
    isClosing (@companionOf asciiDatabase qualifiedIdText) = true ∧
      @outstandingAuthzContracts asciiDatabase (@companionOf asciiDatabase qualifiedIdText) = [] ∧
      ∃ owned ∈ liveContracts (@companionOf asciiDatabase qualifiedIdText), ∀ gated,
        @ReportedAbandoned asciiDatabase (@companionOf asciiDatabase qualifiedIdText) gated
          owned := by
  have shape : isClosing (@companionOf asciiDatabase qualifiedIdText) = true ∧
      (@outstandingAuthzContracts asciiDatabase
        (@companionOf asciiDatabase qualifiedIdText)).isEmpty = true ∧
      ∃ owned ∈ liveContracts (@companionOf asciiDatabase qualifiedIdText),
        (commitmentOf owned, false) ∈
          @closureFindings asciiDatabase (@companionOf asciiDatabase qualifiedIdText) [] := by
    decide +kernel
  obtain ⟨closing, empty, owned, live, found⟩ := shape
  have noneOpen := List.isEmpty_iff.mp empty
  refine ⟨closing, noneOpen, owned, live, fun gated => ?_⟩
  unfold ReportedAbandoned
  rw [@closure_findings_none_open asciiDatabase _ gated noneOpen]
  exact found

end Defender.Invlang
