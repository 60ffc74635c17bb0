import Defender.Tenancy.StatementRows

/-!
# What a commit comes to

The conditions a commit is compared under, and its outcome in the in-memory store: what
is refused, and the rows left when nothing is.
-/

namespace Defender.Tenancy

open Defender.Python Defender.Library.OrderedDict

/-- What the database holds of a tenant. -/
structure InStore (rows : TenantRows) : Prop where
  apart : (saltsOf rows.generations).Nodup
  oneLive : (liveOf rows.generations).length ≤ 1
  known : ∀ held ∈ rows.generations, held.status.known = true
  storable : ∀ salt ∈ saltsOf rows.generations, Statement.storable salt = true

/-- The names a commit gives are those of generations the tenant has. -/
structure Addressed (rows : TenantRows) (commit : Commit) : Prop where
  updates : ∀ salt ∈ commit.updateGenerations.keys, salt ∈ saltsOf rows.generations
  live : ∀ salt, commit.goLive = some salt → salt ∈ saltsOf rows.generations
  destroys : ∀ salt, commit.destroys salt = true →
    salt ∈ saltsOf rows.generations ∧ commit.goLive ≠ some salt
  all : commit.destroy = .all → commit.goLive = none
  wiring : commit.wiring.isSome = true → commit.dropWiring = false

def Fresh (rows : TenantRows) (commit : Commit) : Prop :=
  ∀ add, commit.addGeneration = some add → add.salt ∉ saltsOf rows.generations

def newRows (tenant : Str) (commit : Commit) : List Generation :=
  (commit.addGeneration.map fun add => { add with tenantId := tenant }).toList

def SecondLive (rows : TenantRows) (commit : Commit) : Prop :=
  commit.goLive = none ∧ commit.destroy ≠ .all ∧
    ∃ add, commit.addGeneration = some add ∧ add.status = .live ∧
      ∃ held ∈ rows.generations, held.status = .live ∧ commit.destroys held.salt = false

/-- What both stores refuse: a pair the table does not allow, a salt already there, a
second live generation. -/
def RefusedByBoth (rows : TenantRows) (commit : Commit) : Prop :=
  allowedPair (commit.recordAfter rows.record).state
      (commit.recordAfter rows.record).pendingAction = false ∨
    ¬ Fresh rows commit ∨ SecondLive rows commit

/-- What the database can parse, and its columns hold. -/
structure Holdable (commit : Commit) : Prop where
  sets : ∀ salt, commit.updateGenerations.get? salt = some {} →
    commit.goLive = some salt ∨ commit.destroys salt = true
  texts : ∀ text ∈ commit.texts, Statement.storable text = true
  actor : ∀ actor, commit.actor = some actor → actor.known = true
  status : ∀ add, commit.addGeneration = some add → add.status.known = true

/-- No generation is in the way of two of the commit's changes. -/
structure Separate (rows : TenantRows) (commit : Commit) : Prop where
  live : ∀ salt, commit.goLive = some salt →
    (∀ add, commit.addGeneration = some add → add.status ≠ .live) ∧
    ∀ held ∈ rows.generations, held.status = .live → held.salt ≠ salt →
      held.salt ∉ commit.updateGenerations.keys ∧ commit.destroys held.salt = false
  all : commit.destroy = .all →
    (∀ add, commit.addGeneration = some add → add.status = .destroyed) ∧
    ∀ held ∈ rows.generations, held.salt ∈ commit.updateGenerations.keys →
      held.status = .destroyed
  added : commit.goLive = none → ∀ add, commit.addGeneration = some add → add.status = .live →
    ∀ held ∈ rows.generations, held.status = .live → commit.destroys held.salt = false

/-- Both refuse, or both succeed and leave equal rows. -/
def Alike : Except Refusal TenantRows → Except Refusal TenantRows → Prop
  | .ok left, .ok right => left = right
  | .error _, .error _ => True
  | .ok _, .error _ => False
  | .error _, .ok _ => False

section Memory

variable {rows : TenantRows} {seen : TenantRecord} {commit : Commit}

theorem memory_row_status (held : Generation) :
    (Memory.rowAfter commit held).status =
      if commit.destroy = .all ∨ commit.destroys held.salt = true then .destroyed
      else match commit.goLive with
        | none => held.status
        | some salt =>
          if held.salt = salt then .live
          else if held.status = .live then .retiring else held.status := by
  unfold Memory.rowAfter Memory.destroyed Commit.destroys
  cases commit.destroy with
  | all => simp
  | named salts =>
    cases commit.goLive with
    | none =>
      by_cases gone : held.salt ∈ salts <;> simp [gone]
    | some salt =>
      by_cases gone : held.salt ∈ salts
      · simp [gone]
      · simp only [Memory.went_live_salt, Memory.fields_set_salt, gone, if_false]
        unfold Memory.wentLive
        by_cases same : held.salt = salt
        · simp [same]
        · by_cases live : held.status = .live <;> simp [same, live]

theorem grown_apart (tenant : Str) (stored : InStore rows) (fresh : Fresh rows commit) :
    (saltsOf (Memory.grown tenant rows.generations commit)).Nodup := by
  unfold Memory.grown saltsOf
  rw [List.map_append]
  apply List.Nodup.append stored.apart
  · cases commit.addGeneration with
    | none => exact List.nodup_nil
    | some add => exact List.nodup_singleton _
  · intro salt held new
    cases adds : commit.addGeneration with
    | none =>
      rw [adds] at new
      cases new
    | some add =>
      rw [adds] at new
      have same : salt = add.salt := List.mem_singleton.mp new
      exact fresh add adds (same ▸ held)

theorem mem_grown_iff {row : Generation} :
    row ∈ Memory.grown seen.id rows.generations commit ↔
      row ∈ rows.generations ∨ row ∈ newRows seen.id commit :=
  List.mem_append

theorem mem_new_iff {tenant : Str} {row : Generation} :
    row ∈ newRows tenant commit ↔
      ∃ add, commit.addGeneration = some add ∧ row = { add with tenantId := tenant } := by
  unfold newRows
  cases commit.addGeneration with
  | none => simp
  | some add => simp

theorem new_not_destroyed (addressed : Addressed rows commit) (fresh : Fresh rows commit)
    {add : Generation} (adds : commit.addGeneration = some add) :
    commit.destroys add.salt = false := by
  by_contra gone
  have gone : commit.destroys add.salt = true := by simpa using gone
  exact fresh add adds (addressed.destroys add.salt gone).1

/-- In memory two generations end up live exactly when a live one joins the one kept. -/
theorem memory_two_live_iff (stored : InStore rows) (addressed : Addressed rows commit)
    (fresh : Fresh rows commit) :
    1 < (liveOf ((Memory.grown seen.id rows.generations commit).map
      (Memory.rowAfter commit))).length ↔ SecondLive rows commit := by
  have apart : (saltsOf ((Memory.grown seen.id rows.generations commit).map
      (Memory.rowAfter commit))).Nodup := by
    rw [Memory.salts_map (Memory.row_after_salt commit)]
    exact grown_apart seen.id stored fresh
  rw [← not_iff_not, Nat.not_lt, Statement.live_le_one_iff apart]
  have stored_single := (Statement.live_le_one_iff stored.apart).mp stored.oneLive
  constructor
  · intro single second
    obtain ⟨none_live, named, add, adds, add_live, held, member, held_live, kept⟩ := second
    have status : ∀ row : Generation, commit.destroys row.salt = false →
        (Memory.rowAfter commit row).status = row.status := by
      intro row spared
      rw [memory_row_status, none_live, if_neg (by simp [named, spared])]
    let new : Generation := { add with tenantId := seen.id }
    have new_in : new ∈ Memory.grown seen.id rows.generations commit :=
      mem_grown_iff.mpr (Or.inr (mem_new_iff.mpr ⟨add, adds, rfl⟩))
    have spared := new_not_destroyed addressed fresh adds
    have new_kept : commit.destroys new.salt = false := spared
    have same := single (Memory.rowAfter commit held)
      (List.mem_map_of_mem (mem_grown_iff.mpr (Or.inl member)))
      (Memory.rowAfter commit new) (List.mem_map_of_mem new_in)
      ((status held kept).trans held_live) ((status new new_kept).trans add_live)
    rw [Memory.row_after_salt, Memory.row_after_salt] at same
    exact fresh add adds (same ▸ List.mem_map_of_mem member)
  · intro alone left left_in right right_in left_live right_live
    obtain ⟨left, left_row, rfl⟩ := List.mem_map.mp left_in
    obtain ⟨right, right_row, rfl⟩ := List.mem_map.mp right_in
    rw [Memory.row_after_salt, Memory.row_after_salt]
    rw [memory_row_status] at left_live right_live
    have left_kept : ¬ (commit.destroy = .all ∨ commit.destroys left.salt = true) := by
      intro gone
      rw [if_pos gone] at left_live
      cases left_live
    have right_kept : ¬ (commit.destroy = .all ∨ commit.destroys right.salt = true) := by
      intro gone
      rw [if_pos gone] at right_live
      cases right_live
    rw [if_neg left_kept] at left_live
    rw [if_neg right_kept] at right_live
    cases goes : commit.goLive with
    | some salt =>
      have at_salt : ∀ row : Generation, (match commit.goLive with
          | none => row.status
          | some salt =>
            if row.salt = salt then .live
            else if row.status = .live then .retiring else row.status : GenerationStatus) =
              .live →
          row.salt = salt := by
        intro row live
        rw [goes] at live
        by_contra other
        simp only [if_neg other] at live
        by_cases was : row.status = .live
        · rw [if_pos was] at live
          cases live
        · rw [if_neg was] at live
          exact was live
      rw [at_salt left left_live, at_salt right right_live]
    | none =>
      rw [goes] at left_live right_live
      have second : ∀ held ∈ rows.generations, ∀ new ∈ newRows seen.id commit,
          held.status = .live → new.status = .live → commit.destroys held.salt = false →
          False := by
        intro held member new entered held_live new_live spared
        obtain ⟨add, adds, made⟩ := mem_new_iff.mp entered
        rw [made] at new_live
        exact alone ⟨goes, fun all => left_kept (Or.inl all), add, adds, new_live, held, member,
          held_live, spared⟩
      have left_spared : commit.destroys left.salt = false := by
        simpa using fun gone => left_kept (Or.inr gone)
      have right_spared : commit.destroys right.salt = false := by
        simpa using fun gone => right_kept (Or.inr gone)
      cases mem_grown_iff.mp left_row with
      | inl left_held =>
        cases mem_grown_iff.mp right_row with
        | inl right_held =>
          exact stored_single left left_held right right_held left_live right_live
        | inr right_new =>
          exact (second left left_held right right_new left_live right_live left_spared).elim
      | inr left_new =>
        cases mem_grown_iff.mp right_row with
        | inl right_held =>
          exact (second right right_held left left_new right_live left_live
            right_spared).elim
        | inr right_new =>
          obtain ⟨one, one_adds, one_made⟩ := mem_new_iff.mp left_new
          obtain ⟨two, two_adds, two_made⟩ := mem_new_iff.mp right_new
          have same : one = two := Option.some.inj (one_adds.symm.trans two_adds)
          rw [one_made, two_made, same]

def recordedWiring (tenant : Str) (rows : TenantRows) (commit : Commit) : Option ForgeWiring :=
  if commit.dropWiring then none
  else rows.wiring.or (commit.wiring.map fun wiring => { wiring with tenantId := tenant })

/-- The rows the in-memory store leaves when nothing is refused. -/
def memoryAfter (rows : TenantRows) (seen : TenantRecord) (commit : Commit) : TenantRows where
  record := commit.recordAfter rows.record
  generations := (Memory.grown seen.id rows.generations commit).map (Memory.rowAfter commit)
  wiring := recordedWiring seen.id rows commit
  publish := if commit.dropPublishStatus then none else rows.publish

theorem memory_commit_ok (stored : InStore rows) (addressed : Addressed rows commit)
    (fence : fenceHolds rows.record seen = true) (taken : ¬ RefusedByBoth rows commit) :
    Memory.commit rows seen commit = .ok (memoryAfter rows seen commit) := by
  unfold RefusedByBoth at taken
  push Not at taken
  obtain ⟨pair, fresh, single⟩ := taken
  have fits : allowedPair (commit.recordAfter rows.record).state
      (commit.recordAfter rows.record).pendingAction = true := by simpa using pair
  have changed := Memory.changed_rows seen.id fresh addressed.updates addressed.live
  rw [if_neg ((memory_two_live_iff stored addressed fresh).not.mpr single)] at changed
  unfold Memory.commit
  simp only [fence, fits, Bool.not_true, Bool.false_eq_true, if_false]
  rw [changed]
  rfl

theorem memory_commit_refused (stored : InStore rows) (addressed : Addressed rows commit)
    (fence : fenceHolds rows.record seen = true) (refused : RefusedByBoth rows commit) :
    ∃ why, Memory.commit rows seen commit = .error why := by
  unfold Memory.commit
  simp only [fence, Bool.not_true, Bool.false_eq_true, if_false]
  by_cases pair : allowedPair (commit.recordAfter rows.record).state
      (commit.recordAfter rows.record).pendingAction = true
  · simp only [pair, Bool.not_true, Bool.false_eq_true, if_false]
    by_cases fresh : Fresh rows commit
    · have second : SecondLive rows commit := by
        rcases refused with bad | taken | second
        · rw [pair] at bad
          cases bad
        · exact (taken fresh).elim
        · exact second
      have changed := Memory.changed_rows seen.id fresh addressed.updates addressed.live
      rw [if_pos ((memory_two_live_iff stored addressed fresh).mpr second)] at changed
      rw [changed]
      exact ⟨_, rfl⟩
    · unfold Fresh at fresh
      push Not at fresh
      obtain ⟨add, adds, there⟩ := fresh
      unfold Memory.changedGenerations Memory.added
      rw [adds]
      simp only [if_pos there]
      exact ⟨_, rfl⟩
  · have bad : allowedPair (commit.recordAfter rows.record).state
        (commit.recordAfter rows.record).pendingAction = false := by simpa using pair
    simp only [bad, Bool.not_false, if_true]
    exact ⟨_, rfl⟩

end Memory

end Defender.Tenancy
