import Defender.Tenancy.Records

/-!
# The in-memory tenant store

The requests of the API and the fenced writes of a held tenant, on the rows of one
tenant. Each applies whole under the store's mutex, so each is one function of the
rows; a refusal leaves them as they were.
-/

namespace Defender.Tenancy

open Defender.Python Defender.Library.OrderedDict

namespace Memory

def newTenant (tenant : Str) (now : Time) : TenantRows where
  record :=
    { id := tenant, createdAt := now, state := .creating, pendingAction := some .create,
      step := some .names, stepActor := some .service }

def requestResume (rows : TenantRows) : Option TenantRows :=
  if rows.record.failure.isSome then
    some { rows with record := { rows.record with failure := none } }
  else
    none

def requestOffboard (rows : TenantRows) : Option TenantRows :=
  if rows.record.state = .creating ∨ rows.record.state = .active then
    some { rows with record := { rows.record with
      state := .offboarding, pendingAction := some .offboard, step := some .offboard,
      stepActor := some .service, failure := none } }
  else
    none

def requestRotate (rows : TenantRows) : Option TenantRows :=
  if rows.record.state = .active ∧ rows.record.pendingAction = none then
    some { rows with record := { rows.record with
      pendingAction := some .rotate, step := some .names, stepActor := some .service } }
  else
    none

/-- `_insert_generation`'s refusal inside `_changed_generations`. -/
def added (tenant : Str) (generations : List Generation) :
    Option Generation → Except Refusal (List Generation)
  | none => .ok generations
  | some add =>
    if add.salt ∈ saltsOf generations then
      .error (.valueError (("tenant " : Str) ++ tenant ++ (" already has a generation " : Str) ++
        add.salt))
    else
      .ok (generations ++ [{ add with tenantId := tenant }])

def updateOne (generations : List Generation) (salt : Str) (fields : GenerationFields) :
    Except Refusal (List Generation) :=
  if salt ∈ saltsOf generations then
    .ok (generations.map fun held => if held.salt = salt then fields.apply held else held)
  else
    .error (.keyError salt)

def updated (generations : List Generation) :
    List (Str × GenerationFields) → Except Refusal (List Generation)
  | [] => .ok generations
  | (salt, fields) :: rest => do updated (← updateOne generations salt fields) rest

/-- The row as `go_live` leaves it: the named generation live, another live one retiring. -/
def wentLive (goLive : Str) (held : Generation) : Generation :=
  if held.salt = goLive then { held with status := .live }
  else if held.status = .live then { held with status := .retiring }
  else held

def destroyed (destroy : Destroy) (held : Generation) : Generation :=
  match destroy with
  | .all => { held with status := .destroyed }
  | .named salts => if held.salt ∈ salts then { held with status := .destroyed } else held

/-- `_move_statuses`. -/
def moveStatuses (generations : List Generation) (goLive : Option Str) (destroy : Destroy) :
    Except Refusal (List Generation) :=
  match goLive with
  | none => .ok (generations.map (destroyed destroy))
  | some salt =>
    if salt ∈ saltsOf generations then
      .ok ((generations.map (wentLive salt)).map (destroyed destroy))
    else
      .error (.keyError salt)

/-- `_changed_generations`: the tenant's generations as the commit leaves them. -/
def changedGenerations (tenant : Str) (generations : List Generation) (commit : Commit) :
    Except Refusal (List Generation) := do
  let grown ← added tenant generations commit.addGeneration
  let changed ← updated grown commit.updateGenerations.entries
  let moved ← moveStatuses changed commit.goLive commit.destroy
  if (liveOf moved).length > 1 then
    .error (.valueError (("tenant " : Str) ++ tenant ++
      (" would have two live generations" : Str)))
  else
    .ok moved

/-- `_check_pair`'s text. -/
def pairRefused (state : TenantState) (pendingAction : Option PendingAction) : Refusal :=
  let pending := match pendingAction with
    | none => ("None" : Str)
    | some action => ("'" : Str) ++ action.text ++ ("'" : Str)
  .valueError (("a tenant '" : Str) ++ state.text ++ ("' cannot have " : Str) ++ pending ++
    (" pending" : Str))

def jobMoved (tenant : Str) : Refusal :=
  .fenceMissed (("tenant " : Str) ++ tenant ++ ("'s job moved since the step started" : Str))

/-- `_Held.commit`, for a hold that is not spent and last saw the record `seen`. -/
def commit (rows : TenantRows) (seen : TenantRecord) (commit : Commit) :
    Except Refusal TenantRows :=
  if !fenceHolds rows.record seen then
    .error (jobMoved seen.id)
  else
    let after := commit.recordAfter rows.record
    if !allowedPair after.state after.pendingAction then
      .error (pairRefused after.state after.pendingAction)
    else do
      let generations ← changedGenerations seen.id rows.generations commit
      let recorded := rows.wiring.or (commit.wiring.map fun wiring =>
        { wiring with tenantId := seen.id })
      pure {
        record := after
        generations
        wiring := if commit.dropWiring then none else recorded
        publish := if commit.dropPublishStatus then none else rows.publish }

/-- `_Held.fail`. -/
def fail (rows : TenantRows) (seen : TenantRecord) (failure : Str) (step : StepName)
    (actor : StepActor) : Except Refusal TenantRows :=
  if fenceHolds rows.record seen then
    .ok { rows with record :=
      { rows.record with step := some step, stepActor := some actor, failure := some failure } }
  else
    .error (jobMoved seen.id)

section Rows

variable {tenant : Str} {generations : List Generation} {entries : List (Str × GenerationFields)}

def fieldsSet (entries : List (Str × GenerationFields)) (held : Generation) : Generation :=
  match Dict.lookup held.salt entries with
  | none => held
  | some fields => fields.apply held

def rowAfter (commit : Commit) (held : Generation) : Generation :=
  let changed := fieldsSet commit.updateGenerations.entries held
  destroyed commit.destroy (match commit.goLive with
    | none => changed
    | some salt => wentLive salt changed)

@[simp] theorem fields_set_salt (held : Generation) :
    (fieldsSet entries held).salt = held.salt := by
  unfold fieldsSet
  cases Dict.lookup held.salt entries <;> rfl

@[simp] theorem fields_set_status (held : Generation) :
    (fieldsSet entries held).status = held.status := by
  unfold fieldsSet
  cases Dict.lookup held.salt entries <;> rfl

@[simp] theorem went_live_salt (goLive : Str) (held : Generation) :
    (wentLive goLive held).salt = held.salt := by
  unfold wentLive
  split_ifs <;> rfl

@[simp] theorem destroyed_salt (destroy : Destroy) (held : Generation) :
    (destroyed destroy held).salt = held.salt := by
  unfold destroyed
  cases destroy with
  | all => rfl
  | named salts => simp only; split_ifs <;> rfl

@[simp] theorem row_after_salt (commit : Commit) (held : Generation) :
    (rowAfter commit held).salt = held.salt := by
  unfold rowAfter
  cases commit.goLive with
  | none => rw [destroyed_salt, fields_set_salt]
  | some salt => rw [destroyed_salt, went_live_salt, fields_set_salt]

theorem salts_map {change : Generation → Generation}
    (keeps : ∀ held, (change held).salt = held.salt) (generations : List Generation) :
    saltsOf (generations.map change) = saltsOf generations := by
  unfold saltsOf
  rw [List.map_map]
  exact List.map_congr_left fun held _ => keeps held

theorem updated_rows (known : ∀ entry ∈ entries, entry.1 ∈ saltsOf generations)
    (apart : (entries.map Prod.fst).Nodup) :
    updated generations entries = .ok (generations.map (fieldsSet entries)) := by
  induction entries generalizing generations with
  | nil =>
    have same : generations.map (fieldsSet []) = generations := List.map_id _
    rw [same]
    rfl
  | cons entry rest ih =>
    obtain ⟨salt, fields⟩ := entry
    have here : salt ∈ saltsOf generations := known (salt, fields) List.mem_cons_self
    have fresh : salt ∉ rest.map Prod.fst := (List.nodup_cons.mp apart).1
    let change : Generation → Generation := fun held =>
      if held.salt = salt then fields.apply held else held
    have keeps : ∀ held, (change held).salt = held.salt := by
      intro held
      show (if _ then _ else _ : Generation).salt = _
      split_ifs <;> rfl
    have first : updateOne generations salt fields = .ok (generations.map change) :=
      if_pos here
    have others := @ih (generations.map change)
      (fun entry member => by
        rw [salts_map keeps]
        exact known entry (List.mem_cons_of_mem _ member))
      (List.nodup_cons.mp apart).2
    have done : updated generations ((salt, fields) :: rest) =
        (updateOne generations salt fields >>= fun changed => updated changed rest) := rfl
    rw [done, first]
    show updated (generations.map change) rest = _
    rw [others, List.map_map]
    refine congrArg Except.ok (List.map_congr_left fun held _ => ?_)
    show fieldsSet rest (change held) = fieldsSet ((salt, fields) :: rest) held
    by_cases same : held.salt = salt
    · have unnamed : Dict.lookup held.salt rest = none := by
        have absent := (Dict.lookup_isSome_iff held.salt rest).not.mpr (same ▸ fresh)
        exact Option.not_isSome_iff_eq_none.mp absent
      have chosen : change held = fields.apply held := if_pos same
      rw [chosen]
      unfold fieldsSet
      rw [apply_salt, unnamed]
      simp [Dict.lookup, same]
    · have passed : change held = held := if_neg same
      rw [passed]
      unfold fieldsSet
      simp [Dict.lookup, Ne.symm same]

/-- The generations before any field is set: the stored ones and the new one. -/
def grown (tenant : Str) (generations : List Generation) (commit : Commit) : List Generation :=
  generations ++ (commit.addGeneration.map fun add => { add with tenantId := tenant }).toList

theorem mem_salts_grown {commit : Commit} {salt : Str} (held : salt ∈ saltsOf generations) :
    salt ∈ saltsOf (grown tenant generations commit) := by
  unfold grown saltsOf
  rw [List.map_append]
  exact List.mem_append_left _ held

/-- What `_changed_generations` answers once no name is wrong. -/
theorem changed_rows (tenant : Str) {commit : Commit}
    (fresh : ∀ add, commit.addGeneration = some add → add.salt ∉ saltsOf generations)
    (updates : ∀ salt ∈ commit.updateGenerations.keys, salt ∈ saltsOf generations)
    (live : ∀ salt, commit.goLive = some salt → salt ∈ saltsOf generations) :
    changedGenerations tenant generations commit =
      (let after := (grown tenant generations commit).map (rowAfter commit)
      if (liveOf after).length > 1 then
        .error (.valueError (("tenant " : Str) ++ tenant ++
          (" would have two live generations" : Str)))
      else
        .ok after) := by
  have entered : added tenant generations commit.addGeneration =
      .ok (grown tenant generations commit) := by
    unfold added grown
    cases adds : commit.addGeneration with
    | none =>
      exact congrArg Except.ok (List.append_nil _).symm
    | some add =>
      exact if_neg (fresh add adds)
  have known : ∀ entry ∈ commit.updateGenerations.entries,
      entry.1 ∈ saltsOf (grown tenant generations commit) := by
    intro entry member
    exact mem_salts_grown (updates entry.1 (List.mem_map_of_mem member))
  have set := updated_rows known commit.updateGenerations.nodup
  have moved : moveStatuses ((grown tenant generations commit).map
        (fieldsSet commit.updateGenerations.entries)) commit.goLive commit.destroy =
      .ok ((grown tenant generations commit).map (rowAfter commit)) := by
    unfold moveStatuses
    cases lives : commit.goLive with
    | none =>
      simp only [List.map_map]
      refine congrArg Except.ok (List.map_congr_left fun held _ => ?_)
      simp only [Function.comp_apply, rowAfter, lives]
    | some salt =>
      have here : salt ∈ saltsOf ((grown tenant generations commit).map
          (fieldsSet commit.updateGenerations.entries)) := by
        rw [salts_map fields_set_salt]
        exact mem_salts_grown (live salt lives)
      simp only [if_pos here, List.map_map]
      refine congrArg Except.ok (List.map_congr_left fun held _ => ?_)
      simp only [Function.comp_apply, rowAfter, lives]
  have done : changedGenerations tenant generations commit =
      (added tenant generations commit.addGeneration >>= fun grown =>
        updated grown commit.updateGenerations.entries >>= fun changed =>
        moveStatuses changed commit.goLive commit.destroy >>= fun moved =>
        if (liveOf moved).length > 1 then
          .error (.valueError (("tenant " : Str) ++ tenant ++
            (" would have two live generations" : Str)))
        else .ok moved) := rfl
  rw [done, entered]
  show (updated (grown tenant generations commit) commit.updateGenerations.entries >>= _) = _
  rw [set]
  show (moveStatuses _ _ _ >>= _) = _
  rw [moved]
  rfl

theorem updated_named {changed : List Generation} (done : updated generations entries = .ok changed) :
    ∀ entry ∈ entries, entry.1 ∈ saltsOf generations := by
  induction entries generalizing generations with
  | nil =>
    intro entry member
    cases member
  | cons entry rest ih =>
    have split : updated generations (entry :: rest) =
        (updateOne generations entry.1 entry.2 >>= fun changed => updated changed rest) := rfl
    rw [split] at done
    unfold updateOne at done
    by_cases here : entry.1 ∈ saltsOf generations
    · rw [if_pos here] at done
      have keeps : ∀ held : Generation,
          (if held.salt = entry.1 then entry.2.apply held else held).salt = held.salt := by
        intro held
        split_ifs <;> rfl
      have others := ih done
      rw [salts_map keeps] at others
      intro other member
      rcases List.mem_cons.mp member with rfl | later
      · exact here
      · exact others other later
    · rw [if_neg here] at done
      cases done

/-- What a commit that was not refused says of its names and of the rows it leaves. -/
structure Landed (rows : TenantRows) (seen : TenantRecord) (commit : Commit)
    (after : TenantRows) : Prop where
  fence : fenceHolds rows.record seen = true
  pair : allowedPair after.record.state after.record.pendingAction = true
  record : after.record = commit.recordAfter rows.record
  generations : after.generations = (grown seen.id rows.generations commit).map (rowAfter commit)
  fresh : ∀ add, commit.addGeneration = some add → add.salt ∉ saltsOf rows.generations

theorem commit_landed {rows after : TenantRows} {seen : TenantRecord} {records : Commit}
    (landed : commit rows seen records = .ok after) : Landed rows seen records after := by
  unfold commit at landed
  by_cases fence : fenceHolds rows.record seen = true
  · simp only [fence, Bool.not_true, Bool.false_eq_true, if_false] at landed
    by_cases pair : allowedPair (records.recordAfter rows.record).state
        (records.recordAfter rows.record).pendingAction = true
    · simp only [pair, Bool.not_true, Bool.false_eq_true, if_false] at landed
      cases changed : changedGenerations seen.id rows.generations records with
      | error why =>
        rw [changed] at landed
        cases landed
      | ok generations =>
        rw [changed] at landed
        have made := Except.ok.inj landed
        unfold changedGenerations at changed
        have fresh : ∀ add, records.addGeneration = some add →
            add.salt ∉ saltsOf rows.generations := by
          intro add adds there
          unfold added at changed
          rw [adds] at changed
          simp only [if_pos there] at changed
          cases changed
        have entered : added seen.id rows.generations records.addGeneration =
            .ok (grown seen.id rows.generations records) := by
          unfold added grown
          cases adds : records.addGeneration with
          | none => exact congrArg Except.ok (List.append_nil _).symm
          | some add => exact if_neg (fresh add adds)
        rw [entered] at changed
        have changed : (updated (grown seen.id rows.generations records)
            records.updateGenerations.entries >>= fun changed =>
          moveStatuses changed records.goLive records.destroy >>= fun moved =>
          if (liveOf moved).length > 1 then
            .error (.valueError (("tenant " : Str) ++ seen.id ++
              (" would have two live generations" : Str)))
          else .ok moved) = Except.ok generations := changed
        cases set : updated (grown seen.id rows.generations records)
            records.updateGenerations.entries with
        | error why =>
          rw [set] at changed
          cases changed
        | ok fielded =>
          have known := updated_named set
          rw [updated_rows known records.updateGenerations.nodup] at set
          rw [updated_rows known records.updateGenerations.nodup] at changed
          have moved : moveStatuses ((grown seen.id rows.generations records).map
                (fieldsSet records.updateGenerations.entries)) records.goLive records.destroy =
              .ok ((grown seen.id rows.generations records).map (rowAfter records)) ∨
              ∃ salt, moveStatuses ((grown seen.id rows.generations records).map
                (fieldsSet records.updateGenerations.entries)) records.goLive records.destroy =
              .error (.keyError salt) := by
            unfold moveStatuses
            cases lives : records.goLive with
            | none =>
              left
              simp only [List.map_map]
              refine congrArg Except.ok (List.map_congr_left fun held _ => ?_)
              simp only [Function.comp_apply, rowAfter, lives]
            | some salt =>
              by_cases here : salt ∈ saltsOf ((grown seen.id rows.generations records).map
                  (fieldsSet records.updateGenerations.entries))
              · left
                simp only [if_pos here, List.map_map]
                refine congrArg Except.ok (List.map_congr_left fun held _ => ?_)
                simp only [Function.comp_apply, rowAfter, lives]
              · right
                exact ⟨salt, if_neg here⟩
          have last : (moveStatuses ((grown seen.id rows.generations records).map
                (fieldsSet records.updateGenerations.entries)) records.goLive records.destroy >>=
              fun moved =>
              if (liveOf moved).length > 1 then
                .error (.valueError (("tenant " : Str) ++ seen.id ++
                  (" would have two live generations" : Str)))
              else .ok moved) = Except.ok generations := changed
          rcases moved with moved | ⟨salt, moved⟩
          · rw [moved] at last
            have last : (if (liveOf ((grown seen.id rows.generations records).map
                  (rowAfter records))).length > 1 then
                (Except.error (.valueError (("tenant " : Str) ++ seen.id ++
                  (" would have two live generations" : Str))) : Except Refusal _)
              else .ok ((grown seen.id rows.generations records).map (rowAfter records))) =
                .ok generations := last
            split_ifs at last
            have rows_left := Except.ok.inj last
            exact {
              fence
              pair := by rw [← made]; exact pair
              record := by rw [← made]
              generations := by rw [← made]; exact rows_left.symm
              fresh }
          · rw [moved] at last
            cases last
    · have bad : allowedPair (records.recordAfter rows.record).state
          (records.recordAfter rows.record).pendingAction = false := by simpa using pair
      simp only [bad, Bool.not_false, if_true] at landed
      cases landed
  · have missed : fenceHolds rows.record seen = false := by simpa using fence
    simp only [missed, Bool.not_false, if_true] at landed
    cases landed

end Rows

end Memory

end Defender.Tenancy
