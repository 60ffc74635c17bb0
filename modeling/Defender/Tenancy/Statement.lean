import Defender.Tenancy.Records

/-!
# The statement of a commit

One fenced write of the PostgreSQL store: the tenant row's update as the part every
other part acts on, and a part for each change of the generations. All parts read the
rows as they were before the statement. The order in which rows of different parts are
written is not fixed, save that a part which counts another part's rows waits for it;
each written row is held against the constraints as it is written.
-/

namespace Defender.Tenancy

open Defender.Python Defender.Library.OrderedDict

namespace Statement

/-- The columns one part sets of a generation row. -/
structure RowChange where
  fields : GenerationFields := {}
  status : Option GenerationStatus := none
  deriving DecidableEq, Repr

def RowChange.apply (change : RowChange) (row : Generation) : Generation :=
  { change.fields.apply row with status := change.status.getD row.status }

inductive Part where
  | newGeneration (row : Generation)
  | retire (named : List Str)
  | destroy (kept : List Str)
  | generation (salt : Str) (change : RowChange) (waits : Bool)
  deriving DecidableEq, Repr

def updatesOf (commit : Commit) : Dict Str RowChange :=
  .ofList (commit.updateGenerations.entries.map fun entry => (entry.1, { fields := entry.2 }))

def liveChanges (commit : Commit) : Dict Str RowChange :=
  match commit.goLive with
  | none => updatesOf commit
  | some salt =>
    (updatesOf commit).modify salt {} fun change => { change with status := some .live }

/-- `changes`: what the commit sets of each generation it names. -/
def changesOf (commit : Commit) : Dict Str RowChange :=
  match commit.destroy with
  | .all => liveChanges commit
  | .named salts =>
    salts.foldl (fun changes salt =>
      changes.modify salt {} fun change => { change with status := some .destroyed })
        (liveChanges commit)

def named (commit : Commit) : List Str := sorted (changesOf commit).keys

/-- The changes left once the new generation's own has gone into its row. -/
def otherChanges (commit : Commit) : Dict Str RowChange :=
  match commit.addGeneration with
  | none => changesOf commit
  | some add => (changesOf commit).erase add.salt

/-- A part with no column to set: PostgreSQL does not parse its `SET  WHERE`. -/
def RowChange.setsNothing (change : RowChange) : Bool := decide (change = {})

def unparsed (commit : Commit) : Bool :=
  (otherChanges commit).values.any RowChange.setsNothing

def newRow (tenant : Str) (commit : Commit) (add : Generation) : Generation :=
  { (((changesOf commit).get? add.salt).getD {}).apply add with tenantId := tenant }

/-- The parts `_Statement.generations` makes. -/
def partsOf (tenant : Str) (commit : Commit) : List Part :=
  (commit.addGeneration.map fun add => Part.newGeneration (newRow tenant commit add)).toList ++
    (if commit.goLive.isSome then [.retire (named commit)] else []) ++
    (if commit.destroy = .all then [.destroy (named commit)] else []) ++
    (otherChanges commit).entries.map fun entry =>
      .generation entry.1 entry.2 (commit.goLive = some entry.1)

inductive Write where
  | insert (row : Generation)
  | replace (row : Generation)
  deriving DecidableEq, Repr

def Part.writes (snapshot : List Generation) : Part → List Write
  | .newGeneration row => [.insert row]
  | .retire named =>
    (snapshot.filter fun row => row.status = .live && !decide (row.salt ∈ named)).map fun row =>
      .replace { row with status := .retiring }
  | .destroy kept =>
    (snapshot.filter fun row => row.status ≠ .destroyed && !decide (row.salt ∈ kept)).map
      fun row => .replace { row with status := .destroyed }
  | .generation salt change _ =>
    (snapshot.filter fun row => row.salt = salt).map fun row => .replace (change.apply row)

def put (table : List Generation) : Write → List Generation
  | .insert row => table ++ [row]
  | .replace row => table.map fun held => if held.salt = row.salt then row else held

/-- The primary key, the CHECK on `status` and the index `generations_one_live`. -/
def constraintsHold (table : List Generation) : Bool :=
  decide (saltsOf table).Nodup && table.all (·.status.known) &&
    decide ((liveOf table).length ≤ 1)

def writeAll (table : List Generation) : List Write → Option (List Generation)
  | [] => some table
  | write :: rest =>
    let next := put table write
    if constraintsHold next then writeAll next rest else none

/-- An order in which the rows may be written: every part's rows, a waiting part's
after those of the part it counts. -/
structure Schedule (snapshot : List Generation) (parts : List Part) (order : List Write) :
    Prop where
  perm : order.Perm (parts.flatMap (Part.writes snapshot))
  waits : ∀ salt change, .generation salt change true ∈ parts →
    ∀ named, .retire named ∈ parts →
    ∀ write ∈ Part.writes snapshot (.generation salt change true),
    ∀ before after, order = before ++ write :: after →
      Part.writes snapshot (.retire named) ⊆ before

/-- A text PostgreSQL can hold: one without NUL. -/
def storable (text : Str) : Bool := decide (Char.ofNat 0 ∉ text)

end Statement

section Texts

variable {Value : Type}

def StepName.texts : StepName → List Str
  | .other name => [name]
  | _ => []

def GenerationFields.texts (fields : GenerationFields) : List Str :=
  ([fields.botLogin, fields.oidcRole, fields.approle, fields.entity].flatMap Change.written) ++
    (fields.integrationArgs.written.flatMap fun args => args.getD []) ++
    ([fields.roleId, fields.audience, fields.hostSecretFile, fields.wrappedSecret,
      fields.secretAccessor, fields.signApprole, fields.signEntity, fields.signRoleId,
      fields.signSecretFile, fields.signWrappedSecret, fields.signSecretAccessor].flatMap
        Change.written).flatMap Option.toList

def Generation.texts (row : Generation) : List Str :=
  [row.salt, row.botLogin, row.oidcRole, row.approle, row.entity] ++
    row.integrationArgs.getD [] ++
    ([row.roleId, row.audience, row.hostSecretFile, row.wrappedSecret, row.secretAccessor,
      row.signApprole, row.signEntity, row.signRoleId, row.signSecretFile,
      row.signWrappedSecret, row.signSecretAccessor].flatMap Option.toList)

/-- The texts a commit hands the store; those of an enumeration are its CHECK's business. -/
def Commit.texts (commit : Commit) : List Str :=
  commit.step.toList.flatMap StepName.texts ++
    (commit.repoUrl.written.flatMap Option.toList) ++
    commit.addGeneration.toList.flatMap Generation.texts ++
    commit.updateGenerations.values.flatMap GenerationFields.texts ++
    (commit.wiring.toList.flatMap fun wiring => [wiring.repo, wiring.origin])

end Texts

namespace Statement

def refused (tenant : Str) : Refusal :=
  .valueError (("the database refused the write for tenant " : Str) ++ tenant)

def bothAsked : Refusal :=
  .valueError ("a commit cannot both make a generation live and destroy every one" : Str)

def jobMoved (tenant : Str) : Refusal :=
  .fenceMissed (("tenant " : Str) ++ tenant ++
    ("'s job moved since the step started, or its lock is lost" : Str))

/-- The forge wiring as the statement leaves it: the insert does nothing on a conflict, and
the delete sees only a row that was there. -/
def wiringAfter (tenant : Str) (held : Option ForgeWiring) (commit : Commit) :
    Option ForgeWiring :=
  match held with
  | some wiring => if commit.dropWiring then none else some wiring
  | none => commit.wiring.map fun wiring => { wiring with tenantId := tenant }

/-- `_Held.commit` of the PostgreSQL store: `locked` is whether this session still holds the
tenant's lock, `order` the order in which the generation rows happen to be written. -/
def commit (rows : TenantRows) (seen : TenantRecord) (locked : Bool) (commit : Commit)
    (order : List Write) : Except Refusal TenantRows :=
  if commit.goLive.isSome && commit.destroy = .all then
    .error bothAsked
  else if unparsed commit then
    .error (refused seen.id)
  else if !(commit.texts ++ named commit).all storable then
    .error (refused seen.id)
  else if !(rows.record.id = seen.id && fenceHolds rows.record seen && locked) then
    .error (jobMoved seen.id)
  else
    let after := commit.recordAfter rows.record
    if !(allowedPair after.state after.pendingAction && after.stepActor.all StepActor.known) then
      .error (refused seen.id)
    else
      match writeAll rows.generations order with
      | none => .error (refused seen.id)
      | some generations =>
        .ok {
          record := after
          generations
          wiring := wiringAfter rows.record.id rows.wiring commit
          publish := if commit.dropPublishStatus then none else rows.publish }

end Statement

end Defender.Tenancy
