import Defender.Lifecycle.SweepSpec
import Defender.Lifecycle.CensusSteps

/-!
# The building steps do outside only what they may

What each commit leaves of the names, then the steps of a building: they make what the
pending generation names and the tenant's key, and commit no other name.
-/

namespace Defender.Lifecycle

open Defender.Python Defender.Tenancy Defender.Library.Programs
open Defender.Library.OrderedDict

section Names

variable {tenant : Str} {held : Generation} {records : Commit}

/-- A commit that sets no field a thing is named by. -/
def NamesNothing (records : Commit) : Prop :=
  ∀ held, naming (Memory.fieldsSet records.updateGenerations.entries held) = naming held

theorem no_fields_keep (none_set : records.updateGenerations.entries = []) :
    NamesNothing records := by
  intro held
  rw [none_set]
  rfl

theorem fields_keep (salt : Str) (fields : GenerationFields)
    (set : records.updateGenerations.entries = [(salt, fields)])
    (same : ∀ held, naming (fields.apply held) = naming held) : NamesNothing records := by
  intro held
  rw [set]
  unfold Memory.fieldsSet Dict.lookup
  split_ifs
  · exact same held
  · rfl

theorem row_after_naming (records : Commit) (held : Generation) :
    naming (Memory.rowAfter records held) =
      naming (Memory.fieldsSet records.updateGenerations.entries held) := by
  have ended : ∀ base, naming (Memory.destroyed records.destroy base) = naming base := by
    intro base
    cases records.destroy with
    | all => rfl
    | named salts =>
      simp only [Memory.destroyed]
      split_ifs <;> rfl
  unfold Memory.rowAfter
  rw [ended]
  cases records.goLive with
  | none => rfl
  | some salt =>
    simp only [Memory.wentLive]
    split_ifs <;> rfl

/-- What a commit leaves of a generation's names: those it had, and others only where the
generation is not destroyed by it. -/
structure KeepsNames (tenant : Str) (records : Commit) (held : Generation) : Prop where
  named : WellNamed tenant (Memory.rowAfter records held)
  stays : ∀ thing ∈ thingsOf held, thing ∈ thingsOf (Memory.rowAfter records held)
  destroyed : (Memory.rowAfter records held).status = .destroyed →
    thingsOf (Memory.rowAfter records held) = thingsOf held

theorem names_kept
    (nothing : naming (Memory.fieldsSet records.updateGenerations.entries held) = naming held)
    (named : WellNamed tenant held) : KeepsNames tenant records held := by
  have same : naming (Memory.rowAfter records held) = naming held :=
    (row_after_naming records held).trans nothing
  exact {
    named := named.renamed same
    stays := by
      rw [things_named same]
      exact fun _ listed => listed
    destroyed := fun _ => things_named same }

end Names

section Commits

variable {tenant : Str} {sure : Sure} {rows after : TenantRows} {records : Commit}

structure Base (tenant : Str) (sure : Sure) : Prop where
  id : sure.record.id = tenant
  apart : (saltsOf sure.generations).Nodup
  named : ∀ held ∈ sure.generations, WellNamed tenant held

theorem Base.kept (base : Base tenant sure) (nothing : NamesNothing records) :
    ∀ was ∈ sure.generations, KeepsNames tenant records was :=
  fun was stored => names_kept (nothing was) (base.named was stored)

theorem commit_leaves (generations : rows.generations = sure.generations)
    (landed : Memory.Landed rows sure.record records after)
    (keeps : ∀ was ∈ sure.generations, KeepsNames tenant records was)
    (adds : ∀ add, records.addGeneration = some add →
      WellNamed tenant (Memory.rowAfter records { add with tenantId := sure.record.id }) ∧
      (Memory.rowAfter records { add with tenantId := sure.record.id }).status ≠ .destroyed)
    (destroys : ∀ was ∈ sure.generations,
      (Memory.rowAfter records was).status = .destroyed →
      was.status = .destroyed ∨ ∀ thing ∈ thingsOf was, sure.absent thing)
    (offboarded : after.record.state = .offboarded →
      sure.record.state = .offboarded ∨ sure.absent (.signingKey tenant)) :
    Leaves tenant sure after := by
  have entered : ∀ held ∈ after.generations,
      (∃ was ∈ sure.generations, held = Memory.rowAfter records was) ∨
      ∃ add, records.addGeneration = some add ∧
        held = Memory.rowAfter records { add with tenantId := sure.record.id } := by
    intro held member
    rw [landed.generations] at member
    obtain ⟨was, grown, rfl⟩ := List.mem_map.mp member
    unfold Memory.grown at grown
    rw [generations] at grown
    cases List.mem_append.mp grown with
    | inl stored => exact .inl ⟨was, stored, rfl⟩
    | inr new =>
      cases added : records.addGeneration with
      | none =>
        rw [added] at new
        cases new
      | some add =>
        rw [added] at new
        exact .inr ⟨add, rfl, by rw [List.mem_singleton.mp new]⟩
  exact {
    named := by
      intro held member
      rcases entered held member with ⟨was, stored, rfl⟩ | ⟨add, added, rfl⟩
      · exact (keeps was stored).named
      · exact (adds add added).1
    kept := by
      intro was stored
      refine ⟨Memory.rowAfter records was, ?_, (keeps was stored).stays⟩
      rw [landed.generations]
      apply List.mem_map_of_mem
      unfold Memory.grown
      rw [generations]
      exact List.mem_append_left _ stored
    destroyed := by
      intro held member gone
      rcases entered held member with ⟨was, stored, rfl⟩ | ⟨add, added, rfl⟩
      · have same := (keeps was stored).destroyed gone
        rw [same]
        exact (destroys was stored gone).imp_left fun already => ⟨was, stored, already, rfl⟩
      · exact absurd gone (adds add added).2
    offboarded }

theorem idle_leaves (state : rows.record.state = sure.record.state)
    (generations : rows.generations = sure.generations)
    (landed : Memory.Landed rows sure.record records after) (idle : Idle records)
    (keeps : ∀ was ∈ sure.generations, KeepsNames tenant records was)
    (onward : records.state = .keep ∨ records.state = .to .active) :
    Leaves tenant sure after := by
  apply commit_leaves generations landed keeps
  · intro add added
    rw [idle.adds] at added
    cases added
  · intro was _ gone
    rw [row_after_idle idle.goes idle.spares] at gone
    exact .inl gone
  · intro gone
    have is : after.record.state = records.state.over rows.record.state := by
      rw [landed.record]
      rfl
    rw [is] at gone
    cases onward with
    | inl kept =>
      rw [kept] at gone
      exact .inl (state.symm.trans gone)
    | inr active =>
      rw [active] at gone
      cases gone

theorem Leaves.base (leaves : Leaves tenant sure after)
    (landed : Memory.Landed rows sure.record records after)
    (id : rows.record.id = tenant) (apart : (saltsOf rows.generations).Nodup)
    (absent : Thing → Prop) : Base tenant ⟨after.record, after.generations, absent⟩ where
  id := by
    show after.record.id = tenant
    rw [landed.record]
    exact id
  apart := landed_apart landed apart
  named := leaves.named

variable {before : Sure → Prop}

theorem commit_next_sweeps
    (leaves : ∀ sure rows after step actor, before sure →
      rows.record.state = sure.record.state → rows.generations = sure.generations →
      Memory.Landed rows sure.record { records with step, actor } after →
      Leaves tenant sure after) :
    Sweeps tenant before (commitNext records) (fun _ _ => True) := by
  apply (quiet_sweeps (quiet_next_step (sweep_calls tenant))).bind
  intro next sure start
  refine ⟨fun _ => trivial, ?_⟩
  intro rows after _ state generations landed
  exact ⟨leaves sure rows after _ _ start state generations landed, trivial⟩

theorem commit_sweeps
    (leaves : ∀ sure rows after, before sure → rows.record.state = sure.record.state →
      rows.generations = sure.generations → Memory.Landed rows sure.record records after →
      Leaves tenant sure after) :
    Sweeps tenant before (commit records) (fun _ _ => True) := by
  intro sure start
  refine ⟨fun _ => trivial, ?_⟩
  intro rows after _ state generations landed
  exact ⟨leaves sure rows after start state generations landed, trivial⟩

theorem commit_next_idle_sweeps (starts : ∀ sure, before sure → Base tenant sure)
    (idle : Idle records) (nothing : NamesNothing records)
    (onward : records.state = .keep ∨ records.state = .to .active) :
    Sweeps tenant before (commitNext records) (fun _ _ => True) :=
  commit_next_sweeps fun sure _ _ _ _ start state generations landed =>
    idle_leaves state generations landed ⟨idle.adds, idle.goes, idle.spares⟩
      ((starts sure start).kept nothing) onward

theorem commit_idle_sweeps (starts : ∀ sure, before sure → Base tenant sure)
    (idle : Idle records) (nothing : NamesNothing records)
    (onward : records.state = .keep ∨ records.state = .to .active) :
    Sweeps tenant before (commit records) (fun _ _ => True) :=
  commit_sweeps fun sure _ _ start state generations landed =>
    idle_leaves state generations landed idle ((starts sure start).kept nothing) onward

end Commits

section Building

variable {tenant : Str} {generation : Generation}

/-- A tenant whose names are in order and that is not offboarded. -/
structure Ready (tenant : Str) (sure : Sure) : Prop where
  base : Base tenant sure
  standing : sure.record.state ≠ .offboarded

/-- Such a tenant with a generation it is building. -/
structure Erects (tenant : Str) (generation : Generation) (sure : Sure) : Prop where
  ready : Ready tenant sure
  here : generation ∈ sure.generations
  pending : generation.status = .pending

theorem ready_steady : Steady (Ready tenant) :=
  fun _ _ ready => ⟨⟨ready.base.id, ready.base.apart, ready.base.named⟩, ready.standing⟩

theorem erects_steady : Steady (Erects tenant generation) :=
  fun sure absent erects => ⟨ready_steady sure absent erects.ready, erects.here, erects.pending⟩

def Made (tenant : Str) (generation : Generation) (thing : Thing) : Prop :=
  thing = .signingKey tenant ∨ thing ∈ thingsOf generation

theorem made_read {thing : Thing} (made : Made tenant generation thing) (ok : List Nat) :
    Sweeps tenant (Erects tenant generation) (readThing thing ok)
      (fun _ => Erects tenant generation) :=
  read_steady erects_steady ok fun _ erects =>
    made.imp_right fun listed => ⟨generation, erects.here, listed⟩

theorem made_write {thing : Thing} (made : Made tenant generation thing) :
    Sweeps tenant (Erects tenant generation) (writeThing thing)
      (fun _ => Erects tenant generation) :=
  write_steady erects_steady fun _ erects => ⟨erects.ready.standing,
    made.imp_right fun listed => ⟨generation, erects.here, erects.pending, listed⟩⟩

theorem only_found {found : List Generation} {status : GenerationStatus} {one : Generation}
    (answered : only found status = .ok one) : one ∈ found ∧ one.status = status := by
  unfold only at answered
  split at answered
  · rename_i alone
    have same := Except.ok.inj answered
    subst same
    have member : _ ∈ found.filter (·.status = status) := alone ▸ List.mem_singleton_self _
    exact ⟨(List.mem_filter.mp member).1, of_decide_eq_true (List.mem_filter.mp member).2⟩
  · cases answered

theorem only_alone {found : List Generation} {status : GenerationStatus} {one : Generation}
    (answered : only found status = .ok one) :
    ∀ held ∈ found, held.status = status → held = one := by
  intro held member is
  unfold only at answered
  split at answered
  · rename_i alone
    have kept : held ∈ found.filter (·.status = status) :=
      List.mem_filter.mpr ⟨member, decide_eq_true is⟩
    rw [alone] at kept
    exact (List.mem_singleton.mp kept).trans (Except.ok.inj answered)
  · cases answered

theorem only_pending_sweeps {listed : List Generation} :
    Sweeps tenant (fun sure => Ready tenant sure ∧ listed.Perm sure.generations)
      (onlyOne listed .pending) (fun found => Erects tenant found) := by
  intro sure start
  show holds _ _ _ (orFailed (only listed .pending)) sure
  cases answered : only listed .pending with
  | error why => exact trivial
  | ok found =>
    obtain ⟨member, pending⟩ := only_found answered
    exact ⟨start.1, start.2.mem_iff.mp member, pending⟩

theorem listing_sweeps {before : Sure → Prop} :
    Sweeps tenant before generations
      (fun listed sure => before sure ∧ listed.Perm sure.generations) :=
  fun _ start _ same => ⟨start, same⟩

theorem building_sweeps :
    Sweeps tenant (Ready tenant) Service.building (fun found => Erects tenant found) :=
  listing_sweeps.bind fun _ => only_pending_sweeps

/-- What `commitHere` records. -/
def noted (step : Option StepName) (salt : Str) (fields : GenerationFields) : Commit :=
  { step, actor := some .service, updateGenerations := .ofList [(salt, fields)] }

theorem commit_here_sweeps {before : Sure → Prop} (salt : Str) (fields : GenerationFields)
    (starts : ∀ sure, before sure → Ready tenant sure)
    (keeps : ∀ sure, before sure → ∀ was ∈ sure.generations,
      KeepsNames tenant (noted sure.record.step salt fields) was) :
    Sweeps tenant before (Service.commitHere salt fields)
      (fun _ sure => Ready tenant sure ∧ ∃ earlier, before earlier ∧
        sure.generations =
          earlier.generations.map (Memory.rowAfter (noted earlier.record.step salt fields))) := by
  intro sure start
  have ready := starts sure start
  refine ⟨fun _ => trivial, ?_⟩
  intro rows after id state generations landed
  have leaves := idle_leaves state generations landed ⟨rfl, rfl, rfl⟩ (keeps sure start)
    (.inl rfl)
  have base := leaves.base landed (id.trans ready.base.id)
    (generations.symm ▸ ready.base.apart) sure.absent
  have same : after.record.state = sure.record.state := by
    rw [landed.record]
    exact state
  refine ⟨leaves, ⟨base, fun gone => ready.standing (same.symm.trans gone)⟩, sure, start, ?_⟩
  show after.generations = _
  rw [landed.generations, grown_none rfl, generations]
  rfl

theorem noted_fields (step : Option StepName) (fields : GenerationFields) (held : Generation) :
    naming (Memory.rowAfter (noted step held.salt fields) held) =
      naming (fields.apply held) := by
  rw [row_after_naming]
  show naming (Memory.fieldsSet [(held.salt, fields)] held) = _
  unfold Memory.fieldsSet Dict.lookup
  rw [if_pos rfl]

theorem signs_stay (named : WellNamed tenant generation) {thing : Thing}
    (listed : thing ∈ thingsOf generation) :
    thing ∈ thingsOf ((Service.signNames tenant generation.salt).apply generation) := by
  rcases mem_things named listed with rfl | rfl | rfl | rfl | rfl | rfl <;>
    simp [thingsOf, Service.grantsOf, Service.signNames, GenerationFields.apply, Change.over,
      named.botLogin, named.oidcRole, named.approle, named.entity]

/-- Recording the sign names of the generation being built leaves every other's. -/
theorem sign_names_keep {sure : Sure} (erects : Erects tenant generation sure) :
    ∀ was ∈ sure.generations, KeepsNames tenant (noted sure.record.step generation.salt
      (Service.signNames tenant generation.salt)) was := by
  intro was stored
  have named := erects.ready.base.named was stored
  by_cases salt : generation.salt = was.salt
  · have one : was = generation := List.inj_on_of_nodup_map erects.ready.base.apart stored
      erects.here salt.symm
    subst one
    have recorded := noted_fields sure.record.step (Service.signNames tenant was.salt) was
    have signed : WellNamed tenant ((Service.signNames tenant was.salt).apply was) := {
      owner := named.owner, salt := named.salt, botLogin := named.botLogin,
      oidcRole := named.oidcRole, approle := named.approle, entity := named.entity,
      signApprole := fun _ is => (Option.some.inj is).symm
      signEntity := fun _ is => (Option.some.inj is).symm }
    exact {
      named := signed.renamed recorded
      stays := by
        rw [things_named recorded]
        exact fun _ listed => signs_stay named listed
      destroyed := by
        intro gone
        rw [row_after_idle rfl rfl, erects.pending] at gone
        cases gone }
  · apply names_kept _ named
    show naming (Memory.fieldsSet [(generation.salt, _)] was) = naming was
    unfold Memory.fieldsSet Dict.lookup
    rw [if_neg salt]
    rfl

/-- The one pending generation found is the one whose sign names were recorded. -/
theorem only_signed_sweeps {listed : List Generation} :
    Sweeps tenant (fun sure => (Ready tenant sure ∧ ∃ held ∈ sure.generations,
        held.status = .pending ∧ Signed held) ∧ listed.Perm sure.generations)
      (onlyOne listed .pending) (fun found sure => Erects tenant found sure ∧ Signed found) := by
  rintro sure ⟨⟨ready, held, stored, pending, signed⟩, same⟩
  show holds _ _ _ (orFailed (only listed .pending)) sure
  cases answered : only listed .pending with
  | error why => exact trivial
  | ok found =>
    obtain ⟨member, is⟩ := only_found answered
    refine ⟨⟨ready, same.mem_iff.mp member, is⟩, ?_⟩
    have alone := only_alone answered held (same.mem_iff.mpr stored) pending
    exact alone ▸ signed

theorem with_sign_names_sweeps :
    Sweeps tenant (Erects tenant generation) (Service.withSignNames tenant generation)
      (fun found sure => Erects tenant found sure ∧ Signed found) := by
  unfold Service.withSignNames
  split_ifs with recorded
  · exact fun _ erects => ⟨erects, recorded⟩
  · have recorded := commit_here_sweeps generation.salt
      (Service.signNames tenant generation.salt)
      (fun sure (erects : Erects tenant generation sure) => erects.ready)
      fun _ erects => sign_names_keep erects
    apply (recorded.weaken (fun _ erects => erects) _ fun _ _ failed => failed).bind
    · exact fun _ => listing_sweeps.bind fun _ => only_signed_sweeps
    · rintro _ sure ⟨ready, earlier, erects, noted⟩
      refine ⟨ready, _, noted ▸ List.mem_map_of_mem erects.here, ?_, ?_⟩
      · rw [row_after_idle rfl rfl]
        exact erects.pending
      · have same := noted_fields earlier.record.step
          (Service.signNames tenant generation.salt) generation
        simp only [naming, Prod.mk.injEq] at same
        unfold Signed
        rw [same.2.1, same.2.2]
        exact ⟨rfl, rfl⟩

theorem write_role_sweeps :
    Sweeps tenant (Erects tenant generation) (Service.writeRole generation)
      (fun _ => Erects tenant generation) := by
  apply Triple.ignore
  apply made_write
  right
  simp [thingsOf, Service.grantsOf]

theorem approle_sweeps {name : Str} (made : Made tenant generation (.approle name)) :
    Sweeps tenant (Erects tenant generation) (Service.approle name)
      (fun _ => Erects tenant generation) := by
  apply (made_write made).bind
  intro _
  apply quiet_sweeps
  exact quiet_bind (quiet_call_field (sweep_calls tenant) _ _ _ _) fun _ => quiet_done _

theorem entity_sweeps {name : Str} (made : Made tenant generation (.entity name))
    (roleId accessor : Str) :
    Sweeps tenant (Erects tenant generation) (Service.entity name roleId accessor)
      (fun _ => Erects tenant generation) := by
  apply (made_write made).bind
  intro _
  apply (made_read made []).bind
  intro response
  apply (quiet_sweeps (quiet_field _ _ _)).bind
  intro found
  apply quiet_sweeps
  split
  · exact quiet_fail _
  · simp only
    split_ifs
    · exact quiet_done _
    · exact quiet_fail _
    · exact quiet_bind (quiet_call (sweep_calls tenant) _ _ _) fun _ => quiet_done _

theorem ensure_thing_sweeps {thing : Thing} (made : Made tenant generation thing) :
    Sweeps tenant (Erects tenant generation) (Service.ensureThing thing)
      (fun _ => Erects tenant generation) := by
  apply (made_read made [404]).bind
  intro found
  split_ifs
  · exact (made_write made).ignore
  · exact fun _ erects => erects

theorem sign_chain_sweeps (signed : Signed generation) (accessor : Str) :
    Sweeps tenant (Erects tenant generation) (Service.signChain tenant generation accessor)
      (fun _ => Erects tenant generation) := by
  obtain ⟨signApprole, is_approle⟩ := Option.isSome_iff_exists.mp signed.1
  obtain ⟨signEntity, is_entity⟩ := Option.isSome_iff_exists.mp signed.2
  have approle : Made tenant generation
      (.approle (generation.signApprole.getD ("None" : Str))) := by
    right
    simp [thingsOf, Service.grantsOf, is_approle]
  have entity : Made tenant generation
      (.entity (generation.signEntity.getD ("None" : Str))) := by
    right
    simp [thingsOf, Service.grantsOf, is_entity]
  apply (approle_sweeps approle).bind
  intro signRoleId
  apply (entity_sweeps entity _ _).bind
  intro _
  apply (ensure_thing_sweeps (.inl rfl)).bind
  exact fun _ _ erects => erects

theorem with_sign_chain_sweeps :
    Sweeps tenant (Erects tenant generation) (Service.withSignChain tenant generation)
      (fun found => Erects tenant found) := by
  unfold Service.withSignChain
  split_ifs
  · exact fun _ erects => erects
  · apply with_sign_names_sweeps.bind
    rintro named sure ⟨erects, signed⟩
    refine Triple.bind (quiet_sweeps (quiet_approle_accessor (sweep_calls tenant)))
      (fun accessor => ?_) sure erects
    apply (sign_chain_sweeps signed accessor).bind
    intro signRoleId
    have kept : ∀ sure, Erects tenant named sure → ∀ was ∈ sure.generations,
        KeepsNames tenant (noted sure.record.step named.salt
          { signRoleId := .to (some signRoleId) }) was :=
      fun _ erects => erects.ready.base.kept (fields_keep _ _ rfl fun _ => rfl)
    apply ((commit_here_sweeps _ _ (fun _ erects => erects.ready) kept).weaken
      (fun _ erects => erects) (fun _ _ done => done.1) fun _ _ failed => failed).bind
    exact fun _ => building_sweeps

end Building

end Defender.Lifecycle
