import Defender.Lifecycle.QuietSteps
import Defender.Lifecycle.Census

/-!
# What a step may do outside

A worker is sure of its record, its tenant's generations, and of things it was told are
not there. It may make only what its pending generation names, and remove only what a
retiring generation names or, once the tenant is being offboarded, anything of its
tenant's. A commit destroys generations whose things it is sure are gone.

A generation has every name from its tenant's id and its salt; the sign names may not be
recorded yet. Ids and salts have one length each, so two generations name one thing only
when they are of one tenant and one salt, the bot apart: its login has the first eight
characters of the id.
-/

namespace Defender.Lifecycle

open Defender.Python Defender.Tenancy Defender.Library.Programs Defender.Library.OrderedDict

def thingsOf (generation : Generation) : List Thing :=
  .bot generation.botLogin :: Service.grantsOf generation

def idLength : Nat := 36

def saltLength : Nat := 8

/-- A generation recorded before there was a sign login has no sign names. -/
structure WellNamed (tenant : Str) (generation : Generation) : Prop where
  owner : generation.tenantId = tenant
  salt : generation.salt.length = saltLength
  botLogin : generation.botLogin = Service.botName tenant generation.salt
  oidcRole : generation.oidcRole = Service.chainName tenant generation.salt
  approle : generation.approle = Service.deliveryName tenant generation.salt
  entity : generation.entity = Service.chainName tenant generation.salt
  signApprole : ∀ name ∈ generation.signApprole,
    name = Service.signApproleName tenant generation.salt
  signEntity : ∀ name ∈ generation.signEntity,
    name = Service.signEntityName tenant generation.salt

/-- What a generation's things are named by. -/
def naming (generation : Generation) : List Str × Option Str × Option Str :=
  ([generation.tenantId, generation.salt, generation.botLogin, generation.oidcRole,
    generation.approle, generation.entity], generation.signApprole, generation.signEntity)

def Signed (generation : Generation) : Prop :=
  generation.signApprole.isSome ∧ generation.signEntity.isSome

section Names

variable {left right first second : Str}

theorem name_apart {head : Str} (length : left.length = right.length)
    (same : head ++ left ++ ("-" : Str) ++ first = head ++ right ++ ("-" : Str) ++ second) :
    left = right ∧ first = second := by
  simp only [List.append_assoc] at same
  have tails := List.append_cancel_left same
  obtain ⟨ids, rest⟩ := List.append_inj tails length
  exact ⟨ids, List.append_cancel_left rest⟩

theorem bot_salt (same : Service.botName left first = Service.botName left second) :
    first = second := by
  unfold Service.botName at same
  exact List.append_cancel_left same

theorem new_well_named (config : Config) {tenant salt : Str} (repo : Str)
    (length : salt.length = saltLength) :
    WellNamed tenant (Service.newGeneration config tenant salt repo) where
  owner := rfl
  salt := length
  botLogin := rfl
  oidcRole := rfl
  approle := rfl
  entity := rfl
  signApprole := fun _ recorded => (Option.some.inj recorded).symm
  signEntity := fun _ recorded => (Option.some.inj recorded).symm

variable {one other : Generation}

theorem things_named (same : naming other = naming one) : thingsOf other = thingsOf one := by
  simp only [naming, Prod.mk.injEq, List.cons.injEq, and_true] at same
  obtain ⟨⟨-, -, bot, role, approle, entity⟩, signApprole, signEntity⟩ := same
  unfold thingsOf Service.grantsOf
  rw [bot, role, approle, entity, signApprole, signEntity]

theorem WellNamed.renamed (named : WellNamed left one) (same : naming other = naming one) :
    WellNamed left other := by
  simp only [naming, Prod.mk.injEq, List.cons.injEq, and_true] at same
  obtain ⟨⟨owner, salt, bot, role, approle, entity⟩, signApprole, signEntity⟩ := same
  exact {
    owner := owner.trans named.owner
    salt := salt ▸ named.salt
    botLogin := by rw [bot, salt, named.botLogin]
    oidcRole := by rw [role, salt, named.oidcRole]
    approle := by rw [approle, salt, named.approle]
    entity := by rw [entity, salt, named.entity]
    signApprole := by
      rw [signApprole, salt]
      exact named.signApprole
    signEntity := by
      rw [signEntity, salt]
      exact named.signEntity }

theorem mem_things (named : WellNamed left one) {thing : Thing}
    (listed : thing ∈ thingsOf one) :
    thing = .bot (Service.botName left one.salt) ∨
      thing = .oidcRole (Service.chainName left one.salt) ∨
      thing = .approle (Service.deliveryName left one.salt) ∨
      thing = .entity (Service.chainName left one.salt) ∨
      thing = .approle (Service.signApproleName left one.salt) ∨
      thing = .entity (Service.signEntityName left one.salt) := by
  unfold thingsOf Service.grantsOf at listed
  rw [named.botLogin, named.oidcRole, named.approle, named.entity] at listed
  simp only [List.cons_append, List.nil_append, List.mem_cons, List.mem_append,
    Option.mem_toList, Option.map_eq_some_iff] at listed
  rcases listed with bot | role | approle | entity | ⟨name, recorded, rfl⟩ |
    ⟨name, recorded, rfl⟩
  · exact .inl bot
  · exact .inr (.inl role)
  · exact .inr (.inr (.inl approle))
  · exact .inr (.inr (.inr (.inl entity)))
  · exact .inr (.inr (.inr (.inr (.inl (by rw [named.signApprole name recorded])))))
  · exact .inr (.inr (.inr (.inr (.inr (by rw [named.signEntity name recorded])))))

theorem chain_length {tenant salt : Str} (ids : tenant.length = idLength)
    (salts : salt.length = saltLength) : (Service.chainName tenant salt).length = 52 := by
  unfold Service.chainName
  simp only [List.length_append, ids, salts]
  rfl

theorem chain_not_sign (left_length : left.length = idLength)
    (right_length : right.length = idLength) (first_length : first.length = saltLength)
    (second_length : second.length = saltLength) :
    Service.chainName left first ≠ Service.signEntityName right second := by
  intro same
  have lengths := congrArg List.length same
  unfold Service.signEntityName at lengths
  rw [List.length_append, chain_length left_length first_length,
    chain_length right_length second_length] at lengths
  exact absurd lengths (by decide)

theorem delivery_not_sign :
    Service.deliveryName left first ≠ Service.signApproleName right second := by
  intro same
  have heads := congrArg List.head? same
  unfold Service.deliveryName Service.signApproleName at heads
  exact absurd (Option.some.inj heads) (by decide)

/-- Two generations that name one thing are of one tenant and one salt, or share a bot. -/
theorem things_apart (named : WellNamed left one) (also : WellNamed right other)
    (left_length : left.length = idLength) (right_length : right.length = idLength)
    {thing : Thing} (here : thing ∈ thingsOf one) (there : thing ∈ thingsOf other) :
    (left = right ∧ one.salt = other.salt) ∨
      Service.botName left one.salt = Service.botName right other.salt := by
  have lengths : left.length = right.length := left_length.trans right_length.symm
  have there := mem_things also there
  rcases mem_things named here with bot | role | delivery | chain | sign | entity
  · subst bot
    simp only [Thing.bot.injEq, reduceCtorEq, or_false] at there
    exact .inr there
  · subst role
    simp only [Thing.oidcRole.injEq, reduceCtorEq, or_false, false_or] at there
    exact .inl (name_apart lengths there)
  · subst delivery
    simp only [Thing.approle.injEq, reduceCtorEq, or_false, false_or] at there
    cases there with
    | inl delivery => exact .inl (name_apart lengths delivery)
    | inr sign => exact absurd sign delivery_not_sign
  · subst chain
    simp only [Thing.entity.injEq, reduceCtorEq, false_or] at there
    cases there with
    | inl chain => exact .inl (name_apart lengths chain)
    | inr entity =>
      exact absurd entity (chain_not_sign left_length right_length named.salt also.salt)
  · subst sign
    simp only [Thing.approle.injEq, reduceCtorEq, or_false, false_or] at there
    cases there with
    | inl delivery => exact absurd delivery.symm delivery_not_sign
    | inr sign => exact .inl (name_apart lengths sign)
  · subst entity
    simp only [Thing.entity.injEq, reduceCtorEq, false_or] at there
    cases there with
    | inl chain =>
      exact absurd chain.symm (chain_not_sign right_length left_length also.salt named.salt)
    | inr entity =>
      have chains : Service.chainName left one.salt = Service.chainName right other.salt :=
        List.append_cancel_right entity
      exact .inl (name_apart lengths chains)

theorem key_not_named (named : WellNamed left one) (tenant : Str) :
    .signingKey tenant ∉ thingsOf one := by
  intro here
  have named := mem_things named here
  simp only [reduceCtorEq, or_false] at named

end Names

structure Sure where
  record : TenantRecord
  generations : List Generation
  absent : Thing → Prop

section Rights

variable (tenant : Str) (sure : Sure) (thing : Thing)

def Sure.Owns : Prop :=
  thing = .signingKey tenant ∨ ∃ generation ∈ sure.generations, thing ∈ thingsOf generation

def Sure.MayWrite : Prop :=
  sure.record.state ≠ .offboarded ∧
    (thing = .signingKey tenant ∨ ∃ generation ∈ sure.generations,
      generation.status = .pending ∧ thing ∈ thingsOf generation)

def Sure.MayRemove : Prop :=
  sure.Owns tenant thing ∧
    (sure.record.state = .offboarding ∨ sure.record.state = .offboarded ∨
      ∃ generation ∈ sure.generations,
        generation.status = .retiring ∧ thing ∈ thingsOf generation)

def Sure.lacking : Sure :=
  { sure with absent := fun other => other = thing ∨ sure.absent other }

def Sure.having : Sure :=
  { sure with absent := fun other => other ≠ thing ∧ sure.absent other }

def Sure.told (gone : Bool) : Sure := if gone then sure.lacking thing else sure

end Rights

/-- What a landed commit leaves, for what the worker was sure of before it. -/
structure Leaves (tenant : Str) (sure : Sure) (after : TenantRows) : Prop where
  named : ∀ held ∈ after.generations, WellNamed tenant held
  kept : ∀ was ∈ sure.generations, ∃ held ∈ after.generations,
    ∀ thing ∈ thingsOf was, thing ∈ thingsOf held
  destroyed : ∀ held ∈ after.generations, held.status = .destroyed →
    (∃ was ∈ sure.generations, was.status = .destroyed ∧ thingsOf held = thingsOf was) ∨
      ∀ thing ∈ thingsOf held, sure.absent thing
  offboarded : after.record.state = .offboarded →
    sure.record.state = .offboarded ∨ sure.absent (.signingKey tenant)

section Specification

variable (tenant : Str)

def sweepBefore : (operation : Operation) → (Answer operation → Sure → Prop) → Sure → Prop
  | .generations, post, sure => ∀ listed : List Generation,
    listed.Perm sure.generations → post listed sure
  | .record, post, sure => post sure.record sure
  | .draw, post, sure => ∀ salt : Str, salt.length = saltLength → post salt sure
  | .only found status, post, sure => post (only found status) sure
  | .read thing, post, sure => sure.Owns tenant thing ∧
    ∀ reply, post reply (sure.told thing (absentAnswer reply))
  | .write thing, post, sure => sure.MayWrite tenant thing ∧
    ∀ reply, post reply (sure.having thing)
  | .remove thing, post, sure => sure.MayRemove tenant thing ∧
    ∀ reply, post reply (sure.told thing (succeeded reply || absentAnswer reply))
  | .commit records, post, sure =>
    (∀ said, post (.error said) sure) ∧
    ∀ rows after : TenantRows, rows.record.id = sure.record.id →
      rows.record.state = sure.record.state → rows.generations = sure.generations →
      Memory.Landed rows sure.record records after →
      Leaves tenant sure after ∧
        post (.ok after.record) ⟨after.record, after.generations, sure.absent⟩
  | _, post, sure => ∀ answer, post answer sure

theorem sweep_mono (operation : Operation) {weaker stronger : Answer operation → Sure → Prop}
    {sure : Sure} (weaker_of : ∀ answer after, stronger answer after → weaker answer after)
    (checked : sweepBefore tenant operation stronger sure) :
    sweepBefore tenant operation weaker sure := by
  cases operation with
  | generations => exact fun listed same => weaker_of _ _ (checked listed same)
  | record => exact weaker_of _ _ checked
  | draw => exact fun salt length => weaker_of _ _ (checked salt length)
  | only found status => exact weaker_of _ _ checked
  | read thing | write thing | remove thing =>
    exact ⟨checked.1, fun reply => weaker_of _ _ (checked.2 reply)⟩
  | commit records =>
    refine ⟨fun said => weaker_of _ _ (checked.1 said), ?_⟩
    intro rows after id state generations landed
    obtain ⟨leaves, kept⟩ := checked.2 rows after id state generations landed
    exact ⟨leaves, weaker_of _ _ kept⟩
  | _ => exact fun answer => weaker_of _ _ (checked answer)

def sweepSpec : Spec Operation Answer Sure where
  before := sweepBefore tenant
  mono := sweep_mono tenant

theorem sweep_calls : CallsQuiet (sweepSpec tenant) where
  generations := fun _ _ all listed _ => all listed
  forgeWiring := fun _ _ all => all
  record := fun _ _ all => all _
  clock := fun _ _ all => all
  draw := fun _ _ all salt _ => all salt
  call := fun _ _ _ _ all => all
  collaborators := fun _ _ _ all => all
  runIntegration := fun _ _ _ all => all
  act := fun _ _ _ all => all

end Specification

section Pieces

variable {tenant : Str} {before : Sure → Prop} {thing : Thing}

/-- A program that does outside only what it may. Nothing is asked of its failures. -/
abbrev Sweeps (tenant : Str) (before : Sure → Prop) {Result : Type} (program : Body Result)
    (post : Result → Sure → Prop) : Prop :=
  Triple (sweepSpec tenant) before program post (fun _ _ => True)

theorem quiet_sweeps {Result : Type} {program : Body Result}
    (quiet : QuietBody (sweepSpec tenant) program) :
    Sweeps tenant before program (fun _ => before) :=
  Triple.quiet quiet fun _ _ _ _ => trivial

theorem told_absent {sure : Sure} {gone : Bool} (is : gone = true) :
    (sure.told thing gone).absent thing := by
  rw [is]
  exact .inl rfl

/-- What says nothing of the things that are not there. -/
def Steady (before : Sure → Prop) : Prop :=
  ∀ sure absent, before sure → before { sure with absent }

theorem Steady.told (steady : Steady before) {sure : Sure} {gone : Bool}
    (start : before sure) : before (sure.told thing gone) := by
  cases gone with
  | false => exact start
  | true => exact steady sure _ start

theorem read_steady (steady : Steady before) (ok : List Nat)
    (owns : ∀ sure, before sure → sure.Owns tenant thing) :
    Sweeps tenant before (readThing thing ok) (fun _ => before) := by
  intro sure start
  refine ⟨owns sure start, ?_⟩
  intro reply
  exact (quiet_answered _ ok reply).holds (fun _ => steady.told start) fun _ _ => trivial

theorem write_steady (steady : Steady before)
    (may : ∀ sure, before sure → sure.MayWrite tenant thing) :
    Sweeps tenant before (writeThing thing) (fun _ => before) := by
  intro sure start
  refine ⟨may sure start, ?_⟩
  intro reply
  exact (quiet_answered _ [] reply).holds (fun _ => steady sure _ start) fun _ _ => trivial

/-- What stays so when more is known not to be there. -/
def Grows (before : Sure → Prop) : Prop :=
  ∀ sure thing, before sure → before (sure.lacking thing)

theorem Steady.grows (steady : Steady before) : Grows before :=
  fun sure _ start => steady sure _ start

theorem Grows.told (grows : Grows before) {sure : Sure} {gone : Bool} (start : before sure) :
    before (sure.told thing gone) := by
  cases gone with
  | false => exact start
  | true => exact grows sure thing start

theorem grows_absent (things : List Thing) (grows : Grows before) :
    Grows fun sure => before sure ∧ ∀ thing ∈ things, sure.absent thing := by
  intro sure thing start
  exact ⟨grows sure thing start.1, fun other listed => .inr (start.2 other listed)⟩

theorem read_clears (grows : Grows before) (ok : List Nat)
    (owns : ∀ sure, before sure → sure.Owns tenant thing) :
    Sweeps tenant before (readThing thing ok)
      (fun response sure => before sure ∧ (response.status = 404 → sure.absent thing)) := by
  intro sure start
  refine ⟨owns sure start, ?_⟩
  intro reply
  cases reply with
  | error said => exact trivial
  | ok response =>
    show holds _ _ _ (if _ then _ else _) _
    split_ifs
    · refine ⟨grows.told start, ?_⟩
      intro missing
      apply told_absent
      exact decide_eq_true missing
    · exact trivial

theorem remove_clears (grows : Grows before)
    (may : ∀ sure, before sure → sure.MayRemove tenant thing) :
    Sweeps tenant before (removeThing thing)
      (fun _ sure => before sure ∧ sure.absent thing) := by
  intro sure start
  refine ⟨may sure start, ?_⟩
  intro reply
  cases reply with
  | error said => exact trivial
  | ok response =>
    show holds _ _ _ (if _ then _ else _) _
    split_ifs with fine
    · refine ⟨grows.told start, ?_⟩
      apply told_absent
      cases fine with
      | inl success =>
        have named : succeeded (.ok response) = true := success
        rw [named, Bool.true_or]
      | inr missing =>
        have named : absentAnswer (.ok response) = true :=
          decide_eq_true (List.mem_singleton.mp missing)
        rw [named, Bool.or_true]
    · exact trivial

theorem remove_all_clears {things : List Thing} (grows : Grows before)
    (may : ∀ thing ∈ things, ∀ sure, before sure → sure.MayRemove tenant thing) :
    Sweeps tenant before (Service.removeAll things)
      (fun _ sure => before sure ∧ ∀ thing ∈ things, sure.absent thing) := by
  induction things generalizing before with
  | nil => exact fun sure start => ⟨start, fun thing none_left => nomatch none_left⟩
  | cons thing rest ih =>
    have one : Sweeps tenant before (do
        let _ ← removeThing thing
        pure ()) (fun _ sure => before sure ∧ sure.absent thing) :=
      (remove_clears grows (may thing List.mem_cons_self)).ignore
    apply one.bind
    intro _
    have onward : Grows fun sure => before sure ∧ sure.absent thing :=
      fun sure other start => ⟨grows sure other start.1, .inr start.2⟩
    apply (ih onward fun other later sure start =>
      may other (List.mem_cons_of_mem _ later) sure start.1).weaken (fun _ start => start)
    · rintro _ sure ⟨⟨start, gone⟩, others⟩
      refine ⟨start, ?_⟩
      intro other listed
      cases List.mem_cons.mp listed with
      | inl same => exact same ▸ gone
      | inr later => exact others other later
    · exact fun _ _ failed => failed

end Pieces

section Revocation

variable {tenant : Str} {before : Sure → Prop}

theorem bot_left_clears (grows : Grows before) (repo : Option Str) (login : Str)
    (owns : ∀ sure, before sure → sure.Owns tenant (.bot login)) :
    Sweeps tenant before (Service.botLeft repo login)
      (fun here sure => before sure ∧ (∀ bot ∈ here, bot = login) ∧
        (login ∈ here ∨ sure.absent (.bot login))) := by
  apply (read_clears grows [404] owns).bind
  intro user
  split_ifs with missing
  · intro sure start
    exact ⟨start.1, fun bot none_left => (nomatch none_left), .inr (start.2 missing)⟩
  · apply (quiet_sweeps (quiet_drop_collaborator (sweep_calls tenant) _ _)).bind
    intro _ sure start
    exact ⟨start.1, fun bot listed => List.mem_singleton.mp listed,
      .inl (List.mem_singleton_self login)⟩

/-- What `_revoke` is sure of once it is through, given the bots it answers. -/
structure Revoked (generations : List Generation) (bots : List Str) (sure : Sure) : Prop where
  grants : ∀ held ∈ generations, ∀ thing ∈ Service.grantsOf held, sure.absent thing
  leaves : ∀ held ∈ generations, held.botLogin ∈ bots ∨ sure.absent (.bot held.botLogin)
  known : ∀ bot ∈ bots, ∃ held ∈ generations, held.botLogin = bot

theorem Revoked.lacking {generations : List Generation} {bots : List Str} {sure : Sure}
    (revoked : Revoked generations bots sure) (thing : Thing) :
    Revoked generations bots (sure.lacking thing) where
  grants := fun held member other listed => .inr (revoked.grants held member other listed)
  leaves := fun held member => (revoked.leaves held member).imp_right .inr
  known := revoked.known

theorem revoke_clears (grows : Grows before) (repo : Option Str) {generations : List Generation}
    (may : ∀ held ∈ generations, ∀ thing ∈ thingsOf held, ∀ sure, before sure →
      sure.MayRemove tenant thing) :
    Sweeps tenant before (Service.revoke repo generations)
      (fun bots sure => before sure ∧ Revoked generations bots sure) := by
  induction generations generalizing before with
  | nil =>
    intro sure start
    exact ⟨start, ⟨fun _ none_left => (nomatch none_left),
      fun _ none_left => (nomatch none_left), fun _ none_left => (nomatch none_left)⟩⟩
  | cons held rest ih =>
    have here := may held List.mem_cons_self
    have left := bot_left_clears grows repo held.botLogin fun sure start =>
      (here (.bot held.botLogin) List.mem_cons_self sure start).1
    apply left.bind
    intro found
    have found_grows : Grows fun sure => before sure ∧ (∀ bot ∈ found, bot = held.botLogin) ∧
        (held.botLogin ∈ found ∨ sure.absent (.bot held.botLogin)) :=
      fun sure thing start => ⟨grows sure thing start.1, start.2.1, start.2.2.imp_right .inr⟩
    have grants := @remove_all_clears tenant _ (Service.grantsOf held) found_grows
      fun thing listed sure start => here thing (List.mem_cons_of_mem _ listed) sure start.1
    apply grants.bind
    intro _
    have others := ih (grows_absent (Service.grantsOf held) found_grows)
      fun other later thing listed sure start =>
        may other (List.mem_cons_of_mem _ later) thing listed sure start.1.1
    apply others.bind
    intro bots sure start
    obtain ⟨⟨⟨start, is, bot⟩, gone⟩, revoked⟩ := start
    refine ⟨start, ⟨?_, ?_, ?_⟩⟩
    · intro other member thing listed
      cases List.mem_cons.mp member with
      | inl same => exact gone thing (same ▸ listed)
      | inr later => exact revoked.grants other later thing listed
    · intro other member
      cases List.mem_cons.mp member with
      | inl same =>
        subst same
        exact bot.imp_left (List.mem_append_left _)
      | inr later => exact (revoked.leaves other later).imp_left (List.mem_append_right _)
    · intro bot listed
      cases List.mem_append.mp listed with
      | inl first => exact ⟨held, List.mem_cons_self, (is bot first).symm⟩
      | inr later =>
        obtain ⟨other, member, same⟩ := revoked.known bot later
        exact ⟨other, List.mem_cons_of_mem _ member, same⟩

/-- Once the bots that were left are deleted too, nothing of the generations is there. -/
theorem delete_bots_clears (grows : Grows before) {generations : List Generation}
    {bots : List Str}
    (may : ∀ held ∈ generations, ∀ thing ∈ thingsOf held, ∀ sure, before sure →
      sure.MayRemove tenant thing) :
    Sweeps tenant (fun sure => before sure ∧ Revoked generations bots sure)
      (Service.deleteBots bots)
      (fun _ sure => before sure ∧ ∀ held ∈ generations, ∀ thing ∈ thingsOf held,
        sure.absent thing) := by
  have onward : Grows fun sure => before sure ∧ Revoked generations bots sure :=
    fun sure thing start => ⟨grows sure thing start.1, start.2.lacking thing⟩
  by_cases known : ∀ bot ∈ bots, ∃ held ∈ generations, held.botLogin = bot
  · have may_bots : ∀ thing ∈ bots.map Thing.bot, ∀ sure,
        before sure ∧ Revoked generations bots sure → sure.MayRemove tenant thing := by
      intro thing listed sure start
      obtain ⟨bot, left, rfl⟩ := List.mem_map.mp listed
      obtain ⟨held, member, rfl⟩ := known bot left
      exact may held member _ List.mem_cons_self sure start.1
    apply (remove_all_clears onward may_bots).weaken (fun _ start => start) _
      fun _ _ failed => failed
    rintro _ sure ⟨⟨start, revoked⟩, gone⟩
    refine ⟨start, ?_⟩
    intro held member thing listed
    cases List.mem_cons.mp listed with
    | inl bot =>
      subst bot
      cases revoked.leaves held member with
      | inl left => exact gone _ (List.mem_map_of_mem left)
      | inr absent => exact absent
    | inr grant => exact revoked.grants held member thing grant
  · exact fun sure start => absurd start.2.known known

theorem destroy_clears (grows : Grows before) (repo : Option Str)
    {generations : List Generation}
    (may : ∀ held ∈ generations, ∀ thing ∈ thingsOf held, ∀ sure, before sure →
      sure.MayRemove tenant thing) :
    Sweeps tenant before (Service.destroy generations repo)
      (fun _ sure => before sure ∧ ∀ held ∈ generations, ∀ thing ∈ thingsOf held,
        sure.absent thing) :=
  (revoke_clears grows repo may).bind fun _ => delete_bots_clears grows may

theorem destroy_key_clears (grows : Grows before)
    (may : ∀ sure, before sure → sure.MayRemove tenant (.signingKey tenant)) :
    Sweeps tenant before (Service.destroyKey tenant)
      (fun _ sure => before sure ∧ sure.absent (.signingKey tenant)) := by
  apply (read_clears grows [404] fun sure start => (may sure start).1).bind
  intro found
  split_ifs with missing
  · exact fun sure start => ⟨start.1, start.2 missing⟩
  · apply (quiet_sweeps (quiet_call (sweep_calls tenant) _ _ _)).bind
    intro _
    exact ((remove_clears grows may).weaken (fun _ start => start.1) (fun _ _ gone => gone)
      fun _ _ failed => failed).ignore

end Revocation

end Defender.Lifecycle
