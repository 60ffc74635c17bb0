import Defender.Identity.Marks

/-!
# Rules for the programs of the service

An operation that settles nothing keeps everything known that lasts. What was read of a
user or a row lasts as that record grown.
-/

namespace Defender.Identity

open Defender.Python Defender.Library.OrderedDict Defender.Library.Programs
open Defender.Library.Interference
open Defender.Tenancy (Time TenantState)
open MemoryRepository

section Free

variable {Result Final : Type}

/-- A program whose operations settle nothing. -/
inductive FreeFlow : Flow Result → Prop where
  | done (result : Result) : FreeFlow (.done result)
  | failed (why : Fault) : FreeFlow (.failed why)
  | perform (operation : Operation) (next : operation.Answer → Flow Result)
      (free : operation.free = true) (onward : ∀ answer, FreeFlow (next answer)) :
      FreeFlow (.perform operation next)

theorem FreeFlow.bind {program : Flow Result} {next : Result → Flow Final}
    (free : FreeFlow program) (onward : ∀ result, FreeFlow (next result)) :
    FreeFlow (program >>= next) := by
  induction free with
  | done result => exact onward result
  | failed why => exact .failed why
  | perform operation _ free _ ih => exact .perform operation _ free ih

theorem FreeFlow.ask {operation : Operation} (free : operation.free = true) :
    FreeFlow (ask operation) := by
  refine .perform operation _ free ?_
  intro answer
  cases answer with
  | ok value => exact .done value
  | error why => exact .failed why

theorem FreeFlow.for_each {Item : Type} {body : Item → Flow Unit} (items : List Item)
    (rounds : ∀ item, FreeFlow (body item)) : FreeFlow (Program.forEach body items) := by
  induction items with
  | nil => exact .done ()
  | cons item rest ih => exact (rounds item).bind fun _ => ih

theorem FreeFlow.refuse (allowed : Bool) (why : Fault) : FreeFlow (refuseUnless allowed why) := by
  unfold refuseUnless
  split
  · exact .done ()
  · exact .failed why

end Free

variable [UnicodeDatabase] [SessionDigest]

section Rules

variable {Result : Type}

theorem triple_operation {operation : Operation} {known : Shared → Prop}
    {post : operation.Value → Shared → Prop} (lasting : medium.Lasting known)
    (moves : ∀ shared reaction, known shared → Sane shared →
      shared.store.fresh reaction.minted →
      Later shared (perform operation reaction shared).2 ∧
        Sane (perform operation reaction shared).2 ∧
        ∀ value, (perform operation reaction shared).1 = .ok value →
          post value (perform operation reaction shared).2) :
    Triple medium.spec known (ask operation) post fun _ _ => True := by
  refine Medium.triple_ask lasting ?_
  intro shared held sane reaction fresh
  obtain ⟨later, kept, posts⟩ := moves shared reaction held sane fresh
  refine ⟨later, kept, ?_⟩
  clear later kept
  dsimp only [medium]
  revert posts
  generalize (perform operation reaction shared).1 = answer
  intro posts
  cases answer with
  | error why => trivial
  | ok value => exact posts value rfl

theorem performed_ok {operation : Operation} {reaction : Reaction} {shared : Shared}
    {value : operation.Value} (answer : (perform operation reaction shared).1 = .ok value) :
    perform operation reaction shared = effect operation reaction shared := by
  unfold perform at answer ⊢
  cases fate : reaction.fate with
  | works => rfl
  | lost => rw [fate] at answer; cases answer
  | breaks => rw [fate] at answer; cases answer

theorem triple_free {operation : Operation} (free : operation.free = true)
    {known : Shared → Prop} {post : operation.Value → Shared → Prop}
    (lasting : medium.Lasting known)
    (answers : ∀ shared reaction, known shared → Sane shared →
      shared.store.fresh reaction.minted → ∀ value,
      (effect operation reaction shared).1 = .ok value →
      Later shared (effect operation reaction shared).2 →
      Sane (effect operation reaction shared).2 → post value (effect operation reaction shared).2) :
    Triple medium.spec known (ask operation) post fun _ _ => True := by
  refine triple_operation lasting ?_
  intro shared reaction held sane fresh
  have performed := free_performed sane fresh operation free
  refine ⟨performed.1, performed.2, ?_⟩
  intro value answer
  have worked := performed_ok answer
  rw [worked] at answer performed ⊢
  exact answers shared reaction held sane fresh value answer performed.1 performed.2

theorem triple_repo {call : Call} (ordinary : call.ordinary = true)
    (settles : call.settles = false) {known : Shared → Prop} {post : call.Answer → Shared → Prop}
    (lasting : medium.Lasting known)
    (answers : ∀ shared minted, known shared → Sane shared → ∀ value,
      (shared.store.run minted call).1 = .ok value → Later shared (shared.called minted call) →
      Sane (shared.called minted call) → post value (shared.called minted call)) :
    Triple medium.spec known (repo call) post fun _ _ => True := by
  have free : (Operation.repo call).free = true := by
    simp [Operation.free, ordinary, settles]
  refine triple_free free lasting ?_
  intro shared reaction held sane fresh value answer later kept
  have read : (shared.store.run reaction.minted call).1 = .ok value := by
    have same : answered (shared.store.run reaction.minted call).1 = .ok value := answer
    cases ran : (shared.store.run reaction.minted call).1 with
    | error why => rw [ran] at same; cases why; cases same
    | ok other => rw [ran] at same; exact congrArg Except.ok (Except.ok.inj same)
  exact answers shared reaction.minted held sane value read later kept

theorem triple_keeps {operation : Operation} (free : operation.free = true)
    {known : Shared → Prop} (lasting : medium.Lasting known) :
    Triple medium.spec known (ask operation) (fun _ => known) fun _ _ => True :=
  triple_free free lasting fun shared _ held _ _ _ _ later _ => lasting shared _ later held

theorem FreeFlow.triple {program : Flow Result} (free : FreeFlow program)
    {known : Shared → Prop} (lasting : medium.Lasting known) :
    Triple medium.spec known program (fun _ => known) fun _ _ => True := by
  induction free with
  | done result => exact fun shared held => held
  | failed why => exact fun shared held => trivial
  | perform operation next free _ ih =>
      refine Medium.triple_ask lasting ?_
      intro shared held sane reaction fresh
      have performed := free_performed sane fresh operation free
      exact ⟨performed.1, performed.2, ih _ _ (lasting shared _ performed.1 held)⟩

end Rules

def KnowsUser (user : User) (shared : Shared) : Prop :=
  ∃ held, shared.store.users.get? user.id = some held ∧ UserGrown user held

def KnowsRow (row : Membership) (shared : Shared) : Prop :=
  ∃ held, shared.store.memberships.get? row.id = some held ∧ RowGrown row held

theorem knows_user_lasting (user : User) : medium.Lasting (KnowsUser user) := by
  intro shared after later known
  obtain ⟨held, found, grown⟩ := known
  obtain ⟨next, there, more⟩ := later.grown.users _ held found
  exact ⟨next, there, grown.trans more⟩

theorem knows_row_lasting (row : Membership) : medium.Lasting (KnowsRow row) := by
  intro shared after later known
  obtain ⟨held, found, grown⟩ := known
  obtain ⟨next, there, more⟩ := later.grown.rows _ held found
  exact ⟨next, there, grown.trans more⟩

theorem true_lasting : medium.Lasting fun _ => True := fun _ _ _ _ => trivial

theorem lasting_const (fact : Prop) : medium.Lasting fun _ => fact := fun _ _ _ held => held

end Defender.Identity
