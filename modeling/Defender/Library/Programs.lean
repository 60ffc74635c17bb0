import Mathlib.Data.List.Basic

/-!
# Programs of operations

A program asks for operations one at a time and goes on from each answer, until it is
done or has failed. What an operation may answer, and what is known after it, is given
by a specification; `holds` carries it through a program. The rules follow the ways
programs are put together, so a program is checked piece by piece, as triples.
-/

namespace Defender.Library.Programs

universe u

variable {Operation : Type} {Answer : Operation → Type} {Failure : Type}

inductive Program (Operation : Type) (Answer : Operation → Type) (Failure Result : Type) :
    Type where
  | done (result : Result)
  | failed (why : Failure)
  | perform (operation : Operation)
      (next : Answer operation → Program Operation Answer Failure Result)

namespace Program

variable {Result Final : Type}

def bind (program : Program Operation Answer Failure Result)
    (next : Result → Program Operation Answer Failure Final) :
    Program Operation Answer Failure Final :=
  match program with
  | done result => next result
  | failed why => failed why
  | perform operation onward => perform operation fun answer => (onward answer).bind next

instance : Monad (Program Operation Answer Failure) where
  pure := done
  bind := bind

def request (operation : Operation) : Program Operation Answer Failure (Answer operation) :=
  perform operation done

def mapFailure (program : Program Operation Answer Failure Result)
    (change : Failure → Failure) : Program Operation Answer Failure Result :=
  match program with
  | done result => done result
  | failed why => failed (change why)
  | perform operation next => perform operation fun answer => (next answer).mapFailure change

/-- The cleanup runs however the program ends; its own failure takes the place of the
program's. -/
def ensure (program : Program Operation Answer Failure Result)
    (cleanup : Program Operation Answer Failure Unit) :
    Program Operation Answer Failure Result :=
  match program with
  | done result => cleanup.bind fun _ => done result
  | failed why => cleanup.bind fun _ => failed why
  | perform operation next => perform operation fun answer => (next answer).ensure cleanup

def onFailure (program : Program Operation Answer Failure Result)
    (cleanup : Program Operation Answer Failure Unit) :
    Program Operation Answer Failure Result :=
  match program with
  | done result => done result
  | failed why => cleanup.bind fun _ => failed why
  | perform operation next => perform operation fun answer => (next answer).onFailure cleanup

def rescue (program : Program Operation Answer Failure Result)
    (handler : Failure → Program Operation Answer Failure Result) :
    Program Operation Answer Failure Result :=
  match program with
  | done result => done result
  | failed why => handler why
  | perform operation next => perform operation fun answer => (next answer).rescue handler

def forEach {Item : Type} (body : Item → Program Operation Answer Failure Unit) :
    List Item → Program Operation Answer Failure Unit
  | [] => done ()
  | item :: rest => (body item).bind fun _ => forEach body rest

end Program

open Program

/-- What may be known, and for each operation what must be known before it for a condition
on its answer and on what is known then. -/
structure Spec (Operation : Type) (Answer : Operation → Type) (Known : Type u) where
  before : (operation : Operation) → (Answer operation → Known → Prop) → Known → Prop
  mono : ∀ (operation : Operation) {weaker stronger : Answer operation → Known → Prop}
    {known : Known}, (∀ answer after, stronger answer after → weaker answer after) →
    before operation stronger known → before operation weaker known

variable {Known : Type u} {Result Final : Type} (spec : Spec Operation Answer Known)

def holds (post : Result → Known → Prop) (fails : Failure → Known → Prop) :
    Program Operation Answer Failure Result → Known → Prop
  | .done result, known => post result known
  | .failed why, known => fails why known
  | .perform operation next, known =>
    spec.before operation (fun answer after => holds post fails (next answer) after) known

section Rules

variable {spec} {post : Result → Known → Prop} {fails : Failure → Known → Prop}
  {program : Program Operation Answer Failure Result} {known : Known}

theorem holds_mono {post' : Result → Known → Prop} {fails' : Failure → Known → Prop}
    (posts : ∀ result after, post result after → post' result after)
    (failures : ∀ why after, fails why after → fails' why after)
    (checked : holds spec post fails program known) :
    holds spec post' fails' program known := by
  induction program generalizing known with
  | done result => exact posts result known checked
  | failed why => exact failures why known checked
  | perform operation next ih =>
    exact spec.mono operation (fun answer after onward => ih answer onward) checked

theorem holds_bind {next : Result → Program Operation Answer Failure Final}
    {last : Final → Known → Prop}
    (checked : holds spec (fun result after => holds spec last fails (next result) after) fails
      program known) :
    holds spec last fails (program.bind next) known := by
  induction program generalizing known with
  | done result => exact checked
  | failed why => exact checked
  | perform operation onward ih =>
    exact spec.mono operation (fun answer after later => ih answer later) checked

theorem holds_map_failure {change : Failure → Failure}
    (checked : holds spec post (fun why after => fails (change why) after) program known) :
    holds spec post fails (program.mapFailure change) known := by
  induction program generalizing known with
  | done result => exact checked
  | failed why => exact checked
  | perform operation next ih =>
    exact spec.mono operation (fun answer after later => ih answer later) checked

theorem holds_ensure {cleanup : Program Operation Answer Failure Unit}
    (checked : holds spec
      (fun result after => holds spec (fun _ last => post result last) fails cleanup after)
      (fun why after => holds spec (fun _ last => fails why last) fails cleanup after)
      program known) :
    holds spec post fails (program.ensure cleanup) known := by
  induction program generalizing known with
  | done result => exact holds_bind checked
  | failed why => exact holds_bind checked
  | perform operation next ih =>
    exact spec.mono operation (fun answer after later => ih answer later) checked

theorem holds_on_failure {cleanup : Program Operation Answer Failure Unit}
    (checked : holds spec post
      (fun why after => holds spec (fun _ last => fails why last) fails cleanup after)
      program known) :
    holds spec post fails (program.onFailure cleanup) known := by
  induction program generalizing known with
  | done result => exact checked
  | failed why => exact holds_bind checked
  | perform operation next ih =>
    exact spec.mono operation (fun answer after later => ih answer later) checked

theorem holds_rescue {handler : Failure → Program Operation Answer Failure Result}
    (checked : holds spec post (fun why after => holds spec post fails (handler why) after)
      program known) :
    holds spec post fails (program.rescue handler) known := by
  induction program generalizing known with
  | done result => exact checked
  | failed why => exact checked
  | perform operation next ih =>
    exact spec.mono operation (fun answer after later => ih answer later) checked

/-- A loop keeps what each round keeps; `remaining` is what is still to come. -/
theorem holds_for_each {Item : Type} {body : Item → Program Operation Answer Failure Unit}
    (invariant : List Item → Known → Prop) (items : List Item)
    (round : ∀ item remaining known, invariant (item :: remaining) known →
      holds spec (fun _ after => invariant remaining after) fails (body item) known)
    (start : invariant items known) :
    holds spec (fun _ after => invariant [] after) fails (forEach body items) known := by
  induction items generalizing known with
  | nil => exact start
  | cons item rest ih =>
    apply holds_bind
    exact holds_mono (fun _ after kept => ih kept) (fun _ _ failed => failed)
      (round item rest known start)

end Rules

section Quiet

/-- Operations after which nothing else is known. -/
def Spec.Quiet (operation : Operation) : Prop :=
  ∀ (post : Answer operation → Known → Prop) known,
    (∀ answer, post answer known) → spec.before operation post known

/-- A program of such operations, whose failures are all of one kind. -/
inductive QuietProgram (kind : Failure → Prop) :
    Program Operation Answer Failure Result → Prop where
  | done (result : Result) : QuietProgram kind (.done result)
  | failed (why : Failure) (meant : kind why) : QuietProgram kind (.failed why)
  | perform (operation : Operation)
      (next : Answer operation → Program Operation Answer Failure Result)
      (quiet : spec.Quiet operation) (onward : ∀ answer, QuietProgram kind (next answer)) :
      QuietProgram kind (.perform operation next)

variable {spec} {kind : Failure → Prop} {post : Result → Known → Prop}
  {fails : Failure → Known → Prop} {program : Program Operation Answer Failure Result}
  {known : Known}

theorem QuietProgram.bind {next : Result → Program Operation Answer Failure Final}
    (quiet : QuietProgram spec kind program)
    (onward : ∀ result, QuietProgram spec kind (next result)) :
    QuietProgram spec kind (program.bind next) := by
  induction quiet with
  | done result => exact onward result
  | failed why meant => exact .failed why meant
  | perform operation next quiet _ ih => exact .perform operation _ quiet ih

theorem QuietProgram.for_each {Item : Type}
    {body : Item → Program Operation Answer Failure Unit} (items : List Item)
    (rounds : ∀ item ∈ items, QuietProgram spec kind (body item)) :
    QuietProgram spec kind (forEach body items) := by
  induction items with
  | nil => exact .done ()
  | cons item rest ih =>
    apply QuietProgram.bind (rounds item List.mem_cons_self)
    exact fun _ => ih fun other member => rounds other (List.mem_cons_of_mem _ member)

theorem QuietProgram.holds (quiet : QuietProgram spec kind program)
    (posts : ∀ result, post result known) (failures : ∀ why, kind why → fails why known) :
    holds spec post fails program known := by
  induction quiet with
  | done result => exact posts result
  | failed why meant => exact failures why meant
  | perform operation next quiet _ ih => exact quiet _ known fun answer => ih answer

end Quiet

section Triples

/-- From everything known that satisfies `before`, the program ends as `post` and `fails`
say. -/
def Triple (before : Known → Prop) (program : Program Operation Answer Failure Result)
    (post : Result → Known → Prop) (fails : Failure → Known → Prop) : Prop :=
  ∀ known, before known → holds spec post fails program known

variable {spec} {before : Known → Prop} {post : Result → Known → Prop}
  {fails : Failure → Known → Prop} {program : Program Operation Answer Failure Result}

theorem Triple.weaken {before' : Known → Prop} {post' : Result → Known → Prop}
    {fails' : Failure → Known → Prop} (checked : Triple spec before program post fails)
    (starts : ∀ known, before' known → before known)
    (posts : ∀ result known, post result known → post' result known)
    (failures : ∀ why known, fails why known → fails' why known) :
    Triple spec before' program post' fails' := by
  intro known start
  exact holds_mono posts failures (checked known (starts known start))

theorem Triple.bind {middle : Result → Known → Prop}
    {next : Result → Program Operation Answer Failure Final} {last : Final → Known → Prop}
    (first : Triple spec before program middle fails)
    (onward : ∀ result, Triple spec (middle result) (next result) last fails) :
    Triple spec before (program >>= next) last fails := by
  intro known start
  apply holds_bind
  exact holds_mono (fun result after kept => onward result after kept)
    (fun _ _ failed => failed) (first known start)

theorem Triple.ignore {last : Known → Prop}
    (checked : Triple spec before program (fun _ => last) fails) :
    Triple spec before (program >>= fun _ => (pure () : Program Operation Answer Failure Unit))
      (fun _ => last) fails :=
  checked.bind fun _ _ here => here

theorem Triple.quiet {kind : Failure → Prop} (quiet : QuietProgram spec kind program)
    (failures : ∀ why known, kind why → before known → fails why known) :
    Triple spec before program (fun _ => before) fails := by
  intro known start
  exact quiet.holds (fun _ => start) fun why meant => failures why known meant start

theorem Triple.map_failure {change : Failure → Failure}
    (checked : Triple spec before program post fun why => fails (change why)) :
    Triple spec before (program.mapFailure change) post fails :=
  fun known start => holds_map_failure (checked known start)

theorem Triple.ensure {cleanup : Program Operation Answer Failure Unit}
    {middle : Result → Known → Prop} {broken : Failure → Known → Prop}
    (checked : Triple spec before program middle broken)
    (cleans : ∀ result, Triple spec (middle result) cleanup (fun _ => post result) fails)
    (mends : ∀ why, Triple spec (broken why) cleanup (fun _ => fails why) fails) :
    Triple spec before (program.ensure cleanup) post fails := by
  intro known start
  apply holds_ensure
  exact holds_mono (fun result after kept => cleans result after kept)
    (fun why after failed => mends why after failed) (checked known start)

theorem Triple.on_failure {cleanup : Program Operation Answer Failure Unit}
    {broken : Failure → Known → Prop} (checked : Triple spec before program post broken)
    (mends : ∀ why, Triple spec (broken why) cleanup (fun _ => fails why) fails) :
    Triple spec before (program.onFailure cleanup) post fails := by
  intro known start
  apply holds_on_failure
  exact holds_mono (fun _ _ kept => kept) (fun why after failed => mends why after failed)
    (checked known start)

theorem Triple.rescue {handler : Failure → Program Operation Answer Failure Result}
    {broken : Failure → Known → Prop} (checked : Triple spec before program post broken)
    (mends : ∀ why, Triple spec (broken why) (handler why) post fails) :
    Triple spec before (program.rescue handler) post fails := by
  intro known start
  apply holds_rescue
  exact holds_mono (fun _ _ kept => kept) (fun why after failed => mends why after failed)
    (checked known start)

end Triples

end Defender.Library.Programs
