import Defender.Execution.BoxCodec
import Defender.Investigation.MemberOrder
import Defender.Library.OrderedDict
import Defender.Python.JsonInteger
import Defender.Python.Sha256
import Mathlib.Logic.Function.Basic
import Mathlib.Logic.Relation

/-!
# Access tokens

A tenant's tokens for a system are asked for and dropped under one gate. A request with the gate
serves the token held if it was issued under the request's own set version and declaration and is
not about to expire; otherwise it drops what is held before it asks for a new one. Requests move
one at a time, in any order, and any exchange may fail.
-/

namespace Defender.CredentialProxy

open Defender.Python Defender.Library.Wire Defender.Library.OrderedDict
open Defender.Execution (encodeUtf8 decodeUtf8 decode_utf8_iff)
open Defender.Filesystem (height)
open Defender.Investigation (dumps_injective)

def refreshMarginSec : Nat := 30

@[ext] structure Auth where
  scheme : Str
  field : Option Str
  header : Option Str
  tokenUrl : Option Str
  scopes : List Str
deriving DecidableEq

@[ext] structure Route where
  method : Str
  path : Str
deriving DecidableEq

@[ext] structure AccessDeclaration where
  base : Str
  auth : Auth
  reads : List Route
  writes : List Route
  ca : Option Str
deriving DecidableEq

def optionalText : Option Str → Json
  | none => .null
  | some text => .string text

/-- A route as `asdict` gives it, its keys in order. -/
def Route.asDict (route : Route) : Json :=
  .object [("method", .string route.method), ("path", .string route.path)]

def Auth.asDict (auth : Auth) : Json :=
  .object [("field", optionalText auth.field), ("header", optionalText auth.header),
    ("scheme", .string auth.scheme), ("scopes", .array (auth.scopes.map .string)),
    ("token_url", optionalText auth.tokenUrl)]

def AccessDeclaration.asDict (declaration : AccessDeclaration) : Json :=
  .object [("auth", declaration.auth.asDict), ("base", .string declaration.base),
    ("ca", optionalText declaration.ca), ("reads", .array (declaration.reads.map Route.asDict)),
    ("writes", .array (declaration.writes.map Route.asDict))]

def AccessDeclaration.canonical (declaration : AccessDeclaration) : Bytes :=
  encodeUtf8 declaration.asDict.dumps

def declarationDigest (declaration : AccessDeclaration) : Str := sha256Hex declaration.canonical

theorem texts_plain (texts : List Str) : Json.plainItems (texts.map .string) = true := by
  induction texts with
  | nil => rfl
  | cons text texts ih => simpa [Json.plainItems, Json.plain] using ih

theorem routes_plain (routes : List Route) : Json.plainItems (routes.map Route.asDict) = true := by
  induction routes with
  | nil => rfl
  | cons route routes ih =>
      simpa [Json.plainItems, Json.plain, Json.plainEntries, Route.asDict] using ih

@[simp] theorem optional_plain (text : Option Str) : (optionalText text).plain = true := by
  cases text with
  | none => rfl
  | some text => rfl

theorem declaration_plain (declaration : AccessDeclaration) : declaration.asDict.plain = true := by
  simp [AccessDeclaration.asDict, Auth.asDict, Json.plain, Json.plainEntries, texts_plain,
    routes_plain]

theorem optional_injective {left right : Option Str}
    (same : optionalText left = optionalText right) : left = right := by
  cases left <;> cases right <;> simp_all [optionalText]

theorem string_injective : Function.Injective Json.string := fun _ _ same => Json.string.inj same

theorem route_injective : Function.Injective Route.asDict := by
  intro left right same
  simpa [Route.asDict, Route.ext_iff] using same

theorem canonical_injective {left right : AccessDeclaration}
    (same : left.canonical = right.canonical) : left = right := by
  have texts := (decode_utf8_iff _ _).mpr same
  rw [AccessDeclaration.canonical, (decode_utf8_iff _ _).mpr rfl] at texts
  have dicts := dumps_injective (Json.plain_spelled _ (declaration_plain left))
    (Json.plain_spelled _ (declaration_plain right)) (Option.some.inj texts)
  simp only [AccessDeclaration.asDict, Auth.asDict, Json.object.injEq, Json.array.injEq,
    Json.string.injEq, List.cons.injEq, Prod.mk.injEq, true_and, and_true] at dicts
  obtain ⟨⟨field, header, scheme, scopes, tokenUrl⟩, base, ca, reads, writes⟩ := dicts
  have auths : left.auth = right.auth := Auth.ext scheme (optional_injective field)
    (optional_injective header) (optional_injective tokenUrl) (string_injective.list_map scopes)
  exact AccessDeclaration.ext base auths (route_injective.list_map reads)
    (route_injective.list_map writes) (optional_injective ca)

/-- Why an exchange has no token: the proxy's own refusal, or an error of the interpreter. -/
inductive ExchangeFault where
  | refused (detail : Str)
  | raised
deriving DecidableEq

/-- `expires_in` in seconds; the interpreter raises on a text of too many digits. -/
def lifetimeOf (stated : Option Json) : Except ExchangeFault (Option Nat) :=
  match stated with
  | some (.string text) =>
      if text ≠ [] ∧ text.all Json.isDigit = true then
        match Json.naturalOf text with
        | some seconds => .ok (some seconds)
        | none => .error .raised
      else .ok none
  | some (.number literal) =>
      match Json.integerOf literal with
      | some seconds => .ok (if 0 ≤ seconds then some seconds.toNat else none)
      | none => .ok none
  | _ => .ok none

section Issued

variable [UnicodeDatabase]

/-- Neither absent nor a bearer token. -/
def otherKind : Option Json → Bool
  | none | some .null => false
  | some (.string kind) => lower kind ≠ "bearer"
  | some _ => true

def usableToken (token : Str) : Bool :=
  token ≠ [] && token.all UnicodeDatabase.printable && !token.contains ' '

def issued (recursionLimit : Nat) (body : Bytes) (system : Str) :
    Except ExchangeFault (Str × Option Nat) :=
  match (decodeUtf8 body).bind Json.loads with
  | some (.object entries) =>
      if recursionLimit < height (.object entries) then .error .raised
      else
        let doc := Dict.ofList entries
        match doc.get? "access_token" with
        | some (.string token) =>
            if !usableToken token then
              .error (.refused (message ["the token endpoint of ", system,
                " answered 200 without a usable access_token"]))
            else if otherKind (doc.get? "token_type") then
              .error (.refused (message ["the token endpoint of ", system,
                " issued a token that is not a bearer token"]))
            else (lifetimeOf (doc.get? "expires_in")).map fun lifetime => (token, lifetime)
        | _ => .error (.refused (message ["the token endpoint of ", system,
            " answered 200 without a usable access_token"]))
  | some doc =>
      if recursionLimit < height doc then .error .raised
      else .error (.refused (message ["the token endpoint of ", system,
        " answered 200 without a JSON object"]))
  | none => .error (.refused (message ["the token endpoint of ", system,
      " answered 200 without a JSON object"]))

end Issued

/-- A request for a token; of the credential set its version alone is compared. -/
structure TokenRequest where
  tenant : Str
  system : Str
  declaration : AccessDeclaration
  version : Int
deriving DecidableEq

def TokenRequest.key (request : TokenRequest) : Str × Str := (request.tenant, request.system)

inductive Request where
  | token (request : TokenRequest)
  | evict (tenant system token : Str)
deriving DecidableEq

def Request.key : Request → Str × Str
  | .token request => request.key
  | .evict tenant system _ => (tenant, system)

/-- How a call ends: with a token of its own exchange, with one held at that time, or without. -/
inductive Outcome (Time : Type) where
  | fresh (token : Str)
  | held (token : Str) (at_ : Time)
  | failed
  | timedOut
  | dropped

/-- Where a call stands. From `inside` to `leaving` it has the gate of its key. -/
inductive Stage (Time : Type) where
  | waiting
  | inside
  | popped
  | asked (at_ : Time)
  | issued (at_ : Time) (token : Str) (lifetime : Option Nat)
  | leaving (outcome : Outcome Time)
  | released (outcome : Outcome Time)
  | ended (outcome : Outcome Time)

structure Held (Time : Type) where
  version : Int
  digest : Str
  token : Str
  goodUntil : Time

/-- What is shared under one key: the call that has the gate, and the token held. -/
structure Slot (Time : Type) where
  gate : Option Nat
  held : Option (Held Time)

inductive Event (Time : Type) where
  | began (id : Nat) (request : Request)
  | issued (id : Nat) (request : TokenRequest) (at_ : Time) (token : Str) (lifetime : Option Nat)
  | dropped (id : Nat) (key : Str × Str) (token : Str)
  | ended (id : Nat) (request : Request)

structure Call (Time : Type) where
  request : Request
  stage : Stage Time

structure Proxy (Time : Type) where
  calls : Nat → Option (Call Time)
  count : Nat
  slots : Str × Str → Slot Time
  now : Time
  log : List (Event Time)

variable {Time : Type}

def Outcome.token? : Outcome Time → Option Str
  | .fresh token | .held token _ => some token
  | .failed | .timedOut | .dropped => none

/-- The token a call is about to return or has returned. -/
def Stage.token? : Stage Time → Option Str
  | .issued _ token _ => some token
  | .leaving outcome | .released outcome | .ended outcome => outcome.token?
  | .waiting | .inside | .popped | .asked _ => none

def Stage.hasGate : Stage Time → Bool
  | .inside | .popped | .asked _ | .issued _ _ _ | .leaving _ => true
  | .waiting | .released _ | .ended _ => false

/-- The stages behind the drop of what was held, without a new token stored. -/
def Stage.bare : Stage Time → Bool
  | .popped | .asked _ | .issued _ _ _ | .leaving .failed => true
  | _ => false

def Proxy.started (now : Time) : Proxy Time :=
  { calls := fun _ => none, count := 0, slots := fun _ => ⟨none, none⟩, now := now, log := [] }

def Proxy.beginCall (proxy : Proxy Time) (request : Request) : Proxy Time :=
  { proxy with
    calls := Function.update proxy.calls proxy.count (some ⟨request, .waiting⟩),
    count := proxy.count + 1,
    log := proxy.log ++ [.began proxy.count request] }

def Proxy.moveCall (proxy : Proxy Time) (id : Nat) (request : Request) (stage : Stage Time)
    (slot : Slot Time) (events : List (Event Time)) : Proxy Time :=
  { proxy with
    calls := Function.update proxy.calls id (some ⟨request, stage⟩),
    slots := Function.update proxy.slots request.key slot,
    log := proxy.log ++ events }

@[simp] theorem begin_calls (proxy : Proxy Time) (request : Request) :
    (proxy.beginCall request).calls =
      Function.update proxy.calls proxy.count (some ⟨request, .waiting⟩) := rfl

@[simp] theorem move_calls (proxy : Proxy Time) (id : Nat) (request : Request) (stage : Stage Time)
    (slot : Slot Time) (events : List (Event Time)) :
    (proxy.moveCall id request stage slot events).calls =
      Function.update proxy.calls id (some ⟨request, stage⟩) := rfl

@[simp] theorem move_slots (proxy : Proxy Time) (id : Nat) (request : Request) (stage : Stage Time)
    (slot : Slot Time) (events : List (Event Time)) :
    (proxy.moveCall id request stage slot events).slots =
      Function.update proxy.slots request.key slot := rfl

theorem begun_call {proxy : Proxy Time} {request : Request} {id : Nat} {call : Call Time}
    (found : (proxy.beginCall request).calls id = some call) :
    id ≠ proxy.count ∧ proxy.calls id = some call ∨
      id = proxy.count ∧ call = ⟨request, .waiting⟩ := by
  by_cases same : id = proxy.count
  · rw [begin_calls, same, Function.update_self] at found
    exact .inr ⟨same, (Option.some.inj found).symm⟩
  · rw [begin_calls, Function.update_of_ne same] at found
    exact .inl ⟨same, found⟩

theorem moved_call {proxy : Proxy Time} {id other : Nat} {request : Request} {stage : Stage Time}
    {slot : Slot Time} {events : List (Event Time)} {call : Call Time}
    (found : (proxy.moveCall id request stage slot events).calls other = some call) :
    other ≠ id ∧ proxy.calls other = some call ∨ other = id ∧ call = ⟨request, stage⟩ := by
  by_cases same : other = id
  · rw [move_calls, same, Function.update_self] at found
    exact .inr ⟨same, (Option.some.inj found).symm⟩
  · rw [move_calls, Function.update_of_ne same] at found
    exact .inl ⟨same, found⟩

section Moves

variable [UnicodeDatabase] [LT Time] (recursionLimit : Nat) (add : Time → Int → Option Time)

/-- Until when a token may be served again. The interpreter's addition of seconds raises on a
number too large for it. -/
def goodUntil (asked : Time) (lifetime : Nat) : Option Time :=
  (add asked lifetime).bind fun expires => add expires (-(refreshMarginSec : Int))

def Held.serves (held : Held Time) (request : TokenRequest) (now : Time) : Prop :=
  held.version = request.version ∧ held.digest = declarationDigest request.declaration ∧
    now < held.goodUntil

/-- What a call does next, on the slot of its key. -/
inductive Move (now : Time) (id : Nat) :
    Request → Slot Time → Stage Time → Stage Time → Slot Time → List (Event Time) → Prop
  | acquire {request held} :
      Move now id request ⟨none, held⟩ .waiting .inside ⟨some id, held⟩ []
  | timeOut {request slot} :
      Move now id (.token request) slot .waiting (.released .timedOut) slot []
  | serve {request gate held} (good : held.serves request now) :
      Move now id (.token request) ⟨gate, some held⟩ .inside (.leaving (.held held.token now))
        ⟨gate, some held⟩ []
  | pop {request gate held} (stale : ∀ one, held = some one → ¬one.serves request now) :
      Move now id (.token request) ⟨gate, held⟩ .inside .popped ⟨gate, none⟩ []
  | ask {request slot} : Move now id (.token request) slot .popped (.asked now) slot []
  | exchange {request slot asked body token lifetime}
      (answer : issued recursionLimit body request.system = .ok (token, lifetime)) :
      Move now id (.token request) slot (.asked asked) (.issued asked token lifetime) slot
        [.issued id request asked token lifetime]
  | fail {request slot asked} :
      Move now id (.token request) slot (.asked asked) (.leaving .failed) slot []
  | keep {request gate held asked token lifetime good} (long : refreshMarginSec < lifetime)
      (until_ : goodUntil add asked lifetime = some good) :
      Move now id (.token request) ⟨gate, held⟩ (.issued asked token (some lifetime))
        (.leaving (.fresh token))
        ⟨gate, some ⟨request.version, declarationDigest request.declaration, token, good⟩⟩ []
  | overflow {request slot asked token lifetime} (long : refreshMarginSec < lifetime)
      (raises : goodUntil add asked lifetime = none) :
      Move now id (.token request) slot (.issued asked token (some lifetime)) (.leaving .failed)
        slot []
  | spend {request slot asked token lifetime}
      (short : ∀ seconds, lifetime = some seconds → seconds ≤ refreshMarginSec) :
      Move now id (.token request) slot (.issued asked token lifetime) (.leaving (.fresh token))
        slot []
  | evict {tenant system token gate held} :
      Move now id (.evict tenant system token) ⟨gate, held⟩ .inside (.leaving .dropped)
        ⟨gate, held.filter (·.token ≠ token)⟩ [.dropped id (tenant, system) token]
  | release {request gate held outcome} :
      Move now id request ⟨gate, held⟩ (.leaving outcome) (.released outcome) ⟨none, held⟩ []
  | finish {request slot outcome} :
      Move now id request slot (.released outcome) (.ended outcome) slot
        [.ended id request]

/-- One step of the process: a call begins, time passes, or a call moves on. -/
inductive Step : Proxy Time → Proxy Time → Prop
  | begin {proxy} (request : Request) : Step proxy (proxy.beginCall request)
  | pass {proxy} (now : Time) : Step proxy { proxy with now := now }
  | move {proxy id call stage slot events} (found : proxy.calls id = some call)
      (moved : Move recursionLimit add proxy.now id call.request (proxy.slots call.request.key)
        call.stage stage slot events) :
      Step proxy (proxy.moveCall id call.request stage slot events)

/-- What a process can come to. -/
def Reachable (proxy : Proxy Time) : Prop :=
  ∃ now, Relation.ReflTransGen (Step recursionLimit add) (Proxy.started now) proxy

section Spec

variable {recursionLimit : Nat} {add : Time → Int → Option Time} {now : Time} {id : Nat}
variable {request : Request} {slot after : Slot Time} {stage next : Stage Time}
variable {events : List (Event Time)}

theorem move_foreign (moved : Move recursionLimit add now id request slot stage next after events)
    (own : stage.hasGate = true → slot.gate = some id) {other : Nat}
    (gated : slot.gate = some other) (apart : other ≠ id) : after = slot := by
  have absent : stage.hasGate = true → after = slot := by
    intro has
    rw [own has] at gated
    exact absurd (Option.some.inj gated).symm apart
  cases moved with
  | acquire => cases gated
  | timeOut => rfl
  | finish => rfl
  | _ => exact absent rfl

theorem move_gate (moved : Move recursionLimit add now id request slot stage next after events)
    (own : stage.hasGate = true → slot.gate = some id) (has : next.hasGate = true) :
    after.gate = some id := by
  cases moved with
  | acquire => rfl
  | timeOut => cases has
  | release => cases has
  | finish => cases has
  | _ => exact own rfl

theorem move_bare (moved : Move recursionLimit add now id request slot stage next after events)
    (own : stage.bare = true → slot.held = none) (bare : next.bare = true) : after.held = none := by
  cases moved with
  | pop => rfl
  | ask => exact own rfl
  | exchange => exact own rfl
  | fail => exact own rfl
  | overflow => exact own rfl
  | _ => cases bare

theorem move_held (moved : Move recursionLimit add now id request slot stage next after events)
    {held : Held Time} (found : after.held = some held) :
    slot.held = some held ∨ ∃ asked lifetime token, request = .token token ∧
      stage = .issued asked held.token (some lifetime) ∧ token.version = held.version ∧
      declarationDigest token.declaration = held.digest ∧
      goodUntil add asked lifetime = some held.goodUntil := by
  cases moved with
  | keep long until_ =>
      obtain rfl := Option.some.inj found
      exact .inr ⟨_, _, _, rfl, rfl, rfl, rfl, until_⟩
  | evict => exact .inl (Option.eq_some_of_filter_eq_some found)
  | pop => cases found
  | _ => exact .inl found

theorem move_token (moved : Move recursionLimit add now id request slot stage next after events)
    {token : Str} (found : next.token? = some token) :
    (stage.token? = some token ∧ (next.hasGate = true → stage.hasGate = true)) ∨
      (∃ held, slot.held = some held ∧ held.token = token) ∨
      ∃ asked lifetime asking, request = .token asking ∧
        .issued id asking asked token lifetime ∈ events := by
  cases moved with
  | serve => exact .inr (.inl ⟨_, rfl, Option.some.inj found⟩)
  | exchange =>
      obtain rfl := Option.some.inj found
      exact .inr (.inr ⟨_, _, _, rfl, List.mem_singleton.mpr rfl⟩)
  | keep => exact .inl ⟨found, fun _ => rfl⟩
  | spend => exact .inl ⟨found, fun _ => rfl⟩
  | release => exact .inl ⟨found, fun has => nomatch has⟩
  | finish => exact .inl ⟨found, fun has => nomatch has⟩
  | _ => cases found

theorem move_begins_none
    (moved : Move recursionLimit add now id request slot stage next after events)
    {other : Nat} {asking : Request} : .began other asking ∉ events := by
  cases moved with
  | exchange => simp
  | evict => simp
  | finish => simp
  | _ => exact List.not_mem_nil

theorem evict_spares {tenant system token : Str}
    (moved : Move recursionLimit add now id (.evict tenant system token) slot stage next after
      events)
    {held : Held Time} (found : slot.held = some held) (apart : held.token ≠ token) :
    after.held = some held := by
  cases moved with
  | evict => exact Option.filter_eq_some_iff.mpr ⟨found, by simpa using apart⟩
  | _ => exact found

end Spec

section Sound

variable {recursionLimit : Nat} {add : Time → Int → Option Time}

def Sourced (add : Time → Int → Option Time) (log : List (Event Time)) (key : Str × Str)
    (held : Held Time) : Prop :=
  ∃ id request asked lifetime, .issued id request asked held.token (some lifetime) ∈ log ∧
    request.key = key ∧ request.version = held.version ∧
    declarationDigest request.declaration = held.digest ∧
    goodUntil add asked lifetime = some held.goodUntil

def Accounted (add : Time → Int → Option Time) (log : List (Event Time)) (id : Nat)
    (request : TokenRequest) : Outcome Time → Prop
  | .fresh token => ∃ asked lifetime, .issued id request asked token lifetime ∈ log
  | .held token now => ∃ held : Held Time, held.token = token ∧ held.serves request now ∧
      Sourced add log request.key held
  | .failed | .timedOut | .dropped => True

def Settled (add : Time → Int → Option Time) (log : List (Event Time)) (id : Nat) :
    Request → Stage Time → Prop
  | .token request, .issued asked token lifetime => .issued id request asked token lifetime ∈ log
  | .token request, .leaving outcome | .token request, .released outcome
  | .token request, .ended outcome => Accounted add log id request outcome
  | .evict tenant system token, .leaving _ | .evict tenant system token, .released _
  | .evict tenant system token, .ended _ => .dropped id (tenant, system) token ∈ log
  | _, _ => True

structure Sound (add : Time → Int → Option Time) (proxy : Proxy Time) : Prop where
  known : ∀ id, proxy.count ≤ id → proxy.calls id = none
  gates : ∀ id call, proxy.calls id = some call → call.stage.hasGate = true →
    (proxy.slots call.request.key).gate = some id
  bare : ∀ id call, proxy.calls id = some call → call.stage.bare = true →
    (proxy.slots call.request.key).held = none
  sourced : ∀ key held, (proxy.slots key).held = some held → Sourced add proxy.log key held
  settled : ∀ id call, proxy.calls id = some call →
    Settled add proxy.log id call.request call.stage
  begun : ∀ id call, proxy.calls id = some call → .began id call.request ∈ proxy.log
  asking : ∀ id request asked token lifetime,
    .issued id request asked token lifetime ∈ proxy.log → .began id (.token request) ∈ proxy.log
  returned : ∀ before id tenant system token after,
    proxy.log = before ++ .ended id (.evict tenant system token) :: after →
      .dropped id (tenant, system) token ∈ before

omit [UnicodeDatabase] [LT Time] in
theorem bare_has_gate {stage : Stage Time} (bare : stage.bare = true) : stage.hasGate = true := by
  cases stage with
  | waiting | inside | released | ended => cases bare
  | popped | asked | issued | leaving => rfl

omit [UnicodeDatabase] [LT Time] in
theorem Sourced.append {log : List (Event Time)} {key : Str × Str} {held : Held Time}
    (sourced : Sourced add log key held) (events : List (Event Time)) :
    Sourced add (log ++ events) key held := by
  obtain ⟨id, request, asked, lifetime, member, rest⟩ := sourced
  exact ⟨id, request, asked, lifetime, List.mem_append_left _ member, rest⟩

omit [UnicodeDatabase] in
theorem Accounted.append {log : List (Event Time)} {id : Nat} {request : TokenRequest}
    {outcome : Outcome Time} (accounted : Accounted add log id request outcome)
    (events : List (Event Time)) : Accounted add (log ++ events) id request outcome := by
  cases outcome with
  | fresh token =>
      obtain ⟨asked, lifetime, member⟩ := accounted
      exact ⟨asked, lifetime, List.mem_append_left _ member⟩
  | held token now =>
      obtain ⟨held, same, serves, sourced⟩ := accounted
      exact ⟨held, same, serves, sourced.append events⟩
  | failed | timedOut | dropped => trivial

omit [UnicodeDatabase] in
theorem Settled.append {log : List (Event Time)} {id : Nat} {request : Request}
    {stage : Stage Time} (settled : Settled add log id request stage)
    (events : List (Event Time)) : Settled add (log ++ events) id request stage := by
  cases request with
  | token request =>
      cases stage with
      | issued => exact List.mem_append_left _ settled
      | leaving | released | ended => exact Accounted.append settled events
      | waiting | inside | popped | asked => trivial
  | evict =>
      cases stage with
      | leaving | released | ended => exact List.mem_append_left _ settled
      | waiting | inside | popped | asked | issued => trivial

omit [UnicodeDatabase] [LT Time] in
theorem cut_append {log events before after : List (Event Time)} {event : Event Time}
    (few : events.length ≤ 1) (cut : log ++ events = before ++ event :: after) :
    (∃ late, log = before ++ event :: late ∧ after = late ++ events) ∨
      events = [event] ∧ log = before ∧ after = [] := by
  match events, few with
  | [], _ => exact .inl ⟨after, by simpa using cut, by simp⟩
  | [one], _ =>
      rcases List.eq_nil_or_concat after with rfl | ⟨late, last, rfl⟩
      · obtain ⟨same, one_⟩ := List.append_inj' cut rfl
        exact .inr ⟨one_, same, rfl⟩
      · rw [List.concat_eq_append, ← List.cons_append, ← List.append_assoc] at cut
        obtain ⟨same, one_⟩ := List.append_inj' cut rfl
        exact .inl ⟨late, same, by rw [List.concat_eq_append, one_]⟩

variable {now : Time} {id : Nat} {request : Request} {slot after : Slot Time}
variable {stage next : Stage Time} {events : List (Event Time)}

theorem move_few (moved : Move recursionLimit add now id request slot stage next after events) :
    events.length ≤ 1 := by
  cases moved with
  | _ => simp

theorem move_settled (moved : Move recursionLimit add now id request slot stage next after events)
    {log : List (Event Time)} (settled : Settled add log id request stage)
    (sourced : ∀ held, slot.held = some held → Sourced add log request.key held) :
    Settled add (log ++ events) id request next := by
  cases moved with
  | serve good =>
      exact ⟨_, rfl, good, (sourced _ rfl).append []⟩
  | exchange => exact List.mem_append_right _ List.mem_cons_self
  | keep => exact ⟨_, _, List.mem_append_left _ settled⟩
  | spend => exact ⟨_, _, List.mem_append_left _ settled⟩
  | evict => exact List.mem_append_right _ List.mem_cons_self
  | release =>
      cases request with
      | token => exact Accounted.append settled []
      | evict => exact List.mem_append_left _ settled
  | finish =>
      cases request with
      | token => exact Accounted.append settled _
      | evict => exact List.mem_append_left _ settled
  | acquire => cases request <;> trivial
  | _ => trivial

theorem move_asking (moved : Move recursionLimit add now id request slot stage next after events)
    {other : Nat} {asking : TokenRequest} {asked : Time} {token : Str} {lifetime : Option Nat}
    (member : .issued other asking asked token lifetime ∈ events) :
    other = id ∧ request = .token asking := by
  cases moved with
  | exchange =>
      have same := List.mem_singleton.mp member
      simp only [Event.issued.injEq] at same
      exact ⟨same.1, by rw [same.2.1]⟩
  | evict => simp at member
  | finish => simp at member
  | _ => cases member

theorem move_returned (moved : Move recursionLimit add now id request slot stage next after events)
    {other : Nat} {tenant system token : Str}
    (same : events = [.ended other (.evict tenant system token)]) :
    other = id ∧ request = .evict tenant system token ∧ ∃ outcome, stage = .released outcome := by
  cases moved with
  | finish =>
      simp only [List.cons.injEq, Event.ended.injEq, and_true] at same
      exact ⟨same.1.symm, same.2, _, rfl⟩
  | _ => cases same

omit [UnicodeDatabase] in
theorem begin_sound {proxy : Proxy Time} (sound : Sound add proxy) (asked : Request) :
    Sound add (proxy.beginCall asked) := by
  refine ⟨?_, ?_, ?_, ?_, ?_, ?_, ?_, ?_⟩
  · intro id past
    have apart : id ≠ proxy.count := Nat.ne_of_gt past
    rw [begin_calls, Function.update_of_ne apart]
    exact sound.known id (Nat.le_of_succ_le past)
  · intro id call found has
    rcases begun_call found with ⟨-, before⟩ | ⟨-, rfl⟩
    · exact sound.gates id call before has
    · cases has
  · intro id call found bare
    rcases begun_call found with ⟨-, before⟩ | ⟨-, rfl⟩
    · exact sound.bare id call before bare
    · cases bare
  · exact fun key held found => (sound.sourced key held found).append _
  · intro id call found
    rcases begun_call found with ⟨-, before⟩ | ⟨-, rfl⟩
    · exact (sound.settled id call before).append _
    · cases asked <;> trivial
  · intro id call found
    rcases begun_call found with ⟨-, before⟩ | ⟨rfl, rfl⟩
    · exact List.mem_append_left _ (sound.begun id call before)
    · exact List.mem_append_right _ List.mem_cons_self
  · intro id request asked token lifetime member
    rcases List.mem_append.mp member with early | late
    · exact List.mem_append_left _ (sound.asking _ _ _ _ _ early)
    · simp at late
  · intro before id tenant system token after cut
    rcases cut_append (Nat.le_refl _) cut with ⟨late, whole, -⟩ | ⟨wrong, -⟩
    · exact sound.returned _ _ _ _ _ _ whole
    · simp at wrong

theorem move_sound {proxy : Proxy Time} (sound : Sound add proxy) {call : Call Time}
    (found : proxy.calls id = some call) (moved : Move recursionLimit add proxy.now id call.request
      (proxy.slots call.request.key) call.stage next after events) :
    Sound add (proxy.moveCall id call.request next after events) := by
  have own := sound.gates id call found
  have sourcedHere : ∀ held, (proxy.slots call.request.key).held = some held →
      Sourced add proxy.log call.request.key held := fun held => sound.sourced _ held
  have slotHere : (proxy.moveCall id call.request next after events).slots call.request.key =
      after := Function.update_self ..
  have slotThere : ∀ {key}, key ≠ call.request.key →
      (proxy.moveCall id call.request next after events).slots key = proxy.slots key :=
    fun apart => Function.update_of_ne apart ..
  -- a call with the gate of its key finds its slot as it was
  have gated : ∀ {id' call'}, id' ≠ id → proxy.calls id' = some call' →
      call'.stage.hasGate = true →
      (proxy.moveCall id call.request next after events).slots call'.request.key =
        proxy.slots call'.request.key := by
    intro id' call' apart there has
    by_cases same : call'.request.key = call.request.key
    · have gate := sound.gates id' call' there has
      rw [same] at gate ⊢
      rw [slotHere]
      exact move_foreign moved own gate apart
    · exact slotThere same
  refine ⟨?_, ?_, ?_, ?_, ?_, ?_, ?_, ?_⟩
  · intro id' past
    have apart : id' ≠ id := by
      rintro rfl
      rw [sound.known id' past] at found
      cases found
    rw [move_calls, Function.update_of_ne apart]
    exact sound.known id' past
  · intro id' call' there has
    rcases moved_call there with ⟨apart, before⟩ | ⟨rfl, rfl⟩
    · rw [gated apart before has]
      exact sound.gates id' call' before has
    · rw [slotHere]
      exact move_gate moved own has
  · intro id' call' there bare
    rcases moved_call there with ⟨apart, before⟩ | ⟨rfl, rfl⟩
    · rw [gated apart before (bare_has_gate bare)]
      exact sound.bare id' call' before bare
    · rw [slotHere]
      exact move_bare moved (sound.bare id' call found) bare
  · intro key held there
    by_cases same : key = call.request.key
    · subst same
      rw [slotHere] at there
      rcases move_held moved there with before | ⟨asked, lifetime, token, asks, stage, rest⟩
      · exact (sourcedHere held before).append events
      · have settled := sound.settled id call found
        rw [asks, stage] at settled
        exact ⟨id, token, asked, lifetime, List.mem_append_left _ settled, by rw [asks]; rfl, rest⟩
    · rw [slotThere same] at there
      exact (sound.sourced key held there).append events
  · intro id' call' there
    rcases moved_call there with ⟨-, before⟩ | ⟨rfl, rfl⟩
    · exact (sound.settled id' call' before).append events
    · exact move_settled moved (sound.settled id' call found) sourcedHere
  · intro id' call' there
    rcases moved_call there with ⟨-, before⟩ | ⟨rfl, rfl⟩
    · exact List.mem_append_left _ (sound.begun id' call' before)
    · exact List.mem_append_left _ (sound.begun id' call found)
  · intro id' request asked token lifetime member
    rcases List.mem_append.mp member with early | late
    · exact List.mem_append_left _ (sound.asking _ _ _ _ _ early)
    · obtain ⟨rfl, asks⟩ := move_asking moved late
      rw [← asks]
      exact List.mem_append_left _ (sound.begun id' call found)
  · intro before id' tenant system token late cut
    rcases cut_append (move_few moved) cut with ⟨rest, whole, -⟩ | ⟨last, rfl, -⟩
    · exact sound.returned _ _ _ _ _ _ whole
    · obtain ⟨rfl, evicts, outcome, stage⟩ := move_returned moved last
      have settled := sound.settled id' call found
      rw [evicts, stage] at settled
      exact settled

theorem step_sound {proxy proxy' : Proxy Time} (step : Step recursionLimit add proxy proxy')
    (sound : Sound add proxy) : Sound add proxy' := by
  cases step with
  | begin request => exact begin_sound sound request
  | pass now => exact ⟨sound.known, sound.gates, sound.bare, sound.sourced, sound.settled,
      sound.begun, sound.asking, sound.returned⟩
  | move found moved => exact move_sound sound found moved

omit [UnicodeDatabase] in
theorem started_sound (now : Time) : Sound add (Proxy.started now) := by
  refine ⟨fun _ _ => rfl, nofun, nofun, nofun, nofun, nofun, nofun, ?_⟩
  intro before id tenant system token after cut
  simp [Proxy.started] at cut

def Reissued (late : List (Event Time)) (key : Str × Str) (token : Str) : Prop :=
  ∃ id request asked lifetime, .issued id request asked token lifetime ∈ late ∧ request.key = key

/-- What holds from the drop of a token on, `late` being the events since: no slot and no call that
could hand the token to a later request has it, unless it was issued again. -/
structure Clear (proxy : Proxy Time) (key : Str × Str) (token : Str) (late : List (Event Time)) :
    Prop where
  held : ∀ held, (proxy.slots key).held = some held → held.token = token → Reissued late key token
  gated : ∀ id call, proxy.calls id = some call → call.request.key = key →
    call.stage.hasGate = true → call.stage.token? = some token → Reissued late key token
  begun : ∀ id request call, .began id request ∈ late → proxy.calls id = some call →
    call.request.key = key → call.stage.token? = some token → Reissued late key token

omit [UnicodeDatabase] [LT Time] in
theorem Reissued.append {late : List (Event Time)} {key : Str × Str} {token : Str}
    (reissued : Reissued late key token) (events : List (Event Time)) :
    Reissued (late ++ events) key token := by
  obtain ⟨id, request, asked, lifetime, member, rest⟩ := reissued
  exact ⟨id, request, asked, lifetime, List.mem_append_left _ member, rest⟩

omit [UnicodeDatabase] [LT Time] in
theorem begin_clear {proxy : Proxy Time} {key : Str × Str} {token : Str}
    {late : List (Event Time)} (clear : Clear proxy key token late) (asked : Request) :
    Clear (proxy.beginCall asked) key token (late ++ [.began proxy.count asked]) := by
  have other : ∀ {id call}, (proxy.beginCall asked).calls id = some call →
      call.stage.token? = some token → id ≠ proxy.count ∧ proxy.calls id = some call := by
    intro id call found returns
    rcases begun_call found with before | ⟨-, rfl⟩
    · exact before
    · cases returns
  constructor
  · exact fun held found same => (clear.held held found same).append _
  · intro id call found keyed has returns
    exact (clear.gated id call (other found returns).2 keyed has returns).append _
  · intro id request call began found keyed returns
    have before := other found returns
    rcases List.mem_append.mp began with early | last
    · exact (clear.begun id request call early before.2 keyed returns).append _
    · have same := List.mem_singleton.mp last
      simp only [Event.began.injEq] at same
      exact absurd same.1 before.1

theorem move_clear {proxy : Proxy Time} {call : Call Time} {key : Str × Str} {token : Str}
    {late : List (Event Time)} (clear : Clear proxy key token late)
    (found : proxy.calls id = some call) (moved : Move recursionLimit add proxy.now id call.request
      (proxy.slots call.request.key) call.stage next after events) :
    Clear (proxy.moveCall id call.request next after events) key token (late ++ events) := by
  -- where the token of the call itself can come from
  have own : call.request.key = key → next.token? = some token →
      Reissued (late ++ events) key token ∨ call.stage.token? = some token ∧
        (next.hasGate = true → call.stage.hasGate = true) := by
    intro keyed returns
    rcases move_token moved returns with before | ⟨held, there, same⟩ | ⟨asked, lifetime, asking,
      asks, issue⟩
    · exact .inr before
    · rw [keyed] at there
      exact .inl ((clear.held held there same).append _)
    · rw [asks] at keyed
      exact .inl ⟨id, asking, asked, lifetime, List.mem_append_right _ issue, keyed⟩
  constructor
  · intro held there same
    by_cases keyed : key = call.request.key
    · subst keyed
      rw [move_slots, Function.update_self] at there
      rcases move_held moved there with before | ⟨asked, lifetime, asking, asks, stage, -⟩
      · exact (clear.held held before same).append _
      · have has : call.stage.hasGate = true := by rw [stage]; rfl
        have returns : call.stage.token? = some token := by rw [stage, ← same]; rfl
        exact (clear.gated id call found rfl has returns).append _
    · rw [move_slots, Function.update_of_ne keyed] at there
      exact (clear.held held there same).append _
  · intro id' call' there keyed has returns
    rcases moved_call there with ⟨-, before⟩ | ⟨rfl, rfl⟩
    · exact (clear.gated id' call' before keyed has returns).append _
    · rcases own keyed returns with reissued | ⟨before, gate⟩
      · exact reissued
      · exact (clear.gated id' call found keyed (gate has) before).append _
  · intro id' request call' began there keyed returns
    have early : .began id' request ∈ late := by
      rcases List.mem_append.mp began with early | last
      · exact early
      · exact absurd last (move_begins_none moved)
    rcases moved_call there with ⟨-, before⟩ | ⟨rfl, rfl⟩
    · exact (clear.begun id' request call' early before keyed returns).append _
    · rcases own keyed returns with reissued | ⟨before, -⟩
      · exact reissued
      · exact (clear.begun id' request call early found keyed before).append _

theorem move_dropped (moved : Move recursionLimit add now id request slot stage next after events)
    {dropper : Nat} {key : Str × Str} {token : Str}
    (drops : events = [.dropped dropper key token]) :
    request.key = key ∧ stage = .inside ∧ next = .leaving .dropped ∧
      ∀ held, after.held = some held → held.token ≠ token := by
  cases moved with
  | evict =>
      simp only [List.cons.injEq, Event.dropped.injEq, and_true] at drops
      obtain ⟨-, keyed, rfl⟩ := drops
      refine ⟨keyed, rfl, rfl, ?_⟩
      intro held left
      simpa using (Option.filter_eq_some_iff.mp left).2
  | _ => cases drops

theorem evict_clear {proxy : Proxy Time} {call : Call Time} {dropper : Nat} {key : Str × Str}
    {token : Str} (sound : Sound add proxy) (found : proxy.calls id = some call)
    (moved : Move recursionLimit add proxy.now id call.request (proxy.slots call.request.key)
      call.stage next after [.dropped dropper key token]) :
    Clear (proxy.moveCall id call.request next after [.dropped dropper key token]) key token
      [] := by
  obtain ⟨keyed, stage, leaves, dropped⟩ := move_dropped moved rfl
  have mine : (proxy.slots key).gate = some id := by
    rw [← keyed]
    exact sound.gates id call found (by rw [stage]; rfl)
  constructor
  · intro held there same
    rw [move_slots, keyed, Function.update_self] at there
    exact absurd same (dropped held there)
  · intro id' call' there keyed' has returns
    rcases moved_call there with ⟨apart, before⟩ | ⟨-, rfl⟩
    · have gate := sound.gates id' call' before has
      rw [keyed', mine] at gate
      exact absurd (Option.some.inj gate).symm apart
    · rw [leaves] at returns
      cases returns
  · intro id' request call' began
    cases began

def Evicted (proxy : Proxy Time) : Prop :=
  ∀ before id key token late, proxy.log = before ++ .dropped id key token :: late →
    Clear proxy key token late

theorem step_evicted {proxy proxy' : Proxy Time} (step : Step recursionLimit add proxy proxy')
    (sound : Sound add proxy) (evicted : Evicted proxy) : Evicted proxy' := by
  intro before id key token late cut
  cases step with
  | begin request =>
      rcases cut_append (Nat.le_refl _) cut with ⟨rest, whole, rfl⟩ | ⟨wrong, -⟩
      · exact begin_clear (evicted before id key token rest whole) request
      · cases wrong
  | pass now =>
      have clear := evicted before id key token late cut
      exact ⟨clear.held, clear.gated, clear.begun⟩
  | move found moved =>
      rcases cut_append (move_few moved) cut with ⟨rest, whole, rfl⟩ | ⟨drops, -, rfl⟩
      · exact move_clear (evicted before id key token rest whole) found moved
      · subst drops
        exact evict_clear sound found moved

theorem reachable_evicted {proxy : Proxy Time} (reached : Reachable recursionLimit add proxy) :
    Sound add proxy ∧ Evicted proxy := by
  obtain ⟨now, run⟩ := reached
  induction run with
  | refl =>
      refine ⟨started_sound now, ?_⟩
      intro before id key token late cut
      simp [Proxy.started] at cut
  | tail _ step both => exact ⟨step_sound step both.1, step_evicted step both.1 both.2⟩

end Sound

variable {recursionLimit : Nat} {add : Time → Int → Option Time}

def Distinguished (log : List (Event Time)) : Prop :=
  ∀ id request id' request', .began id (.token request) ∈ log → .began id' (.token request') ∈ log →
    declarationDigest request.declaration = declarationDigest request'.declaration →
      request.declaration.canonical = request'.declaration.canonical

/-- What the tokens a process hands out and holds come to. -/
structure Guarded (recursionLimit : Nat) (add : Time → Int → Option Time) (proxy : Proxy Time) :
    Prop where
  served : ∀ id request outcome token, proxy.calls id = some ⟨.token request, .ended outcome⟩ →
    outcome.token? = some token →
      (∃ asked lifetime, .issued id request asked token lifetime ∈ proxy.log) ∨
        ∃ now asker asking asked lifetime good, outcome = .held token now ∧
          .issued asker asking asked token (some lifetime) ∈ proxy.log ∧
          asking.tenant = request.tenant ∧ asking.system = request.system ∧
          asking.version = request.version ∧ asking.declaration = request.declaration ∧
          goodUntil add asked lifetime = some good ∧ now < good
  evicted : ∀ early evictor tenant system token late id request outcome,
    proxy.log = early ++ .ended evictor (.evict tenant system token) :: late →
      .began id (.token request) ∈ late → request.tenant = tenant → request.system = system →
      proxy.calls id = some ⟨.token request, .ended outcome⟩ → outcome.token? = some token →
        ∃ before since, proxy.log = before ++ .dropped evictor (tenant, system) token :: since ∧
          ∃ asker asking asked lifetime, .issued asker asking asked token lifetime ∈ since ∧
            asking.tenant = tenant ∧ asking.system = system
  spared : ∀ id tenant system token stage next slot events,
    proxy.calls id = some ⟨.evict tenant system token, stage⟩ →
      Move recursionLimit add proxy.now id (.evict tenant system token)
        (proxy.slots (tenant, system)) stage next slot events →
      ∀ key held, (proxy.slots key).held = some held → held.token ≠ token ∨ key ≠ (tenant, system) →
        ((proxy.moveCall id (.evict tenant system token) next slot events).slots key).held =
          some held
  failed : ∀ id request, proxy.calls id = some ⟨.token request, .leaving .failed⟩ →
    (proxy.slots request.key).held = none

/-- **Tokens held are never stale.** In any order of requests, evictions and the passing of time,
with exchanges that fail or answer anything, a token comes from the request's own exchange or from
one for its very tenant, system, version and declaration that is not about to expire; one evicted
comes back to a later request only where it was issued again; an eviction spares every other token;
and a failed exchange leaves none. -/
theorem access_tokens_guarded {proxy : Proxy Time} (reached : Reachable recursionLimit add proxy)
    (distinguished : Distinguished proxy.log) : Guarded recursionLimit add proxy := by
  obtain ⟨sound, evicted⟩ := reachable_evicted reached
  constructor
  · intro id request outcome token found returns
    have accounted := sound.settled id _ found
    cases outcome with
    | fresh fresh =>
        obtain rfl := Option.some.inj returns
        exact .inl accounted
    | held served now =>
        obtain rfl := Option.some.inj returns
        obtain ⟨held, rfl, ⟨version, digest, good⟩, asker, asking, asked, lifetime, issue, keyed,
          asVersion, asDigest, until_⟩ := accounted
        have texts := distinguished _ _ _ _ (sound.asking _ _ _ _ _ issue) (sound.begun id _ found)
          (asDigest.trans digest)
        obtain ⟨tenants, systems⟩ := Prod.mk.inj keyed
        exact .inr ⟨now, asker, asking, asked, lifetime, held.goodUntil, rfl, issue, tenants,
          systems, asVersion.trans version, canonical_injective texts, until_, good⟩
    | failed | timedOut | dropped => cases returns
  · intro early evictor tenant system token late id request outcome whole began tenants systems
      found returns
    obtain ⟨before, since, cut⟩ :=
      List.append_of_mem (sound.returned _ _ _ _ _ _ whole)
    have dropped : proxy.log = before ++ .dropped evictor (tenant, system) token ::
        (since ++ .ended evictor (.evict tenant system token) :: late) := by
      rw [whole, cut, List.append_assoc, List.cons_append]
    obtain ⟨asker, asking, asked, lifetime, issue, keyed⟩ :=
      (evicted _ _ _ _ _ dropped).begun id _ _
        (List.mem_append_right _ (List.mem_cons_of_mem _ began)) found
        (Prod.ext tenants systems) returns
    obtain ⟨asTenant, asSystem⟩ := Prod.mk.inj keyed
    exact ⟨before, _, dropped, asker, asking, asked, lifetime, issue, asTenant, asSystem⟩
  · intro id tenant system token stage next slot events _ moved key held found other
    by_cases same : key = (tenant, system)
    · subst same
      rw [move_slots, Request.key, Function.update_self]
      exact evict_spares moved found (other.resolve_right (not_not_intro rfl))
    · rw [move_slots, Request.key, Function.update_of_ne same]
      exact found
  · intro id request found
    exact sound.bare id _ found rfl

end Moves

/-- A token good for a minute is issued, served from what is held ten seconds later and evicted;
the exchange of the next request fails. -/
theorem access_tokens_guarded_minute :
    let _ : UnicodeDatabase := asciiDatabase
    let add : Int → Int → Option Int := fun time seconds => some (time + seconds)
    let asking : TokenRequest :=
      { tenant := "t".toList, system := "s".toList, version := 3,
        declaration := ⟨"https://s".toList,
          ⟨"oauth_client_credentials".toList, none, none, some "https://s/t".toList, []⟩, [], [],
          none⟩ }
    let evicting : Request := .evict "t".toList "s".toList "x".toList
    ∃ proxy, Reachable 1000 add proxy ∧
      proxy.calls 0 = some ⟨.token asking, .ended (.fresh "x".toList)⟩ ∧
      proxy.calls 1 = some ⟨.token asking, .ended (.held "x".toList 10)⟩ ∧
      proxy.calls 2 = some ⟨evicting, .ended .dropped⟩ ∧
      proxy.calls 3 = some ⟨.token asking, .ended .failed⟩ ∧
      Guarded 1000 add proxy := by
  intro _ add asking evicting
  let doc : Json := .object [("access_token".toList, .string "x".toList),
    ("expires_in".toList, .number "60".toList)]
  have read : (decodeUtf8 (encodeUtf8 doc.dumps)).bind Json.loads = some doc := by
    rw [(decode_utf8_iff _ _).mpr rfl, Option.bind_some, Json.loads_dumps doc (by decide)]
  have answer : issued 1000 (encodeUtf8 doc.dumps) asking.system = .ok ("x".toList, some 60) := by
    rw [issued, read]
    decide
  have fetched : Relation.ReflTransGen (Step 1000 add) (Proxy.started 0) _ :=
    .tail (.tail (.tail (.tail (.tail (.tail (.tail (.tail .refl
    (.begin (.token asking)))
    (.move (Function.update_self ..) .acquire))
    (.move (Function.update_self ..) (.pop nofun)))
    (.move (Function.update_self ..) .ask))
    (.move (Function.update_self ..) (.exchange answer)))
    (.move (Function.update_self ..) (.keep (by decide) rfl)))
    (.move (Function.update_self ..) .release))
    (.move (Function.update_self ..) .finish)
  have served := (((((fetched.tail (.pass 10)).tail (.begin (.token asking))).tail
    (.move (Function.update_self ..) .acquire)).tail
    (.move (Function.update_self ..) (.serve ⟨rfl, rfl, by decide⟩))).tail
    (.move (Function.update_self ..) .release)).tail
    (.move (Function.update_self ..) .finish)
  have dropped := ((((served.tail (.begin evicting)).tail
    (.move (Function.update_self ..) .acquire)).tail
    (.move (Function.update_self ..) .evict)).tail
    (.move (Function.update_self ..) .release)).tail
    (.move (Function.update_self ..) .finish)
  have run := ((((((dropped.tail (.begin (.token asking))).tail
    (.move (Function.update_self ..) .acquire)).tail
    (.move (Function.update_self ..) (.pop (by simp)))).tail
    (.move (Function.update_self ..) .ask)).tail
    (.move (Function.update_self ..) .fail)).tail
    (.move (Function.update_self ..) .release)).tail
    (.move (Function.update_self ..) .finish)
  refine ⟨_, ⟨0, run⟩, rfl, rfl, rfl, rfl, access_tokens_guarded ⟨0, run⟩ ?_⟩
  intro id request id' request' began began' _
  simp only [Proxy.moveCall, Proxy.beginCall, Proxy.started, evicting, List.mem_append,
    List.mem_singleton, List.not_mem_nil, Event.began.injEq, Request.token.injEq, reduceCtorEq,
    and_false, or_false, false_or] at began began'
  have first : request = asking := by tauto
  have second : request' = asking := by tauto
  rw [first, second]

end Defender.CredentialProxy
