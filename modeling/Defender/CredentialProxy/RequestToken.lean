import Defender.Filesystem.TableFile
import Defender.Invlang.Validate.Ceiling
import Defender.Learning.JudgePointers
import Defender.Library.Base64
import Defender.Python.JsonCompact
import Mathlib.Algebra.BigOperators.Group.List.Basic

/-!
# Request tokens

A token is the claims of a run, as base64 of their JSON, and a signature over that text. The
launcher writes tokens of any length; the proxy reads none longer than `MAX_TOKEN_CHARS`.
-/

namespace Defender.CredentialProxy

open Defender.Python Defender.Library Defender.Library.Wire Defender.Library.OrderedDict
open Defender.Execution (encodeUtf8 decodeUtf8 decode_utf8_iff)
open Defender.Filesystem (height heightItems heightEntries encode_ascii_char)
open Defender.Invlang (isSystemName)
open Defender.Learning.Judge (isUuidText)

def modes : List Str := ["r", "rw"]

/-- In order. -/
def claimKeys : List Str := ["exp", "grant", "investigation", "tenant"]

def maxTokenChars : Nat := 16384

def maxInvestigationChars : Nat := 128

structure Claims where
  tenant : Str
  investigation : Str
  grant : Dict Str Str
  exp : Int

/-- `ConfigFault`, or the interpreter's own refusal to decode what is nested too deep. -/
inductive TokenFault where
  | config (detail : Str)
  | recursion

/-- An aware datetime, in microseconds since the epoch; the calendar ends within the bound. -/
structure AwareTime where
  microseconds : Int
  bounded : microseconds.natAbs < 2 ^ 38 * 10 ^ 6

/-- `int(expires_at.timestamp())`: the nearest number of 53 bits, half to even, then towards
zero. -/
def wholeSeconds (time : AwareTime) : Int :=
  let total := time.microseconds.natAbs
  let scale := 2 ^ (52 - (total / 10 ^ 6).log2)
  let units := total * scale / 10 ^ 6
  let rest := total * scale % 10 ^ 6
  let rounded :=
    if 2 * rest < 10 ^ 6 ∨ 2 * rest = 10 ^ 6 ∧ units % 2 = 0 then units else units + 1
  time.microseconds.sign * (rounded / scale : Nat)

section Claims

def tenantClaim : Option Json → Except TokenFault Str
  | some (.string tenant) =>
      if isUuidText tenant then .ok tenant
      else .error (.config "a request token must name one tenant id")
  | _ => .error (.config "a request token must name one tenant id")

def investigationClaim : Option Json → Except TokenFault Str
  | some (.string investigation) =>
      if investigation = [] ∨ maxInvestigationChars < investigation.length then
        .error (.config "a request token must name one investigation")
      else .ok investigation
  | _ => .error (.config "a request token must name one investigation")

def expiryClaim (held : Option Json) : Except TokenFault Int :=
  match held.bind Json.asInt with
  | some exp => .ok exp
  | none => .error (.config "a request token's expiry must be whole Unix seconds")

variable [UnicodeDatabase]

def grantEntry (granted : Dict Str Str) : Json → Except TokenFault (Dict Str Str)
  | .array [.string system, .string mode] =>
      if isSystemName system = false then
        .error (.config (message ["a request token may not grant ", reprText system,
          ": not a system name"]))
      else if mode ∉ modes then
        .error (.config (message ["a request token grants ", system, " with mode ", reprText mode,
          ", not one of ", reprList modes]))
      else if granted.contains system then
        .error (.config (message ["a request token grants ", system, " twice"]))
      else .ok (granted.set system mode)
  | _ => .error (.config "a request token's grant must be a list of [system, mode]")

def grantClaim : Option Json → Except TokenFault (Dict Str Str)
  | some (.array entries) => entries.foldlM grantEntry Dict.empty
  | _ => .error (.config "a request token's grant must be a list of [system, mode]")

/-- `_claims_of`. -/
def claimsOf (doc : Dict Str Json) : Except TokenFault Claims := do
  if !(claimKeys.all doc.contains && doc.keys.all claimKeys.contains) then
    throw (.config (message ["request token claims must be exactly ", reprList claimKeys]))
  let tenant ← tenantClaim (doc.get? "tenant")
  let investigation ← investigationClaim (doc.get? "investigation")
  let exp ← expiryClaim (doc.get? "exp")
  let grant ← grantClaim (doc.get? "grant")
  return ⟨tenant, investigation, grant, exp⟩

end Claims

def grantJson (entry : Str × Str) : Json := .array [.string entry.1, .string entry.2]

/-- The claims of a token, their keys in order. -/
def claimEntries (tenantId investigation : Str) (grant : List (Str × Str)) (exp : Int) :
    List (Str × Json) :=
  [("exp", .number (showInt exp)), ("grant", .array (grant.map grantJson)),
    ("investigation", .string investigation), ("tenant", .string tenantId)]

/-- The order of `[system, mode]` lists. -/
def grantLe (left right : Str × Str) : Bool :=
  if left.1 = right.1 then textLe left.2 right.2 else textLe left.1 right.1

def sortedGrant (grant : List (Str × Str)) : List (Str × Str) :=
  grant.insertionSort fun left right => grantLe left right = true

def claimsText (tenantId investigation : Str) (grant : List (Str × Str)) (exp : Int) : Str :=
  (Json.object (claimEntries tenantId investigation (sortedGrant grant) exp)).compact

def payloadText (tenantId investigation : Str) (grant : List (Str × Str)) (exp : Int) : Str :=
  Base64.encode (encodeUtf8 (claimsText tenantId investigation grant exp))

section Tokens

variable [UnicodeDatabase] (sign : Bytes → Str) (recursionLimit : Nat)

def mintRequestToken (tenantId investigation : Str) (grant : List (Str × Str))
    (expiresAt : Option AwareTime) : Except TokenFault Str :=
  match expiresAt with
  | none => .error (.config "a request token's expiry must be an aware datetime")
  | some time =>
      let exp := wholeSeconds time
      (claimsOf (Dict.ofList (claimEntries tenantId investigation grant exp))).map fun _ =>
        let payload := payloadText tenantId investigation grant exp
        payload ++ '.' :: sign (encodeUtf8 payload)

/-- `[A-Za-z0-9_-]+` on the whole text. -/
def isPayload (text : Str) : Bool :=
  text ≠ [] && text.all fun char => char.isAlphanum || char = '_' || char = '-'

def splitToken (token : Str) : Except TokenFault (Bytes × Str × Claims) :=
  if maxTokenChars < token.length then
    .error (.config "the request token is too long to be one")
  else
    let (payload, dot, signature) := partition ['.'] token
    if !dot || signature = [] || !isPayload payload then
      .error (.config "the request token is not in the token wire form")
    else
      match ((Base64.decode payload).bind decodeUtf8).bind Json.loads with
      | none => .error (.config "the request token's claims do not decode")
      | some doc =>
          if recursionLimit < height doc then .error .recursion
          else
            match doc with
            | .object entries => (claimsOf (Dict.ofList entries)).map fun claims =>
                (encodeUtf8 payload, signature, claims)
            | _ => .error (.config "the request token's claims are not an object")

end Tokens

section Grants

def Grantable (grant : List (Str × Str)) : Prop :=
  (∀ entry ∈ grant, isSystemName entry.1 = true ∧ entry.2 ∈ modes) ∧ (grant.map Prod.fst).Nodup

variable [UnicodeDatabase]

theorem grant_entry_ok (granted after : Dict Str Str) (entry : Str × Str) :
    grantEntry granted (grantJson entry) = .ok after ↔
      (isSystemName entry.1 = true ∧ entry.2 ∈ modes) ∧ entry.1 ∉ granted.keys ∧
        granted.set entry.1 entry.2 = after := by
  have refused : ∀ fault : TokenFault, Except.error fault ≠ Except.ok after := by
    intro fault same
    cases same
  rw [grantJson, grantEntry]
  split
  · rename_i unnamed
    refine ⟨fun same => absurd same (refused _), fun accepted => ?_⟩
    rw [accepted.1.1] at unnamed
    contradiction
  · rename_i named
    split
    · rename_i unknown
      exact ⟨fun same => absurd same (refused _), fun accepted => absurd accepted.1.2 unknown⟩
    · rename_i known
      split
      · rename_i twice
        exact ⟨fun same => absurd same (refused _),
          fun accepted => absurd ((granted.contains_iff _).mp twice) accepted.2.1⟩
      · rename_i fresh
        rw [Dict.contains_iff] at fresh
        rw [Except.ok.injEq]
        exact ⟨fun same => ⟨⟨Bool.eq_true_of_not_eq_false named, not_not.mp known⟩, fresh, same⟩,
          fun accepted => accepted.2.2⟩

theorem grant_entries_ok (grant : List (Str × Str)) (granted after : Dict Str Str) :
    (grant.map grantJson).foldlM grantEntry granted = .ok after ↔
      Grantable grant ∧ (∀ entry ∈ grant, entry.1 ∉ granted.keys) ∧
        grant.foldl (fun held entry => held.set entry.1 entry.2) granted = after := by
  induction grant generalizing granted with
  | nil => simp [pure, Except.pure, Grantable]
  | cons entry grant ih =>
      have keys : entry.1 ∉ granted.keys →
          (granted.set entry.1 entry.2).keys = granted.keys ++ [entry.1] := fun fresh => by
        rw [Dict.keys_set, if_neg fresh]
      simp only [List.map_cons, List.foldlM_cons, except_bind_ok, grant_entry_ok, ih, Grantable,
        List.forall_mem_cons, List.nodup_cons, List.foldl_cons, List.mem_map, not_exists, not_and]
      constructor
      · rintro ⟨_, ⟨named, fresh, rfl⟩, ⟨others, distinct⟩, apart, same⟩
        rw [keys fresh] at apart
        simp only [List.mem_append, List.mem_singleton, not_or] at apart
        exact ⟨⟨⟨named, others⟩, fun other inside => (apart other inside).2, distinct⟩,
          ⟨fresh, fun other inside => (apart other inside).1⟩, same⟩
      · rintro ⟨⟨⟨named, others⟩, apart, distinct⟩, ⟨fresh, outside⟩, same⟩
        refine ⟨_, ⟨named, fresh, rfl⟩, ⟨others, distinct⟩, fun other inside => ?_, same⟩
        rw [keys fresh, List.mem_append, List.mem_singleton, not_or]
        exact ⟨outside other inside, apart other inside⟩

omit [UnicodeDatabase] in
theorem grantable_perm {grant moved : List (Str × Str)} (perm : moved.Perm grant) :
    Grantable moved ↔ Grantable grant := by
  simp only [Grantable, perm.mem_iff, (perm.map Prod.fst).nodup_iff]

/-- Claims of their own shape are taken as they are. -/
theorem claims_ok (tenantId investigation : Str) (grant : List (Str × Str)) {exp : Int}
    (short : (decimalText exp.natAbs).length ≤ Json.digitsLimit) (claims : Claims) :
    claimsOf (Dict.ofList (claimEntries tenantId investigation grant exp)) = .ok claims ↔
      isUuidText tenantId = true ∧
        (investigation ≠ [] ∧ investigation.length ≤ maxInvestigationChars) ∧ Grantable grant ∧
        claims = ⟨tenantId, investigation, Dict.ofList grant, exp⟩ := by
  let doc := Dict.ofList (claimEntries tenantId investigation grant exp)
  have checked : (claimKeys.all doc.contains && doc.keys.all claimKeys.contains) = true := rfl
  have tenant : doc.get? "tenant".toList = some (.string tenantId) := rfl
  have named : doc.get? "investigation".toList = some (.string investigation) := rfl
  have expires : (doc.get? "exp".toList).bind Json.asInt = some exp := Json.integer_of_show short
  have grants : doc.get? "grant".toList = some (.array (grant.map grantJson)) := rfl
  have step : claimsOf doc = do
      let tenant ← tenantClaim (some (.string tenantId))
      let investigation ← investigationClaim (some (.string investigation))
      let grant ← (grant.map grantJson).foldlM grantEntry Dict.empty
      return ⟨tenant, investigation, grant, exp⟩ := by
    rw [claimsOf, checked, tenant, named, grants, expiryClaim, expires]
    rfl
  change claimsOf doc = .ok claims ↔ _
  rw [step, tenantClaim, investigationClaim]
  by_cases uuid : isUuidText tenantId = true
  · by_cases unnamed : investigation = [] ∨ maxInvestigationChars < investigation.length
    · rw [if_pos uuid, if_pos unnamed]
      refine ⟨nofun, fun accepted => ?_⟩
      exact (unnamed.elim accepted.2.1.1 (Nat.not_lt.mpr accepted.2.1.2)).elim
    · rw [if_pos uuid, if_neg unnamed]
      change ((grant.map grantJson).foldlM grantEntry Dict.empty >>= fun granted =>
        Except.ok (Claims.mk tenantId investigation granted exp)) = .ok claims ↔ _
      rw [not_or, Nat.not_lt] at unnamed
      simp only [except_bind_ok, grant_entries_ok, Except.ok.injEq]
      constructor
      · rintro ⟨granted, ⟨grantable, -, rfl⟩, rfl⟩
        exact ⟨uuid, unnamed, grantable, rfl⟩
      · rintro ⟨-, -, grantable, rfl⟩
        exact ⟨_, ⟨grantable, nofun, rfl⟩, rfl⟩
  · rw [if_neg uuid]
    exact ⟨nofun, fun accepted => absurd accepted.1 uuid⟩

end Grants

section Lengths

def quotedLength (text : Str) : Nat := (Json.dumpsString text).length

/-- The length of a grant's entries, and of the commas between them. -/
def grantLength (grant : List (Str × Str)) : Nat :=
  (grant.map fun entry => quotedLength entry.1 + quotedLength entry.2 + 3).sum + (grant.length - 1)

def claimsLength (tenantId investigation : Str) (grant : List (Str × Str)) (exp : Int) : Nat :=
  46 + (showInt exp).length + grantLength grant + quotedLength investigation + quotedLength tenantId

def tokenLength (tenantId investigation : Str) (grant : List (Str × Str)) (exp : Int)
    (signatureLength : Nat) : Nat :=
  (4 * claimsLength tenantId investigation grant exp + 2) / 3 + 1 + signatureLength

theorem encoded_ascii_length {text : Str} (ascii : ∀ char ∈ text, char.toNat < 0x80) :
    (encodeUtf8 text).length = text.length := by
  induction text with
  | nil => rfl
  | cons char text ih =>
      have rest := ih fun other inside => ascii other (List.mem_cons_of_mem _ inside)
      have whole : encodeUtf8 (char :: text) = UInt8.ofNat char.toNat :: encodeUtf8 text := by
        rw [encodeUtf8, List.flatMap_cons, encode_ascii_char (ascii char List.mem_cons_self)]
        rfl
      rw [whole, List.length_cons, List.length_cons, rest]

theorem grant_items (entry : Str × Str) (grant : List (Str × Str)) :
    Json.compactItems ((entry :: grant).map grantJson) =
      (grantJson entry).compact ++ grant.flatMap fun other => ',' :: (grantJson other).compact := by
  induction grant generalizing entry with
  | nil => simp [Json.compactItems]
  | cons next grant ih =>
      rw [List.map_cons, List.map_cons, Json.compactItems, ← List.map_cons, ih,
        List.flatMap_cons, List.cons_append]

theorem grant_compact (entry : Str × Str) : (grantJson entry).compact =
    '[' :: (Json.dumpsString entry.1 ++ ',' :: (Json.dumpsString entry.2 ++ [']'])) := by
  simp [grantJson, Json.compact, Json.compactItems]

theorem claims_compact (tenantId investigation : Str) (grant : List (Str × Str)) (exp : Int) :
    (Json.object (claimEntries tenantId investigation grant exp)).compact =
      "\x7b\"exp\":" ++ showInt exp ++ ",\"grant\":[" ++ Json.compactItems (grant.map grantJson) ++
        "],\"investigation\":" ++ Json.dumpsString investigation ++ ",\"tenant\":" ++
        Json.dumpsString tenantId ++ "\x7d" := by
  have names : Json.dumpsString "exp" = "\"exp\"" ∧ Json.dumpsString "grant" = "\"grant\"" ∧
      Json.dumpsString "investigation" = "\"investigation\"" ∧
      Json.dumpsString "tenant" = "\"tenant\"" := by decide
  simp only [claimEntries, Json.compact, Json.compactEntries, names, List.append_assoc,
    List.cons_append, List.nil_append]
  rfl

theorem grant_items_length (grant : List (Str × Str)) :
    (Json.compactItems (grant.map grantJson)).length = grantLength grant := by
  cases grant with
  | nil => rfl
  | cons entry grant =>
      have one : ∀ other, (grantJson other).compact.length =
          quotedLength other.1 + quotedLength other.2 + 3 := by
        intro other
        simp only [grant_compact, quotedLength, List.length_cons, List.length_append,
          List.length_nil]
        omega
      have rest : (grant.flatMap fun other => ',' :: (grantJson other).compact).length =
          (grant.map fun other => quotedLength other.1 + quotedLength other.2 + 3).sum +
            grant.length := by
        induction grant with
        | nil => rfl
        | cons next grant ih =>
            rw [List.flatMap_cons, List.length_append, ih, List.map_cons, List.sum_cons,
              List.length_cons, List.length_cons, one]
            omega
      rw [grant_items, List.length_append, rest, one, grantLength, List.map_cons, List.sum_cons,
        List.length_cons]
      omega

theorem grant_items_printable (grant : List (Str × Str)) :
    ∀ char ∈ Json.compactItems (grant.map grantJson), Json.Printable char := by
  have one : ∀ other, ∀ char ∈ (grantJson other).compact, Json.Printable char := by
    intro other
    rw [grant_compact]
    simp only [List.forall_mem_cons, List.forall_mem_append, List.not_mem_nil, false_implies,
      implies_true, and_true]
    exact ⟨by decide, Json.dumps_string_printable _, by decide, Json.dumps_string_printable _,
      by decide⟩
  cases grant with
  | nil =>
      intro char inside
      cases inside
  | cons entry grant =>
      rw [grant_items, List.forall_mem_append]
      refine ⟨one entry, fun char inside => ?_⟩
      obtain ⟨other, -, held⟩ := List.mem_flatMap.mp inside
      rcases List.mem_cons.mp held with rfl | held
      · decide
      · exact one other char held

theorem claims_length (tenantId investigation : Str) (grant : List (Str × Str)) {exp : Int}
    (short : (decimalText exp.natAbs).length ≤ Json.digitsLimit) :
    (encodeUtf8 (Json.object (claimEntries tenantId investigation grant exp)).compact).length =
      claimsLength tenantId investigation grant exp := by
  have printable : ∀ char ∈ (Json.object (claimEntries tenantId investigation grant exp)).compact,
      Json.Printable char := by
    rw [claims_compact]
    simp only [List.forall_mem_append]
    refine ⟨⟨⟨⟨⟨⟨⟨⟨?_, Json.number_printable (Json.show_spelled short)⟩, ?_⟩,
      grant_items_printable grant⟩, ?_⟩, Json.dumps_string_printable _⟩, ?_⟩,
      Json.dumps_string_printable _⟩, ?_⟩
    all_goals exact Json.printable_of_all (by decide)
  rw [encoded_ascii_length]
  · rw [claims_compact]
    simp only [List.length_append, grant_items_length, claimsLength, quotedLength]
    have names : ("\x7b\"exp\":".toList.length = 7 ∧ ",\"grant\":[".toList.length = 10 ∧
      "],\"investigation\":".toList.length = 18 ∧ ",\"tenant\":".toList.length = 10 ∧
      "\x7d".toList.length = 1) := by decide
    omega
  · intro char inside
    have below := Char.le_def.mp (printable char inside).2
    exact Nat.lt_of_le_of_lt (UInt32.le_iff_toNat_le.mp below) (by decide)

end Lengths

section RoundTrip

theorem whole_seconds_bounded (time : AwareTime) : (wholeSeconds time).natAbs ≤ 2 ^ 38 := by
  have down : ∀ {scale rounded : Nat}, rounded ≤ time.microseconds.natAbs * scale / 10 ^ 6 + 1 →
      0 < scale → rounded / scale ≤ 2 ^ 38 := by
    intro scale rounded near positive
    have below : time.microseconds.natAbs * scale < 10 ^ 6 * (scale * 2 ^ 38) := by
      calc time.microseconds.natAbs * scale
          < 2 ^ 38 * 10 ^ 6 * scale := Nat.mul_lt_mul_of_pos_right time.bounded positive
        _ = 10 ^ 6 * (scale * 2 ^ 38) := by ring
    exact Nat.div_le_of_le_mul (near.trans (Nat.div_lt_of_lt_mul below))
  have sign : time.microseconds.sign.natAbs ≤ 1 := by
    rw [Int.natAbs_sign]
    split <;> omega
  rw [wholeSeconds, Int.natAbs_mul, Int.natAbs_natCast]
  refine (Nat.mul_le_mul sign (down ?_ (Nat.two_pow_pos _))).trans_eq (Nat.one_mul _)
  split <;> omega

theorem seconds_short (time : AwareTime) :
    (decimalText (wholeSeconds time).natAbs).length ≤ Json.digitsLimit :=
  (Json.decimal_length_mono (whole_seconds_bounded time)).trans (by decide)

theorem claims_height (tenantId investigation : Str) (grant : List (Str × Str)) (exp : Int) :
    height (.object (claimEntries tenantId investigation grant exp)) ≤ 3 := by
  have items : heightItems (grant.map grantJson) ≤ 1 := by
    induction grant with
    | nil => exact Nat.zero_le 1
    | cons entry grant ih =>
        rw [List.map_cons, heightItems]
        exact Nat.max_le.mpr ⟨le_rfl, ih⟩
  simp only [claimEntries, height, heightEntries]
  omega

theorem claims_spelled (tenantId investigation : Str) (grant : List (Str × Str)) {exp : Int}
    (short : (decimalText exp.natAbs).length ≤ Json.digitsLimit) :
    (Json.object (claimEntries tenantId investigation grant exp)).spelled = true := by
  have items : Json.spelledItems (grant.map grantJson) = true := by
    induction grant with
    | nil => rfl
    | cons entry grant ih =>
        rw [List.map_cons, Json.spelledItems, ih]
        rfl
  simp [claimEntries, Json.spelled, Json.spelledEntries, Json.show_spelled short, items]

theorem payload_shape (data : Bytes) (filled : data ≠ []) :
    isPayload (Base64.encode data) = true ∧ '.' ∉ Base64.encode data := by
  have inside : ∀ char ∈ Base64.encode data,
      (char.isAlphanum || char = '_' || char = '-') = true ∧ char ≠ '.' := by
    intro char held
    obtain ⟨sextet, small, rfl⟩ := Base64.encode_digits data held
    have all : ∀ sextet < 64, ((Base64.digit sextet).isAlphanum || Base64.digit sextet = '_' ||
        Base64.digit sextet = '-') = true ∧ Base64.digit sextet ≠ '.' := by decide
    exact all sextet small
  have long : Base64.encode data ≠ [] := by
    have length := Base64.encode_length data
    have positive := List.length_pos_of_ne_nil filled
    intro empty
    rw [empty, List.length_nil] at length
    omega
  constructor
  · simpa [isPayload, long] using fun char held => (inside char held).1
  · exact fun dot => (inside '.' dot).2 rfl

variable [UnicodeDatabase] {sign : Bytes → Str} {recursionLimit : Nat}

theorem split_payload {tenantId investigation signature : Str} {grant : List (Str × Str)}
    {exp : Int} (short : (decimalText exp.natAbs).length ≤ Json.digitsLimit)
    (room : 3 ≤ recursionLimit) (signed : signature ≠ []) {claims : Claims}
    (fits : (payloadText tenantId investigation grant exp ++ '.' :: signature).length ≤
      maxTokenChars)
    (read : claimsOf (Dict.ofList (claimEntries tenantId investigation (sortedGrant grant) exp)) =
      .ok claims) :
    splitToken recursionLimit (payloadText tenantId investigation grant exp ++ '.' :: signature) =
      .ok (encodeUtf8 (payloadText tenantId investigation grant exp), signature, claims) := by
  let doc := Json.object (claimEntries tenantId investigation (sortedGrant grant) exp)
  have filled : encodeUtf8 doc.compact ≠ [] := by
    intro empty
    have length := claims_length tenantId investigation (sortedGrant grant) short
    rw [empty, claimsLength] at length
    simp only [List.length_nil] at length
    omega
  obtain ⟨shape, dotless⟩ : isPayload (payloadText tenantId investigation grant exp) = true ∧
      '.' ∉ payloadText tenantId investigation grant exp := payload_shape _ filled
  have decoded : ((Base64.decode (payloadText tenantId investigation grant exp)).bind
      decodeUtf8).bind Json.loads = some doc := by
    rw [payloadText, Base64.decode_encode, Option.bind_some, (decode_utf8_iff _ _).mpr rfl,
      Option.bind_some]
    exact Json.loads_compact doc (claims_spelled _ _ _ short)
  have shallow : ¬recursionLimit < height doc :=
    Nat.not_lt.mpr ((claims_height _ _ _ _).trans room)
  rw [splitToken, if_neg (Nat.not_lt.mpr fits), partition_char dotless]
  dsimp only
  rw [if_neg (by simp [signed, shape]), decoded]
  dsimp only
  rw [if_neg shallow]
  change (claimsOf _).map _ = _
  rw [read]
  rfl

theorem mint_ok {tenantId investigation token : Str} {grant : List (Str × Str)} {time : AwareTime} :
    mintRequestToken sign tenantId investigation grant (some time) = .ok token ↔
      let payload := payloadText tenantId investigation grant (wholeSeconds time)
      (isUuidText tenantId = true ∧
        (investigation ≠ [] ∧ investigation.length ≤ maxInvestigationChars) ∧ Grantable grant) ∧
        payload ++ '.' :: sign (encodeUtf8 payload) = token := by
  have accepted := claims_ok tenantId investigation grant (seconds_short time)
  rw [mintRequestToken]
  cases read : claimsOf (Dict.ofList (claimEntries tenantId investigation grant
      (wholeSeconds time))) with
  | error fault =>
      refine ⟨nofun, fun shaped => ?_⟩
      rw [(accepted _).mpr ⟨shaped.1.1, shaped.1.2.1, shaped.1.2.2, rfl⟩] at read
      cases read
  | ok claims =>
      obtain ⟨uuid, named, grantable, -⟩ := (accepted claims).mp read
      exact ⟨fun minted => ⟨⟨uuid, named, grantable⟩, Except.ok.inj minted⟩,
        fun shaped => congrArg Except.ok shaped.2⟩

omit [UnicodeDatabase] in
theorem sorted_perm_grant (grant : List (Str × Str)) : (sortedGrant grant).Perm grant :=
  List.perm_insertionSort _ _

omit [UnicodeDatabase] in
theorem token_length (tenantId investigation : Str) (grant : List (Str × Str)) (time : AwareTime)
    (signature : Str) :
    (payloadText tenantId investigation grant (wholeSeconds time) ++ '.' :: signature).length =
      tokenLength tenantId investigation grant (wholeSeconds time) signature.length := by
  have perm := sorted_perm_grant grant
  have lengths : claimsLength tenantId investigation (sortedGrant grant) (wholeSeconds time) =
      claimsLength tenantId investigation grant (wholeSeconds time) := by
    rw [claimsLength, claimsLength, grantLength, grantLength, (perm.map _).sum_eq, perm.length_eq]
  rw [List.length_append, payloadText, Base64.encode_length, claimsText,
    claims_length _ _ _ (seconds_short time), lengths, List.length_cons, tokenLength]
  omega

def ReadsBack (recursionLimit : Nat) (token : Str) (signed : Bytes) (signature : Str)
    (tenantId investigation : Str) (grant : List (Str × Str)) (exp : Int) : Prop :=
  ∃ claims, splitToken recursionLimit token = .ok (signed, signature, claims) ∧
    claims.tenant = tenantId ∧ claims.investigation = investigation ∧ claims.exp = exp ∧
    ∀ system mode, claims.grant.get? system = some mode ↔ (system, mode) ∈ grant

/-- **Reading what was minted.** A token minted is read back whole exactly where it is no longer
than the reader's bound, which nothing in minting keeps to. -/
theorem minted_token_exact (room : 3 ≤ recursionLimit) (nonempty : ∀ payload, sign payload ≠ [])
    {tenantId investigation token : Str} {grant : List (Str × Str)} {time : AwareTime}
    (minted : mintRequestToken sign tenantId investigation grant (some time) = .ok token) :
    let exp := wholeSeconds time
    let signed := encodeUtf8 (payloadText tenantId investigation grant exp)
    ReadsBack recursionLimit token signed (sign signed) tenantId investigation grant exp ↔
      tokenLength tenantId investigation grant exp (sign signed).length ≤ maxTokenChars := by
  obtain ⟨⟨uuid, named, grantable⟩, rfl⟩ := mint_ok.mp minted
  have perm := sorted_perm_grant grant
  have sorted := (grantable_perm perm).mpr grantable
  have read := (claims_ok tenantId investigation (sortedGrant grant) (seconds_short time) _).mpr
    ⟨uuid, named, sorted, rfl⟩
  intro exp signed
  rw [← token_length]
  constructor
  · rintro ⟨claims, split, -⟩
    by_contra long
    rw [splitToken, if_pos (Nat.not_le.mp long)] at split
    cases split
  · intro fits
    refine ⟨_, split_payload (seconds_short time) room (nonempty _) fits read, rfl, rfl, rfl, ?_⟩
    intro system mode
    rw [← Dict.mem_entries_iff, Dict.of_list_entries sorted.2, perm.mem_iff]

end RoundTrip

def someTenant : Str := "00000000-0000-0000-0000-000000000000"

def epoch : AwareTime := ⟨0, by decide⟩

theorem minted_token_exact_one :
    let _ : UnicodeDatabase := asciiDatabase
    let grant : List (Str × Str) := [("web".toList, "r".toList)]
    let payload := payloadText someTenant "i" grant (wholeSeconds epoch)
    ReadsBack 1000 (payload ++ ".s".toList) (encodeUtf8 payload) "s" someTenant "i" grant 0 := by
  intro _ grant payload
  have minted : mintRequestToken (fun _ => "s") someTenant "i" grant (some epoch) =
      .ok (payload ++ ".s".toList) :=
    mint_ok.mpr ⟨⟨by decide, by decide, by decide, by decide⟩, rfl⟩
  exact (minted_token_exact (by decide) (fun _ => by decide) minted).mpr (by decide)

theorem quoted_least (text : Str) : 2 ≤ quotedLength text := by
  simp [quotedLength, Json.dumpsString]

theorem grant_least (grant : List (Str × Str)) : 8 * grant.length ≤ grantLength grant + 1 := by
  have entries : 7 * grant.length ≤
      (grant.map fun entry => quotedLength entry.1 + quotedLength entry.2 + 3).sum := by
    induction grant with
    | nil => exact Nat.zero_le _
    | cons entry grant ih =>
        have first := quoted_least entry.1
        have second := quoted_least entry.2
        rw [List.map_cons, List.sum_cons, List.length_cons]
        omega
  rw [grantLength]
  omega

/-- A grant of so many systems, each named by its number. -/
def numbered (count : Nat) : List (Str × Str) :=
  (List.range count).map fun number => (decimalText number, "r")

theorem numbered_grantable : Grantable (numbered 2000) := by
  constructor
  · intro entry inside
    obtain ⟨number, within, rfl⟩ := List.mem_map.mp inside
    have short := (Json.decimal_length_mono (List.mem_range.mp within).le).trans
      (by decide : (decimalText 2000).length ≤ Defender.Invlang.systemMaxLen)
    have digit : ∀ char ∈ decimalText number, Defender.Invlang.isSystemChar char = true := by
      intro char held
      simp [Defender.Invlang.isSystemChar, Nat.isDigit_of_mem_toDigits (by decide) (by decide) held]
    refine ⟨?_, List.mem_cons_self⟩
    rw [isSystemName, decide_eq_true short, Bool.true_and]
    cases text : decimalText number with
    | nil => exact absurd text (Json.decimal_filled number)
    | cons first rest =>
        rw [text, List.forall_mem_cons] at digit
        rw [Defender.Invlang.matchesSystemPattern, digit.1, Bool.true_and, List.all_eq_true]
        intro char held
        rw [digit.2 char held, Bool.true_or]
  · have apart : Function.Injective decimalText := by
      have back : Function.LeftInverse (fun text => Nat.ofDigitChars 10 text 0) decimalText :=
        fun number => Nat.ofDigitChars_toDigits (by decide) (by decide)
      exact back.injective
    have keys : (numbered 2000).map Prod.fst = (List.range 2000).map decimalText := by
      rw [numbered, List.map_map]
      rfl
    rw [keys]
    exact List.nodup_range.map apart

/-- A token for two thousand systems is minted and never read. -/
theorem minted_token_unread :
    let _ : UnicodeDatabase := asciiDatabase
    ∃ token,
      mintRequestToken (fun _ => "s") someTenant "i" (numbered 2000) (some epoch) = .ok token ∧
      ∀ read, splitToken 1000 token ≠ .ok read := by
  intro _
  refine ⟨_, mint_ok.mpr ⟨⟨by decide, by decide, numbered_grantable⟩, rfl⟩, ?_⟩
  intro read split
  have many := grant_least (numbered 2000)
  have long : maxTokenChars < tokenLength someTenant "i" (numbered 2000) (wholeSeconds epoch)
      ("s".toList).length := by
    have count : (numbered 2000).length = 2000 := by
      rw [numbered, List.length_map, List.length_range]
    rw [tokenLength, claimsLength, maxTokenChars]
    omega
  rw [← token_length] at long
  rw [splitToken, if_pos long] at split
  cases split

end Defender.CredentialProxy
