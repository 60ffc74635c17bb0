import Defender.Execution.BoxCodec
import Defender.Filesystem.JsonLines
import Defender.Library.OrderedDict
import Defender.Python.JsonInteger

/-!
# The reply format is exact

The decoder accepts exactly the frame sequences that end in one final frame holding the record's
fields, and gives what they carry. No reply is the beginning of another, because every frame is
taken by its length and the final one ends the reply.

A reply is body frames, which carry the upstream's bytes, and one final frame, which carries the
proxy's own record as JSON. The interpreter refuses a document nested deeper than its recursion
limit, which is a parameter. A lone surrogate is no character of `Str`.
-/

namespace Defender.CredentialProxy

open Defender.Python Defender.Library.Wire Defender.Library.Frames Defender.Library.OrderedDict
open Defender.Execution Defender.Filesystem

def bodyTag : UInt8 := 0x42

def finalTag : UInt8 := 0x46

def lengthWidth : Nat := 4

/-- How a request ended. -/
structure FinalRecord where
  status : Option Int
  headers : Dict Str Str
  fault : Option Str
  detail : Option Str
  systemSide : Bool
  sent : Bool
  bodyWhole : Bool
  readerFault : Bool

structure DecodedReply where
  chunks : List Bytes
  final : FinalRecord

def fieldNames : List Str :=
  ["status", "headers", "fault", "detail", "system_side", "sent", "body_whole", "reader_fault"]

/-- The `struct.error` of a length its field cannot hold, and the `ValueError` of an integer the
interpreter does not write. -/
inductive EncodeFault where
  | structError
  | valueError
deriving DecidableEq, Repr

def encodeFrame (tag : UInt8) (payload : Bytes) : Except EncodeFault Bytes :=
  if payload.length < 256 ^ lengthWidth then .ok (frame lengthWidth tag payload)
  else .error .structError

def encodeBody (chunk : Bytes) : Except EncodeFault Bytes := encodeFrame bodyTag chunk

def statusJson : Option Int → Json
  | none => .null
  | some status => .number (showInt status)

def textJson : Option Str → Json
  | none => .null
  | some text => .string text

def headersJson (headers : Dict Str Str) : Json :=
  .object (headers.entries.map fun header => (header.1, .string header.2))

def FinalRecord.fields (record : FinalRecord) : List (Str × Json) :=
  [("status", statusJson record.status), ("headers", headersJson record.headers),
    ("fault", textJson record.fault), ("detail", textJson record.detail),
    ("system_side", .bool record.systemSide), ("sent", .bool record.sent),
    ("body_whole", .bool record.bodyWhole), ("reader_fault", .bool record.readerFault)]

def statusWritten (status : Option Int) : Bool :=
  status.all fun number => (decimalText number.natAbs).length ≤ Json.digitsLimit

def FinalRecord.payload (record : FinalRecord) : Bytes :=
  encodeUtf8 (Json.dumps (.object record.fields))

def encodeFinal (record : FinalRecord) : Except EncodeFault Bytes :=
  if statusWritten record.status then encodeFrame finalTag record.payload else .error .valueError

def statusOf : Json → Option (Option Int)
  | .null => some none
  | .number literal => (Json.integerOf literal).map some
  | _ => none

def textOf : Json → Option (Option Str)
  | .null => some none
  | .string text => some (some text)
  | _ => none

def stringOf : Json → Option Str
  | .string text => some text
  | _ => none

def flagOf : Json → Option Bool
  | .bool value => some value
  | _ => none

/-- Names and texts; of several entries under a name only the last is looked at. -/
def headersOf : Json → Option (Dict Str Str)
  | .object entries =>
      ((Dict.ofList entries).entries.mapM fun entry =>
        (stringOf entry.2).map fun text => (entry.1, text)).map Dict.ofList
  | _ => none

/-- The record a document of the right fields spells. -/
def readRecord (doc : Dict Str Json) : Option FinalRecord := do
  let status ← (doc.get? "status").bind statusOf
  let headers ← (doc.get? "headers").bind headersOf
  let fault ← (doc.get? "fault").bind textOf
  let detail ← (doc.get? "detail").bind textOf
  let systemSide ← (doc.get? "system_side").bind flagOf
  let sent ← (doc.get? "sent").bind flagOf
  let bodyWhole ← (doc.get? "body_whole").bind flagOf
  let readerFault ← (doc.get? "reader_fault").bind flagOf
  some ⟨status, headers, fault, detail, systemSide, sent, bodyWhole, readerFault⟩

def FinalRecord.answers (record : FinalRecord) : Bool :=
  record.fault.isSome || (record.status.isSome && record.bodyWhole)

section Decode

variable (recursionLimit : Nat)

/-- `json.loads`, which raises where a document is nested too deep. -/
def loadsWithin (text : Str) : Option Json :=
  (Json.loads text).filter fun doc => height doc ≤ recursionLimit

def recordOf (payload : Bytes) : Except Str FinalRecord :=
  match (decodeUtf8 payload).bind (loadsWithin recursionLimit) with
  | none => .error "the final frame is not JSON"
  | some (.object entries) =>
      let doc := Dict.ofList entries
      if doc.keys.all (fieldNames.contains ·) && fieldNames.all (doc.keys.contains ·) then
        match readRecord doc with
        | none => .error "a field of the final record has the wrong type"
        | some record =>
            if record.answers then .ok record
            else .error "a final record with no fault is not a whole answer"
      else .error "the final record is not exactly its fields"
  | some _ => .error "the final record is not exactly its fields"

/-- The loop of `decode_reply`; every round takes a frame, so the length of the reply is
rounds enough. -/
def decodeFrom : Nat → List Bytes → Bytes → Except Str DecodedReply
  | _, _, [] => .error "the reply has no final frame"
  | 0, _, _ :: _ => .error "the reply has no final frame"
  | rounds + 1, chunks, first :: more =>
      match takeFrame lengthWidth (first :: more) with
      | .error .header => .error "a frame header is cut short"
      | .error .payload => .error "a frame is cut short"
      | .ok (tag, payload, rest) =>
          if tag = bodyTag then decodeFrom rounds (chunks ++ [payload]) rest
          else if tag = finalTag then
            if rest ≠ [] then .error "bytes follow the final frame"
            else (recordOf recursionLimit payload).map fun record => ⟨chunks, record⟩
          else .error "a frame has an unknown tag"

def decodeReply (raw : Bytes) : Except Str DecodedReply :=
  decodeFrom recursionLimit raw.length [] raw

end Decode

/-- The document has exactly the record's fields, each with its type, and is a whole answer. -/
structure HoldsRecord (doc : Dict Str Json) (record : FinalRecord) : Prop where
  names : ∀ name, name ∈ doc.keys ↔ name ∈ fieldNames
  status : (doc.get? "status").bind statusOf = some record.status
  headers : (doc.get? "headers").bind headersOf = some record.headers
  fault : (doc.get? "fault").bind textOf = some record.fault
  detail : (doc.get? "detail").bind textOf = some record.detail
  systemSide : (doc.get? "system_side").bind flagOf = some record.systemSide
  sent : (doc.get? "sent").bind flagOf = some record.sent
  bodyWhole : (doc.get? "body_whole").bind flagOf = some record.bodyWhole
  readerFault : (doc.get? "reader_fault").bind flagOf = some record.readerFault
  whole : record.fault ≠ none ∨ record.status ≠ none ∧ record.bodyWhole = true

def FinalPayload (recursionLimit : Nat) (payload : Bytes) (record : FinalRecord) : Prop :=
  ∃ text entries, payload = encodeUtf8 text ∧ Json.loads text = some (.object entries) ∧
    height (.object entries) ≤ recursionLimit ∧ HoldsRecord (Dict.ofList entries) record

def FrameSequence (recursionLimit : Nat) (raw : Bytes) (reply : DecodedReply) : Prop :=
  ∃ payload, (∀ chunk ∈ reply.chunks, chunk.length < 256 ^ lengthWidth) ∧
    payload.length < 256 ^ lengthWidth ∧
    raw = reply.chunks.flatMap (frame lengthWidth bodyTag) ++ frame lengthWidth finalTag payload ∧
    FinalPayload recursionLimit payload reply.final

theorem read_record_ok (doc : Dict Str Json) (record : FinalRecord) :
    readRecord doc = some record ↔
      (doc.get? "status").bind statusOf = some record.status ∧
      (doc.get? "headers").bind headersOf = some record.headers ∧
      (doc.get? "fault").bind textOf = some record.fault ∧
      (doc.get? "detail").bind textOf = some record.detail ∧
      (doc.get? "system_side").bind flagOf = some record.systemSide ∧
      (doc.get? "sent").bind flagOf = some record.sent ∧
      (doc.get? "body_whole").bind flagOf = some record.bodyWhole ∧
      (doc.get? "reader_fault").bind flagOf = some record.readerFault := by
  unfold readRecord
  simp only [Option.bind_eq_bind, Option.bind_eq_some_iff, Option.some.injEq]
  constructor
  · rintro ⟨status, one, headers, two, fault, three, detail, four, systemSide, five, sent, six,
      bodyWhole, seven, readerFault, eight, rfl⟩
    exact ⟨one, two, three, four, five, six, seven, eight⟩
  · rintro ⟨one, two, three, four, five, six, seven, eight⟩
    exact ⟨_, one, _, two, _, three, _, four, _, five, _, six, _, seven, _, eight, rfl⟩

theorem answers_iff (record : FinalRecord) : record.answers = true ↔
    record.fault ≠ none ∨ record.status ≠ none ∧ record.bodyWhole = true := by
  simp [FinalRecord.answers, Option.isSome_iff_ne_none]

theorem names_iff (doc : Dict Str Json) :
    (doc.keys.all (fieldNames.contains ·) && fieldNames.all (doc.keys.contains ·)) = true ↔
      ∀ name, name ∈ doc.keys ↔ name ∈ fieldNames := by
  simp only [Bool.and_eq_true, List.all_eq_true, List.contains_iff_mem]
  constructor
  · rintro ⟨known, present⟩ name
    exact ⟨known name, present name⟩
  · intro same
    exact ⟨fun name => (same name).mp, fun name => (same name).mpr⟩

theorem record_of_ok (recursionLimit : Nat) (payload : Bytes) (record : FinalRecord) :
    recordOf recursionLimit payload = .ok record ↔ FinalPayload recursionLimit payload record := by
  constructor
  · intro read
    unfold recordOf at read
    split at read
    · cases read
    · rename_i entries loaded
      obtain ⟨text, decoded, within⟩ := Option.bind_eq_some_iff.mp loaded
      obtain ⟨parsed, shallow⟩ := Option.filter_eq_some_iff.mp within
      dsimp only at read
      split at read
      · rename_i named
        split at read
        · cases read
        · rename_i found spelled
          split at read
          · rename_i answers
            obtain rfl := Except.ok.inj read
            obtain ⟨one, two, three, four, five, six, seven, eight⟩ := (read_record_ok _ _).mp spelled
            exact ⟨text, entries, (decode_utf8_iff _ _).mp decoded, parsed,
              of_decide_eq_true shallow, (names_iff _).mp named, one, two, three, four, five, six,
              seven, eight, (answers_iff _).mp answers⟩
          · cases read
      · cases read
    · cases read
  · rintro ⟨text, entries, rfl, parsed, shallow, held⟩
    have loaded : (decodeUtf8 (encodeUtf8 text)).bind (loadsWithin recursionLimit) =
        some (.object entries) := by
      rw [(decode_utf8_iff _ _).mpr rfl, Option.bind_some, loadsWithin, parsed,
        Option.filter_some, if_pos (decide_eq_true shallow)]
    have spelled := (read_record_ok (Dict.ofList entries) record).mpr
      ⟨held.status, held.headers, held.fault, held.detail, held.systemSide, held.sent,
        held.bodyWhole, held.readerFault⟩
    rw [recordOf, loaded]
    dsimp only
    rw [if_pos ((names_iff _).mpr held.names), spelled]
    dsimp only
    rw [if_pos ((answers_iff record).mpr held.whole)]

section Replies

variable (recursionLimit : Nat)

variable {recursionLimit}

theorem decode_from_taken {rounds : Nat} {chunks : List Bytes} {raw payload rest : Bytes}
    {tag : UInt8} (taken : takeFrame lengthWidth raw = .ok (tag, payload, rest)) :
    decodeFrom recursionLimit (rounds + 1) chunks raw =
      if tag = bodyTag then decodeFrom recursionLimit rounds (chunks ++ [payload]) rest
      else if tag = finalTag then
        if rest ≠ [] then .error "bytes follow the final frame"
        else (recordOf recursionLimit payload).map fun record => ⟨chunks, record⟩
      else .error "a frame has an unknown tag" := by
  cases raw with
  | nil => cases taken
  | cons first more => rw [decodeFrom, taken]

theorem decode_from_stopped {rounds : Nat} {chunks : List Bytes} {raw : Bytes} {cut : Cut}
    {reply : DecodedReply} (stopped : takeFrame lengthWidth raw = .error cut) :
    decodeFrom recursionLimit (rounds + 1) chunks raw ≠ .ok reply := by
  intro read
  cases raw with
  | nil => cases read
  | cons first more =>
      rw [decodeFrom, stopped] at read
      cases cut <;> cases read

theorem final_not_body : finalTag ≠ bodyTag := by decide

/-- The decoder takes body frames until a final frame ends the bytes. -/
theorem decode_from_ok (rounds : Nat) (chunks : List Bytes) (raw : Bytes) (reply : DecodedReply)
    (enough : raw.length ≤ rounds) :
    decodeFrom recursionLimit rounds chunks raw = .ok reply ↔
      ∃ more payload, (∀ chunk ∈ more, chunk.length < 256 ^ lengthWidth) ∧
        payload.length < 256 ^ lengthWidth ∧
        raw = more.flatMap (frame lengthWidth bodyTag) ++ frame lengthWidth finalTag payload ∧
        reply.chunks = chunks ++ more ∧ recordOf recursionLimit payload = .ok reply.final := by
  induction rounds generalizing chunks raw with
  | zero =>
      obtain rfl := List.length_eq_zero_iff.mp (Nat.le_zero.mp enough)
      constructor
      · intro read
        cases read
      · rintro ⟨more, payload, _, _, laid, _⟩
        have size := congrArg List.length laid
        simp [frame_length] at size
  | succ rounds ih =>
      constructor
      · intro read
        cases taken : takeFrame lengthWidth raw with
        | error cut => exact absurd read (decode_from_stopped taken)
        | ok parts =>
            obtain ⟨tag, payload, rest⟩ := parts
            obtain ⟨fits, laid⟩ := take_frame_ok.mp taken
            rw [decode_from_taken taken] at read
            have shorter : rest.length ≤ rounds := by
              rw [laid, List.length_append, frame_length] at enough
              omega
            split at read
            · rename_i body
              obtain ⟨more, last, sizes, size, follows, same, held⟩ :=
                (ih (chunks ++ [payload]) rest shorter).mp read
              refine ⟨payload :: more, last, ?_, size, ?_, ?_, held⟩
              · rintro chunk (_ | ⟨_, later⟩)
                · exact fits
                · exact sizes chunk later
              · rw [laid, follows, body, List.flatMap_cons, List.append_assoc]
              · rw [same, List.append_assoc, List.singleton_append]
            · split at read
              · rename_i final
                split at read
                · cases read
                · rename_i ended
                  rw [ne_eq, not_not] at ended
                  cases found : recordOf recursionLimit payload with
                  | error refused =>
                      rw [found] at read
                      cases read
                  | ok record =>
                      rw [found] at read
                      obtain rfl := Except.ok.inj read
                      exact ⟨[], payload, nofun, fits, by rw [laid, ended, final]; simp, by simp,
                        found⟩
              · cases read
      · rintro ⟨more, payload, sizes, size, laid, same, held⟩
        cases more with
        | nil =>
            have taken : takeFrame lengthWidth raw = .ok (finalTag, payload, []) :=
              take_frame_ok.mpr ⟨size, by rw [laid]; simp⟩
            rw [decode_from_taken taken, if_neg final_not_body, if_pos rfl, if_neg (by simp), held]
            rw [List.append_nil] at same
            rw [← same]
            rfl
        | cons chunk others =>
            have taken : takeFrame lengthWidth raw = .ok (bodyTag, chunk,
                others.flatMap (frame lengthWidth bodyTag) ++ frame lengthWidth finalTag payload) :=
              take_frame_ok.mpr ⟨sizes chunk List.mem_cons_self, by
                rw [laid, List.flatMap_cons, List.append_assoc]⟩
            rw [decode_from_taken taken, if_pos rfl]
            refine (ih _ _ ?_).mpr ⟨others, payload, ?_, size, rfl, ?_, held⟩
            · rw [laid, List.flatMap_cons, List.append_assoc, List.length_append,
                frame_length] at enough
              omega
            · exact fun other member => sizes other (List.mem_cons_of_mem _ member)
            · rw [same, List.append_assoc, List.singleton_append]

variable (recursionLimit)

theorem decode_reply_ok (raw : Bytes) (reply : DecodedReply) :
    decodeReply recursionLimit raw = .ok reply ↔ FrameSequence recursionLimit raw reply := by
  unfold decodeReply FrameSequence
  rw [decode_from_ok _ _ _ _ le_rfl]
  simp only [List.nil_append, record_of_ok]
  constructor
  · rintro ⟨more, payload, sizes, size, laid, same, held⟩
    rw [same]
    exact ⟨payload, sizes, size, laid, held⟩
  · rintro ⟨payload, sizes, size, laid, held⟩
    exact ⟨reply.chunks, payload, sizes, size, laid, rfl, held⟩

end Replies

section Prefixes

theorem first_frame (chunks : List Bytes) {payload : Bytes} (more : Bytes)
    (sizes : ∀ chunk ∈ chunks, chunk.length < 256 ^ lengthWidth)
    (size : payload.length < 256 ^ lengthWidth) :
    takeFrame lengthWidth (chunks.flatMap (frame lengthWidth bodyTag) ++
        frame lengthWidth finalTag payload ++ more) =
      match chunks with
      | [] => .ok (finalTag, payload, more)
      | chunk :: others => .ok (bodyTag, chunk, others.flatMap (frame lengthWidth bodyTag) ++
          frame lengthWidth finalTag payload ++ more) := by
  cases chunks with
  | nil =>
      rw [List.flatMap_nil, List.nil_append]
      exact take_frame_front size
  | cons chunk others =>
      rw [List.flatMap_cons, List.append_assoc, List.append_assoc,
        ← List.append_assoc (others.flatMap _)]
      exact take_frame_front (sizes chunk List.mem_cons_self)

/-- A frame sequence does not go on into another. -/
theorem frames_end {chunks others : List Bytes} {payload last more : Bytes}
    (sizes : ∀ chunk ∈ chunks, chunk.length < 256 ^ lengthWidth)
    (otherSizes : ∀ chunk ∈ others, chunk.length < 256 ^ lengthWidth)
    (size : payload.length < 256 ^ lengthWidth) (lastSize : last.length < 256 ^ lengthWidth)
    (same : chunks.flatMap (frame lengthWidth bodyTag) ++ frame lengthWidth finalTag payload ++
      more = others.flatMap (frame lengthWidth bodyTag) ++ frame lengthWidth finalTag last ++ []) :
    more = [] := by
  induction chunks generalizing others with
  | nil =>
      have taken : takeFrame lengthWidth _ = _ := first_frame [] more sizes size
      rw [same, first_frame others [] otherSizes lastSize] at taken
      cases others with
      | nil =>
          simp only [Except.ok.injEq, Prod.mk.injEq] at taken
          exact taken.2.2.symm
      | cons chunk others =>
          simp only [Except.ok.injEq, Prod.mk.injEq] at taken
          exact absurd taken.1.symm final_not_body
  | cons chunk chunks ih =>
      have taken : takeFrame lengthWidth _ = _ :=
        first_frame (chunk :: chunks) more sizes size
      rw [same, first_frame others [] otherSizes lastSize] at taken
      cases others with
      | nil =>
          simp only [Except.ok.injEq, Prod.mk.injEq] at taken
          exact absurd taken.1 final_not_body
      | cons other others =>
          simp only [Except.ok.injEq, Prod.mk.injEq] at taken
          exact ih (fun item member => sizes item (List.mem_cons_of_mem _ member))
            (fun item member => otherSizes item (List.mem_cons_of_mem _ member)) taken.2.2.symm

variable (recursionLimit : Nat)

theorem reply_ends {raw more : Bytes} {reply longer : DecodedReply}
    (read : decodeReply recursionLimit raw = .ok reply)
    (readLonger : decodeReply recursionLimit (raw ++ more) = .ok longer) : more = [] := by
  obtain ⟨payload, sizes, size, laid, _⟩ := (decode_reply_ok _ _ _).mp read
  obtain ⟨last, otherSizes, lastSize, laidLonger, _⟩ := (decode_reply_ok _ _ _).mp readLonger
  apply frames_end sizes otherSizes size lastSize
  rw [← laid, laidLonger, List.append_nil]

end Prefixes

section RoundTrip

theorem text_entries_spelled (entries : List (Str × Str)) :
    Json.spelledEntries (entries.map fun header => (header.1, .string header.2)) = true ∧
      heightEntries (entries.map fun header => (header.1, .string header.2)) = 0 := by
  induction entries with
  | nil => exact ⟨rfl, rfl⟩
  | cons entry rest ih =>
      rw [List.map_cons, Json.spelledEntries, heightEntries, ih.1, ih.2]
      exact ⟨rfl, rfl⟩

theorem fields_spelled {record : FinalRecord} (written : statusWritten record.status = true) :
    (Json.object record.fields).spelled = true := by
  have status : (statusJson record.status).spelled = true := by
    cases read : record.status with
    | none => rfl
    | some number =>
        rw [read] at written
        exact Json.show_spelled (of_decide_eq_true written)
  have text : ∀ text : Option Str, (textJson text).spelled = true := by
    intro text
    cases text <;> rfl
  simp only [FinalRecord.fields, Json.spelled, Json.spelledEntries, headersJson, status, text,
    (text_entries_spelled record.headers.entries).1, Bool.and_self]

theorem fields_shallow (record : FinalRecord) : height (.object record.fields) ≤ 2 := by
  have status : height (statusJson record.status) = 0 := by
    cases record.status <;> rfl
  have text : ∀ text : Option Str, height (textJson text) = 0 := by
    intro text
    cases text <;> rfl
  simp only [FinalRecord.fields, height, heightEntries, headersJson, status, text,
    (text_entries_spelled record.headers.entries).2]
  decide

theorem headers_of_json (headers : Dict Str Str) :
    headersOf (headersJson headers) = some headers := by
  have distinct : ((headers.entries.map fun header : Str × Str =>
      (header.1, Json.string header.2)).map Prod.fst).Nodup := by
    rw [List.map_map]
    exact headers.nodup
  have each : ∀ entries : List (Str × Str),
      (entries.map fun header : Str × Str => (header.1, Json.string header.2)).mapM (fun entry =>
        (stringOf entry.2).map fun text => (entry.1, text)) = some entries := by
    intro entries
    induction entries with
    | nil => rfl
    | cons entry rest ih =>
        rw [List.map_cons, List.mapM_cons, ih]
        rfl
  rw [headersJson, headersOf, Dict.of_list_entries distinct, each, Option.map_some,
    Option.some.injEq]
  exact Dict.ext_entries (Dict.of_list_entries headers.nodup)

theorem status_of_json {status : Option Int} (written : statusWritten status = true) :
    statusOf (statusJson status) = some status := by
  cases status with
  | none => rfl
  | some number =>
      change (Json.integerOf (showInt number)).map some = _
      rw [Json.integer_of_show (of_decide_eq_true written)]
      rfl

theorem text_of_json (text : Option Str) : textOf (textJson text) = some text := by
  cases text <;> rfl

theorem fields_hold {record : FinalRecord} (written : statusWritten record.status = true)
    (whole : record.fault ≠ none ∨ record.status ≠ none ∧ record.bodyWhole = true) :
    HoldsRecord (Dict.ofList record.fields) record := by
  have distinct : (record.fields.map Prod.fst).Nodup := by
    change fieldNames.Nodup
    decide
  have entries := Dict.of_list_entries distinct
  have get : ∀ name value, Dict.lookup name record.fields = some value →
      (Dict.ofList record.fields).get? name = some value := by
    intro name value found
    rw [Dict.get?, entries, found]
  refine ⟨?_, ?_, ?_, ?_, ?_, ?_, ?_, ?_, ?_, whole⟩
  · intro name
    rw [Dict.keys, entries]
    exact Iff.rfl
  · rw [get _ (statusJson record.status) rfl, Option.bind_some, status_of_json written]
  · rw [get _ (headersJson record.headers) rfl, Option.bind_some, headers_of_json]
  · rw [get _ (textJson record.fault) rfl, Option.bind_some, text_of_json]
  · rw [get _ (textJson record.detail) rfl, Option.bind_some, text_of_json]
  · rw [get _ (.bool record.systemSide) rfl, Option.bind_some, flagOf]
  · rw [get _ (.bool record.sent) rfl, Option.bind_some, flagOf]
  · rw [get _ (.bool record.bodyWhole) rfl, Option.bind_some, flagOf]
  · rw [get _ (.bool record.readerFault) rfl, Option.bind_some, flagOf]

def RoundTrips (recursionLimit : Nat) (chunks : List Bytes) (record : FinalRecord) : Prop :=
  ∃ bodies final, chunks.mapM encodeBody = .ok bodies ∧ encodeFinal record = .ok final ∧
    decodeReply recursionLimit (bodies.flatten ++ final) = .ok ⟨chunks, record⟩

theorem chunks_encoded {chunks : List Bytes}
    (sizes : ∀ chunk ∈ chunks, chunk.length < 256 ^ lengthWidth) :
    chunks.mapM encodeBody = .ok (chunks.map (frame lengthWidth bodyTag)) := by
  induction chunks with
  | nil => rfl
  | cons chunk others ih =>
      have first : encodeBody chunk = .ok (frame lengthWidth bodyTag chunk) :=
        if_pos (sizes chunk List.mem_cons_self)
      rw [List.mapM_cons, first, ih fun other member => sizes other (List.mem_cons_of_mem _ member)]
      rfl

theorem round_trips {recursionLimit : Nat} (deep : 2 ≤ recursionLimit) {chunks : List Bytes}
    {record : FinalRecord} (sizes : ∀ chunk ∈ chunks, chunk.length < 256 ^ lengthWidth)
    (whole : record.fault ≠ none ∨ record.status ≠ none ∧ record.bodyWhole = true)
    (written : statusWritten record.status = true)
    (size : record.payload.length < 256 ^ lengthWidth) :
    RoundTrips recursionLimit chunks record := by
  refine ⟨_, frame lengthWidth finalTag record.payload, chunks_encoded sizes, ?_, ?_⟩
  · rw [encodeFinal, if_pos written, encodeFrame, if_pos size]
  · refine (decode_reply_ok _ _ _).mpr ⟨record.payload, sizes, size, ?_, ?_⟩
    · rw [List.flatMap_def]
    · exact ⟨_, record.fields, rfl, Json.loads_dumps _ (fields_spelled written),
        le_trans (fields_shallow record) deep, fields_hold written whole⟩

end RoundTrip

/-- Replies round trip, only frame sequences are accepted, and no reply starts another. -/
theorem reply_format_exact (recursionLimit : Nat) (deep : 2 ≤ recursionLimit) :
    (∀ (chunks : List Bytes) (record : FinalRecord), (∀ chunk ∈ chunks, chunk.length < 2 ^ 32) →
      record.fault ≠ none ∨ record.status ≠ none ∧ record.bodyWhole = true →
      statusWritten record.status = true → record.payload.length < 2 ^ 32 →
      RoundTrips recursionLimit chunks record) ∧
    (∀ raw reply, decodeReply recursionLimit raw = .ok reply ↔
      FrameSequence recursionLimit raw reply) ∧
    ∀ raw more reply longer, decodeReply recursionLimit raw = .ok reply →
      decodeReply recursionLimit (raw ++ more) = .ok longer → more = [] :=
  ⟨fun _ _ sizes whole written size => round_trips deep sizes whole written size,
    decode_reply_ok recursionLimit, fun _ _ _ _ read longer => reply_ends recursionLimit read longer⟩

/-- An answer whose body imitates a final frame. -/
def okRecord : FinalRecord :=
  ⟨some 200, Dict.ofList [("content-type", "text/plain")], none, none, false, true, true, false⟩

theorem imitated_frames_round_trip :
    RoundTrips 1000 [frame lengthWidth finalTag okRecord.payload, []] okRecord :=
  (reply_format_exact 1000 (by decide)).1 _ _ (by decide +kernel) (by decide) (by decide +kernel)
    (by decide +kernel)

theorem power_digits_long {limit : Nat} (positive : 0 < limit) :
    ¬ (decimalText (10 ^ limit)).length ≤ limit := by
  intro short
  exact absurd ((Nat.length_toDigits_le_iff (by decide) positive).mp short) (Nat.lt_irrefl _)

/-- A status the interpreter does not write. -/
def longStatus (digits : Nat) : Int := 10 ^ digits

theorem long_status_unwritten : statusWritten (some (longStatus Json.digitsLimit)) = false := by
  have positive : 0 < Json.digitsLimit := by decide
  generalize limited : Json.digitsLimit = limit at positive
  have size : (longStatus limit).natAbs = 10 ^ limit := Int.natAbs_pow 10 limit
  rw [statusWritten, Option.all_some, size, limited]
  exact decide_eq_false (power_digits_long positive)

theorem long_status_not_encoded :
    ¬ ∀ recursionLimit : Nat, 2 ≤ recursionLimit → ∀ (chunks : List Bytes) (record : FinalRecord),
      (∀ chunk ∈ chunks, chunk.length < 2 ^ 32) →
      record.fault ≠ none ∨ record.status ≠ none ∧ record.bodyWhole = true →
      RoundTrips recursionLimit chunks record := by
  intro always
  obtain ⟨_, final, _, encoded, _⟩ := always 1000 (by decide) []
    { okRecord with status := some (longStatus Json.digitsLimit) } nofun (Or.inr ⟨by simp, rfl⟩)
  rw [encodeFinal, long_status_unwritten] at encoded
  cases encoded

end Defender.CredentialProxy
