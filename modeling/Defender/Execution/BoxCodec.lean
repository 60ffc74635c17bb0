import Defender.Execution.BashExec
import Defender.Library.Wire
import Mathlib.Algebra.Ring.Int.Defs

/-!
# The box wire

The frames that cross the sandbox boundary: a request is the parsed pipelines
of one command, a response the code and the two outputs. The host encodes and
the box decodes, each with its own checks. A lone surrogate is no character of
`Str`, so the encoder's refusal of one has no case here, and the connector and
the stderr mode are enumerations, so neither does its refusal of an unknown
spelling.

`requestLayout` says what a frame looks like. The decoder reads that layout for
every request whose counts and lengths fit their fields; the encoder writes it
for those of them whose words hold no NUL.
-/

namespace Defender.Execution

open Defender.Python Defender.Library.Wire

def encodeUtf8 (text : Str) : Bytes := text.flatMap String.utf8EncodeChar

def decodeUtf8 (raw : Bytes) : Option Str := raw.toByteArray.utf8Decode?.map Array.toList

theorem decode_utf8_iff (raw : Bytes) (text : Str) :
    decodeUtf8 raw = some text ↔ raw = encodeUtf8 text := by
  constructor
  · intro decoded
    obtain ⟨chars, read, rfl⟩ := Option.map_eq_some_iff.mp decoded
    have back := @ByteArray.utf8Encode_get_utf8Decode? raw.toByteArray (by simp [read])
    simp only [read, Option.get_some] at back
    have lists := congrArg (fun bytes => bytes.data.toList) back
    simpa [List.utf8Encode, encodeUtf8, eq_comm] using lists
  · rintro rfl
    have forward := @List.utf8Decode?_utf8Encode text
    rw [List.utf8Encode] at forward
    rw [decodeUtf8, encodeUtf8, forward]
    rfl

structure BoxResult where
  rc : Int
  out : Bytes
  err : Bytes
deriving DecidableEq, Repr

/-- `ValueError` with its text, and the `struct.error` of a number its field
cannot hold. -/
inductive EncodeError where
  | valueError (text : Str)
  | structError
deriving DecidableEq, Repr

def requestMagic : Bytes := encodeUtf8 "DFB1"

def responseMagic : Bytes := encodeUtf8 "DFR1"

def connectors : List Connector := [.first, .both, .either, .semicolon]

def stderrModes : List StderrMode := [.capture, .devnull, .stdout]

def pack (width number : Nat) : Except EncodeError Bytes :=
  if number < 256 ^ width then .ok (bigEndian width number) else .error .structError

def packU32 : Nat → Except EncodeError Bytes := pack 4

def packU8 : Nat → Except EncodeError Bytes := pack 1

section

variable [UnicodeDatabase]

def encodeText (value : Str) : Except EncodeError Bytes :=
  if '\x00' ∈ value then
    .error (.valueError (message
      ["argument contains an embedded NUL and cannot cross the box wire: ", reprText value]))
  else do
    let raw := encodeUtf8 value
    let size ← packU32 raw.length
    pure (size ++ raw)

def encodeStage (stage : Stage) : Except EncodeError Bytes := do
  let mode ← packU8 (stderrModes.idxOf stage.stderr)
  let words ← writeCounted packU32 encodeText stage.argv
  pure (mode ++ words)

def encodePipeline (pipeline : Pipeline) : Except EncodeError Bytes := do
  let connector ← packU8 (connectors.idxOf pipeline.connector)
  let stages ← writeCounted packU32 encodeStage pipeline.stages
  pure (connector ++ stages)

def encodeRequest (pipelines : List Pipeline) : Except EncodeError Bytes := do
  let body ← writeCounted packU32 encodePipeline pipelines
  pure (requestMagic ++ body)

end

abbrev FrameReader (Value : Type) := Reader Str Value

def FrameReader.take (size : Nat) : FrameReader Bytes := fun data =>
  if data.length < size then .error "box request frame is truncated or overstates a length"
  else .ok (data.take size, data.drop size)

def FrameReader.u32 : FrameReader Nat := do
  let chunk ← FrameReader.take 4
  pure (numberOf chunk)

def FrameReader.index {Value : Type} (vocabulary : List Value) : FrameReader Value := do
  let chunk ← FrameReader.take 1
  let position := numberOf chunk
  match vocabulary[position]? with
  | some value => pure value
  | none => throw (message
      ["box request frame carries an out-of-range index ", decimalText position])

def FrameReader.text : FrameReader Str := do
  let size ← FrameReader.u32
  let raw ← FrameReader.take size
  match decodeUtf8 raw with
  | some text => pure text
  | none => throw ("box request frame carries a non-UTF-8 argument" : Str)

def decodeStage : FrameReader Stage := do
  let mode ← FrameReader.index stderrModes
  let argv ← FrameReader.u32 >>= repeated FrameReader.text
  pure { argv := argv, stderr := mode }

def decodePipeline : FrameReader Pipeline := do
  let connector ← FrameReader.index connectors
  let stages ← FrameReader.u32 >>= repeated decodeStage
  pure { connector := connector, stages := stages }

def decodeRequest (frame : Bytes) : Except Str (List Pipeline) :=
  if requestMagic.isPrefixOf frame then do
    let (pipelines, rest) ←
      (FrameReader.u32 >>= repeated decodePipeline).run (frame.drop requestMagic.length)
    if rest = [] then pure pipelines else throw ("box request frame has trailing bytes" : Str)
  else .error "not a box request frame"

/-- The bytes of a signed 32-bit field. -/
def packI32 (number : Int) : Except EncodeError Bytes :=
  if -2 ^ 31 ≤ number ∧ number < 2 ^ 31 then .ok (bigEndian 4 (number % 2 ^ 32).toNat)
  else .error .structError

def unpackI32 (field : Bytes) : Int :=
  if numberOf field < 2 ^ 31 then numberOf field else numberOf field - 2 ^ 32

def packU64 : Nat → Except EncodeError Bytes := pack 8

def responseHeaderSize : Nat := 24

def encodeResponse (result : BoxResult) : Except EncodeError Bytes := do
  let rc ← packI32 result.rc
  let sizeOut ← packU64 result.out.length
  let sizeErr ← packU64 result.err.length
  pure (responseMagic ++ rc ++ sizeOut ++ sizeErr ++ result.out ++ result.err)

def decodeResponse (data : Bytes) : Except Str BoxResult :=
  if data.length < responseHeaderSize then
    .error "no frame on the box's stdout (too short to be a response frame)"
  else
    let header := data.take responseHeaderSize
    let magic := header.take 4
    let rc := unpackI32 ((header.drop 4).take 4)
    let sizeOut := numberOf ((header.drop 8).take 8)
    let sizeErr := numberOf (header.drop 16)
    if magic ≠ responseMagic then .error "no frame on the box's stdout (wrong magic)"
    else
      let body := data.drop responseHeaderSize
      if sizeOut + sizeErr ≠ body.length then
        .error "the box's response frame is truncated or overstates a length"
      else .ok { rc := rc, out := body.take sizeOut, err := body.drop sizeOut }

/-! What a frame looks like. -/

def textLayout (value : Str) : Bytes :=
  bigEndian 4 (encodeUtf8 value).length ++ encodeUtf8 value

def stageLayout (stage : Stage) : Bytes :=
  bigEndian 1 (stderrModes.idxOf stage.stderr) ++ countedLayout 4 textLayout stage.argv

def pipelineLayout (pipeline : Pipeline) : Bytes :=
  bigEndian 1 (connectors.idxOf pipeline.connector) ++
    countedLayout 4 stageLayout pipeline.stages

def requestLayout (pipelines : List Pipeline) : Bytes :=
  requestMagic ++ countedLayout 4 pipelineLayout pipelines

def WordFits (word : Str) : Prop := (encodeUtf8 word).length < 256 ^ 4

/-- Every count and length is below its field's bound, and every word is as
asked. -/
def RequestFits (wordFits : Str → Prop) : List Pipeline → Prop :=
  countedFits 4 fun pipeline =>
    countedFits 4 (fun stage => countedFits 4 wordFits stage.argv) pipeline.stages

theorem take_ok (size : Nat) (input chunk rest : Bytes) :
    (FrameReader.take size).run input = .ok (chunk, rest) ↔
      chunk.length = size ∧ input = chunk ++ rest := by
  change (if input.length < size then _ else _) = _ ↔ _
  by_cases short : input.length < size
  · rw [if_pos short]
    constructor
    · intro impossible
      cases impossible
    · rintro ⟨rfl, rfl⟩
      rw [List.length_append] at short
      omega
  · rw [if_neg short]
    constructor
    · intro same
      simp only [Except.ok.injEq, Prod.mk.injEq] at same
      obtain ⟨rfl, rfl⟩ := same
      exact ⟨List.length_take_of_le (Nat.le_of_not_lt short), (List.take_append_drop _ _).symm⟩
    · rintro ⟨rfl, rfl⟩
      simp

theorem reads_u32 : Reads FrameReader.u32 (bigEndian 4) (· < 256 ^ 4) := by
  intro input number rest
  simp only [FrameReader.u32, run_bind_ok, run_pure_ok, take_ok]
  constructor
  · rintro ⟨chunk, middle, ⟨size, rfl⟩, rfl, rfl⟩
    refine ⟨size ▸ number_lt chunk, ?_⟩
    rw [← size, big_endian_number]
  · rintro ⟨small, rfl⟩
    exact ⟨bigEndian 4 number, rest, ⟨big_endian_length 4 number, rfl⟩,
      number_big_endian small, rfl⟩

theorem reads_index {Value : Type} [DecidableEq Value] {vocabulary : List Value}
    (distinct : vocabulary.Nodup) (short : vocabulary.length ≤ 256) :
    Reads (FrameReader.index vocabulary) (fun value => bigEndian 1 (vocabulary.idxOf value))
      (· ∈ vocabulary) := by
  intro input value rest
  simp only [FrameReader.index, run_bind_ok, take_ok]
  constructor
  · rintro ⟨chunk, middle, ⟨size, rfl⟩, found⟩
    cases entry : vocabulary[numberOf chunk]? with
    | none =>
      rw [entry] at found
      cases found
    | some item =>
      rw [entry] at found
      obtain ⟨rfl, rfl⟩ := run_pure_ok.mp found
      obtain ⟨inside, rfl⟩ := List.getElem?_eq_some_iff.mp entry
      refine ⟨List.getElem_mem inside, ?_⟩
      rw [distinct.idxOf_getElem, ← size, big_endian_number]
  · rintro ⟨member, rfl⟩
    have inside : vocabulary.idxOf value < vocabulary.length := List.idxOf_lt_length_of_mem member
    have small : vocabulary.idxOf value < 256 ^ 1 := by omega
    refine ⟨_, rest, ⟨big_endian_length 1 _, rfl⟩, ?_⟩
    rw [number_big_endian small, List.getElem?_eq_getElem inside, List.getElem_idxOf inside]
    exact run_pure_ok.mpr ⟨rfl, rfl⟩

theorem reads_text : Reads FrameReader.text textLayout WordFits := by
  intro input value rest
  simp only [FrameReader.text, run_bind_ok, reads_u32 _ _ _, take_ok]
  constructor
  · rintro ⟨size, middle, ⟨small, rfl⟩, raw, behind, ⟨rfl, rfl⟩, read⟩
    cases decoded : decodeUtf8 raw with
    | none =>
      rw [decoded] at read
      cases read
    | some text =>
      rw [decoded] at read
      obtain ⟨rfl, rfl⟩ := run_pure_ok.mp read
      obtain rfl := (decode_utf8_iff raw text).mp decoded
      exact ⟨small, by simp [textLayout]⟩
  · rintro ⟨small, rfl⟩
    refine ⟨_, encodeUtf8 value ++ rest, ⟨small, by simp [textLayout]⟩,
      encodeUtf8 value, rest, ⟨rfl, rfl⟩, ?_⟩
    rw [(decode_utf8_iff _ value).mpr rfl]
    exact run_pure_ok.mpr ⟨rfl, rfl⟩

theorem stderr_mode_listed (mode : StderrMode) : mode ∈ stderrModes := by
  cases mode <;> decide

theorem connector_listed (connector : Connector) : connector ∈ connectors := by
  cases connector <;> decide

/-- A stage and a pipeline have one shape: a tag from a vocabulary and a counted
list. -/
theorem reads_tagged {Tag Item Value : Type} [DecidableEq Tag] {vocabulary : List Tag}
    {reader : FrameReader Item} {layout : Item → Bytes} {fits : Item → Prop}
    (make : Tag → List Item → Value) (tag : Value → Tag) (items : Value → List Item)
    (made : ∀ value, make (tag value) (items value) = value)
    (tagMade : ∀ mark list, tag (make mark list) = mark)
    (itemsMade : ∀ mark list, items (make mark list) = list)
    (distinct : vocabulary.Nodup) (short : vocabulary.length ≤ 256)
    (listed : ∀ mark, mark ∈ vocabulary) (reads : Reads reader layout fits) :
    Reads (do
        let mark ← FrameReader.index vocabulary
        let list ← FrameReader.u32 >>= repeated reader
        pure (make mark list))
      (fun value => bigEndian 1 (vocabulary.idxOf (tag value)) ++
        countedLayout 4 layout (items value))
      (fun value => countedFits 4 fits (items value)) := by
  have readsList := reads_counted reads_u32 reads
  intro input value rest
  rw [run_bind_ok]
  constructor
  · rintro ⟨mark, middle, readMark, others⟩
    obtain ⟨list, behind, readList, same⟩ := run_bind_ok.mp others
    obtain ⟨-, rfl⟩ := (reads_index distinct short _ _ _).mp readMark
    obtain ⟨listFits, rfl⟩ := (readsList _ _ _).mp readList
    obtain ⟨rfl, rfl⟩ := run_pure_ok.mp same
    simp only [tagMade, itemsMade]
    exact ⟨listFits, by simp⟩
  · rintro ⟨listFits, rfl⟩
    refine ⟨tag value, countedLayout 4 layout (items value) ++ rest, ?_, ?_⟩
    · rw [reads_index distinct short]
      exact ⟨listed _, by simp⟩
    · rw [run_bind_ok]
      refine ⟨items value, rest, (readsList _ _ _).mpr ⟨listFits, rfl⟩, ?_⟩
      exact run_pure_ok.mpr ⟨made value, rfl⟩

theorem reads_stage :
    Reads decodeStage stageLayout (fun stage => countedFits 4 WordFits stage.argv) :=
  reads_tagged (fun mode argv => Stage.mk argv mode) Stage.stderr Stage.argv
    (fun _ => rfl) (fun _ _ => rfl) (fun _ _ => rfl) (by decide) (by decide) stderr_mode_listed
    reads_text

theorem reads_pipeline :
    Reads decodePipeline pipelineLayout (fun pipeline =>
      countedFits 4 (fun stage => countedFits 4 WordFits stage.argv) pipeline.stages) :=
  reads_tagged Pipeline.mk Pipeline.connector Pipeline.stages (fun _ => rfl) (fun _ _ => rfl) (fun _ _ => rfl)
    (by decide) (by decide) connector_listed reads_stage

theorem decode_request_ok (frame : Bytes) (pipelines : List Pipeline) :
    decodeRequest frame = .ok pipelines ↔
      RequestFits WordFits pipelines ∧ frame = requestLayout pipelines := by
  have readsRequest := reads_counted reads_u32 reads_pipeline
  rw [decodeRequest]
  constructor
  · intro decoded
    split at decoded
    case isTrue marked =>
      obtain ⟨body, rfl⟩ := List.isPrefixOf_iff_prefix.mp marked
      rw [List.drop_left] at decoded
      obtain ⟨⟨request, rest⟩, ran, whole⟩ := except_bind_ok.mp decoded
      dsimp only at whole
      obtain ⟨fits, rfl⟩ := (readsRequest _ _ _).mp ran
      split at whole
      case isTrue nothing =>
        cases whole
        exact ⟨fits, by rw [nothing, List.append_nil]; rfl⟩
      case isFalse => cases whole
    case isFalse => cases decoded
  · rintro ⟨fits, rfl⟩
    have marked : requestMagic.isPrefixOf (requestLayout pipelines) = true :=
      List.isPrefixOf_iff_prefix.mpr (List.prefix_append _ _)
    have ran := (readsRequest (countedLayout 4 pipelineLayout pipelines) pipelines []).mpr
      ⟨fits, (List.append_nil _).symm⟩
    rw [if_pos marked, requestLayout, List.drop_left, ran]
    rfl

/-! The encoder. -/

theorem writes_pack (width : Nat) : Writes (pack width) (bigEndian width) (· < 256 ^ width) := by
  intro number bytes
  rw [pack]
  split <;> simp_all [eq_comm]

theorem writes_tagged {Tag Item Value : Type} [DecidableEq Tag] {vocabulary : List Tag}
    {writer : Item → Except EncodeError Bytes} {layout : Item → Bytes} {fits : Item → Prop}
    (tag : Value → Tag) (items : Value → List Item) (short : vocabulary.length ≤ 256)
    (listed : ∀ mark, mark ∈ vocabulary) (writes : Writes writer layout fits) :
    Writes (fun value => do
        let mark ← packU8 (vocabulary.idxOf (tag value))
        let list ← writeCounted packU32 writer (items value)
        pure (mark ++ list))
      (fun value => bigEndian 1 (vocabulary.idxOf (tag value)) ++
        countedLayout 4 layout (items value))
      (fun value => countedFits 4 fits (items value)) := by
  have writesList := writes_counted (writes_pack 4) writes
  intro value bytes
  have inside : vocabulary.idxOf (tag value) < vocabulary.length :=
    List.idxOf_lt_length_of_mem (listed _)
  have small : vocabulary.idxOf (tag value) < 256 ^ 1 := by omega
  simp only [except_bind_ok, packU8, packU32, writes_pack 1 _ _, writesList _ _, pure,
    Except.pure, Except.ok.injEq]
  constructor
  · rintro ⟨mark, ⟨-, rfl⟩, list, ⟨listFits, rfl⟩, rfl⟩
    exact ⟨listFits, rfl⟩
  · rintro ⟨listFits, rfl⟩
    exact ⟨_, ⟨small, rfl⟩, _, ⟨listFits, rfl⟩, rfl⟩

section

variable [UnicodeDatabase]

theorem writes_text :
    Writes encodeText textLayout (fun word => '\x00' ∉ word ∧ WordFits word) := by
  intro word bytes
  rw [encodeText]
  split
  case isTrue zero => simp [zero]
  case isFalse clear =>
    simp only [except_bind_ok, packU32, writes_pack 4 _ _, pure, Except.pure, Except.ok.injEq]
    constructor
    · rintro ⟨size, ⟨small, rfl⟩, rfl⟩
      exact ⟨⟨clear, small⟩, rfl⟩
    · rintro ⟨⟨-, small⟩, rfl⟩
      exact ⟨_, ⟨small, rfl⟩, rfl⟩

theorem writes_stage :
    Writes encodeStage stageLayout
      (fun stage => countedFits 4 (fun word => '\x00' ∉ word ∧ WordFits word) stage.argv) :=
  writes_tagged Stage.stderr Stage.argv (by decide) stderr_mode_listed writes_text

theorem writes_pipeline :
    Writes encodePipeline pipelineLayout (fun pipeline =>
      countedFits 4 (fun stage =>
        countedFits 4 (fun word => '\x00' ∉ word ∧ WordFits word) stage.argv) pipeline.stages) :=
  writes_tagged Pipeline.connector Pipeline.stages (by decide) connector_listed writes_stage

theorem encode_request_ok (pipelines : List Pipeline) (frame : Bytes) :
    encodeRequest pipelines = .ok frame ↔
      RequestFits (fun word => '\x00' ∉ word ∧ WordFits word) pipelines ∧
        frame = requestLayout pipelines := by
  have writesRequest := writes_counted (writes_pack 4) writes_pipeline
  simp only [encodeRequest, except_bind_ok, packU32, writesRequest _ _, pure, Except.pure,
    Except.ok.injEq]
  constructor
  · rintro ⟨body, ⟨fits, rfl⟩, rfl⟩
    exact ⟨fits, rfl⟩
  · rintro ⟨fits, rfl⟩
    exact ⟨_, ⟨fits, rfl⟩, rfl⟩

/-! The response. -/

def ResponseFits (result : BoxResult) : Prop :=
  (-2 ^ 31 ≤ result.rc ∧ result.rc < 2 ^ 31) ∧
    result.out.length < 256 ^ 8 ∧ result.err.length < 256 ^ 8

end

theorem unpack_packed {number : Int} (low : -2 ^ 31 ≤ number) (high : number < 2 ^ 31) :
    unpackI32 (bigEndian 4 (number % 2 ^ 32).toNat) = number := by
  have small : (number % 2 ^ 32).toNat < 256 ^ 4 := by omega
  rw [unpackI32, number_big_endian small]
  split <;> omega

theorem decode_response_parts {rc sizeOut sizeErr out err : Bytes} (rcSize : rc.length = 4)
    (outSize : sizeOut.length = 8) (errSize : sizeErr.length = 8)
    (outNumber : numberOf sizeOut = out.length) (errNumber : numberOf sizeErr = err.length) :
    decodeResponse (responseMagic ++ rc ++ sizeOut ++ sizeErr ++ out ++ err) =
      .ok { rc := unpackI32 rc, out := out, err := err } := by
  have magicSize : responseMagic.length = 4 := by decide
  have headerSize : (responseMagic ++ rc ++ sizeOut ++ sizeErr).length = responseHeaderSize := by
    simp only [List.length_append, magicSize, rcSize, outSize, errSize]
    rfl
  have long : ¬ (responseMagic ++ rc ++ sizeOut ++ sizeErr ++ (out ++ err)).length <
      responseHeaderSize := by
    rw [List.length_append, headerSize]
    omega
  have magicField : (responseMagic ++ rc ++ sizeOut ++ sizeErr).take 4 = responseMagic := by
    rw [List.append_assoc, List.append_assoc, List.take_left' magicSize]
  have rcField : ((responseMagic ++ rc ++ sizeOut ++ sizeErr).drop 4).take 4 = rc := by
    rw [List.append_assoc, List.append_assoc, List.drop_left' magicSize, List.take_left' rcSize]
  have outField : ((responseMagic ++ rc ++ sizeOut ++ sizeErr).drop 8).take 8 = sizeOut := by
    have front : (responseMagic ++ rc).length = 8 := by rw [List.length_append, magicSize, rcSize]
    rw [List.append_assoc, List.drop_left' front, List.take_left' outSize]
  have errField : (responseMagic ++ rc ++ sizeOut ++ sizeErr).drop 16 = sizeErr := by
    have front : (responseMagic ++ rc ++ sizeOut).length = 16 := by
      rw [List.length_append, List.length_append, magicSize, rcSize, outSize]
    rw [List.drop_left' front]
  rw [List.append_assoc _ out err, decodeResponse, if_neg long]
  simp only [List.take_left' headerSize, List.drop_left' headerSize, magicField, rcField,
    outField, errField, outNumber, errNumber]
  simp

theorem encode_response_ok {result : BoxResult} (fits : ResponseFits result) :
    ∃ data, encodeResponse result = .ok data ∧ decodeResponse data = .ok result := by
  obtain ⟨⟨low, high⟩, outFits, errFits⟩ := fits
  have rc : packI32 result.rc = .ok (bigEndian 4 (result.rc % 2 ^ 32).toNat) :=
    if_pos ⟨low, high⟩
  have sizeOut : packU64 result.out.length = .ok (bigEndian 8 result.out.length) :=
    if_pos outFits
  have sizeErr : packU64 result.err.length = .ok (bigEndian 8 result.err.length) :=
    if_pos errFits
  refine ⟨_, by rw [encodeResponse, rc, sizeOut, sizeErr]; rfl, ?_⟩
  rw [decode_response_parts (big_endian_length 4 _) (big_endian_length 8 _)
    (big_endian_length 8 _) (number_big_endian outFits) (number_big_endian errFits),
    unpack_packed low high]

/-! Round trips. -/

def CarriesNul (frame : Bytes) : Prop :=
  ∃ pipelines, RequestFits WordFits pipelines ∧ frame = requestLayout pipelines ∧
    ∃ pipeline ∈ pipelines, ∃ stage ∈ pipeline.stages, ∃ word ∈ stage.argv, '\x00' ∈ word

theorem request_layout_injective {first second : List Pipeline} {extra : Bytes}
    (firstFits : RequestFits WordFits first) (secondFits : RequestFits WordFits second)
    (same : requestLayout first ++ extra = requestLayout second) :
    first = second ∧ extra = [] := by
  have bodies : countedLayout 4 pipelineLayout first ++ extra =
      countedLayout 4 pipelineLayout second ++ [] := by
    rw [requestLayout, requestLayout, List.append_assoc] at same
    rw [List.append_nil]
    exact List.append_cancel_left same
  exact layout_injective (reads_counted reads_u32 reads_pipeline) firstFits secondFits bodies

theorem fits_without_nul {pipelines : List Pipeline} (fits : RequestFits WordFits pipelines) :
    RequestFits (fun word => '\x00' ∉ word ∧ WordFits word) pipelines ↔
      ¬ ∃ pipeline ∈ pipelines, ∃ stage ∈ pipeline.stages, ∃ word ∈ stage.argv,
        '\x00' ∈ word := by
  constructor
  · rintro clear ⟨pipeline, inRequest, stage, inPipeline, word, inStage, zero⟩
    exact (((clear.2 pipeline inRequest).2 stage inPipeline).2 word inStage).1 zero
  · intro clear
    refine ⟨fits.1, fun pipeline inRequest => ?_⟩
    have pipelineFits := fits.2 pipeline inRequest
    refine ⟨pipelineFits.1, fun stage inPipeline => ?_⟩
    have stageFits := pipelineFits.2 stage inPipeline
    refine ⟨stageFits.1, fun word inStage => ⟨fun zero => ?_, stageFits.2 word inStage⟩⟩
    exact clear ⟨pipeline, inRequest, stage, inPipeline, word, inStage, zero⟩

theorem fits_unmarked {pipelines : List Pipeline}
    (fits : RequestFits (fun word => '\x00' ∉ word ∧ WordFits word) pipelines) :
    RequestFits WordFits pipelines :=
  ⟨fits.1, fun pipeline inRequest => ⟨(fits.2 pipeline inRequest).1, fun stage inPipeline =>
    ⟨((fits.2 pipeline inRequest).2 stage inPipeline).1, fun word inStage =>
      (((fits.2 pipeline inRequest).2 stage inPipeline).2 word inStage).2⟩⟩⟩

/-- The decoder has no counterpart of the encoder's refusal of a NUL, so it
accepts frames that no request encodes to: exactly those that lay out a word
with a NUL. -/
theorem box_wire_round_trips [UnicodeDatabase] :
    (∀ pipelines, RequestFits (fun word => '\x00' ∉ word ∧ WordFits word) pipelines →
      ∃ frame, encodeRequest pipelines = .ok frame ∧ decodeRequest frame = .ok pipelines) ∧
    (∀ frame pipelines, decodeRequest frame = .ok pipelines →
      (encodeRequest pipelines = .ok frame ↔ ¬ CarriesNul frame)) ∧
    (∀ first second pipelines, decodeRequest first = .ok pipelines →
      decodeRequest second = .ok pipelines → first = second) ∧
    (∀ frame extra pipelines, decodeRequest frame = .ok pipelines → extra ≠ [] →
      ∃ fault, decodeRequest (frame ++ extra) = .error fault) ∧
    (∀ result, ResponseFits result →
      ∃ data, encodeResponse result = .ok data ∧ decodeResponse data = .ok result) := by
  refine ⟨?_, ?_, ?_, ?_, fun result => encode_response_ok⟩
  · intro pipelines fits
    exact ⟨requestLayout pipelines, (encode_request_ok _ _).mpr ⟨fits, rfl⟩,
      (decode_request_ok _ _).mpr ⟨fits_unmarked fits, rfl⟩⟩
  · intro frame pipelines decoded
    obtain ⟨fits, rfl⟩ := (decode_request_ok _ _).mp decoded
    have carries : CarriesNul (requestLayout pipelines) ↔
        ∃ pipeline ∈ pipelines, ∃ stage ∈ pipeline.stages, ∃ word ∈ stage.argv,
          '\x00' ∈ word := by
      constructor
      · rintro ⟨other, otherFits, same, zero⟩
        have extended : requestLayout pipelines ++ [] = requestLayout other := by
          rw [List.append_nil, same]
        rw [(request_layout_injective fits otherFits extended).1]
        exact zero
      · exact fun zero => ⟨pipelines, fits, rfl, zero⟩
    rw [encode_request_ok, fits_without_nul fits, carries]
    exact and_iff_left rfl
  · intro first second pipelines decodedFirst decodedSecond
    rw [((decode_request_ok _ _).mp decodedFirst).2, ((decode_request_ok _ _).mp decodedSecond).2]
  · intro frame extra pipelines decoded nonempty
    obtain ⟨fits, rfl⟩ := (decode_request_ok _ _).mp decoded
    cases result : decodeRequest (requestLayout pipelines ++ extra) with
    | error fault => exact ⟨fault, rfl⟩
    | ok other =>
      obtain ⟨otherFits, same⟩ := (decode_request_ok _ _).mp result
      exact absurd (request_layout_injective fits otherFits same).2 nonempty

def nulRequest : List Pipeline :=
  [{ connector := .first, stages := [{ argv := [['\x00']], stderr := .capture }] }]

def nulFrame : Bytes :=
  [68, 70, 66, 49, 0, 0, 0, 1, 0, 0, 0, 0, 1, 0, 0, 0, 0, 1, 0, 0, 0, 1, 0]

theorem nul_frame_not_encoded :
    decodeRequest nulFrame = .ok nulRequest ∧
      @encodeRequest asciiDatabase nulRequest ≠ .ok nulFrame := by
  have small : WordFits ['\x00'] := by
    rw [WordFits]
    decide
  constructor
  · rw [decode_request_ok]
    refine ⟨?_, by decide⟩
    simp [RequestFits, countedFits, nulRequest, small]
  · intro encoded
    have fits := ((@encode_request_ok asciiDatabase _ _).mp encoded).1
    have zero := (fits_without_nul (fits_unmarked fits)).mp fits
    simp [nulRequest] at zero

end Defender.Execution
