import Defender.Filesystem.TableFile
import Defender.Python.JsonScan

/-!
# The oracle's spend trace

A charge appends its row and the rows whose append failed before. An append that fails leaves any
front of its bytes, and the next one starts on a line of its own. A new store counts each row once
by its id.
-/

namespace Defender.Learning

open Defender.Python Defender.Library.Wire Defender.Execution Defender.Filesystem

namespace OracleTrace

/-- The most bytes a record is read whole at. -/
def readLimit : Nat := 64 * 1024 * 1024

/-- A row of the trace, one the writer can spell and the reader takes. -/
structure TraceRow where
  id : Str
  actor : Str
  model : Str
  inputTokens : Json
  outputTokens : Json
  costUsd : Json
  at_ : Json
  held : isTableRow (.object [("id", .string id), ("actor", .string actor),
    ("model", .string model), ("input_tokens", inputTokens), ("output_tokens", outputTokens),
    ("cost_usd", costUsd), ("at", at_)]) = true

def TraceRow.json (row : TraceRow) : Json :=
  .object [("id", .string row.id), ("actor", .string row.actor), ("model", .string row.model),
    ("input_tokens", row.inputTokens), ("output_tokens", row.outputTokens),
    ("cost_usd", row.costUsd), ("at", row.at_)]

/-- The last line of a file has no line feed. -/
def endsTorn (data : Bytes) : Bool := data ≠ [] && data.getLast? ≠ some 0x0a

/-- What a store keeps of its spend trace. -/
structure OracleStore where
  trace : Bytes
  torn : Bool
  unwritten : List TraceRow

/-- How an append ends: whole, or with an error and a front of its bytes written. -/
inductive Landing where
  | landed
  | failed (written : Nat)

def readJsonlRows (data : Bytes) : Option (List Json) :=
  if readLimit < data.length then none else some (jsonlRowsOf (decodeReplace data)).1

def rowId (row : Json) : Option Str :=
  match row.get? "id" with
  | some (.string id) => some id
  | _ => none

/-- The rows `_trace_spent` counts. -/
def countedRows (seen : List Str) : List Json → List Json
  | [] => []
  | row :: rest =>
      match rowId row with
      | some id =>
          if id ∈ seen then countedRows seen rest else row :: countedRows (seen ++ [id]) rest
      | none => row :: countedRows seen rest

namespace OracleStore

def opened (trace : Bytes) : Option OracleStore :=
  (readJsonlRows trace).map fun _ => ⟨trace, endsTorn trace, []⟩

variable (store : OracleStore)

/-- What `_append` writes for the rows. -/
def appendText (rows : List TraceRow) : Str :=
  (if store.torn then ['\n'] else []) ++ jsonlText (rows.map TraceRow.json)

def charge (row : TraceRow) (landing : Landing) : OracleStore :=
  let unwritten := store.unwritten ++ [row]
  let data := encodeUtf8 (store.appendText unwritten)
  match landing with
  | .landed => { trace := store.trace ++ data, torn := false, unwritten := [] }
  | .failed written =>
      { trace := store.trace ++ data.take written, torn := true, unwritten := unwritten }

def charges : List (TraceRow × Landing) → OracleStore → OracleStore
  | [], store => store
  | (row, landing) :: rest, store => charges rest (store.charge row landing)

end OracleStore

/-- A character that is begun is no ASCII one. -/
def Multibyte (begun : Option Begun) : Prop := ∀ started, begun = some started → 0x80 ≤ started.least

theorem start_multibyte (byte : Nat) : Multibyte (startByte byte).2 := by
  intro started begun
  unfold startByte at begun
  split_ifs at begun <;> cases begun <;> simp

theorem none_multibyte : Multibyte none := by
  intro started same
  cases same

/-- A line feed is decoded as itself, whatever stands before it. -/
theorem decode_feed (front rest : Bytes) {begun : Option Begun} (multibyte : Multibyte begun) :
    decodeFrom begun (front ++ 0x0a :: rest) =
      decodeFrom begun front ++ '\n' :: decodeFrom none rest := by
  induction front generalizing begun with
  | nil =>
      cases begun with
      | none => rfl
      | some started =>
          have least := multibyte started rfl
          have below : ¬ (started.least ≤ (0x0a : UInt8).toNat ∧
              (0x0a : UInt8).toNat ≤ started.most) := by
            have feed : (0x0a : UInt8).toNat = 10 := rfl
            omega
          rw [List.nil_append]
          simp only [decodeFrom]
          rw [if_neg below]
          rfl
  | cons byte front ih =>
      cases begun with
      | none =>
          rw [List.cons_append, decodeFrom, decodeFrom, ih (start_multibyte byte.toNat),
            List.append_assoc]
      | some started =>
          rw [List.cons_append, decodeFrom, decodeFrom]
          split
          · dsimp only
            split
            · rw [ih none_multibyte, List.cons_append]
            · apply ih
              intro next same
              cases same
              exact le_rfl
          · rw [ih (start_multibyte byte.toNat), List.cons_append, List.append_assoc]

theorem decode_closed (front rest : Bytes) :
    decodeReplace (front ++ [0x0a] ++ rest) =
      decodeReplace (front ++ [0x0a]) ++ decodeReplace rest := by
  have whole := decode_feed front rest none_multibyte
  have alone := decode_feed front [] none_multibyte
  unfold decodeReplace
  rw [List.append_assoc, List.singleton_append, whole, alone, List.append_assoc]
  rfl

section Rows

def rowsRead (data : Bytes) : List Json := (jsonlRowsOf (decodeReplace data)).1

/-- The next append starts on a line of its own. -/
def Closed (data : Bytes) : Prop := data = [] ∨ ∃ front, data = front ++ [0x0a]

def Ascii (text : Str) : Prop := ∀ char ∈ text, char.toNat < 0x80

theorem ends_torn_iff (data : Bytes) : endsTorn data = false ↔ Closed data := by
  unfold endsTorn Closed
  rcases List.eq_nil_or_concat data with rfl | ⟨front, last, rfl⟩
  · simp
  · simp

theorem decode_closed_ascii {data : Bytes} (closed : Closed data) {text : Str}
    (ascii : Ascii text) :
    decodeReplace (data ++ encodeUtf8 text) = decodeReplace data ++ text := by
  rcases closed with rfl | ⟨front, rfl⟩
  · rw [List.nil_append, decode_replace_ascii text ascii]
    rfl
  · rw [decode_closed, decode_replace_ascii text ascii]

theorem decode_fed_ascii (data : Bytes) {text : Str} (ascii : Ascii text) :
    decodeReplace (data ++ encodeUtf8 ('\n' :: text)) = decodeReplace data ++ '\n' :: text := by
  have fed : data ++ encodeUtf8 ('\n' :: text) = data ++ 0x0a :: encodeUtf8 text := rfl
  rw [fed]
  unfold decodeReplace
  rw [decode_feed data _ none_multibyte]
  exact congrArg (fun rest => decodeFrom none data ++ '\n' :: rest)
    (decode_replace_ascii text ascii)

/-- A line feed at the end closes the last line and changes no line. -/
theorem lines_fed (text : Str) {line : Str} {afterReturn : Bool}
    (begun : afterReturn = true → line = []) :
    ∀ found ∈ splitlinesFrom line afterReturn text,
      found ∈ splitlinesFrom line afterReturn (text ++ ['\n']) := by
  induction text generalizing line afterReturn with
  | nil =>
      intro found member
      rw [splitlinesFrom] at member
      split at member
      · cases member
      · rename_i filled
        have fresh : afterReturn = false := by
          rw [← Bool.not_eq_true]
          exact fun returned => filled (begun returned)
        rw [List.mem_singleton.mp member, fresh]
        exact List.mem_cons_self ..
  | cons char rest ih =>
      intro found member
      rw [List.cons_append]
      simp only [splitlinesFrom] at member ⊢
      by_cases joined : (afterReturn && char == '\n') = true
      · rw [if_pos joined] at member ⊢
        exact ih (fun returned => absurd returned Bool.false_ne_true) found member
      · rw [if_neg joined] at member ⊢
        by_cases ends : isLineBreak char = true
        · rw [if_pos ends] at member ⊢
          rcases List.mem_cons.mp member with same | later
          · exact List.mem_cons.mpr (Or.inl same)
          · exact List.mem_cons.mpr (Or.inr (ih (fun _ => rfl) found later))
        · rw [if_neg ends] at member ⊢
          exact ih (fun returned => absurd returned Bool.false_ne_true) found member

theorem mem_rows_read (data : Bytes) (row : Json) : row ∈ rowsRead data ↔
    ∃ line ∈ splitlines (decodeReplace data), isBlank line = false ∧
      parseJsonlRow line = some row := by
  simp [rowsRead, jsonlRowsOf, and_assoc]

theorem rows_stay_fed (data : Bytes) {text : Str} (ascii : Ascii text) {row : Json}
    (read : row ∈ rowsRead data) : row ∈ rowsRead (data ++ encodeUtf8 ('\n' :: text)) := by
  rw [mem_rows_read] at read ⊢
  obtain ⟨line, listed, parsed⟩ := read
  refine ⟨line, ?_, parsed⟩
  rw [decode_fed_ascii data ascii]
  unfold splitlines at listed ⊢
  rw [splitlines_feed]
  apply List.mem_append_left
  exact lines_fed _ (fun returned => absurd returned Bool.false_ne_true) line listed

theorem rows_stay_closed {data : Bytes} (closed : Closed data) {text : Str} (ascii : Ascii text)
    {row : Json} (read : row ∈ rowsRead data) : row ∈ rowsRead (data ++ encodeUtf8 text) := by
  rw [mem_rows_read] at read ⊢
  obtain ⟨line, listed, parsed⟩ := read
  refine ⟨line, ?_, parsed⟩
  rw [decode_closed_ascii closed ascii]
  rcases closed with rfl | ⟨front, rfl⟩
  · cases listed
  · have fed : decodeReplace (front ++ [0x0a]) = decodeReplace front ++ ['\n'] :=
      decode_feed front [] none_multibyte
    rw [fed] at listed ⊢
    unfold splitlines at listed ⊢
    rw [List.append_assoc, List.singleton_append, splitlines_feed]
    exact List.mem_append_left _ listed

theorem jsonl_ascii (rows : List TraceRow) : Ascii (jsonlText (rows.map TraceRow.json)) := by
  intro char member
  simp only [jsonlText, List.mem_flatMap, List.mem_map, List.mem_append,
    List.mem_singleton] at member
  obtain ⟨_, ⟨row, _, rfl⟩, inside | feed⟩ := member
  · exact (table_row_plain row.held char inside).1
  · rw [feed]
    decide

theorem written_row_read {before : Str} (starts : before = [] ∨ ∃ earlier, before = earlier ++ ['\n'])
    {rows : List TraceRow} {row : TraceRow} (member : row ∈ rows) :
    row.json ∈ (jsonlRowsOf (before ++ jsonlText (rows.map TraceRow.json))).1 := by
  obtain ⟨earlier, later, rfl⟩ := List.append_of_mem member
  have written : before ++ jsonlText ((earlier ++ row :: later).map TraceRow.json) =
      (before ++ jsonlText (earlier.map TraceRow.json)) ++
        (Json.dumps row.json ++ '\n' :: jsonlText (later.map TraceRow.json)) := by
    simp [jsonlText]
  rw [written]
  have held := row.held
  rw [isTableRow, Bool.and_eq_true, decide_eq_true_eq] at held
  refine row_on_own_line _ held.1 held.2 ?_
  rcases List.eq_nil_or_concat earlier with rfl | ⟨front, last, rfl⟩
  · simpa [jsonlText] using starts
  · right
    exact ⟨before ++ jsonlText (front.map TraceRow.json) ++ Json.dumps last.json,
      by simp [jsonlText]⟩

theorem encode_take {text : Str} (ascii : Ascii text) (count : Nat) :
    (encodeUtf8 text).take count = encodeUtf8 (text.take count) := by
  have bytes : ∀ text, Ascii text → encodeUtf8 text =
      text.map fun char => UInt8.ofNat char.toNat := by
    intro text ascii
    unfold encodeUtf8
    induction text with
    | nil => rfl
    | cons char rest ih =>
        rw [List.flatMap_cons, encode_ascii_char (ascii char (List.mem_cons_self ..)),
          ih fun other member => ascii other (List.mem_cons_of_mem _ member)]
        rfl
  rw [bytes text ascii, bytes (text.take count) fun char member =>
    ascii char (List.mem_of_mem_take member), List.map_take]

end Rows

section Charges

variable {store : OracleStore}

def Marked (store : OracleStore) : Prop := store.torn = false → Closed store.trace

theorem append_text_ascii (rows : List TraceRow) : Ascii (store.appendText rows) := by
  have lines := jsonl_ascii rows
  unfold OracleStore.appendText
  split
  · intro char member
    rcases List.mem_append.mp member with feed | inside
    · rw [List.mem_singleton.mp feed]
      decide
    · exact lines char inside
  · exact lines

theorem rows_stay (marked : Marked store) (rows : List TraceRow) (count : Nat) {row : Json}
    (read : row ∈ rowsRead store.trace) :
    row ∈ rowsRead (store.trace ++ (encodeUtf8 (store.appendText rows)).take count) := by
  rw [encode_take (append_text_ascii rows)]
  have ascii : Ascii ((store.appendText rows).take count) := fun char member =>
    append_text_ascii rows char (List.mem_of_mem_take member)
  cases torn : store.torn with
  | false => exact rows_stay_closed (marked torn) ascii read
  | true =>
      cases count with
      | zero => simpa [encodeUtf8] using read
      | succ count =>
          have fed : (store.appendText rows).take (count + 1) =
              '\n' :: (jsonlText (rows.map TraceRow.json)).take count := by
            simp [OracleStore.appendText, torn]
          rw [fed] at ascii ⊢
          exact rows_stay_fed _ (fun char member => ascii char (List.mem_cons_of_mem _ member)) read

theorem charge_stays (marked : Marked store) (charged : TraceRow) (landing : Landing) {row : Json}
    (read : row ∈ rowsRead store.trace) : row ∈ rowsRead (store.charge charged landing).trace := by
  cases landing with
  | landed =>
      have stays := rows_stay marked (store.unwritten ++ [charged])
        (encodeUtf8 (store.appendText (store.unwritten ++ [charged]))).length read
      rwa [List.take_length] at stays
  | failed written => exact rows_stay marked _ written read

theorem charge_marked (charged : TraceRow) (landing : Landing) :
    Marked (store.charge charged landing) := by
  cases landing with
  | landed =>
      intro _
      right
      refine ⟨store.trace ++ encodeUtf8 ((if store.torn then ['\n'] else []) ++
        (jsonlText (store.unwritten.map TraceRow.json) ++ Json.dumps charged.json)), ?_⟩
      simp only [OracleStore.charge, OracleStore.appendText, jsonlText, List.map_append,
        List.flatMap_append, List.map_singleton, List.flatMap_singleton, encodeUtf8,
        List.append_assoc]
      rfl
  | failed written =>
      intro whole
      cases whole

/-- An append that lands writes every row that was pending. -/
theorem landed_read (marked : Marked store) (charged : TraceRow) {row : TraceRow}
    (pending : row ∈ store.unwritten ++ [charged]) :
    row.json ∈ rowsRead (store.charge charged .landed).trace := by
  have lines := jsonl_ascii (store.unwritten ++ [charged])
  unfold rowsRead
  simp only [OracleStore.charge]
  cases torn : store.torn with
  | false =>
      have text : store.appendText (store.unwritten ++ [charged]) =
          jsonlText ((store.unwritten ++ [charged]).map TraceRow.json) := by
        simp [OracleStore.appendText, torn]
      rw [text, decode_closed_ascii (marked torn) lines]
      refine written_row_read ?_ pending
      rcases marked torn with empty | ⟨front, closed⟩
      · left
        rw [empty]
        rfl
      · right
        rw [closed]
        exact ⟨decodeReplace front, decode_feed front [] none_multibyte⟩
  | true =>
      have text : store.appendText (store.unwritten ++ [charged]) =
          '\n' :: jsonlText ((store.unwritten ++ [charged]).map TraceRow.json) := by
        simp [OracleStore.appendText, torn]
      rw [text, decode_fed_ascii _ lines, List.append_cons]
      exact written_row_read (Or.inr ⟨_, rfl⟩) pending

def Kept (charged : List TraceRow) (store : OracleStore) : Prop :=
  ∀ row ∈ charged, row ∈ store.unwritten ∨ row.json ∈ rowsRead store.trace

theorem charge_kept {charged : List TraceRow} (marked : Marked store) (kept : Kept charged store)
    (row : TraceRow) (landing : Landing) :
    Kept (charged ++ [row]) (store.charge row landing) := by
  intro other member
  cases landing with
  | landed =>
      right
      rcases List.mem_append.mp member with old | new
      · rcases kept other old with pending | read
        · exact landed_read marked row (List.mem_append_left _ pending)
        · exact charge_stays marked row .landed read
      · exact landed_read marked row (List.mem_append_right _ new)
  | failed written =>
      rcases List.mem_append.mp member with old | new
      · rcases kept other old with pending | read
        · exact Or.inl (List.mem_append_left _ pending)
        · exact Or.inr (charge_stays marked row (.failed written) read)
      · exact Or.inl (List.mem_append_right _ new)

theorem charges_append (first second : List (TraceRow × Landing)) (store : OracleStore) :
    store.charges (first ++ second) = (store.charges first).charges second := by
  induction first generalizing store with
  | nil => rfl
  | cons act rest ih => exact ih _

theorem charges_kept {charged : List TraceRow} (marked : Marked store) (kept : Kept charged store)
    (acts : List (TraceRow × Landing)) :
    Marked (store.charges acts) ∧ Kept (charged ++ acts.map Prod.fst) (store.charges acts) := by
  induction acts generalizing store charged with
  | nil => exact ⟨marked, by simpa [OracleStore.charges] using kept⟩
  | cons act rest ih =>
      obtain ⟨row, landing⟩ := act
      have further := ih (charge_marked row landing) (charge_kept marked kept row landing)
      simpa [OracleStore.charges] using further

theorem charges_stay (marked : Marked store) (acts : List (TraceRow × Landing)) {row : Json}
    (read : row ∈ rowsRead store.trace) : row ∈ rowsRead (store.charges acts).trace := by
  induction acts generalizing store with
  | nil => exact read
  | cons act rest ih => exact ih (charge_marked act.1 act.2) (charge_stays marked act.1 act.2 read)

end Charges

theorem row_id (row : TraceRow) : rowId row.json = some row.id := rfl

def countedIds (rows : List Json) : List Str := (countedRows [] rows).filterMap rowId

theorem counted_fresh (rows : List Json) (seen : List Str) :
    ((countedRows seen rows).filterMap rowId).Nodup ∧
      ∀ id ∈ (countedRows seen rows).filterMap rowId, id ∉ seen := by
  induction rows generalizing seen with
  | nil => exact ⟨.nil, nofun⟩
  | cons row rest ih =>
      rw [countedRows]
      cases named : rowId row with
      | none => simpa [named] using ih seen
      | some id =>
          dsimp only
          by_cases known : id ∈ seen
          · rw [if_pos known]
            exact ih seen
          · obtain ⟨nodup, fresh⟩ := ih (seen ++ [id])
            rw [if_neg known, List.filterMap_cons_some named]
            constructor
            · apply List.nodup_cons.mpr
              refine ⟨fun again => fresh id again (by simp), nodup⟩
            · intro other member
              rcases List.mem_cons.mp member with rfl | later
              · exact known
              · exact fun old => fresh other later (List.mem_append_left _ old)

theorem counted_known {rows : List Json} {row : Json} {id : Str} (member : row ∈ rows)
    (named : rowId row = some id) (seen : List Str) :
    id ∈ seen ∨ id ∈ (countedRows seen rows).filterMap rowId := by
  induction rows generalizing seen with
  | nil => cases member
  | cons first rest ih =>
      by_cases old : id ∈ seen
      · exact Or.inl old
      · right
        rw [countedRows]
        rcases List.mem_cons.mp member with rfl | later
        · rw [named]
          dsimp only
          rw [if_neg old, List.filterMap_cons_some named]
          exact List.mem_cons_self ..
        · cases other : rowId first with
          | none =>
              rw [List.filterMap_cons_none other]
              exact (ih later seen).resolve_left old
          | some taken =>
              dsimp only
              split
              · exact (ih later seen).resolve_left old
              · rw [List.filterMap_cons_some other]
                rcases ih later (seen ++ [taken]) with known | counted
                · rcases List.mem_append.mp known with early | same
                  · exact absurd early old
                  · rw [List.mem_singleton.mp same]
                    exact List.mem_cons_self ..
                · exact List.mem_cons_of_mem _ counted

/-- A new store counts each id once, and every charge up to one whose append landed, as long as it
can read the trace at all. -/
theorem charges_read_back (before : Bytes) (store : OracleStore) (acts : List (TraceRow × Landing))
    (rows : List Json) (opened : OracleStore.opened before = some store)
    (read : readJsonlRows (store.charges acts).trace = some rows) :
    (countedIds rows).Nodup ∧
      ∀ earlier row later, acts = earlier ++ (row, .landed) :: later →
        ∀ charged ∈ earlier.map Prod.fst ++ [row], charged.id ∈ countedIds rows := by
  refine ⟨(counted_fresh rows []).1, ?_⟩
  intro earlier row later split charged member
  have marked : Marked store := by
    obtain ⟨_, _, rfl⟩ := Option.map_eq_some_iff.mp opened
    exact (ends_torn_iff before).mp
  have whole : rows = rowsRead (store.charges acts).trace := by
    unfold readJsonlRows at read
    split at read
    · cases read
    · exact (Option.some.inj read).symm
  obtain ⟨marked_early, kept⟩ :=
    @charges_kept store [] marked (fun _ none_charged => nomatch none_charged) earlier
  have now : charged.json ∈ rowsRead ((store.charges earlier).charge row .landed).trace := by
    rcases List.mem_append.mp member with old | new
    · rcases kept charged old with pending | written
      · exact landed_read marked_early row (List.mem_append_left _ pending)
      · exact charge_stays marked_early row .landed written
    · exact landed_read marked_early row (List.mem_append_right _ new)
  have stays := charges_stay (charge_marked row .landed) later now
  have final : charged.json ∈ rows := by
    rw [whole, split, charges_append]
    exact stays
  exact (counted_known final (row_id charged) []).resolve_left nofun

def namedRow (id model : Str) : TraceRow where
  id := id
  actor := "forge"
  model := model
  inputTokens := .number "10"
  outputTokens := .number "4"
  costUsd := .number "0.002"
  at_ := .number "1.5"
  held := by
    have shallow : isTableRow (.object [("id", .string id), ("actor", .string "forge"),
        ("model", .string model), ("input_tokens", .number "10"), ("output_tokens", .number "4"),
        ("cost_usd", .number "0.002"), ("at", .number "1.5")]) =
      isTableRow (.object [("id", .string []), ("actor", .string []), ("model", .string []),
        ("input_tokens", .number "10"), ("output_tokens", .number "4"),
        ("cost_usd", .number "0.002"), ("at", .number "1.5")]) := rfl
    rw [shallow]
    decide +kernel

/-- The first of two charges is torn after thirty bytes; the second writes both. -/
theorem torn_charge_read_back :
    ∃ store rows, OracleStore.opened [] = some store ∧
      readJsonlRows (store.charges [(namedRow "a" "m", .failed 30),
        (namedRow "b" "m", .landed)]).trace = some rows ∧ "a".toList ∈ countedIds rows := by
  have readable : (readJsonlRows (OracleStore.charges [(namedRow "a" "m", .failed 30),
      (namedRow "b" "m", .landed)] ⟨[], false, []⟩).trace).isSome = true := by
    decide +kernel
  obtain ⟨rows, read⟩ := Option.isSome_iff_exists.mp readable
  refine ⟨⟨[], false, []⟩, rows, rfl, read, ?_⟩
  have back := charges_read_back [] ⟨[], false, []⟩ [(namedRow "a" "m", .failed 30),
    (namedRow "b" "m", .landed)] rows rfl read
  exact back.2 [(namedRow "a" "m", .failed 30)] (namedRow "b" "m") [] rfl (namedRow "a" "m")
    (List.mem_cons_self ..)

theorem encoded_width (text : Str) : text.length ≤ (encodeUtf8 text).length := by
  induction text with
  | nil => exact le_rfl
  | cons char rest ih =>
      have wide := Char.utf8Size_pos char
      rw [← String.length_utf8EncodeChar] at wide
      simp only [encodeUtf8, List.flatMap_cons, List.length_append, List.length_cons] at ih ⊢
      omega

theorem named_row_width (id model : Str) :
    model.length ≤ (Json.dumps (namedRow id model).json).length := by
  have member : ("model".toList, Json.string model) ∈
      [("id".toList, Json.string id), ("actor", .string "forge"), ("model", .string model),
        ("input_tokens", .number "10"), ("output_tokens", .number "4"),
        ("cost_usd", .number "0.002"), ("at", .number "1.5")] := by
    simp
  have width := Json.member_width member
  have escaped := Json.length_written model
  rw [Json.dumps, Json.dumps_string_length] at width
  have same : (namedRow id model).json = .object [("id", .string id), ("actor", .string "forge"),
      ("model", .string model), ("input_tokens", .number "10"), ("output_tokens", .number "4"),
      ("cost_usd", .number "0.002"), ("at", .number "1.5")] := rfl
  rw [same, Json.dumps, List.length_cons, List.length_append]
  omega

theorem wide_trace_unread (row : TraceRow) (wide : readLimit < (Json.dumps row.json).length) :
    readJsonlRows (OracleStore.charges [(row, .landed)] ⟨[], false, []⟩).trace = none := by
  have text : OracleStore.appendText ⟨[], false, []⟩ [row] = Json.dumps row.json ++ ['\n'] := by
    simp [OracleStore.appendText, jsonlText]
  have encoded := encoded_width (Json.dumps row.json ++ ['\n'])
  rw [List.length_append] at encoded
  unfold readJsonlRows
  simp only [OracleStore.charges, OracleStore.charge, List.nil_append, text]
  rw [if_pos (by omega)]

/-- A charge whose model's name alone is past the limit. -/
def longNameRow : TraceRow := namedRow "a" (List.replicate (readLimit + 1) 'm')

theorem long_name_unread :
    OracleStore.opened [] = some ⟨[], false, []⟩ ∧
      readJsonlRows (OracleStore.charges [(longNameRow, .landed)] ⟨[], false, []⟩).trace = none := by
  refine ⟨rfl, wide_trace_unread _ ?_⟩
  have width := named_row_width "a" (List.replicate (readLimit + 1) 'm')
  rw [List.length_replicate] at width
  exact Nat.lt_of_succ_le width

end OracleTrace

end Defender.Learning
