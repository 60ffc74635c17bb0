import Defender.Execution.BoxCodec
import Defender.Filesystem.JsonLines

/-!
# Row files as bytes

A table is appended to in UTF-8, one JSON row a line, and read back with what is no UTF-8
replaced. Each longest run of bytes that could begin a character and does not end as one is
replaced by one U+FFFD, as the interpreter's decoder does it.
-/

namespace Defender.Filesystem

open Defender.Python Defender.Library.Wire Defender.Execution

/-- A character begun: the bytes it still needs, the range of the next one, its bits so far. -/
structure Begun where
  needed : Nat
  least : Nat := 0x80
  most : Nat := 0xbf
  bits : Nat

def replacement : Char := Char.ofNat 0xfffd

/-- What a byte outside a character is: one of its own, the start of one, or neither. -/
def startByte (byte : Nat) : Str × Option Begun :=
  if byte < 0x80 then ([Char.ofNat byte], none)
  else if 0xc2 ≤ byte ∧ byte ≤ 0xdf then ([], some { needed := 1, bits := byte - 0xc0 })
  else if byte = 0xe0 then ([], some { needed := 2, least := 0xa0, bits := 0 })
  else if byte = 0xed then ([], some { needed := 2, most := 0x9f, bits := 0xd })
  else if 0xe1 ≤ byte ∧ byte ≤ 0xef then ([], some { needed := 2, bits := byte - 0xe0 })
  else if byte = 0xf0 then ([], some { needed := 3, least := 0x90, bits := 0 })
  else if byte = 0xf4 then ([], some { needed := 3, most := 0x8f, bits := 4 })
  else if 0xf1 ≤ byte ∧ byte ≤ 0xf3 then ([], some { needed := 3, bits := byte - 0xf0 })
  else ([replacement], none)

def decodeFrom : Option Begun → Bytes → Str
  | none, [] => []
  | some _, [] => [replacement]
  | none, byte :: rest => (startByte byte.toNat).1 ++ decodeFrom (startByte byte.toNat).2 rest
  | some begun, byte :: rest =>
      if begun.least ≤ byte.toNat ∧ byte.toNat ≤ begun.most then
        let bits := begun.bits * 64 + (byte.toNat - 0x80)
        if begun.needed = 1 then Char.ofNat bits :: decodeFrom none rest
        else decodeFrom (some { needed := begun.needed - 1, bits := bits }) rest
      else
        replacement :: ((startByte byte.toNat).1 ++ decodeFrom (startByte byte.toNat).2 rest)

/-- `bytes.decode("utf-8", errors="replace")`. -/
def decodeReplace (data : Bytes) : Str := decodeFrom none data

/-- `_jsonl_text`: every row on a line of its own. -/
def jsonlText (rows : List Json) : Str := rows.flatMap fun row => Json.dumps row ++ ['\n']

/-- `_rows_of`: a line that is no row is left out. -/
def rowsOf (data : Bytes) : List Json := (splitlines (decodeReplace data)).filterMap parseJsonlRow

/-- A row as a table holds it: an object whose numbers are spelled and which a reader's limit
on nesting takes. -/
def isTableRow : Json → Bool
  | .object entries =>
      (Json.object entries).spelled && decide (height (.object entries) ≤ jsonNestingLimit)
  | _ => false

theorem encode_ascii_char {char : Char} (ascii : char.toNat < 0x80) :
    String.utf8EncodeChar char = [UInt8.ofNat char.toNat] := by
  have small : char.val.toNat ≤ 127 := Nat.le_of_lt_succ ascii
  rw [String.utf8EncodeChar, if_pos small]
  rfl

theorem decode_replace_ascii (text : Str) (ascii : ∀ char ∈ text, char.toNat < 0x80) :
    decodeReplace (encodeUtf8 text) = text := by
  induction text with
  | nil => rfl
  | cons char text ih =>
      have small := ascii char List.mem_cons_self
      have byte : (UInt8.ofNat char.toNat).toNat = char.toNat := by
        rw [UInt8.toNat_ofNat']
        omega
      have start : startByte char.toNat = ([char], none) := by
        rw [startByte, if_pos small, Char.ofNat_toNat]
      rw [encodeUtf8, List.flatMap_cons, encode_ascii_char small, List.singleton_append,
        decodeReplace, decodeFrom, byte, start]
      exact congrArg (char :: ·) (ih fun other member => ascii other (List.mem_cons_of_mem _ member))

theorem printable_ascii {char : Char} (printable : Json.Printable char) : char.toNat < 0x80 := by
  have most : char.toNat ≤ 126 := printable.2
  omega

section Rows

variable {rows : List Json}

theorem table_row_parsed {row : Json} (held : isTableRow row = true) :
    parseJsonlRow (Json.dumps row) = some row := by
  cases row with
  | object entries =>
      rw [isTableRow, Bool.and_eq_true, decide_eq_true_eq] at held
      exact parse_row_dumped entries held.1 held.2
  | _ => contradiction

theorem table_row_spelled {row : Json} (held : isTableRow row = true) : row.spelled = true := by
  cases row with
  | object entries =>
      rw [isTableRow, Bool.and_eq_true] at held
      exact held.1
  | _ => contradiction

/-- Lines that a reader of ASCII takes whole. -/
def PlainLine (line : Str) : Prop := ∀ char ∈ line, char.toNat < 0x80 ∧ isLineBreak char = false

theorem plain_lines_split {lines : List Str} (plain : ∀ line ∈ lines, PlainLine line) :
    splitlines (lines.flatMap (· ++ ['\n'])) = lines := by
  induction lines with
  | nil => rfl
  | cons line lines ih =>
      have unbroken : ∀ char ∈ line, isLineBreak char = false := fun char inside =>
        (plain line List.mem_cons_self char inside).2
      have first := splitlines_line unbroken [] (lines.flatMap (· ++ ['\n']))
      rw [List.nil_append, ih fun other member => plain other (List.mem_cons_of_mem _ member)]
        at first
      rw [List.flatMap_cons, List.append_assoc]
      exact first

theorem rows_of_plain_lines {lines : List Str} (plain : ∀ line ∈ lines, PlainLine line) :
    rowsOf (encodeUtf8 (lines.flatMap (· ++ ['\n']))) = lines.filterMap parseJsonlRow := by
  have ascii : ∀ char ∈ lines.flatMap (· ++ ['\n']), char.toNat < 0x80 := by
    intro char member
    obtain ⟨line, listed, within⟩ := List.mem_flatMap.mp member
    rcases List.mem_append.mp within with inside | feed
    · exact (plain line listed char inside).1
    · rw [List.mem_singleton.mp feed]
      decide
  rw [rowsOf, decode_replace_ascii _ ascii, plain_lines_split plain]

theorem table_row_plain {row : Json} (held : isTableRow row = true) :
    PlainLine (Json.dumps row) := by
  intro char inside
  have printable := Json.dumps_printable row (table_row_spelled held) char inside
  exact ⟨printable_ascii printable, printable_not_break printable⟩

theorem jsonl_rows_of_lines (held : ∀ row ∈ rows, isTableRow row = true) :
    jsonlRowsOf (jsonlText rows) = (rows, 0) := by
  have lines : splitlines (jsonlText rows) = rows.map Json.dumps := by
    have split := plain_lines_split fun line (member : line ∈ rows.map Json.dumps) => by
      obtain ⟨row, listed, rfl⟩ := List.mem_map.mp member
      exact table_row_plain (held row listed)
    rwa [List.flatMap_map] at split
  have filled : ∀ row ∈ rows, isBlank (Json.dumps row) = false := by
    intro row listed
    cases row with
    | object entries => simp [Json.dumps, isBlank, isSpace]
    | _ => cases held _ listed
  unfold jsonlRowsOf
  rw [lines]
  clear lines
  induction rows with
  | nil => rfl
  | cons row rows ih =>
      have parsed := table_row_parsed (held row List.mem_cons_self)
      have rest := ih (fun other member => held other (List.mem_cons_of_mem _ member))
        (fun other member => filled other (List.mem_cons_of_mem _ member))
      rw [Prod.mk.injEq] at rest
      simp [filled row List.mem_cons_self, parsed, rest.1]
      simpa using rest.2

end Rows

end Defender.Filesystem
