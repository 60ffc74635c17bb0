import Defender.Python.Text
import Defender.Library.OrderedDict

/-!
# Blocks, rows and cells

A block is a header and the rows written under it. A row is cut into cells at
unquoted `|`, a cell into sub-cells at unquoted `;`. Every escape pair is
consumed whole, so an escaped quote never toggles the quoting.
-/

namespace Defender.Invlang

open Defender.Python Defender.Library.OrderedDict

structure Block where
  tag : Char
  name : Str
  columns : Option (List Str)
  rows : List Str
  requiredCells : Nat
deriving DecidableEq

/-- A row error carries the reason the projector reports. -/
abbrev RowResult := Except Str

structure SplitMode where
  unescapeDelim : Bool
  keepEmpty : Bool
  strip : Bool

def SplitMode.emit (mode : SplitMode) (cur : Str) (more : List Str) : List Str :=
  let token := if mode.strip then Python.strip cur else cur
  if mode.keepEmpty || token ≠ [] then token :: more else more

/-- The cell tokenizer: `cur` is the token read so far, `quoted` whether it
stands inside quotes. -/
def splitQuotedFrom (mode : SplitMode) (separator : Char) :
    Bool → Str → Str → List Str
  | _, cur, [] => mode.emit cur []
  | quoted, cur, ['\\'] => splitQuotedFrom mode separator quoted (cur ++ ['\\']) []
  | quoted, cur, '\\' :: next :: rest =>
      if mode.unescapeDelim && next == separator then
        splitQuotedFrom mode separator quoted (cur ++ [separator]) rest
      else splitQuotedFrom mode separator quoted (cur ++ ['\\', next]) rest
  | quoted, cur, char :: rest =>
      if char == '"' then splitQuotedFrom mode separator (!quoted) (cur ++ [char]) rest
      else if char == separator && !quoted then
        mode.emit cur (splitQuotedFrom mode separator quoted [] rest)
      else splitQuotedFrom mode separator quoted (cur ++ [char]) rest

def splitQuoted (mode : SplitMode) (separator : Char) (text : Str) : List Str :=
  splitQuotedFrom mode separator false [] text

def splitCells (row : Str) : List Str := splitQuoted ⟨true, true, true⟩ '|' row

/-- Cell boundaries only, every character kept. -/
def splitCellsRaw (row : Str) : List Str := splitQuoted ⟨false, true, false⟩ '|' row

def splitSubcells (cell : Str) : List Str := splitQuoted ⟨false, false, true⟩ ';' cell

def wrapped (text : Str) : Bool :=
  2 ≤ text.length && text.head? == some '"' && text.getLast? == some '"'

def unquote (text : Str) : Str :=
  if wrapped text then replace "\\\"" "\"" (text.tail.dropLast) else text

/-- Lower case as far as the two empty markers need it: no character outside
ASCII lowers to one of theirs. -/
def isConcludeEmptyMarker (value : Str) : Bool :=
  let text := (strip (unquote (strip value))).map Char.toLower
  text == "none" || text == "n/a"

def countUnescapedQuotes : Str → Nat
  | [] => 0
  | ['\\'] => 0
  | '\\' :: _ :: rest => countUnescapedQuotes rest
  | char :: rest => (if char == '"' then 1 else 0) + countUnescapedQuotes rest

def hasUnbalancedQuote (text : Str) : Bool := countUnescapedQuotes text % 2 == 1

def stripQuoteWrapper (text : Str) : Str :=
  let bare := strip text
  if wrapped bare then bare.tail.dropLast else bare

/-- Whether every quote in a cell wraps a whole cell, a whole sub-cell or the
whole value of a `k=v`. -/
def quotesWrapWholeValues (cell : Str) : Bool :=
  countUnescapedQuotes cell == 0 ||
    countUnescapedQuotes (stripQuoteWrapper cell) == 0 ||
    (splitSubcells cell).all fun sub =>
      countUnescapedQuotes sub == 0 ||
        countUnescapedQuotes (stripQuoteWrapper sub) == 0 ||
        (let (_, found, value) := partition "=" sub
         found && countUnescapedQuotes (stripQuoteWrapper value) == 0)

section Rows

variable [UnicodeDatabase]

def quoteReason (cell : Str) : Str :=
  message ["cell ", reprText cell, " opens a `\"` inside a token — a quote may only wrap a ",
    "whole cell, a whole `;`-subcell or the whole value of a `k=v`, and ",
    "anything else silently merges this row's remaining cells; write a ",
    "literal quote as `\\\"`"]

def headerSuffix (block : Block) : Str :=
  match block.columns with
  | some (first :: others) => message [" for [", join "|" (first :: others), "]"]
  | _ => []

def rowCells (block : Block) (row : Str) (expected : Nat) : RowResult (List Str) :=
  let cells := splitCells row
  match cells.find? fun cell => !quotesWrapWholeValues cell with
  | some cell => .error (quoteReason cell)
  | none =>
      if expected < cells.length then
        .error (message ["row has ", decimalText cells.length, " cells but ", decimalText expected,
          " expected", headerSuffix block,
          " (check for unescaped `|` inside an attrs/value cell)"])
      -- A lone `none` row is the complete empty-table marker.
      else if cells.length == 1 && isConcludeEmptyMarker (cells.headD []) then
        .ok (cells ++ List.replicate (expected - 1) [])
      else if cells.length < block.requiredCells then
        .error (message ["row has ", decimalText cells.length, " cells but the header requires ",
          decimalText block.requiredCells, headerSuffix block,
          " — only a `?` column may be omitted ",
          "(an unbalanced `\"` inside a cell merges the cells after it: quote the ",
          "whole cell, or escape the quote as `\\\"`)"])
      else .ok (cells ++ List.replicate (expected - cells.length) [])

abbrev RowRecord := Dict Str Str

/-- The columns a block's rows are read under. -/
def blockColumns (block : Block) (defaultCols : List Str) : List Str :=
  match block.columns with
  | some (first :: others) => first :: others
  | _ => defaultCols

def rowDict (block : Block) (row : Str) (defaultCols : List Str) : RowResult RowRecord :=
  let cols := blockColumns block defaultCols
  (rowCells block row cols.length).map fun cells => Dict.ofList (cols.zip cells)

/-- A cell by column name; an absent column reads as an empty cell. -/
def cellOf (rec : RowRecord) (key : Str) : Str := (rec.get? key).getD []

def requireCells (rec : RowRecord) (keys : List Str) (message : Str) : RowResult Unit :=
  if keys.all fun key => cellOf rec key ≠ [] then .ok () else .error message

end Rows

def parseAttrs (cell : Str) : Dict Str Str :=
  (splitSubcells cell).foldl (fun out sub =>
    let (key, found, value) := partition "=" sub
    if found then out.set (strip key) (unquote (strip value)) else out) Dict.empty

def splitCsv (text : Str) : List Str :=
  ((splitOn ',' text).map strip).filter (· ≠ [])

def splitCsvOrSemi (text : Str) : List Str :=
  let separator := if text.contains ';' then ';' else ','
  ((splitOn separator text).map strip).filter (· ≠ [])

end Defender.Invlang
