import Defender.Invlang.Cells
import Defender.Library.DelimitedPattern

/-!
# The tokenizer

Which characters of a document are invlang content, and how a fence body cuts
into blocks and rows. The line loop of the source is `Tokenizer.step`: the block
most recently opened is kept apart from the closed ones, because the source
appends to it in place.
-/

namespace Defender.Invlang

open Defender.Python Defender.Library.Regex Defender.Library.DelimitedPattern

def fenceOpener : Str := "```invlang\n"

def fenceCloser : Str := "\n```"

def invlangFenceRe : Pattern := delimited fenceOpener fenceCloser

def anySpace : Pattern := .star true (.char isSpace)

def someSpace : Pattern := .plus (.char isSpace)

def isHeaderNameChar (char : Char) : Bool :=
  isAsciiAlnum char || char == '_' || char == '.' || char == '-'

def headerRe : Pattern :=
  .sequence [.char (· == ':'), .group 1 (.char isAsciiUpper), someSpace,
    .group 2 (.plus (.char isHeaderNameChar)),
    .optional (.sequence [anySpace, .char (· == '['),
      .group 3 (.star true (.char (· != ']'))), .char (· == ']')]),
    anySpace, .endOfText]

def headerAttemptRe : Pattern := .sequence [.char (· == ':'), .char isAsciiUpper]

def leadPrefixRe : Pattern :=
  .sequence [.literal ['l', '-'], .group 1 (.plus (.char isAsciiAlnum)), .char (· == '.'),
    .group 2 (.plus (.char (· != '\n'))), .endOfText]

section Words

variable [UnicodeDatabase]

def storyHeaderRe : Pattern :=
  .sequence [.literal ['#', '#', '#'], someSpace, .literal ['s', 't', 'o', 'r', 'y'], someSpace,
    .group 1 (.sequence [.literal ['h', '-'], .plus (.char fun c => isWord c || c == '-')]),
    anySpace, .endOfText]

end Words

structure ParseWarning where
  block : Str
  rowIndex : Int
  row : Str
  reason : Str
  filePath : Str
  droppedIds : List Str
deriving DecidableEq

def ParseWarning.format [UnicodeDatabase] (warning : ParseWarning) : Str :=
  let loc : Str := if warning.filePath ≠ [] then warning.filePath else "(unknown file)"
  message [loc, ": ", warning.block, " row ", showInt warning.rowIndex, ": ", warning.reason,
    " | row=", reprText (warning.row.take 200)]

def noOpenBlock : Str := "(no open block)"

/-- The reason of an orphan warning; `under` is the number of lines that fell
with the first one. -/
def orphanReason (under : Nat) : Str :=
  message ["this line is not a block header and no block is open, so it was dropped",
    if under = 0 then [] else message [", and with it the ", decimalText under,
      " line(s) under it, which had no block to land in"],
    ". A header is `:<TAG> <name>` with an optional `[col|col]` and NOTHING after it — ",
    "no trailing comment, note or stray bracket. Re-send the block with its header on ",
    "a line of its own."]

def orphanWarning (head : Str) (rest : List Str) : ParseWarning where
  block := noOpenBlock
  rowIndex := -1
  row := head
  reason := orphanReason rest.length
  filePath := []
  droppedIds := []

/-- One past the last column that is not marked optional. -/
def requiredCellsOf (declared : List Str) : Nat :=
  ((declared.zipIdx.filter fun column => !endsWith ['?'] column.1).map (·.2 + 1)).foldl max 0

def headerBlock (header : Cursor) : Block :=
  let declared := (header.group 3).map fun cols => (splitOn '|' cols).map strip
  { tag := ((header.group 1).getD []).headD ':'
    name := (header.group 2).getD []
    columns := declared.map fun cols => cols.map (rstripChars ['?'])
    rows := []
    requiredCells := (declared.map requiredCellsOf).getD 0 }

structure Tokenizer where
  blocks : List Block
  cur : Option Block
  inStory : Bool
  orphans : List Str
  warnings : List ParseWarning
deriving DecidableEq

def Tokenizer.start : Tokenizer := ⟨[], none, false, [], []⟩

def Tokenizer.flushOrphans (state : Tokenizer) : Tokenizer :=
  match state.orphans with
  | [] => state
  | head :: rest =>
      { state with orphans := [], warnings := state.warnings ++ [orphanWarning head rest] }

def Tokenizer.closeBlock (state : Tokenizer) : Tokenizer :=
  { state with blocks := state.blocks ++ state.cur.toList, cur := none }

def Block.addRow (block : Block) (row : Str) : Block := { block with rows := block.rows ++ [row] }

def contentLines (body : Str) : List Str :=
  ((splitlines body).map strip).filter (· ≠ [])

section Lines

variable [UnicodeDatabase]

def Tokenizer.step (state : Tokenizer) (stripped : Str) : Tokenizer :=
  if storyHeaderRe.matches stripped then
    { state.flushOrphans.closeBlock with inStory := true }
  else
    match headerRe.matchPrefix stripped with
    | some header =>
        { state.flushOrphans.closeBlock with inStory := false, cur := some (headerBlock header) }
    | none =>
        if state.inStory && !headerAttemptRe.matches stripped then state
        else
          match state.inStory, state.cur with
          | false, some block => { state with cur := some (block.addRow stripped) }
          | _, _ =>
              -- A rejected header ends a story section and starts its own run.
              let ended := if headerAttemptRe.matches stripped then
                { state.flushOrphans with inStory := false } else state
              { ended with orphans := ended.orphans ++ [stripped] }

def Tokenizer.finish (state : Tokenizer) : List Block × List ParseWarning :=
  (state.flushOrphans.closeBlock.blocks, state.flushOrphans.closeBlock.warnings)

def tokenizeFence (body : Str) : List Block × List ParseWarning :=
  ((contentLines body).foldl Tokenizer.step .start).finish

end Lines

section Blocks

/-- Every block read so far, the open one last. -/
def Tokenizer.held (state : Tokenizer) : List Block := state.blocks ++ state.cur.toList

variable (state : Tokenizer)

theorem Tokenizer.flush_close_held : state.flushOrphans.closeBlock.blocks = state.held := by
  rcases state with ⟨blocks, cur, inStory, orphans, warnings⟩
  cases orphans with
  | nil => rfl
  | cons head rest => rfl

theorem Tokenizer.flush_held : state.flushOrphans.held = state.held := by
  rcases state with ⟨blocks, cur, inStory, orphans, warnings⟩
  cases orphans with
  | nil => rfl
  | cons head rest => rfl

theorem finish_blocks : state.finish.1 = state.held := Tokenizer.flush_close_held state

end Blocks

structure FenceScan where
  bodies : List Str
  spans : List (Nat × Nat)
  orphanedHeaders : List Str
  openTail : Option Nat
deriving DecidableEq

def fenceOpenLine : Str := "```invlang"

structure LineScan where
  offset : Nat
  openTail : Option Nat
  orphans : List Str

def LineScan.step (spans : List (Nat × Nat)) (scan : LineScan) (line : Str) : LineScan :=
  let start := scan.offset
  let stop := start + line.length
  let inside := spans.any fun span => span.1 ≤ start && stop ≤ span.2
  let stripped := strip line
  let moved := { scan with offset := stop + 1 }
  if !inside && stripped == fenceOpenLine then
    { moved with openTail := scan.openTail.or (some start) }
  else if inside || scan.openTail.any (· ≤ start) then moved
  else if headerAttemptRe.matches stripped then { moved with orphans := scan.orphans ++ [line] }
  else moved

def scanFences (text : Str) : FenceScan :=
  let found := invlangFenceRe.findAll text
  let spans := found.map fun fence => (fence.start, fence.stop)
  let lines := (splitOn '\n' text).foldl (LineScan.step spans) ⟨0, none, []⟩
  { bodies := found.map fun fence => (fence.cursor.group 1).getD []
    spans := spans
    orphanedHeaders := lines.orphans
    openTail := lines.openTail }

section Documents

variable [UnicodeDatabase]

/-- The blocks of every fence: a fence is one write, so rules about a single
write need the grouping. -/
def iterFenceBlocks (text : Str) : List (List Block) :=
  (scanFences text).bodies.map fun body => (tokenizeFence body).1

def iterBlocks (text : Str) : List Block := (iterFenceBlocks text).flatten

end Documents

end Defender.Invlang
