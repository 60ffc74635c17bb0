import Defender.Invlang.Validate.State

/-!
# Refinement keys and their repairs

The rows of `:R attr_updates` blocks. A legal key with no value, or a slot given
two values in one fence, is an error; an illegal key is a warning that carries
the rows the author may write instead.
-/

namespace Defender.Invlang

open Defender.Python Defender.Library.Regex Defender.Library.OrderedDict

def attrUpdatesName : Str := "attr_updates"

def attrUpdatesLocus : Str := ":R attr_updates"

def keyColumn : Str := "key"

def targetColumn : Str := "target"

def valueColumn : Str := "value"

def isLegalRefinementKey (key : Str) : Bool :=
  key == slotClass || key == slotIdent || startsWith attrPrefix key

/-- One wrapping pair of double quotes removed. -/
def unquotedKey (cell : Str) : Str := if wrapped cell then cell.tail.dropLast else cell

def swapCell (cells : List Str) (index : Nat) (replacement : Str) : Str :=
  join ['|'] (cells.set index replacement)

/-- The column a row's key is read from: the last one of that name. -/
def keyIndex (cols : List Str) : Nat := cols.length - 1 - cols.reverse.idxOf keyColumn

def paddedRawCells (row : Str) (width : Nat) : List Str :=
  let cells := splitCellsRaw row
  cells ++ List.replicate (width - cells.length) []

/-- The keys a repair may use, in the order offered. -/
def candidateKeys (key : Str) : List Str :=
  let basis := unquotedKey key
  if basis ≠ key ∧ isLegalRefinementKey basis then [basis]
  else slotClass :: if basis = [] then [] else [attrPrefix ++ basis]

section Offers

variable [UnicodeDatabase]

def fenceDelimiterRefusal : Str :=
  message ["it carries a fence delimiter (```), which would close the block early — the row ",
    "cannot be repaired in place at all"]

/-- Why a rebuilt row cannot be offered. -/
def candidateRefusal (block : Block) (cols parsed : List Str) (index : Nat) (candidate : Str) :
    Option Str :=
  if contains ['`', '`', '`'] candidate then some fenceDelimiterRefusal
  else
    match rowCells block candidate cols.length with
    | .error reason => some reason
    | .ok _ =>
        let back := splitCells candidate
        if back.length ≠ cols.length then
          some (message ["it splits to ", decimalText back.length,
            " cells but the block declares ", decimalText cols.length,
            " — ", "the rejoined row lost a delimiter"])
        else
          let moved := (cols.zipIdx.filter fun col =>
            col.2 ≠ index && back[col.2]? ≠ parsed[col.2]?).map Prod.fst
          if moved = [] then none
          else some (message ["it would rewrite the ", join ", " (moved.map reprText),
            " cell(s), which the ", "repair must leave exactly as written"])

def routeWithheld (key judged value : Str) : Str :=
  message [" — no `", key, "` alternative is offered here: ", judged, " and ", reprText value,
    " is not a value ", "it holds, so keeping this value under `", key,
    "` would only earn a second refusal"]

def routeRefusal (declared : DeclaredTypes) (cells : RowRecord) (key : Str) : Option Str :=
  let target := cellOf cells targetColumn
  let value := cellOf cells valueColumn
  match declared.typesOf target with
  | [] => none
  | vertexType :: _ =>
      if key = slotClass then
        if declared.refusalUnderEveryType target
            (fun type => classCellErrors (orUnknown target) type value) = [] then none
        else some (routeWithheld key (message ["a `class` cell is judged per slot against the `",
          vertexType, "` grammar ", "(", join ", " ((Vocab.classSlotKeys vertexType).map
            fun slot => message ["`enum ", slot, "`"]), ")"]) value)
      else if startsWith attrPrefix key then
        if declared.refusalUnderEveryType target
            (fun type => attrRouteErrors (orUnknown target) type key value) = [] then none
        else some (routeWithheld key (message ["an `", key, "` cell on a `", vertexType,
          "` vertex is judged against ", "`enum ",
          (Vocab.attrSlotKey vertexType (key.drop attrPrefix.length)).getD "None", "`"]) value)
      else none

def repairRoutes (declared : DeclaredTypes) (cells : RowRecord) (rawCells : List Str)
    (index : Nat) (keys : List Str) : List Str :=
  (keys.filter fun key => (routeRefusal declared cells key).isNone).map (swapCell rawCells index)

def illegalKeyReason (cells : RowRecord) (key : Str) : Str :=
  message [":R attr_updates on ", orUnknown (cellOf cells targetColumn), ": key ", reprText key,
    " is not a ", "valid refinement key — use `class` (class refinement), `ident` ",
    "(identifier refinement) or `attrs.<name>` (attribute); a bare key ",
    "is dropped silently"]

def quotedKeyReason (key : Str) : Str :=
  message [" — a quote is part of the cell in this format, never stripped from it, so ", key,
    " names a different key than ", unquotedKey key]

def repairWithheldReason (rejected : Str × Str) : Str :=
  message [" — the suggested repair is withheld: rebuilding this row as ", reprText rejected.1,
    " ", "would not read back as a row of this block (", rejected.2, ")"]

/-- The first candidate that would not read back, with its refusal. -/
def rejectedCandidate (block : Block) (cols parsed : List Str) (index : Nat)
    (candidates : List Str) : Option (Str × Str) :=
  candidates.findSome? fun candidate =>
    (candidateRefusal block cols parsed index candidate).map fun refusal => (candidate, refusal)

def illegalKeyDiagnostic (declared : DeclaredTypes) (block : Block) (row : Str)
    (cells : RowRecord) (key : Str) : Diagnostic :=
  let cols := block.columns.getD []
  let index := keyIndex cols
  let keys := candidateKeys key
  let candidates := repairRoutes declared cells (paddedRawCells row cols.length) index keys
  let parsed := (rowCells block row cols.length).toOption.getD []
  let rejected := rejectedCandidate block cols parsed index candidates
  { message := message [illegalKeyReason cells key,
      (keys.filterMap (routeRefusal declared cells)).flatten,
      if unquotedKey key ≠ key then quotedKeyReason key else [],
      (rejected.map repairWithheldReason).getD []]
    locus := some ⟨attrUpdatesLocus, row, none⟩
    fix := if rejected.isSome then [] else candidates
    severity := .warning }

def refinedTwiceDiagnostic (row target key previous value : Str) : Diagnostic where
  message := message [":R attr_updates on ", orUnknown target, ": ", reprText key,
    " is refined twice in ", "this write, to ", reprText previous, " and then to ",
    reprText value, "; only the LAST value is recorded and ", reprText previous,
    " is discarded with nothing said. Give this write one ",
    "row per slot and re-send it whole — refining the same slot again ",
    "in a LATER `append_block` is the documented `??` -> candidate ",
    "set -> concrete value progression and stays legal"]
  locus := some ⟨attrUpdatesLocus, row, none⟩
  fix := []
  severity := .error

def emptyValueDiagnostic (row target key : Str) : Diagnostic where
  message := message [":R attr_updates on ", orUnknown target, ": the `value` cell ", "for key ",
    reprText key, " is empty — a refinement settles a slot by ",
    "naming the value the lead obtained, and an empty cell settles ",
    "nothing. Write that value, or leave the `??` standing and ", "escalate"]
  locus := some ⟨attrUpdatesLocus, row, none⟩
  fix := []
  severity := .error

end Offers

/-- What one fence has refined so far, and the findings on its rows. -/
structure RefineScan where
  refined : Dict (Str × Str) Str
  found : List Diagnostic

section Keys

variable [UnicodeDatabase]

/-- A legal row: a slot must not change its value within a fence, and a value
column must be filled. -/
def RefineScan.legalRow (scan : RefineScan) (block : Block) (row : Str) (cells : RowRecord) :
    RefineScan :=
  let target := cellOf cells targetColumn
  let key := cellOf cells keyColumn
  let value := cellOf cells valueColumn
  let again := match scan.refined.get? (target, key) with
    | some previous =>
        if previous ≠ value then [refinedTwiceDiagnostic row target key previous value] else []
    | none => []
  let blank := if (block.columns.getD []).contains valueColumn && isBlank value then
    [emptyValueDiagnostic row target key] else []
  { refined := scan.refined.set (target, key) value
    found := scan.found ++ again ++ blank }

def RefineScan.step (declared : DeclaredTypes) (scan : RefineScan) (entry : Block × Str) :
    RefineScan :=
  let (block, row) := entry
  match rowDict block row [] with
  | .error _ => scan
  | .ok cells =>
      let key := cellOf cells keyColumn
      if key = [] then scan
      else if isLegalRefinementKey key then scan.legalRow block row cells
      else { scan with found := scan.found ++ [illegalKeyDiagnostic declared block row cells key] }

def refinementEntries (blocks : List Block) : List (Block × Str) :=
  (blocks.filter fun block => block.name == attrUpdatesName).flatMap fun block =>
    block.rows.map fun row => (block, row)

def fenceKeyFindings (declared : DeclaredTypes) (blocks : List Block) : List Diagnostic :=
  ((refinementEntries blocks).foldl (RefineScan.step declared) ⟨Dict.empty, []⟩).found

def checkAttrUpdateKeys (proposedText : Str) (declared : DeclaredTypes) : List Diagnostic :=
  (iterFenceBlocks proposedText).flatMap (fenceKeyFindings declared)

def checkClosedVocab (companion : CompanionBody) (proposedText : Str) : List Diagnostic :=
  let declared := declaredTypes companion
  plain (checkVocabVertices companion) ++ plain (checkVocabEdges companion) ++
    plain (checkVocabHypotheses companion) ++ plain (checkConcludeVocab companion) ++
    plain (checkVocabAnchorKinds companion) ++ plain (checkVocabWeights companion) ++
    plain (checkVocabClassCells companion declared) ++ checkAttrUpdateKeys proposedText declared

end Keys

end Defender.Invlang
