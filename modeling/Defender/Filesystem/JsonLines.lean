import Defender.Python.Json

/-!
# Files of JSON rows

A file is read line by line: a line that is not one object is counted and skipped.
An object written on a line of its own is read back whatever stands on the lines
around it.
-/

namespace Defender.Filesystem

open Defender.Python

def jsonNestingLimit : Nat := 100

/-- Where the scan for brackets stands. -/
inductive NestingScan where
  | outside
  | inString
  | escaped
deriving DecidableEq, Repr

/-- The loop of `json_nesting_depth`. An escape before a line feed ends the string token. -/
def nestingFrom : NestingScan → Nat → Nat → Str → Nat
  | _, _, deepest, [] => deepest
  | .outside, depth, deepest, char :: rest =>
      if char = '"' then nestingFrom .inString depth deepest rest
      else if char = '[' ∨ char = Char.ofNat 0x7b then
        nestingFrom .outside (depth + 1) (max deepest (depth + 1)) rest
      else if char = ']' ∨ char = Char.ofNat 0x7d then
        nestingFrom .outside (depth - 1) deepest rest
      else nestingFrom .outside depth deepest rest
  | .inString, depth, deepest, char :: rest =>
      if char = '"' then nestingFrom .outside depth deepest rest
      else if char = '\\' then nestingFrom .escaped depth deepest rest
      else nestingFrom .inString depth deepest rest
  | .escaped, depth, deepest, char :: rest =>
      if char = '\n' then nestingFrom .outside depth deepest rest
      else nestingFrom .inString depth deepest rest

def jsonNestingDepth (text : Str) : Nat := nestingFrom .outside 0 0 text

def loadJsonArtifact (text : Str) : Option Json :=
  if jsonNestingDepth text > jsonNestingLimit then none else Json.loads text

def parseJsonlRow (line : Str) : Option Json :=
  let stripped := strip line
  if stripped = [] then none
  else
    match loadJsonArtifact stripped with
    | some (.object entries) => some (.object entries)
    | _ => none

def jsonlRowsOf (text : Str) : List Json × Nat :=
  let lines := (splitlines text).filter fun line => !isBlank line
  (lines.filterMap parseJsonlRow, (lines.filter fun line => (parseJsonlRow line).isNone).length)

section Nesting

mutual

/-- The nesting of a value's containers. -/
def height : Json → Nat
  | .array items => heightItems items + 1
  | .object entries => heightEntries entries + 1
  | .null | .bool _ | .number _ | .string _ => 0

def heightItems : List Json → Nat
  | [] => 0
  | item :: rest => max (height item) (heightItems rest)

def heightEntries : List (Str × Json) → Nat
  | [] => 0
  | (_, value) :: rest => max (height value) (heightEntries rest)

end

variable (depth deepest : Nat) (rest : Str)

theorem nesting_plain {char : Char} (notQuote : char ≠ '"') (notEscape : char ≠ '\\') :
    nestingFrom .inString depth deepest (char :: rest) =
      nestingFrom .inString depth deepest rest := by
  rw [nestingFrom, if_neg notQuote, if_neg notEscape]

theorem nesting_escaped {char : Char} (notFeed : char ≠ '\n') :
    nestingFrom .inString depth deepest ('\\' :: char :: rest) =
      nestingFrom .inString depth deepest rest := by
  rw [nestingFrom, if_neg (by decide), if_pos rfl, nestingFrom, if_neg notFeed]

theorem hex_digit_plain (digit : Nat) :
    Json.hexDigit (digit % 16) ≠ '"' ∧ Json.hexDigit (digit % 16) ≠ '\\' := by
  have all : ∀ digit < 16, Json.hexDigit digit ≠ '"' ∧ Json.hexDigit digit ≠ '\\' := by decide
  exact all _ (Nat.mod_lt _ (by decide))

theorem nesting_unit (unit : Nat) :
    nestingFrom .inString depth deepest (Json.escapeUnit unit ++ rest) =
      nestingFrom .inString depth deepest rest := by
  simp only [Json.escapeUnit, Json.hexQuad, List.cons_append, List.nil_append]
  rw [nesting_escaped _ _ _ (by decide)]
  rw [nesting_plain _ _ _ (hex_digit_plain _).1 (hex_digit_plain _).2]
  rw [nesting_plain _ _ _ (hex_digit_plain _).1 (hex_digit_plain _).2]
  rw [nesting_plain _ _ _ (hex_digit_plain _).1 (hex_digit_plain _).2]
  rw [nesting_plain _ _ _ (hex_digit_plain _).1 (hex_digit_plain _).2]

theorem nesting_char (char : Char) :
    nestingFrom .inString depth deepest (Json.escapeChar char ++ rest) =
      nestingFrom .inString depth deepest rest := by
  unfold Json.escapeChar
  split
  · exact nesting_escaped _ _ _ (by decide)
  split
  · exact nesting_escaped _ _ _ (by decide)
  split
  · exact nesting_escaped _ _ _ (by decide)
  split
  · exact nesting_escaped _ _ _ (by decide)
  split
  · exact nesting_escaped _ _ _ (by decide)
  split
  · exact nesting_escaped _ _ _ (by decide)
  split
  · exact nesting_escaped _ _ _ (by decide)
  rename_i notQuote notEscape _ _ _ _ _
  split
  · exact nesting_plain _ _ _ notQuote notEscape
  · unfold Json.codeUnits
    split
    · simpa using nesting_unit depth deepest rest char.toNat
    · simp only [List.flatMap_cons, List.flatMap_nil, List.append_nil, List.append_assoc]
      rw [nesting_unit, nesting_unit]

theorem nesting_string (text : Str) :
    nestingFrom .outside depth deepest (Json.dumpsString text ++ rest) =
      nestingFrom .outside depth deepest rest := by
  have inside : nestingFrom .inString depth deepest
      (text.flatMap Json.escapeChar ++ '"' :: rest) = nestingFrom .outside depth deepest rest := by
    induction text with
    | nil => simp [nestingFrom]
    | cons char more ih =>
        rw [List.flatMap_cons, List.append_assoc, nesting_char, ih]
  rw [Json.dumpsString, List.cons_append, List.append_assoc, List.singleton_append, nestingFrom,
    if_pos rfl, inside]

theorem nesting_mark {char : Char} (notQuote : char ≠ '"')
    (notOpen : ¬ (char = '[' ∨ char = Char.ofNat 0x7b))
    (notClose : ¬ (char = ']' ∨ char = Char.ofNat 0x7d)) :
    nestingFrom .outside depth deepest (char :: rest) =
      nestingFrom .outside depth deepest rest := by
  rw [nestingFrom, if_neg notQuote, if_neg notOpen, if_neg notClose]

end Nesting

theorem nesting_comma (depth deepest : Nat) (rest : Str) :
    nestingFrom .outside depth deepest (',' :: ' ' :: rest) =
      nestingFrom .outside depth deepest rest := by
  rw [nesting_mark _ _ _ (by decide) (by decide) (by decide),
    nesting_mark _ _ _ (by decide) (by decide) (by decide)]

theorem nesting_colon (depth deepest : Nat) (rest : Str) :
    nestingFrom .outside depth deepest (':' :: ' ' :: rest) =
      nestingFrom .outside depth deepest rest := by
  rw [nesting_mark _ _ _ (by decide) (by decide) (by decide),
    nesting_mark _ _ _ (by decide) (by decide) (by decide)]

/-- A number has no bracket. -/
theorem nesting_number {literal : Str} (wellSpelled : Json.spelledNumber literal = true)
    (depth deepest : Nat) (rest : Str) :
    nestingFrom .outside depth deepest (literal ++ rest) =
      nestingFrom .outside depth deepest rest := by
  have unbracketed : ∀ char ∈ literal, char ≠ '"' ∧
      ¬ (char = '[' ∨ char = Char.ofNat 0x7b) ∧ ¬ (char = ']' ∨ char = Char.ofNat 0x7d) := by
    rcases Json.spelled_number_chars wellSpelled with named | ⟨inside, _⟩
    · simp only [Json.namedNumbers, List.mem_cons, List.not_mem_nil, or_false] at named
      rcases named with rfl | rfl | rfl <;> decide
    · intro char inNumber
      have counted := inside char inNumber
      have differs : ∀ {other : Char}, Json.inNumber other = false → char ≠ other := by
        rintro other outside rfl
        rw [counted] at outside
        contradiction
      refine ⟨differs (by decide), ?_, ?_⟩
      · rintro (opens | opens)
        · exact differs (by decide) opens
        · exact differs (by decide) opens
      · rintro (closes | closes)
        · exact differs (by decide) closes
        · exact differs (by decide) closes
  clear wellSpelled
  induction literal with
  | nil => rfl
  | cons char literal ih =>
      obtain ⟨notQuote, notOpen, notClose⟩ := unbracketed char (by simp)
      rw [List.cons_append, nesting_mark _ _ _ notQuote notOpen notClose]
      exact ih fun other inside => unbracketed other (List.mem_cons_of_mem _ inside)

mutual

/-- Written text is as deep as the value is high. -/
theorem nesting_dumps (value : Json) (wellSpelled : value.spelled = true) (depth deepest : Nat)
    (rest : Str) :
    nestingFrom .outside depth (max deepest depth) (Json.dumps value ++ rest) =
      nestingFrom .outside depth (max deepest (depth + height value)) rest := by
  match value with
  | .null | .bool true | .bool false =>
      simp only [Json.dumps, height, Nat.add_zero]
      rfl
  | .number literal =>
      rw [Json.dumps, height, Nat.add_zero]
      exact nesting_number wellSpelled depth (max deepest depth) rest
  | .string text =>
      rw [Json.dumps, nesting_string]
      simp [height]
  | .array items =>
      have opened : max (max deepest depth) (depth + 1) = max deepest (depth + 1) := by omega
      rw [Json.dumps, List.cons_append, nestingFrom, if_neg (by decide), if_pos (by decide), opened,
        List.append_assoc, nesting_items items wellSpelled, List.singleton_append, nestingFrom,
        if_neg (by decide), if_neg (by decide), if_pos (by decide), height]
      congr 2
      omega
  | .object entries =>
      have opened : max (max deepest depth) (depth + 1) = max deepest (depth + 1) := by omega
      rw [Json.dumps, List.cons_append, nestingFrom, if_neg (by decide), if_pos (by decide), opened,
        List.append_assoc, nesting_entries entries wellSpelled, List.singleton_append, nestingFrom,
        if_neg (by decide), if_neg (by decide), if_pos (by decide), height]
      congr 2
      omega

theorem nesting_items (items : List Json) (wellSpelled : Json.spelledItems items = true)
    (depth deepest : Nat) (rest : Str) :
    nestingFrom .outside depth (max deepest depth) (Json.dumpsItems items ++ rest) =
      nestingFrom .outside depth (max deepest (depth + heightItems items)) rest := by
  match items with
  | [] => simp [Json.dumpsItems, heightItems]
  | [item] =>
      simp only [Json.spelledItems, Bool.and_true] at wellSpelled
      rw [Json.dumpsItems, nesting_dumps item wellSpelled]
      simp [heightItems]
  | item :: next :: more =>
      rw [Json.spelledItems, Bool.and_eq_true] at wellSpelled
      have reached : max deepest (depth + height item) =
          max (max deepest (depth + height item)) depth := by omega
      rw [Json.dumpsItems, List.append_assoc, nesting_dumps item wellSpelled.1, List.cons_append,
        List.cons_append, nesting_comma, reached, nesting_items (next :: more) wellSpelled.2,
        heightItems.eq_2 item]
      congr 1
      omega

theorem nesting_entries (entries : List (Str × Json)) (wellSpelled : Json.spelledEntries entries = true)
    (depth deepest : Nat) (rest : Str) :
    nestingFrom .outside depth (max deepest depth) (Json.dumpsEntries entries ++ rest) =
      nestingFrom .outside depth (max deepest (depth + heightEntries entries)) rest := by
  match entries with
  | [] => simp [Json.dumpsEntries, heightEntries]
  | [(key, value)] =>
      simp only [Json.spelledEntries, Bool.and_true] at wellSpelled
      rw [Json.dumpsEntries, List.append_assoc, nesting_string, List.cons_append, List.cons_append,
        nesting_colon, nesting_dumps value wellSpelled]
      simp [heightEntries]
  | (key, value) :: next :: more =>
      rw [Json.spelledEntries, Bool.and_eq_true] at wellSpelled
      have reached : max deepest (depth + height value) =
          max (max deepest (depth + height value)) depth := by omega
      rw [Json.dumpsEntries, List.append_assoc, nesting_string, List.cons_append, List.cons_append,
        nesting_colon, List.append_assoc, nesting_dumps value wellSpelled.1, List.cons_append,
        List.cons_append, nesting_comma, reached, nesting_entries (next :: more) wellSpelled.2,
        heightEntries.eq_2 key]
      congr 1
      omega

end

theorem nesting_depth_dumps (value : Json) (wellSpelled : value.spelled = true) :
    jsonNestingDepth (Json.dumps value) = height value := by
  have deep := nesting_dumps value wellSpelled 0 0 []
  simpa [jsonNestingDepth, nestingFrom] using deep

theorem printable_not_break {char : Char} (printable : Json.Printable char) :
    isLineBreak char = false := by
  have least : 32 ≤ char.toNat := printable.1
  have most : char.toNat ≤ 126 := printable.2
  simp [isLineBreak]
  omega

theorem strip_object (entries : List (Str × Json)) :
    strip (Json.dumps (.object entries)) = Json.dumps (.object entries) := by
  rw [Json.dumps, strip, lstrip, List.dropWhile_cons_of_neg (by decide), rstrip, ← List.cons_append,
    List.rdropWhile_concat_neg]
  decide

theorem parse_row_dumped (entries : List (Str × Json))
    (wellSpelled : (Json.object entries).spelled = true)
    (shallow : height (.object entries) ≤ jsonNestingLimit) :
    parseJsonlRow (Json.dumps (.object entries)) = some (.object entries) := by
  have filled : Json.dumps (.object entries) ≠ [] := by
    rw [Json.dumps]
    simp
  unfold parseJsonlRow
  dsimp only
  rw [strip_object, if_neg filled, loadJsonArtifact, nesting_depth_dumps _ wellSpelled,
    if_neg (by omega), Json.loads_dumps _ wellSpelled]

theorem row_on_own_line {before after : Str} (entries : List (Str × Json))
    (wellSpelled : (Json.object entries).spelled = true)
    (shallow : height (.object entries) ≤ jsonNestingLimit)
    (starts : before = [] ∨ ∃ earlier, before = earlier ++ ['\n']) :
    Json.object entries ∈
      (jsonlRowsOf (before ++ (Json.dumps (.object entries) ++ '\n' :: after))).1 := by
  have unbroken : ∀ char ∈ Json.dumps (.object entries), isLineBreak char = false :=
    fun char inside => printable_not_break (Json.dumps_printable _ wellSpelled char inside)
  have ownLine : Json.dumps (.object entries) ∈
      splitlines (before ++ (Json.dumps (.object entries) ++ '\n' :: after)) := by
    have line := splitlines_line unbroken [] after
    rcases starts with rfl | ⟨earlier, rfl⟩
    · rw [List.nil_append, splitlines, line]
      simp
    · rw [List.append_assoc, List.singleton_append, splitlines, splitlines_feed, splitlines, line]
      simp
  have visible : isBlank (Json.dumps (.object entries)) = false := by
    rw [Json.dumps, isBlank, List.all_cons]
    simp [isSpace]
  refine List.mem_filterMap.mpr ⟨_, List.mem_filter.mpr ⟨ownLine, by simp [visible]⟩, ?_⟩
  exact parse_row_dumped entries wellSpelled shallow

end Defender.Filesystem
