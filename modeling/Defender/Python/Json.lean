import Defender.Python.Text

/-!
# JSON as the standard library writes and reads it

`dumps` escapes everything but printable ASCII; `loads` reads a value between
white space and refuses anything after it. The reader's recursion is bounded by
rounds, of which twice the length of the text is enough for what `dumps` writes.
-/

namespace Defender.Python

/-- A decoded value. Numbers are kept as they are spelled, and the last entry of an object
under a key is the one looked up. -/
inductive Json where
  | null
  | bool (value : Bool)
  | number (literal : Str)
  | string (text : Str)
  | array (items : List Json)
  | object (entries : List (Str × Json))
deriving Repr

namespace Json

def hexDigit (digit : Nat) : Char :=
  if digit < 10 then Char.ofNat (48 + digit) else Char.ofNat (87 + digit)

def hexValue (char : Char) : Option Nat :=
  if '0' ≤ char ∧ char ≤ '9' then some (char.toNat - 48)
  else if 'a' ≤ char ∧ char ≤ 'f' then some (char.toNat - 87)
  else if 'A' ≤ char ∧ char ≤ 'F' then some (char.toNat - 55)
  else none

def hexQuad (unit : Nat) : Str :=
  [hexDigit (unit / 4096 % 16), hexDigit (unit / 256 % 16), hexDigit (unit / 16 % 16),
    hexDigit (unit % 16)]

/-- The code units of a character; past the first plane it is a surrogate pair. -/
def codeUnits (char : Char) : List Nat :=
  if char.toNat < 0x10000 then [char.toNat]
  else [0xd800 + (char.toNat - 0x10000) / 0x400, 0xdc00 + (char.toNat - 0x10000) % 0x400]

def escapeUnit (unit : Nat) : Str := '\\' :: 'u' :: hexQuad unit

def escapeChar (char : Char) : Str :=
  if char = '"' then "\\\""
  else if char = '\\' then "\\\\"
  else if char = '\n' then "\\n"
  else if char = '\r' then "\\r"
  else if char = '\t' then "\\t"
  else if char = Char.ofNat 0x0c then "\\f"
  else if char = Char.ofNat 0x08 then "\\b"
  else if ' ' ≤ char ∧ char ≤ '~' then [char]
  else (codeUnits char).flatMap escapeUnit

def dumpsString (text : Str) : Str := '"' :: (text.flatMap escapeChar ++ ['"'])

mutual

def dumps : Json → Str
  | .null => "null"
  | .bool true => "true"
  | .bool false => "false"
  | .number literal => literal
  | .string text => dumpsString text
  | .array items => '[' :: (dumpsItems items ++ [']'])
  | .object entries => Char.ofNat 0x7b :: (dumpsEntries entries ++ [Char.ofNat 0x7d])

def dumpsItems : List Json → Str
  | [] => []
  | [item] => dumps item
  | item :: next :: rest => dumps item ++ ',' :: ' ' :: dumpsItems (next :: rest)

def dumpsEntries : List (Str × Json) → Str
  | [] => []
  | [(key, value)] => dumpsString key ++ ':' :: ' ' :: dumps value
  | (key, value) :: next :: rest =>
      dumpsString key ++ ':' :: ' ' :: (dumps value ++ ',' :: ' ' :: dumpsEntries (next :: rest))

end

def isSpace (char : Char) : Bool := [' ', '\t', '\n', '\r'].contains char

def skipSpace (text : Str) : Str := text.dropWhile isSpace

/-- The character after a backslash, other than a code unit's. -/
def simpleEscape (char : Char) : Option Char :=
  if char = '"' ∨ char = '\\' ∨ char = '/' then some char
  else if char = 'b' then some (Char.ofNat 0x08)
  else if char = 'f' then some (Char.ofNat 0x0c)
  else if char = 'n' then some '\n'
  else if char = 'r' then some '\r'
  else if char = 't' then some '\t'
  else none

/-- The code units of a string and what follows its closing quote. -/
def scanUnits : Str → Option (List Nat × Str)
  | [] => none
  | '"' :: rest => some ([], rest)
  | '\\' :: 'u' :: first :: second :: third :: fourth :: rest =>
      match hexValue first, hexValue second, hexValue third, hexValue fourth with
      | some a, some b, some c, some d =>
          (scanUnits rest).map fun (units, after) =>
            ((a * 4096 + b * 256 + c * 16 + d) :: units, after)
      | _, _, _, _ => none
  | '\\' :: char :: rest =>
      match simpleEscape char with
      | some plain => (scanUnits rest).map fun (units, after) => (plain.toNat :: units, after)
      | none => none
  | char :: rest =>
      if char.toNat < 0x20 ∨ char = '\\' then none
      else (scanUnits rest).map fun (units, after) => (char.toNat :: units, after)

def isHighSurrogate (unit : Nat) : Bool := 0xd800 ≤ unit && unit < 0xdc00

def isLowSurrogate (unit : Nat) : Bool := 0xdc00 ≤ unit && unit < 0xe000

/-- A surrogate outside a pair is no character here and reads as the replacement one. -/
def unitChar (unit : Nat) : Char :=
  if isHighSurrogate unit || isLowSurrogate unit then Char.ofNat 0xfffd else Char.ofNat unit

def joinUnits : List Nat → Str
  | [] => []
  | [unit] => [unitChar unit]
  | high :: low :: rest =>
      if isHighSurrogate high && isLowSurrogate low then
        Char.ofNat (0x10000 + (high - 0xd800) * 0x400 + (low - 0xdc00)) :: joinUnits rest
      else unitChar high :: joinUnits (low :: rest)

def scanString (text : Str) : Option (Str × Str) :=
  (scanUnits text).map fun (units, after) => (joinUnits units, after)

def isDigit (char : Char) : Bool := '0' ≤ char && char ≤ '9'

def fractionOf : Str → Str × Str
  | '.' :: rest =>
      match rest.takeWhile isDigit with
      | [] => ([], '.' :: rest)
      | digits => ('.' :: digits, rest.dropWhile isDigit)
  | text => ([], text)

def exponentOf (text : Str) : Str × Str :=
  match text with
  | mark :: rest =>
      if mark = 'e' ∨ mark = 'E' then
        let sign := match rest with
          | '-' :: _ => ['-']
          | '+' :: _ => ['+']
          | _ => []
        let digits := (rest.drop sign.length).takeWhile isDigit
        if digits = [] then ([], text)
        else (mark :: (sign ++ digits), (rest.drop sign.length).dropWhile isDigit)
      else ([], text)
  | [] => ([], [])

/-- A number; the interpreter refuses an integer of more than 4300 digits. -/
def scanNumber (text : Str) : Option (Json × Str) :=
  let sign := if text.head? = some '-' then ['-'] else []
  let body := text.drop sign.length
  let whole := if body.head? = some '0' then ['0'] else body.takeWhile isDigit
  if whole = [] then none
  else
    let (fraction, afterFraction) := fractionOf (body.drop whole.length)
    let (exponent, after) := exponentOf afterFraction
    if fraction = [] ∧ exponent = [] ∧ whole.length > 4300 then none
    else some (.number (sign ++ whole ++ fraction ++ exponent), after)

def namedValues : List (Str × Json) :=
  [("null", .null), ("true", .bool true), ("false", .bool false), ("NaN", .number "NaN"),
    ("Infinity", .number "Infinity"), ("-Infinity", .number "-Infinity")]

def scanNamed (text : Str) : Option (Json × Str) :=
  (namedValues.find? fun named => named.1.isPrefixOf text).map fun named =>
    (named.2, text.drop named.1.length)

mutual

def scanValue : Nat → Str → Option (Json × Str)
  | 0, _ => none
  | _ + 1, [] => none
  | rounds + 1, char :: rest =>
      if char = '"' then (scanString rest).map fun (text, after) => (.string text, after)
      else if char = Char.ofNat 0x7b then
        match skipSpace rest with
        | [] => none
        | next :: after =>
            if next = Char.ofNat 0x7d then some (.object [], after)
            else (scanEntries rounds (next :: after)).map fun (entries, after) =>
              (.object entries, after)
      else if char = '[' then
        match skipSpace rest with
        | [] => none
        | next :: after =>
            if next = ']' then some (.array [], after)
            else (scanItems rounds (next :: after)).map fun (items, after) => (.array items, after)
      else (scanNamed (char :: rest)).or (scanNumber (char :: rest))

def scanItems : Nat → Str → Option (List Json × Str)
  | 0, _ => none
  | rounds + 1, text =>
      match scanValue rounds text with
      | none => none
      | some (item, after) =>
          match skipSpace after with
          | ']' :: rest => some ([item], rest)
          | ',' :: rest =>
              (scanItems rounds (skipSpace rest)).map fun (items, after) => (item :: items, after)
          | _ => none

def scanEntries : Nat → Str → Option (List (Str × Json) × Str)
  | 0, _ => none
  | rounds + 1, text =>
      match text with
      | '"' :: rest =>
          match scanString rest with
          | none => none
          | some (key, after) =>
              match skipSpace after with
              | ':' :: more =>
                  match scanValue rounds (skipSpace more) with
                  | none => none
                  | some (value, after) =>
                      match skipSpace after with
                      | [] => none
                      | next :: rest =>
                          if next = Char.ofNat 0x7d then some ([(key, value)], rest)
                          else if next = ',' then
                            (scanEntries rounds (skipSpace rest)).map fun (entries, after) =>
                              ((key, value) :: entries, after)
                          else none
              | _ => none
      | _ => none

end

def loads (text : Str) : Option Json :=
  (scanValue (2 * text.length + 1) (skipSpace text)).bind fun (value, after) =>
    if skipSpace after = [] then some value else none

/-- The value under a key: of several entries the last. -/
def get? (key : Str) : Json → Option Json
  | .object entries => (entries.reverse.find? fun entry => entry.1 = key).map Prod.snd
  | _ => none

theorem char_range (char : Char) :
    char.toNat < 0xd800 ∨ 0xdfff < char.toNat ∧ char.toNat < 0x110000 := char.valid

theorem hex_value_digit {digit : Nat} (small : digit < 16) :
    hexValue (hexDigit digit) = some digit := by
  have all : ∀ digit < 16, hexValue (hexDigit digit) = some digit := by decide
  exact all digit small

theorem scan_units_escape (unit : Nat) (small : unit < 0x10000) (rest : Str) :
    scanUnits (escapeUnit unit ++ rest) =
      (scanUnits rest).map fun (units, after) => (unit :: units, after) := by
  have digits : unit / 4096 % 16 * 4096 + unit / 256 % 16 * 256 + unit / 16 % 16 * 16 +
      unit % 16 = unit := by omega
  rw [escapeUnit, hexQuad]
  simp only [List.cons_append, List.nil_append]
  rw [scanUnits]
  simp only [hex_value_digit (Nat.mod_lt _ (by decide : 0 < 16)), digits]

theorem scan_units_simple {char plain : Char} (rest : Str) (known : simpleEscape char = some plain) :
    scanUnits ('\\' :: char :: rest) =
      (scanUnits rest).map fun (units, after) => (plain.toNat :: units, after) := by
  have notUnit : char ≠ 'u' := by
    rintro rfl
    have unknown : simpleEscape 'u' = none := by decide
    rw [unknown] at known
    contradiction
  rw [scanUnits.eq_4 _ _ (by rintro _ _ _ _ _ rfl; exact absurd rfl notUnit), known]

theorem scan_units_plain {char : Char} (rest : Str) (printable : ' ' ≤ char)
    (notQuote : char ≠ '"') (notEscape : char ≠ '\\') :
    scanUnits (char :: rest) =
      (scanUnits rest).map fun (units, after) => (char.toNat :: units, after) := by
  have visible : ¬ (char.toNat < 0x20 ∨ char = '\\') := by
    rintro (control | escape)
    · have least : 0x20 ≤ char.toNat := printable
      omega
    · exact notEscape escape
  rw [scanUnits.eq_5 _ _ notQuote (fun _ _ _ _ _ same => absurd same notEscape)
    (fun _ _ same => absurd same notEscape), if_neg visible]

theorem scan_units_char (char : Char) (rest : Str) :
    scanUnits (escapeChar char ++ rest) =
      (scanUnits rest).map fun (units, after) => (codeUnits char ++ units, after) := by
  have short : ∀ {mark : Char}, simpleEscape mark = some char → char.toNat < 0x10000 →
      scanUnits ('\\' :: mark :: rest) =
        (scanUnits rest).map fun (units, after) => (codeUnits char ++ units, after) := by
    intro mark known small
    rw [scan_units_simple rest known, codeUnits, if_pos small]
    rfl
  unfold escapeChar
  split
  · subst_vars
    exact short (by decide) (by decide)
  split
  · subst_vars
    exact short (by decide) (by decide)
  split
  · subst_vars
    exact short (by decide) (by decide)
  split
  · subst_vars
    exact short (by decide) (by decide)
  split
  · subst_vars
    exact short (by decide) (by decide)
  split
  · subst_vars
    exact short (by decide) (by decide)
  split
  · subst_vars
    exact short (by decide) (by decide)
  rename_i notQuote notEscape _ _ _ _ _
  split
  · rename_i printable
    have small : char.toNat < 0x10000 := by
      have most : char.toNat ≤ 0x7e := printable.2
      omega
    rw [codeUnits, if_pos small]
    exact scan_units_plain rest printable.1 notQuote notEscape
  · unfold codeUnits
    have range := char_range char
    split
    · rename_i small
      simpa using scan_units_escape char.toNat small rest
    · simp only [List.flatMap_cons, List.flatMap_nil, List.append_nil, List.append_assoc]
      rw [scan_units_escape _ (by omega), scan_units_escape _ (by omega), Option.map_map]
      rfl

theorem join_code_units (char : Char) (units : List Nat) :
    joinUnits (codeUnits char ++ units) = char :: joinUnits units := by
  have range := char_range char
  unfold codeUnits
  split
  · have notHigh : isHighSurrogate char.toNat = false := by
      simp only [isHighSurrogate, Bool.and_eq_false_iff, decide_eq_false_iff_not]
      omega
    have notLow : isLowSurrogate char.toNat = false := by
      simp only [isLowSurrogate, Bool.and_eq_false_iff, decide_eq_false_iff_not]
      omega
    have same : unitChar char.toNat = char := by
      simp [unitChar, notHigh, notLow]
    cases units with
    | nil => simp [joinUnits, same]
    | cons next rest => simp [joinUnits, notHigh, same]
  · have high : isHighSurrogate (0xd800 + (char.toNat - 0x10000) / 0x400) = true := by
      simp only [isHighSurrogate, Bool.and_eq_true, decide_eq_true_eq]
      omega
    have low : isLowSurrogate (0xdc00 + (char.toNat - 0x10000) % 0x400) = true := by
      simp only [isLowSurrogate, Bool.and_eq_true, decide_eq_true_eq]
      omega
    have whole : 0x10000 + (0xd800 + (char.toNat - 0x10000) / 0x400 - 0xd800) * 0x400 +
        (0xdc00 + (char.toNat - 0x10000) % 0x400 - 0xdc00) = char.toNat := by omega
    rw [List.cons_append, List.cons_append, List.nil_append, joinUnits, high, low, whole]
    simp

theorem scan_string_dumped (text rest : Str) :
    scanString (text.flatMap escapeChar ++ '"' :: rest) = some (text, rest) := by
  have units : scanUnits (text.flatMap escapeChar ++ '"' :: rest) =
      some (text.flatMap codeUnits, rest) := by
    induction text with
    | nil => simp [scanUnits]
    | cons char more ih =>
        rw [List.flatMap_cons, List.append_assoc, scan_units_char, ih]
        rfl
  have joined : joinUnits (text.flatMap codeUnits) = text := by
    clear units
    induction text with
    | nil => rfl
    | cons char more ih => rw [List.flatMap_cons, join_code_units, ih]
  rw [scanString, units]
  simp [joined]

section Numbers

def namedNumbers : List Str := ["NaN", "Infinity", "-Infinity"]

def spelledNumber (literal : Str) : Bool :=
  namedNumbers.contains literal ||
    match scanNumber literal with
    | some (.number read, []) => read == literal
    | _ => false

/-- What may stand after a number without becoming part of it. -/
def endsNumber : Str → Bool
  | [] => true
  | char :: _ => char == ',' || char == ']' || char == Char.ofNat 0x7d

theorem ends_number_head {rest : Str} (ends : endsNumber rest = true) :
    rest = [] ∨ ∃ char tail, rest = char :: tail ∧ isDigit char = false ∧ char ≠ '.' ∧
      char ≠ 'e' ∧ char ≠ 'E' ∧ char ≠ '-' ∧ char ≠ '+' := by
  cases rest with
  | nil => exact .inl rfl
  | cons char tail =>
      simp only [endsNumber, Bool.or_eq_true, beq_iff_eq] at ends
      refine .inr ⟨char, tail, rfl, ?_⟩
      rcases ends with (rfl | rfl) | rfl <;> decide

theorem digits_append (text : Str) {rest : Str} (ends : endsNumber rest = true) :
    (text ++ rest).takeWhile isDigit = text.takeWhile isDigit ∧
      (text ++ rest).dropWhile isDigit = text.dropWhile isDigit ++ rest := by
  induction text with
  | nil =>
      rcases ends_number_head ends with rfl | ⟨char, tail, rfl, noDigit, _⟩
      · exact ⟨rfl, rfl⟩
      · simp [noDigit]
  | cons char text ih =>
      cases digit : isDigit char with
      | true => simp [digit, ih]
      | false => simp [digit]

theorem fraction_plain {char : Char} (text : Str) (noPoint : char ≠ '.') :
    fractionOf (char :: text) = ([], char :: text) := by
  unfold fractionOf
  split
  · simp_all
  · rfl

theorem fraction_append (text : Str) {rest : Str} (ends : endsNumber rest = true) :
    fractionOf (text ++ rest) = ((fractionOf text).1, (fractionOf text).2 ++ rest) := by
  cases text with
  | nil =>
      rcases ends_number_head ends with rfl | ⟨char, tail, rfl, _, noPoint, _⟩
      · rfl
      · exact fraction_plain tail noPoint
  | cons char text =>
      by_cases point : char = '.'
      · subst point
        simp only [List.cons_append, fractionOf, digits_append text ends]
        cases text.takeWhile isDigit with
        | nil => rfl
        | cons digit digits => rfl
      · rw [List.cons_append, fraction_plain _ point, fraction_plain _ point]
        rfl

def exponentSign : Str → Str
  | '-' :: _ => ['-']
  | '+' :: _ => ['+']
  | _ => []

theorem exponent_marked {mark : Char} (text : Str) (marked : mark = 'e' ∨ mark = 'E') :
    exponentOf (mark :: text) =
      if (text.drop (exponentSign text).length).takeWhile isDigit = [] then ([], mark :: text)
      else (mark :: (exponentSign text ++
          (text.drop (exponentSign text).length).takeWhile isDigit),
        (text.drop (exponentSign text).length).dropWhile isDigit) := by
  simp only [exponentOf, if_pos marked, exponentSign]
  split <;> split <;> simp_all

theorem exponent_sign_append (text : Str) {rest : Str} (ends : endsNumber rest = true) :
    exponentSign (text ++ rest) = exponentSign text := by
  cases text with
  | nil =>
      rcases ends_number_head ends with rfl | ⟨char, tail, rfl, _, _, _, _, noMinus, noPlus⟩
      · rfl
      · rw [List.nil_append]
        unfold exponentSign
        split <;> simp_all
  | cons char text =>
      rw [List.cons_append]
      unfold exponentSign
      split <;> split <;> simp_all

theorem exponent_sign_length (text : Str) : (exponentSign text).length ≤ text.length := by
  unfold exponentSign
  split <;> simp

theorem exponent_append (text : Str) {rest : Str} (ends : endsNumber rest = true) :
    exponentOf (text ++ rest) = ((exponentOf text).1, (exponentOf text).2 ++ rest) := by
  cases text with
  | nil =>
      rcases ends_number_head ends with rfl | ⟨char, tail, rfl, _, _, noSmall, noLarge, _⟩
      · rfl
      · simp [exponentOf, noSmall, noLarge]
  | cons mark text =>
      by_cases marked : mark = 'e' ∨ mark = 'E'
      · rw [List.cons_append, exponent_marked _ marked, exponent_marked _ marked,
          exponent_sign_append text ends, List.drop_append_of_le_length (exponent_sign_length text),
          (digits_append _ ends).1, (digits_append _ ends).2]
        split_ifs <;> rfl
      · simp only [List.cons_append, exponentOf, if_neg marked]

/-- The digits before a point: a leading zero stands alone. -/
def wholeDigits (body : Str) : Str :=
  if body.head? = some '0' then ['0'] else body.takeWhile isDigit

theorem whole_digits_append (body : Str) {rest : Str} (ends : endsNumber rest = true) :
    wholeDigits (body ++ rest) = wholeDigits body := by
  cases body with
  | nil =>
      rcases ends_number_head ends with rfl | ⟨char, tail, rfl, noDigit, _⟩
      · rfl
      · have notZero : char ≠ '0' := by
          rintro rfl
          exact absurd noDigit (by decide)
        simp [wholeDigits, notZero, noDigit]
  | cons first more =>
      have digits := (digits_append (first :: more) ends).1
      unfold wholeDigits
      rw [digits]
      rfl

theorem whole_digits_front (body : Str) : wholeDigits body <+: body := by
  unfold wholeDigits
  split
  · rename_i zero
    obtain ⟨more, rfl⟩ : ∃ more, body = '0' :: more := by
      cases body with
      | nil => simp at zero
      | cons first more => exact ⟨more, by simp_all⟩
    exact ⟨more, rfl⟩
  · exact List.takeWhile_prefix _

def numberSign (text : Str) : Str := if text.head? = some '-' then ['-'] else []

def scanUnsigned (sign body : Str) : Option (Json × Str) :=
  let whole := wholeDigits body
  if whole = [] then none
  else
    let fraction := fractionOf (body.drop whole.length)
    let exponent := exponentOf fraction.2
    if fraction.1 = [] ∧ exponent.1 = [] ∧ whole.length > 4300 then none
    else some (.number (sign ++ whole ++ fraction.1 ++ exponent.1), exponent.2)

theorem scan_number_signed (text : Str) :
    scanNumber text = scanUnsigned (numberSign text) (text.drop (numberSign text).length) := rfl

theorem scan_number_append {text : Str} (filled : text ≠ []) {rest : Str}
    (ends : endsNumber rest = true) :
    scanNumber (text ++ rest) = (scanNumber text).map fun read => (read.1, read.2 ++ rest) := by
  obtain ⟨first, more, rfl⟩ := List.exists_cons_of_ne_nil filled
  have sign : numberSign ((first :: more) ++ rest) = numberSign (first :: more) := rfl
  have short : (numberSign (first :: more)).length ≤ (first :: more).length := by
    unfold numberSign
    split <;> simp
  rw [scan_number_signed, scan_number_signed, sign, List.drop_append_of_le_length short]
  generalize (first :: more).drop (numberSign (first :: more)).length = body
  simp only [scanUnsigned, whole_digits_append body ends,
    List.drop_append_of_le_length (whole_digits_front body).length_le, fraction_append _ ends,
    exponent_append _ ends]
  split_ifs <;> rfl

/-- The characters a number is spelled with. -/
def inNumber (char : Char) : Bool :=
  isDigit char || ['-', '+', '.', 'e', 'E'].contains char

theorem digits_in_number (text : Str) : ∀ char ∈ text.takeWhile isDigit, inNumber char = true := by
  intro char inDigits
  simp [inNumber, List.mem_takeWhile_imp inDigits]

theorem fraction_in_number (text : Str) : ∀ char ∈ (fractionOf text).1, inNumber char = true := by
  unfold fractionOf
  split
  · rename_i rest
    split
    · simp
    · intro char inFraction
      rcases List.mem_cons.mp inFraction with rfl | inDigits
      · decide
      · exact digits_in_number rest char inDigits
  · simp

theorem exponent_in_number (text : Str) : ∀ char ∈ (exponentOf text).1, inNumber char = true := by
  cases text with
  | nil => simp [exponentOf]
  | cons mark text =>
      by_cases marked : mark = 'e' ∨ mark = 'E'
      · rw [exponent_marked _ marked]
        have signs : ∀ char ∈ exponentSign text, inNumber char = true := by
          unfold exponentSign
          split <;> decide
        split
        · simp
        · intro char inExponent
          simp only [List.mem_cons, List.mem_append] at inExponent
          rcases inExponent with rfl | inSign | inDigits
          · rcases marked with rfl | rfl <;> decide
          · exact signs char inSign
          · exact digits_in_number _ char inDigits
      · simp [exponentOf, if_neg marked]

theorem whole_digits_digit (body : Str) : ∀ char ∈ wholeDigits body, isDigit char = true := by
  unfold wholeDigits
  split
  · decide
  · exact fun char inDigits => List.mem_takeWhile_imp inDigits

theorem number_sign_cases (text : Str) : numberSign text = [] ∨ numberSign text = ['-'] := by
  unfold numberSign
  split
  · exact .inr rfl
  · exact .inl rfl

/-- A number read whole: the characters it is spelled with, and the digit its sign, if any,
stands before. -/
theorem scanned_number {text read after : Str}
    (scanned : scanNumber text = some (.number read, after)) :
    (∀ char ∈ read, inNumber char = true) ∧
      ∃ sign digit more, read = sign ++ digit :: more ∧ (sign = [] ∨ sign = ['-']) ∧
        isDigit digit = true := by
  rw [scan_number_signed, scanUnsigned] at scanned
  have signed := number_sign_cases text
  generalize numberSign text = sign at scanned signed
  generalize text.drop sign.length = body at scanned
  have wholeDigit := whole_digits_digit body
  generalize wholeDigits body = whole at scanned wholeDigit
  dsimp only at scanned
  split_ifs at scanned with noDigits
  have spelling := Json.number.inj (Prod.mk.inj (Option.some.inj scanned)).1
  subst spelling
  constructor
  · intro char inRead
    simp only [List.mem_append] at inRead
    rcases inRead with ((inSign | inWhole) | inFraction) | inExponent
    · rcases signed with rfl | rfl
      · simp at inSign
      · obtain rfl := List.mem_singleton.mp inSign
        decide
    · simp [inNumber, wholeDigit char inWhole]
    · exact fraction_in_number _ char inFraction
    · exact exponent_in_number _ char inExponent
  · obtain ⟨digit, more, rfl⟩ := List.exists_cons_of_ne_nil noDigits
    rw [List.append_assoc, List.append_assoc, List.cons_append]
    exact ⟨sign, digit, _, rfl, signed, wholeDigit digit (by simp)⟩

theorem digit_shape {digit : Char} (isOne : isDigit digit = true) :
    48 ≤ digit.toNat ∧ digit.toNat ≤ 57 := by
  have bounds : '0' ≤ digit ∧ digit ≤ '9' := by simpa [isDigit] using isOne
  exact ⟨bounds.1, bounds.2⟩

theorem scan_named_number {sign more : Str} {digit : Char} (signed : sign = [] ∨ sign = ['-'])
    (isOne : isDigit digit = true) : scanNamed (sign ++ digit :: more) = none := by
  have shape := digit_shape isOne
  have differs : ∀ {char : Char}, 57 < char.toNat → char ≠ digit := by
    rintro char large rfl
    omega
  have n : 'n' ≠ digit := differs (by decide)
  have t : 't' ≠ digit := differs (by decide)
  have f : 'f' ≠ digit := differs (by decide)
  have capitalN : 'N' ≠ digit := differs (by decide)
  have capitalI : 'I' ≠ digit := differs (by decide)
  have minus : '-' ≠ digit := by
    rintro rfl
    exact absurd shape.1 (by decide)
  rcases signed with rfl | rfl
  · simp [scanNamed, namedValues, List.isPrefixOf, n, t, f, capitalN, capitalI, minus]
  · simp [scanNamed, namedValues, List.isPrefixOf, capitalI]

theorem scan_spelled_number {literal : Str} (spelled : spelledNumber literal = true)
    {rest : Str} (ends : endsNumber rest = true) :
    (scanNamed (literal ++ rest)).or (scanNumber (literal ++ rest)) =
      some (.number literal, rest) := by
  simp only [spelledNumber, Bool.or_eq_true, List.contains_iff_mem] at spelled
  rcases spelled with named | whole
  · simp only [namedNumbers, List.mem_cons, List.not_mem_nil, or_false] at named
    rcases named with rfl | rfl | rfl <;> rfl
  · split at whole
    · rename_i read scanned
      obtain rfl := eq_of_beq whole
      obtain ⟨_, sign, digit, more, spelling, signed, isOne⟩ := scanned_number scanned
      have filled : read ≠ [] := by
        rw [spelling]
        simp
      rw [scan_number_append filled ends, scanned]
      rw [show scanNamed (read ++ rest) = none from by
        rw [spelling, List.append_assoc, List.cons_append]
        exact scan_named_number signed isOne]
      rfl
    · contradiction

theorem spelled_number_chars {literal : Str} (spelled : spelledNumber literal = true) :
    literal ∈ namedNumbers ∨ (∀ char ∈ literal, inNumber char = true) ∧
      ∃ sign digit more, literal = sign ++ digit :: more ∧ (sign = [] ∨ sign = ['-']) ∧
        isDigit digit = true := by
  simp only [spelledNumber, Bool.or_eq_true, List.contains_iff_mem] at spelled
  rcases spelled with named | whole
  · exact .inl named
  · split at whole
    · rename_i read scanned
      obtain rfl := eq_of_beq whole
      exact .inr (scanned_number scanned)
    · contradiction

end Numbers

section Values

mutual

def plain : Json → Bool
  | .number _ => false
  | .array items => plainItems items
  | .object entries => plainEntries entries
  | .null | .bool _ | .string _ => true

def plainItems : List Json → Bool
  | [] => true
  | item :: rest => plain item && plainItems rest

def plainEntries : List (Str × Json) → Bool
  | [] => true
  | (_, value) :: rest => plain value && plainEntries rest

end

mutual

def spelled : Json → Bool
  | .number literal => spelledNumber literal
  | .array items => spelledItems items
  | .object entries => spelledEntries entries
  | .null | .bool _ | .string _ => true

def spelledItems : List Json → Bool
  | [] => true
  | item :: rest => spelled item && spelledItems rest

def spelledEntries : List (Str × Json) → Bool
  | [] => true
  | (_, value) :: rest => spelled value && spelledEntries rest

end

mutual

theorem plain_spelled (value : Json) (noNumber : value.plain = true) : value.spelled = true := by
  match value with
  | .null | .bool _ | .string _ => rfl
  | .number literal => contradiction
  | .array items => exact plain_items_spelled items noNumber
  | .object entries => exact plain_entries_spelled entries noNumber

theorem plain_items_spelled (items : List Json) (noNumber : plainItems items = true) :
    spelledItems items = true := by
  match items with
  | [] => rfl
  | item :: rest =>
      rw [plainItems, Bool.and_eq_true] at noNumber
      rw [spelledItems, plain_spelled item noNumber.1, plain_items_spelled rest noNumber.2]
      rfl

theorem plain_entries_spelled (entries : List (Str × Json))
    (noNumber : plainEntries entries = true) : spelledEntries entries = true := by
  match entries with
  | [] => rfl
  | (_, value) :: rest =>
      rw [plainEntries, Bool.and_eq_true] at noNumber
      rw [spelledEntries, plain_spelled value noNumber.1, plain_entries_spelled rest noNumber.2]
      rfl

end

theorem skip_space_head {char : Char} (rest : Str) (visible : isSpace char = false) :
    skipSpace (char :: rest) = char :: rest := by
  simp [skipSpace, visible]

theorem spelled_number_head {literal : Str} (spelled : spelledNumber literal = true) :
    ∃ first rest, literal = first :: rest ∧ isSpace first = false ∧ first ≠ ']' ∧
      first ≠ Char.ofNat 0x7d ∧ first ≠ '"' ∧ first ≠ Char.ofNat 0x7b ∧ first ≠ '[' := by
  rcases spelled_number_chars spelled with named | ⟨inside, sign, digit, more, rfl, signed, isOne⟩
  · simp only [namedNumbers, List.mem_cons, List.not_mem_nil, or_false] at named
    rcases named with rfl | rfl | rfl
    · exact ⟨'N', _, rfl, by decide, by decide, by decide, by decide, by decide, by decide⟩
    · exact ⟨'I', _, rfl, by decide, by decide, by decide, by decide, by decide, by decide⟩
    · exact ⟨'-', _, rfl, by decide, by decide, by decide, by decide, by decide, by decide⟩
  · obtain ⟨first, rest, starts⟩ : ∃ first rest, sign ++ digit :: more = first :: rest :=
      List.exists_cons_of_ne_nil (by simp)
    have counted : inNumber first = true := inside first (by simp [starts])
    have differs : ∀ {char : Char}, inNumber char = false → first ≠ char := by
      rintro char outside rfl
      rw [counted] at outside
      contradiction
    have visible : isSpace first = false := by
      cases spaced : isSpace first with
      | false => rfl
      | true =>
          simp only [isSpace, List.contains_iff_mem, List.mem_cons, List.not_mem_nil,
            or_false] at spaced
          rcases spaced with rfl | rfl | rfl | rfl <;> exact absurd counted (by decide)
    exact ⟨first, rest, starts, visible, differs (by decide), differs (by decide),
      differs (by decide), differs (by decide), differs (by decide)⟩

theorem dumps_head (value : Json) (wellSpelled : value.spelled = true) :
    ∃ first rest, dumps value = first :: rest ∧ isSpace first = false ∧ first ≠ ']' ∧
      first ≠ Char.ofNat 0x7d := by
  cases value with
  | null => exact ⟨'n', _, rfl, by decide, by decide, by decide⟩
  | bool value =>
      cases value with
      | true => exact ⟨'t', _, rfl, by decide, by decide, by decide⟩
      | false => exact ⟨'f', _, rfl, by decide, by decide, by decide⟩
  | number literal =>
      obtain ⟨first, rest, starts, visible, notClose, notEnd, _⟩ := spelled_number_head wellSpelled
      exact ⟨first, rest, starts, visible, notClose, notEnd⟩
  | string text => exact ⟨'"', _, by rw [dumps]; rfl, by decide, by decide, by decide⟩
  | array items => exact ⟨'[', _, by rw [dumps], by decide, by decide, by decide⟩
  | object entries => exact ⟨Char.ofNat 0x7b, _, by rw [dumps], by decide, by decide, by decide⟩

theorem skip_space_dumps (value : Json) (wellSpelled : value.spelled = true) (rest : Str) :
    skipSpace (dumps value ++ rest) = dumps value ++ rest := by
  obtain ⟨first, more, starts, visible, _⟩ := dumps_head value wellSpelled
  rw [starts, List.cons_append, skip_space_head _ visible]

theorem skip_space_blank (rest : Str) : skipSpace (' ' :: rest) = skipSpace rest := by
  simp [skipSpace, isSpace]

theorem dumped_items_head {item : Json} {items : List Json}
    (wellSpelled : spelledItems (item :: items) = true) :
    ∃ first rest, dumpsItems (item :: items) = first :: rest ∧ isSpace first = false ∧
      first ≠ ']' := by
  rw [spelledItems, Bool.and_eq_true] at wellSpelled
  obtain ⟨first, rest, starts, visible, notClose, _⟩ := dumps_head item wellSpelled.1
  cases items with
  | nil => exact ⟨first, rest, by rw [dumpsItems, starts], visible, notClose⟩
  | cons next more =>
      exact ⟨first, _, by rw [dumpsItems, starts, List.cons_append], visible, notClose⟩

theorem dumped_entries_head (key : Str) (value : Json) (entries : List (Str × Json)) :
    ∃ rest, dumpsEntries ((key, value) :: entries) = '"' :: rest := by
  cases entries with
  | nil => exact ⟨_, by rw [dumpsEntries, dumpsString, List.cons_append]⟩
  | cons next more => exact ⟨_, by rw [dumpsEntries, dumpsString, List.cons_append]⟩

theorem scan_entries_key (rounds : Nat) (key rest : Str) :
    scanEntries (rounds + 1) (dumpsString key ++ ':' :: rest) =
      match scanValue rounds (skipSpace rest) with
      | none => none
      | some (value, after) =>
          match skipSpace after with
          | [] => none
          | next :: rest =>
              if next = Char.ofNat 0x7d then some ([(key, value)], rest)
              else if next = ',' then
                (scanEntries rounds (skipSpace rest)).map fun (entries, after) =>
                  ((key, value) :: entries, after)
              else none := by
  rw [dumpsString, List.cons_append, scanEntries, List.append_assoc, List.singleton_append,
    scan_string_dumped]
  dsimp only
  rw [skip_space_head _ (by decide)]
  rfl

theorem scan_dumped_string (rounds : Nat) (text rest : Str) :
    scanValue (rounds + 1) (dumpsString text ++ rest) = some (.string text, rest) := by
  rw [dumpsString, List.cons_append, scanValue, if_pos rfl, List.append_assoc,
    List.singleton_append, scan_string_dumped]
  rfl

theorem scan_dumped_number (rounds : Nat) {literal : Str}
    (wellSpelled : spelledNumber literal = true) {rest : Str} (ends : endsNumber rest = true) :
    scanValue (rounds + 1) (dumps (.number literal) ++ rest) = some (.number literal, rest) := by
  obtain ⟨first, more, starts, _, _, _, notQuote, notObject, notArray⟩ :=
    spelled_number_head wellSpelled
  have read := scan_spelled_number wellSpelled ends
  rw [starts, List.cons_append] at read
  rw [dumps, starts, List.cons_append, scanValue, if_neg notQuote, if_neg notObject,
    if_neg notArray, read]

theorem scan_dumped_named (rounds : Nat) (rest : Str) :
    scanValue (rounds + 1) (dumps .null ++ rest) = some (.null, rest) ∧
      scanValue (rounds + 1) (dumps (.bool true) ++ rest) = some (.bool true, rest) ∧
      scanValue (rounds + 1) (dumps (.bool false) ++ rest) = some (.bool false, rest) := by
  simp [dumps, scanValue, scanNamed, namedValues, List.isPrefixOf]

mutual

theorem scan_dumps (value : Json) (wellSpelled : value.spelled = true) (rounds : Nat)
    (enough : 2 * (dumps value).length ≤ rounds) (rest : Str) (ends : endsNumber rest = true) :
    scanValue (rounds + 1) (dumps value ++ rest) = some (value, rest) := by
  match value with
  | .null => exact (scan_dumped_named rounds rest).1
  | .bool true => exact (scan_dumped_named rounds rest).2.1
  | .bool false => exact (scan_dumped_named rounds rest).2.2
  | .number literal => exact scan_dumped_number rounds wellSpelled ends
  | .string text =>
      rw [dumps]
      exact scan_dumped_string rounds text rest
  | .array [] =>
      simp [dumps, dumpsItems, scanValue, skipSpace, isSpace]
  | .array (item :: items) =>
      rw [dumps, List.length_cons, List.length_append] at enough
      obtain ⟨rounds, rfl⟩ := Nat.exists_eq_succ_of_ne_zero (by omega : rounds ≠ 0)
      have inside := scan_dumped_items (item :: items) wellSpelled (by simp) rounds (by omega) rest
      obtain ⟨first, more, starts, visible, notClose⟩ := dumped_items_head wellSpelled
      rw [dumps, List.cons_append, scanValue, if_neg (by decide), if_neg (by decide), if_pos rfl]
      rw [List.append_assoc, List.singleton_append, starts, List.cons_append,
        skip_space_head _ visible]
      rw [starts, List.cons_append] at inside
      dsimp only
      rw [if_neg notClose, inside]
      rfl
  | .object [] =>
      simp [dumps, dumpsEntries, scanValue, skipSpace, isSpace]
  | .object ((key, held) :: entries) =>
      rw [dumps, List.length_cons, List.length_append] at enough
      obtain ⟨rounds, rfl⟩ := Nat.exists_eq_succ_of_ne_zero (by omega : rounds ≠ 0)
      have inside := scan_dumped_entries ((key, held) :: entries) wellSpelled (by simp) rounds
        (by omega) rest
      obtain ⟨more, starts⟩ := dumped_entries_head key held entries
      rw [dumps, List.cons_append, scanValue, if_neg (by decide), if_pos rfl]
      rw [List.append_assoc, List.singleton_append, starts, List.cons_append,
        skip_space_head _ (by decide)]
      rw [starts, List.cons_append] at inside
      dsimp only
      rw [if_neg (by decide), inside]
      rfl

theorem scan_dumped_items (items : List Json) (wellSpelled : spelledItems items = true)
    (filled : items ≠ []) (rounds : Nat) (enough : 2 * (dumpsItems items).length < rounds)
    (rest : Str) : scanItems (rounds + 1) (dumpsItems items ++ ']' :: rest) = some (items, rest) := by
  obtain ⟨rounds, rfl⟩ := Nat.exists_eq_succ_of_ne_zero (by omega : rounds ≠ 0)
  match items with
  | [] => contradiction
  | [item] =>
      rw [dumpsItems] at enough ⊢
      simp only [spelledItems, Bool.and_true] at wellSpelled
      have held := scan_dumps item wellSpelled rounds (by omega) (']' :: rest) rfl
      rw [scanItems, held]
      dsimp only
      rw [skip_space_head _ (by decide)]
      rfl
  | item :: next :: more =>
      rw [dumpsItems] at enough ⊢
      simp only [List.length_append, List.length_cons] at enough
      rw [spelledItems, Bool.and_eq_true] at wellSpelled
      have later := scan_dumped_items (next :: more) wellSpelled.2 (by simp) rounds (by omega) rest
      obtain ⟨first, tail, starts, visible, _⟩ := dumped_items_head wellSpelled.2
      have held := scan_dumps item wellSpelled.1 rounds (by omega)
        (',' :: ' ' :: (dumpsItems (next :: more) ++ ']' :: rest)) rfl
      simp only [List.append_assoc, List.cons_append]
      rw [scanItems, held]
      dsimp only
      rw [skip_space_head _ (by decide)]
      have spaced : skipSpace (' ' :: (dumpsItems (next :: more) ++ ']' :: rest)) =
          dumpsItems (next :: more) ++ ']' :: rest := by
        rw [skip_space_blank, starts, List.cons_append, skip_space_head _ visible]
      change (scanItems (rounds + 1) (skipSpace (' ' :: _))).map _ = _
      rw [spaced, later]
      rfl

theorem scan_dumped_entries (entries : List (Str × Json)) (wellSpelled : spelledEntries entries = true)
    (filled : entries ≠ []) (rounds : Nat)
    (enough : 2 * (dumpsEntries entries).length < rounds) (rest : Str) :
    scanEntries (rounds + 1) (dumpsEntries entries ++ Char.ofNat 0x7d :: rest) =
      some (entries, rest) := by
  obtain ⟨rounds, rfl⟩ := Nat.exists_eq_succ_of_ne_zero (by omega : rounds ≠ 0)
  match entries with
  | [] => contradiction
  | [(key, value)] =>
      rw [dumpsEntries] at enough ⊢
      simp only [spelledEntries, Bool.and_true] at wellSpelled
      simp only [List.length_append, List.length_cons] at enough
      have held := scan_dumps value wellSpelled rounds (by omega) (Char.ofNat 0x7d :: rest) rfl
      rw [List.append_assoc, List.cons_append, List.cons_append, scan_entries_key, skip_space_blank,
        skip_space_dumps value wellSpelled, held]
      dsimp only
      rw [skip_space_head _ (by decide)]
      dsimp only
      rw [if_pos rfl]
  | (key, value) :: next :: more =>
      rw [dumpsEntries] at enough ⊢
      rw [spelledEntries, Bool.and_eq_true] at wellSpelled
      simp only [List.length_append, List.length_cons] at enough
      have later := scan_dumped_entries (next :: more) wellSpelled.2 (by simp) rounds (by omega) rest
      obtain ⟨tail, starts⟩ := dumped_entries_head next.1 next.2 more
      have spaced : skipSpace (' ' :: (dumpsEntries (next :: more) ++ Char.ofNat 0x7d :: rest)) =
          dumpsEntries (next :: more) ++ Char.ofNat 0x7d :: rest := by
        rw [skip_space_blank, starts, List.cons_append, skip_space_head _ (by decide)]
      have held := scan_dumps value wellSpelled.1 rounds (by omega)
        (',' :: ' ' :: (dumpsEntries (next :: more) ++ Char.ofNat 0x7d :: rest)) rfl
      rw [List.append_assoc, List.cons_append, List.cons_append, scan_entries_key, skip_space_blank,
        List.append_assoc, skip_space_dumps value wellSpelled.1]
      simp only [List.cons_append]
      rw [held]
      dsimp only
      rw [skip_space_head _ (by decide)]
      dsimp only
      rw [if_neg (by decide), if_pos rfl, spaced, later]
      rfl

end

theorem loads_dumps (value : Json) (wellSpelled : value.spelled = true) :
    loads (dumps value) = some value := by
  have read := scan_dumps value wellSpelled (2 * (dumps value).length) le_rfl [] rfl
  have starts := skip_space_dumps value wellSpelled []
  rw [List.append_nil] at read starts
  rw [loads, starts, read]
  rfl

end Values

section Printable

/-- A character that is written as itself or inside an escape. -/
def Printable (char : Char) : Prop := ' ' ≤ char ∧ char ≤ '~'

instance (char : Char) : Decidable (Printable char) := by
  unfold Printable
  infer_instance

theorem printable_of_all {text : Str} (shown : text.all (fun char => Printable char) = true) :
    ∀ char ∈ text, Printable char :=
  fun char inside => of_decide_eq_true (List.all_eq_true.mp shown char inside)

theorem hex_digit_printable (digit : Nat) : Printable (hexDigit (digit % 16)) := by
  have all : ∀ digit < 16, Printable (hexDigit digit) := by decide
  exact all _ (Nat.mod_lt _ (by decide))

theorem escape_char_printable (char : Char) : ∀ written ∈ escapeChar char, Printable written := by
  have unit : ∀ unit, ∀ written ∈ escapeUnit unit, Printable written := by
    intro unit written inside
    simp only [escapeUnit, hexQuad, List.mem_cons, List.not_mem_nil, or_false] at inside
    rcases inside with rfl | rfl | rfl | rfl | rfl | rfl
    · decide
    · decide
    · exact hex_digit_printable _
    · exact hex_digit_printable _
    · exact hex_digit_printable _
    · exact hex_digit_printable _
  unfold escapeChar
  split
  · exact printable_of_all rfl
  split
  · exact printable_of_all rfl
  split
  · exact printable_of_all rfl
  split
  · exact printable_of_all rfl
  split
  · exact printable_of_all rfl
  split
  · exact printable_of_all rfl
  split
  · exact printable_of_all rfl
  split
  · rename_i printable
    intro written inside
    obtain rfl := List.mem_singleton.mp inside
    exact printable
  · intro written inside
    obtain ⟨code, _, escaped⟩ := List.mem_flatMap.mp inside
    exact unit code written escaped

theorem dumps_string_printable (text : Str) : ∀ written ∈ dumpsString text, Printable written := by
  intro written inside
  simp only [dumpsString, List.mem_cons, List.mem_append, List.mem_flatMap, List.not_mem_nil,
    or_false] at inside
  rcases inside with rfl | ⟨char, _, escaped⟩ | rfl
  · decide
  · exact escape_char_printable char written escaped
  · decide

theorem number_printable {literal : Str} (wellSpelled : spelledNumber literal = true) :
    ∀ written ∈ literal, Printable written := by
  rcases spelled_number_chars wellSpelled with named | ⟨inside, _⟩
  · simp only [namedNumbers, List.mem_cons, List.not_mem_nil, or_false] at named
    rcases named with rfl | rfl | rfl <;> exact printable_of_all rfl
  · intro written inNumber
    have counted := inside written inNumber
    simp only [Json.inNumber, Bool.or_eq_true, List.contains_iff_mem, List.mem_cons,
      List.not_mem_nil, or_false] at counted
    rcases counted with isOne | rfl | rfl | rfl | rfl | rfl
    · have shape := digit_shape isOne
      exact ⟨show 32 ≤ written.toNat by omega, show written.toNat ≤ 126 by omega⟩
    all_goals decide

mutual

theorem dumps_printable (value : Json) (wellSpelled : value.spelled = true) :
    ∀ written ∈ dumps value, Printable written := by
  match value with
  | .null | .bool true | .bool false => exact printable_of_all rfl
  | .number literal => exact number_printable wellSpelled
  | .string text =>
      rw [dumps]
      exact dumps_string_printable text
  | .array items =>
      intro written inside
      simp only [dumps, List.mem_cons, List.mem_append, List.not_mem_nil, or_false] at inside
      rcases inside with rfl | inItems | rfl
      · decide
      · exact dumps_items_printable items wellSpelled written inItems
      · decide
  | .object entries =>
      intro written inside
      simp only [dumps, List.mem_cons, List.mem_append, List.not_mem_nil, or_false] at inside
      rcases inside with rfl | inEntries | rfl
      · decide
      · exact dumps_entries_printable entries wellSpelled written inEntries
      · decide

theorem dumps_items_printable (items : List Json) (wellSpelled : spelledItems items = true) :
    ∀ written ∈ dumpsItems items, Printable written := by
  match items with
  | [] => simp [dumpsItems]
  | [item] =>
      simp only [spelledItems, Bool.and_true] at wellSpelled
      rw [dumpsItems]
      exact dumps_printable item wellSpelled
  | item :: next :: more =>
      rw [spelledItems, Bool.and_eq_true] at wellSpelled
      intro written inside
      simp only [dumpsItems, List.mem_append, List.mem_cons] at inside
      rcases inside with first | rfl | rfl | later
      · exact dumps_printable item wellSpelled.1 written first
      · decide
      · decide
      · exact dumps_items_printable (next :: more) wellSpelled.2 written later

theorem dumps_entries_printable (entries : List (Str × Json))
    (wellSpelled : spelledEntries entries = true) :
    ∀ written ∈ dumpsEntries entries, Printable written := by
  match entries with
  | [] => simp [dumpsEntries]
  | [(key, value)] =>
      simp only [spelledEntries, Bool.and_true] at wellSpelled
      intro written inside
      simp only [dumpsEntries, List.mem_append, List.mem_cons] at inside
      rcases inside with inKey | rfl | rfl | inValue
      · exact dumps_string_printable key written inKey
      · decide
      · decide
      · exact dumps_printable value wellSpelled written inValue
  | (key, value) :: next :: more =>
      rw [spelledEntries, Bool.and_eq_true] at wellSpelled
      intro written inside
      simp only [dumpsEntries, List.mem_append, List.mem_cons] at inside
      rcases inside with inKey | rfl | rfl | inValue | rfl | rfl | later
      · exact dumps_string_printable key written inKey
      · decide
      · decide
      · exact dumps_printable value wellSpelled.1 written inValue
      · decide
      · decide
      · exact dumps_entries_printable (next :: more) wellSpelled.2 written later

end

end Printable

end Json

end Defender.Python
