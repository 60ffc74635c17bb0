import Mathlib.Algebra.Ring.Nat
import Mathlib.Data.List.Sort
import Mathlib.Data.List.DropRight
import Defender.Library.Regex
import Defender.Library.Delimited

/-!
# Python text

Strings are lists of code points. The methods follow the interpreter's: white
space is what `str.isspace` accepts, `splitlines` breaks at the ten line
boundaries and joins CR LF, `split`, `partition` and `replace` cut at the
leftmost occurrence. Character properties that come from the interpreter's
Unicode tables, which differ between its versions, are the fields of
`UnicodeDatabase`.
-/

namespace Defender.Python

open Defender.Library.Regex Defender.Library.Delimited

abbrev Str := List Char

instance : Coe String Str := ⟨String.toList⟩

instance lawfulText : LawfulBEq Str := inferInstance

instance lawfulTexts : LawfulBEq (Str × Str) := inferInstance

instance decidableEvery {holds : Char → Prop} [DecidablePred holds] (text : Str) :
    Decidable (∀ char ∈ text, holds char) := List.decidableBAll holds text

/-- The tables behind `isalnum`, `isprintable`, `lower`, the decimal digits and
the general categories Cc, Cf and Cs. -/
class UnicodeDatabase where
  alnum : Char → Bool
  printable : Char → Bool
  decimal : Char → Option Nat
  lower : Str → Str
  invisible : Char → Bool

@[reducible] def asciiDatabase : UnicodeDatabase where
  alnum char := char.isAlphanum
  printable char := 32 ≤ char.toNat && char.toNat < 127
  decimal char := if char.isDigit then some (char.toNat - 48) else none
  lower text := text.map Char.toLower
  invisible char := char.toNat < 32 || char.toNat == 127

def isSpace (char : Char) : Bool :=
  let code := char.toNat
  (9 ≤ code && code ≤ 13) || (28 ≤ code && code ≤ 32) || code == 0x85 || code == 0xa0 ||
    code == 0x1680 || (0x2000 ≤ code && code ≤ 0x200a) || code == 0x2028 ||
    code == 0x2029 || code == 0x202f || code == 0x205f || code == 0x3000

/-- The single characters `splitlines` ends a line at. -/
def isLineBreak (char : Char) : Bool :=
  let code := char.toNat
  (10 ≤ code && code ≤ 13) || (0x1c ≤ code && code ≤ 0x1e) || code == 0x85 ||
    code == 0x2028 || code == 0x2029

def lstrip (text : Str) : Str := text.dropWhile isSpace

def rstrip (text : Str) : Str := text.rdropWhile isSpace

def strip (text : Str) : Str := rstrip (lstrip text)

/-- Both ends freed of the listed characters, as `text.strip(chars)`. -/
def stripChars (chars : Str) (text : Str) : Str :=
  (text.dropWhile (chars.contains ·)).rdropWhile (chars.contains ·)

def rstripChars (chars : Str) (text : Str) : Str := text.rdropWhile (chars.contains ·)

def isBlank (text : Str) : Bool := text.all isSpace

def splitlinesFrom : Str → Bool → Str → List Str
  | line, _, [] => if line = [] then [] else [line]
  | line, afterReturn, char :: rest =>
      if afterReturn && char == '\n' then splitlinesFrom [] false rest
      else if isLineBreak char then line :: splitlinesFrom [] (char == '\r') rest
      else splitlinesFrom (line ++ [char]) false rest

def splitlines (text : Str) : List Str := splitlinesFrom [] false text

/-- `text.split(sep)` for a one-character separator. -/
def splitOn (separator : Char) : Str → List Str
  | [] => [[]]
  | char :: rest =>
      if char = separator then [] :: splitOn separator rest
      else
        match splitOn separator rest with
        | [] => [[char]]
        | first :: others => (char :: first) :: others

/-- `text.split()`: maximal runs of characters that are no white space. -/
def splitWhitespace (text : Str) : List Str :=
  (text.splitOnP isSpace).filter (· ≠ [])

def startsWith (start text : Str) : Bool := start.isPrefixOf text

def endsWith (ending text : Str) : Bool := ending.isSuffixOf text

def contains (word text : Str) : Bool := (findWord word text).isSome

/-- `text.partition(word)`; the middle part says whether the word was found. -/
def partition (word text : Str) : Str × Bool × Str :=
  match findWord word text with
  | none => (text, false, [])
  | some (before, after) => (before, true, after)

def rpartition (word text : Str) : Str × Bool × Str :=
  match findWord word.reverse text.reverse with
  | none => ([], false, text)
  | some (after, before) => (before.reverse, true, after.reverse)

def replaceFrom (word new : Str) : Nat → Str → Str
  | _, [] => []
  | skip + 1, _ :: rest => replaceFrom word new skip rest
  | 0, char :: rest =>
      if word.isPrefixOf (char :: rest) then
        new ++ replaceFrom word new (word.length - 1) rest
      else char :: replaceFrom word new 0 rest

/-- `text.replace(word, new)` for a word that is not empty. -/
def replace (word new text : Str) : Str := replaceFrom word new 0 text

def countFrom (word : Str) : Nat → Str → Nat
  | _, [] => 0
  | skip + 1, _ :: rest => countFrom word skip rest
  | 0, char :: rest =>
      if word.isPrefixOf (char :: rest) then countFrom word (word.length - 1) rest + 1
      else countFrom word 0 rest

/-- `text.count(word)` for a word that is not empty: occurrences do not overlap. -/
def count (word text : Str) : Nat := countFrom word 0 text

def join (separator : Str) : List Str → Str
  | [] => []
  | [single] => single
  | first :: others => first ++ separator ++ join separator others

def message (pieces : List Str) : Str := pieces.flatten

def textLe : Str → Str → Bool
  | [], _ => true
  | _ :: _, [] => false
  | left :: lefts, right :: rights =>
      left.toNat < right.toNat || (left.toNat == right.toNat && textLe lefts rights)

def sorted (items : List Str) : List Str :=
  items.insertionSort fun left right => textLe left right = true

def enroll {α : Type*} [DecidableEq α] (known : List α) (item : α) : List α :=
  if item ∈ known then known else known ++ [item]

/-- The distinct items in the order first met, as `dict.fromkeys` keeps them. -/
def dedup {α : Type*} [DecidableEq α] (items : List α) : List α := items.foldl enroll []

def isAsciiUpper (char : Char) : Bool := char.isUpper

def isAsciiAlnum (char : Char) : Bool := char.isAlphanum

def isLower (char : Char) : Bool := char.isLower

def decimalText (number : Nat) : Str := Nat.toDigits 10 number

def showInt (number : Int) : Str :=
  if number < 0 then '-' :: decimalText number.natAbs else decimalText number.natAbs

section Tables

variable [UnicodeDatabase]

def isWord (char : Char) : Bool := UnicodeDatabase.alnum char || char == '_'

def isDecimal (char : Char) : Bool := (UnicodeDatabase.decimal char).isSome

def lower (text : Str) : Str := UnicodeDatabase.lower text

def hexDigits (width number : Nat) : Str :=
  let digits := Nat.toDigits 16 number
  List.replicate (width - digits.length) '0' ++ digits

def reprChar (quote char : Char) : Str :=
  if char == quote || char == '\\' then ['\\', char]
  else if char == '\n' then "\\n"
  else if char == '\r' then "\\r"
  else if char == '\t' then "\\t"
  else if UnicodeDatabase.printable char then [char]
  else if char.toNat < 0x100 then "\\x" ++ hexDigits 2 char.toNat
  else if char.toNat < 0x10000 then "\\u" ++ hexDigits 4 char.toNat
  else "\\U" ++ hexDigits 8 char.toNat

/-- `repr` of a string: single quotes unless only those occur in it. -/
def reprText (text : Str) : Str :=
  let quote := if text.contains '\'' && !text.contains '"' then '"' else '\''
  quote :: text.flatMap (reprChar quote) ++ [quote]

def reprOption : Option Str → Str
  | none => "None"
  | some text => reprText text

def reprList (items : List Str) : Str :=
  "[" ++ join ", " (items.map reprText) ++ "]"

/-- The digits `int()` reads: single underscores may stand between them. -/
def digitsValue : Str → Option Nat → Option Nat
  | [], value => value
  | char :: rest, value =>
      match UnicodeDatabase.decimal char with
      | some digit => digitsValue rest (some (value.getD 0 * 10 + digit))
      | none =>
          if char == '_' && value.isSome && (rest.head?.map isDecimal).getD false then
            digitsValue rest value
          else none

/-- What `int()` passes around a number: white space, less the four separators
from U+001C on. -/
def isIntSpace (char : Char) : Bool :=
  isSpace char && !decide (0x1c ≤ char.toNat ∧ char.toNat ≤ 0x1f)

/-- `int(text)`, `none` where it raises `ValueError`; the interpreter refuses
more than 4300 digits. -/
def parseInt (text : Str) : Option Int :=
  let body := (text.dropWhile isIntSpace).rdropWhile isIntSpace
  let negative := body.head? == some '-'
  let digits := if negative || body.head? == some '+' then body.tail else body
  if (digits.filter isDecimal).length > 4300 then none
  else (digitsValue digits none).map fun value => if negative then -(value : Int) else value

end Tables

section Laws

theorem split_on_ne_nil (separator : Char) (text : Str) : splitOn separator text ≠ [] := by
  cases text with
  | nil => simp [splitOn]
  | cons head tail =>
      simp only [splitOn]
      split
      · simp
      · split <;> simp

theorem split_on_append (separator : Char) (left right : Str) :
    splitOn separator (left ++ separator :: right) =
      splitOn separator left ++ splitOn separator right := by
  induction left with
  | nil => simp [splitOn]
  | cons head tail ih =>
      rw [List.cons_append, splitOn, splitOn, ih]
      split
      · rfl
      · cases cut : splitOn separator tail with
        | nil => exact absurd cut (split_on_ne_nil _ _)
        | cons first others => rfl

theorem split_on_word {separator : Char} {text : Str} (fresh : separator ∉ text) :
    splitOn separator text = [text] := by
  induction text with
  | nil => rfl
  | cons first rest ih =>
    rw [List.mem_cons, not_or] at fresh
    rw [splitOn, if_neg (Ne.symm fresh.1), ih fresh.2]

theorem join_split_on (separator : Char) (text : Str) :
    join [separator] (splitOn separator text) = text := by
  induction text with
  | nil => rfl
  | cons head tail ih =>
      rw [splitOn]
      obtain ⟨first, others, same⟩ := List.exists_cons_of_ne_nil (split_on_ne_nil separator tail)
      rw [same] at ih ⊢
      split
      · rename_i feed
        rw [join, ih, feed]
        · rfl
        · simp
      · dsimp only
        cases others with
        | nil => rw [join] at ih ⊢; rw [ih]
        | cons next more =>
            rw [join] at ih ⊢
            · rw [← ih]
              rfl
            · simp
            · simp

theorem split_on_fresh (separator : Char) (text : Str) :
    ∀ part ∈ splitOn separator text, separator ∉ part := by
  induction text with
  | nil => simp [splitOn]
  | cons head tail ih =>
      rw [splitOn]
      split
      · exact List.forall_mem_cons.mpr ⟨List.not_mem_nil, ih⟩
      · rename_i other
        cases cut : splitOn separator tail with
        | nil => exact absurd cut (split_on_ne_nil _ _)
        | cons first others =>
            rw [cut, List.forall_mem_cons] at ih
            exact List.forall_mem_cons.mpr
              ⟨List.not_mem_cons_of_ne_of_not_mem (Ne.symm other) ih.1, ih.2⟩

theorem split_on_total (separator : Char) (text : Str) :
    ((splitOn separator text).map fun line => line.length + 1).sum = text.length + 1 := by
  induction text with
  | nil => rfl
  | cons head tail ih =>
      rw [splitOn]
      split
      · simp [ih]
        omega
      · cases cut : splitOn separator tail with
        | nil => exact absurd cut (split_on_ne_nil _ _)
        | cons first others =>
            rw [cut] at ih
            simp only [List.map_cons, List.sum_cons, List.length_cons] at ih ⊢
            omega

theorem join_cons (separator first : Str) {others : List Str} (more : others ≠ []) :
    join separator (first :: others) = first ++ separator ++ join separator others := by
  cases others with
  | nil => exact absurd rfl more
  | cons _ _ => rfl

theorem join_append (separator : Str) {early late : List Str} (some : early ≠ [])
    (more : late ≠ []) :
    join separator (early ++ late) = join separator early ++ separator ++ join separator late := by
  induction early with
  | nil => exact absurd rfl some
  | cons first others ih =>
      cases others with
      | nil =>
          obtain ⟨next, rest, rfl⟩ := List.exists_cons_of_ne_nil more
          rfl
      | cons next rest =>
          rw [List.cons_append, join_cons _ _ (by simp), join_cons _ _ (by simp), ih (by simp)]
          simp only [List.append_assoc]

theorem split_on_join {separator : Char} {parts : List Str} (some : parts ≠ [])
    (fresh : ∀ part ∈ parts, separator ∉ part) :
    splitOn separator (join [separator] parts) = parts := by
  induction parts with
  | nil => exact absurd rfl some
  | cons first others ih =>
      have alone := split_on_word (fresh first List.mem_cons_self)
      cases others with
      | nil => exact alone
      | cons next rest =>
          rw [join_cons _ _ (by simp), List.append_assoc, List.singleton_append, split_on_append,
            alone, ih (by simp) fun part among => fresh part (List.mem_cons_of_mem _ among)]
          rfl

/-- `partition` at one character cuts at the first one. -/
theorem contains_infix_iff (word text : Str) : contains word text = true ↔ word <:+: text := by
  unfold contains
  rw [Option.isSome_iff_ne_none, ne_eq, find_word_none_iff, not_not]

theorem partition_char {separator : Char} {before : Str} (fresh : separator ∉ before)
    (after : Str) : partition [separator] (before ++ separator :: after) = (before, true, after) := by
  have found : findWord [separator] (before ++ separator :: after) = some (before, after) := by
    apply find_word_eq
    · simp
    · intro left right split
      by_contra shorter
      have within : separator ∈ before := by
        have reads := congrArg (fun text : Str => text[left.length]?) split
        simp only [List.append_assoc, List.getElem?_append_right (Nat.le_refl _), Nat.sub_self,
          List.getElem?_append_left (Nat.not_le.mp shorter)] at reads
        exact List.mem_of_getElem? reads
      exact fresh within
  unfold partition
  rw [found]

theorem partition_absent {separator : Char} {text : Str} (fresh : separator ∉ text) :
    partition [separator] text = (text, false, []) := by
  have absent : findWord [separator] text = none := by
    rw [find_word_none_iff]
    intro occurs
    exact fresh (occurs.subset List.mem_cons_self)
  unfold partition
  rw [absent]

/-- What `partition` at one character leaves of a text. -/
theorem partition_cases (separator : Char) (text : Str) :
    (separator ∉ text ∧ partition [separator] text = (text, false, [])) ∨
      ∃ before after, text = before ++ separator :: after ∧ separator ∉ before ∧
        partition [separator] text = (before, true, after) := by
  by_cases met : separator ∈ text
  · obtain ⟨before, after, same, fresh⟩ := List.eq_append_cons_of_mem met
    exact .inr ⟨before, after, same, fresh, same ▸ partition_char fresh after⟩
  · exact .inl ⟨met, partition_absent met⟩

/-- `rpartition` at one character cuts in front of the last one. -/
theorem rpartition_char (separator : Char) (text : Str) :
    (separator ∉ text ∧ (rpartition [separator] text).1 = []) ∨
      ∃ after, text = (rpartition [separator] text).1 ++ separator :: after ∧
        separator ∉ after := by
  unfold rpartition
  cases found : findWord [separator].reverse text.reverse with
  | none =>
      left
      refine ⟨?_, rfl⟩
      intro member
      have occurs : [separator].reverse <:+: text.reverse := by
        obtain ⟨before, after, same⟩ := List.append_of_mem member
        exact ⟨after.reverse, before.reverse, by simp [same]⟩
      exact find_word_none_iff.mp found occurs
  | some cut =>
      right
      obtain ⟨split, leftmost⟩ := find_word_sound found
      refine ⟨cut.1.reverse, ?_, ?_⟩
      · have whole := congrArg List.reverse split
        simpa using whole
      · intro member
        obtain ⟨before, after, same⟩ := List.append_of_mem (List.mem_reverse.mp member)
        have shorter := leftmost before (after ++ separator :: cut.2)
          (by rw [split, same]; simp)
        rw [same] at shorter
        simp only [List.length_append, List.length_cons] at shorter
        omega

theorem split_on_starts {separator : Char} {word text : Str} (fresh : separator ∉ word)
    (starts : word <+: text) :
    ∃ first others, splitOn separator text = first :: others ∧ word <+: first := by
  induction text generalizing word with
  | nil => exact ⟨[], [], rfl, starts⟩
  | cons head tail ih =>
      cases word with
      | nil =>
          cases pieces : splitOn separator (head :: tail) with
          | nil => exact absurd pieces (split_on_ne_nil _ _)
          | cons first others => exact ⟨first, others, rfl, List.nil_prefix⟩
      | cons letter letters =>
          rw [List.mem_cons, not_or] at fresh
          rcases List.cons_prefix_cons.mp starts with ⟨rfl, further⟩
          rcases ih fresh.2 further with ⟨first, others, pieces, begins⟩
          refine ⟨letter :: first, others, ?_, List.cons_prefix_cons.mpr ⟨rfl, begins⟩⟩
          simp only [splitOn, if_neg (Ne.symm fresh.1), pieces]

theorem split_on_follows {separator : Char} {word text : Str} (fresh : separator ∉ word)
    (occurs : separator :: word <:+: text) :
    ∃ piece ∈ (splitOn separator text).tail, word <+: piece := by
  induction text with
  | nil => simp at occurs
  | cons head tail ih =>
      rw [List.infix_cons_iff, List.cons_prefix_cons] at occurs
      by_cases here : head = separator
      · rw [splitOn, if_pos here, List.tail_cons]
        rcases occurs with ⟨_, starts⟩ | further
        · rcases split_on_starts fresh starts with ⟨first, others, pieces, begins⟩
          exact ⟨first, by simp [pieces], begins⟩
        · rcases ih further with ⟨piece, member, begins⟩
          exact ⟨piece, List.mem_of_mem_tail member, begins⟩
      · rcases occurs with ⟨same, _⟩ | further
        · exact absurd same.symm here
        · rcases ih further with ⟨piece, member, begins⟩
          cases pieces : splitOn separator tail with
          | nil => exact absurd pieces (split_on_ne_nil _ _)
          | cons first others =>
              rw [pieces] at member
              rw [splitOn, if_neg here, pieces]
              exact ⟨piece, member, begins⟩

theorem replace_absent {first : Char} {others new text : Str} (absent : first ∉ text) :
    replace (first :: others) new text = text := by
  unfold replace
  induction text with
  | nil => rfl
  | cons head tail ih =>
      rw [List.mem_cons, not_or] at absent
      have differs : (first :: others).isPrefixOf (head :: tail) = false := by
        simp [List.isPrefixOf, absent.1]
      rw [replaceFrom, differs, if_neg Bool.false_ne_true, ih absent.2]

theorem splitlines_feed (line before rest : Str) (afterReturn : Bool) :
    splitlinesFrom line afterReturn (before ++ '\n' :: rest) =
      splitlinesFrom line afterReturn (before ++ ['\n']) ++ splitlines rest := by
  induction before generalizing line afterReturn with
  | nil =>
      rw [List.nil_append, List.nil_append, splitlinesFrom, splitlinesFrom]
      split
      · rfl
      · rw [if_pos (by decide), if_pos (by decide)]
        rfl
  | cons char more ih =>
      rw [List.cons_append, List.cons_append, splitlinesFrom, splitlinesFrom]
      split
      · exact ih [] false
      · split
        · rw [ih [] (char == '\r'), List.cons_append]
        · exact ih (line ++ [char]) false

theorem splitlines_line {text : Str} (unbroken : ∀ char ∈ text, isLineBreak char = false)
    (line rest : Str) :
    splitlinesFrom line false (text ++ '\n' :: rest) = (line ++ text) :: splitlines rest := by
  induction text generalizing line with
  | nil =>
      rw [List.nil_append, splitlinesFrom, if_neg (by simp), if_pos (by decide), List.append_nil]
      rfl
  | cons char more ih =>
      have plain := unbroken char List.mem_cons_self
      rw [List.cons_append, splitlinesFrom, if_neg (by simp), plain, if_neg Bool.false_ne_true,
        ih fun other inside => unbroken other (List.mem_cons_of_mem _ inside)]
      simp

theorem sorted_perm (items : List Str) : (sorted items).Perm items :=
  List.perm_insertionSort _ items

theorem mem_enroll_iff {α : Type*} [DecidableEq α] (known : List α) (item other : α) :
    other ∈ enroll known item ↔ other ∈ known ∨ other = item := by
  unfold enroll
  split
  · rename_i met
    constructor
    · exact .inl
    · rintro (held | rfl)
      · exact held
      · exact met
  · simp

theorem mem_enrolled_iff {α : Type*} [DecidableEq α] (items known : List α) (other : α) :
    other ∈ items.foldl enroll known ↔ other ∈ known ∨ other ∈ items := by
  induction items generalizing known with
  | nil => simp
  | cons item rest ih => rw [List.foldl_cons, ih, mem_enroll_iff, List.mem_cons, or_assoc]

theorem enroll_nodup {α : Type*} [DecidableEq α] {known : List α} (distinct : known.Nodup)
    (item : α) : (enroll known item).Nodup := by
  unfold enroll
  split
  · exact distinct
  · rename_i unmet
    simpa [List.nodup_append, unmet] using ⟨distinct, fun other met same => unmet (same ▸ met)⟩

theorem dedup_nodup {α : Type*} [DecidableEq α] (items : List α) : (dedup items).Nodup := by
  have general : ∀ known : List α, known.Nodup → (items.foldl enroll known).Nodup := by
    induction items with
    | nil => exact fun known distinct => distinct
    | cons item rest ih => exact fun known distinct => ih _ (enroll_nodup distinct item)
  exact general [] List.nodup_nil

theorem rstrip_space {char : Char} (space : isSpace char = true) (text : Str) :
    rstrip (text ++ [char]) = rstrip text := by
  unfold rstrip
  rw [List.rdropWhile_concat, if_pos space]

theorem strip_space {char : Char} (space : isSpace char = true) (text : Str) :
    strip (text ++ [char]) = strip text := by
  unfold strip lstrip
  rw [List.dropWhile_append]
  split
  · rename_i blank
    rw [List.isEmpty_iff.mp blank, List.dropWhile_cons_of_pos space]
    rfl
  · exact rstrip_space space _

/-- What `rstrip` leaves, and the white space it takes away. -/
theorem rstrip_split (text : Str) :
    ∃ blank, text = rstrip text ++ blank ∧ blank.all isSpace = true := by
  refine ⟨text.rtakeWhile isSpace, List.rdropWhile_append_rtakeWhile.symm, ?_⟩
  rw [List.all_eq_true]
  intro char inside
  exact List.mem_rtakeWhile_imp inside

end Laws

end Defender.Python
