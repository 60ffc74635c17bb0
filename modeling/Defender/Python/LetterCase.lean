import Defender.Python.Text

/-!
# Lower case

`str.lower` maps each character by the full lower case mapping, but a capital sigma by where it
stands: at the end of a word it becomes the final small sigma. Whether it does is asked of the
nearest characters on either side that are not case-ignorable. `str.casefold` takes each character
by a table of its own, and texts that differ only in letter case are those it makes one. What the
tables hold in every version of the interpreter is stated with them.
-/

namespace Defender.Python

def capitalSigma : Char := 'Σ'

def smallSigma : Char := 'σ'

def finalSigma : Char := 'ς'

def sentenceMarks : Str := ['"', '\'', '.']

section Lower

variable (lowerChar : Char → Str) (cased ignorable : Char → Bool)

/-- Whether the nearest character that is not ignorable is a letter. -/
def nearCased (text : Str) : Bool := (text.dropWhile ignorable).head?.any cased

/-- Whether a capital sigma ends its word; what stands before it is given nearest first. -/
def endsWord (before after : Str) : Bool :=
  nearCased cased ignorable before && !nearCased cased ignorable after

def lowered (before : Str) (char : Char) (after : Str) : Str :=
  if char = capitalSigma then
    if endsWord cased ignorable before after then [finalSigma] else [smallSigma]
  else lowerChar char

def readsFinal (before : Str) (char : Char) (after : Str) : Bool :=
  char == finalSigma || char == capitalSigma && endsWord cased ignorable before after

def lowerFrom : Str → Str → Str
  | _, [] => []
  | before, char :: after =>
      lowered lowerChar cased ignorable before char after ++ lowerFrom (char :: before) after

end Lower

/-- Neither white space nor a sentence's mark nor a digit. -/
def isInner [UnicodeDatabase] (char : Char) : Bool :=
  !isSpace char && !sentenceMarks.contains char && !isDecimal char

/-- The tables with those behind `lower` and `casefold`. A character that changes is a letter and
changes into inner characters, and what letters change into stays as it is; what folds is an inner
character and folds into inner characters. -/
class CasedDatabase extends UnicodeDatabase where
  lowerChar : Char → Str
  foldChar : Char → Str
  cased : Char → Bool
  ignorable : Char → Bool
  lower_eq : ∀ text, lower text = lowerFrom lowerChar cased ignorable [] text
  filled : ∀ char, lowerChar char ≠ []
  changed : ∀ char, lowerChar char = [char] ∨
    cased char = true ∧ ∀ low ∈ lowerChar char, isInner low = true
  stable : ∀ char, ∀ low ∈ lowerChar char, lowerChar low = [low] ∧ low ≠ capitalSigma
  foldFilled : ∀ char, foldChar char ≠ []
  foldChanged : ∀ char, foldChar char = [char] ∨
    isInner char = true ∧ ∀ fold ∈ foldChar char, isInner fold = true
  sigma : lowerChar capitalSigma = [smallSigma]
  final : lowerChar finalSigma = [finalSigma] ∧ isInner finalSigma = true
  letters : ∀ char, cased char = true → isInner char = true
  spaces : ∀ char, isSpace char = true → ignorable char = false
  undigited : ∀ char, isSpace char = true ∨ char ∈ sentenceMarks → (decimal char).isSome = false

section Context

variable {cased ignorable : Char → Bool}

theorem near_append {tail : Str} (quiet : nearCased cased ignorable tail = false) (text : Str) :
    nearCased cased ignorable (text ++ tail) = nearCased cased ignorable text := by
  induction text with
  | nil => exact quiet
  | cons char text ih =>
      unfold nearCased at ih ⊢
      rw [List.cons_append, List.dropWhile_cons, List.dropWhile_cons]
      split
      · exact ih
      · rfl

theorem near_uncased {text : Str} (uncased : ∀ char ∈ text, cased char = false) :
    nearCased cased ignorable text = false := by
  unfold nearCased
  cases found : (text.dropWhile ignorable).head? with
  | none => rfl
  | some char =>
      have inside : char ∈ text :=
        (List.dropWhile_suffix ignorable).subset (List.mem_of_head? found)
      exact uncased char inside

theorem near_barrier {char : Char} (uncased : cased char = false)
    (barred : ignorable char = false) (rest : Str) :
    nearCased cased ignorable (char :: rest) = false := by
  simp [nearCased, barred, uncased]

variable (lowerChar : Char → Str)

theorem lower_from_before {tail : Str} (quiet : nearCased cased ignorable tail = false)
    (before text : Str) : lowerFrom lowerChar cased ignorable (before ++ tail) text =
      lowerFrom lowerChar cased ignorable before text := by
  induction text generalizing before with
  | nil => rfl
  | cons char text ih =>
      have further := ih (char :: before)
      rw [List.cons_append] at further
      have context : endsWord cased ignorable (before ++ tail) text =
          endsWord cased ignorable before text := by
        rw [endsWord, endsWord, near_append quiet]
      rw [lowerFrom, lowerFrom, further, lowered, lowered, context]

theorem lower_from_append {tail : Str} (quiet : nearCased cased ignorable tail = false)
    (before text : Str) : lowerFrom lowerChar cased ignorable before (text ++ tail) =
      lowerFrom lowerChar cased ignorable before text ++
        lowerFrom lowerChar cased ignorable (text.reverse ++ before) tail := by
  induction text generalizing before with
  | nil => rfl
  | cons char text ih =>
      have context : endsWord cased ignorable before (text ++ tail) =
          endsWord cased ignorable before text := by
        rw [endsWord, endsWord, near_append quiet]
      rw [List.cons_append, lowerFrom, lowerFrom, ih, List.append_assoc, List.reverse_cons,
        List.append_assoc, List.singleton_append, lowered, lowered, context]

end Context

section Laws

variable [database : CasedDatabase]

open CasedDatabase

/-- `text.lower()` behind what was read before it. -/
abbrev lowerAfter (before text : Str) : Str := lowerFrom lowerChar cased ignorable before text

theorem lower_unfold (text : Str) : lower text = lowerAfter [] text := lower_eq text

theorem sigma_cased : cased capitalSigma = true := by
  rcases changed capitalSigma with same | ⟨letter, -⟩
  · rw [sigma] at same
    exact absurd same (by decide)
  · exact letter

theorem uncased_of_outer {char : Char} (outer : isInner char = false) : cased char = false := by
  by_contra letter
  rw [letters char (by simpa using letter)] at outer
  cases outer

theorem lower_char_uncased {char : Char} (uncased : cased char = false) :
    lowerChar char = [char] := by
  rcases changed char with same | ⟨letter, -⟩
  · exact same
  · rw [uncased] at letter
    cases letter

theorem lowered_uncased {char : Char} (uncased : cased char = false) (before after : Str) :
    lowered lowerChar cased ignorable before char after = [char] := by
  have notSigma : char ≠ capitalSigma := by
    rintro rfl
    rw [sigma_cased] at uncased
    cases uncased
  rw [lowered, if_neg notSigma, lower_char_uncased uncased]

theorem lower_from_uncased {text : Str} (uncased : ∀ char ∈ text, cased char = false)
    (before : Str) : lowerAfter before text = text := by
  induction text generalizing before with
  | nil => rfl
  | cons char text ih =>
      rw [lowerAfter, lowerFrom, lowered_uncased (uncased char List.mem_cons_self)]
      rw [← lowerAfter, ih fun next member => uncased next (List.mem_cons_of_mem _ member)]
      rfl

/-- What stands around a text and holds no letter changes nothing of it. -/
theorem lower_wrapped {left right : Str} (before : ∀ char ∈ left, cased char = false)
    (behind : ∀ char ∈ right, cased char = false) (text : Str) :
    lower (left ++ text ++ right) = left ++ lower text ++ right := by
  have start : nearCased cased ignorable left.reverse = false :=
    near_uncased fun char member => before char (List.mem_reverse.mp member)
  have opened : ∀ text, lowerAfter [] (left ++ text) = left ++ lowerAfter [] text := by
    intro text
    have general : ∀ read, lowerAfter read (left ++ text) =
        left ++ lowerAfter (left.reverse ++ read) text := by
      clear start
      induction left with
      | nil => exact fun _ => rfl
      | cons char left ih =>
          intro read
          have rest := ih (fun next member => before next (List.mem_cons_of_mem _ member))
            (char :: read)
          rw [List.cons_append, lowerAfter, lowerFrom,
            lowered_uncased (before char List.mem_cons_self), ← lowerAfter, rest]
          simp
    rw [general, List.append_nil]
    have alone := lower_from_before lowerChar start [] text
    rw [List.nil_append] at alone
    rw [lowerAfter, alone]
  have ending : nearCased cased ignorable right = false := near_uncased behind
  have closed := lower_from_append lowerChar ending [] (left ++ text)
  rw [lower_unfold, lower_unfold, lowerAfter, closed, ← lowerAfter, ← lowerAfter,
    lower_from_uncased behind, opened]

theorem lower_space {space : Char} (isOne : isSpace space = true) (text rest : Str) :
    lower (text ++ space :: rest) = lower text ++ space :: lower rest := by
  have uncased : cased space = false := uncased_of_outer (by simp [isInner, isOne])
  have barrier := fun more => near_barrier uncased (spaces space isOne) more
  have cut := lower_from_append lowerChar (barrier rest) [] text
  have alone := lower_from_before lowerChar (barrier text.reverse) [] rest
  rw [List.nil_append] at alone
  rw [lower_unfold, lower_unfold, lower_unfold, lowerAfter, cut, lowerFrom, List.append_nil,
    lowered_uncased uncased, alone, List.singleton_append]

theorem mem_lowered {char low : Char} {before after : Str}
    (inside : low ∈ lowered lowerChar cased ignorable before char after) :
    low ∈ lowerChar char ∨ char = capitalSigma ∧ low = finalSigma := by
  unfold lowered at inside
  split at inside
  · rename_i isSigma
    split at inside
    · exact .inr ⟨isSigma, List.mem_singleton.mp inside⟩
    · left
      rw [isSigma, sigma]
      exact inside
  · exact .inl inside

theorem lowered_filled (char : Char) (before after : Str) :
    lowered lowerChar cased ignorable before char after ≠ [] := by
  unfold lowered
  split
  · split <;> simp
  · exact filled char

theorem lowered_inner {char : Char} (letter : cased char = true) (before after : Str) :
    ∀ low ∈ lowered lowerChar cased ignorable before char after, isInner low = true := by
  intro low inside
  rcases mem_lowered inside with lowering | ⟨-, isFinal⟩
  · rcases changed char with same | ⟨-, inner⟩
    · rw [same] at lowering
      rw [List.mem_singleton.mp lowering]
      exact letters char letter
    · exact inner low lowering
  · rw [isFinal]
    exact final.2

theorem mem_lower_stable {text : Str} {low : Char} (inside : low ∈ lower text) :
    lowerChar low = [low] ∧ low ≠ capitalSigma := by
  have general : ∀ before, low ∈ lowerAfter before text →
      lowerChar low = [low] ∧ low ≠ capitalSigma := by
    clear inside
    induction text with
    | nil => exact fun _ none => nomatch none
    | cons char text ih =>
        intro before inside
        rw [lowerAfter, lowerFrom, List.mem_append] at inside
        rcases inside with here | later
        · rcases mem_lowered here with low | ⟨-, rfl⟩
          · exact stable char _ low
          · exact ⟨final.1, by decide⟩
        · exact ih _ later
  rw [lower_unfold] at inside
  exact general [] inside

theorem lower_of_stable {text : Str}
    (settled : ∀ char ∈ text, lowerChar char = [char] ∧ char ≠ capitalSigma) :
    lower text = text := by
  have general : ∀ before, lowerAfter before text = text := by
    induction text with
    | nil => exact fun _ => rfl
    | cons char text ih =>
        intro before
        obtain ⟨same, notSigma⟩ := settled char List.mem_cons_self
        rw [lowerAfter, lowerFrom, lowered, if_neg notSigma, same, ← lowerAfter,
          ih fun next member => settled next (List.mem_cons_of_mem _ member)]
        rfl
  rw [lower_unfold, general]

end Laws

section Letters

variable [database : CasedDatabase]

open CasedDatabase

def casefold (text : Str) : Str := text.flatMap foldChar

/-- The small letters of a text: a sigma is a final one where it stands as one or ends its word as a
capital. -/
def smallLetters : Str → Str → Str
  | _, [] => []
  | before, char :: after =>
      (if readsFinal cased ignorable before char after then [finalSigma] else lowerChar char) ++
        smallLetters (char :: before) after

theorem lowered_small (before : Str) (char : Char) (after : Str) :
    lowered lowerChar cased ignorable before char after =
      if readsFinal cased ignorable before char after then [finalSigma] else lowerChar char := by
  unfold lowered readsFinal
  by_cases isCapital : char = capitalSigma
  · have noFinal : (capitalSigma == finalSigma) = false := by decide
    rw [if_pos isCapital, isCapital, sigma, noFinal]
    simp
  · rw [if_neg isCapital]
    by_cases isFinal : char = finalSigma
    · rw [isFinal, final.1]
      simp
    · simp [isCapital, isFinal]

theorem lower_small (text : Str) : lower text = smallLetters [] text := by
  have general : ∀ before, lowerAfter before text = smallLetters before text := by
    induction text with
    | nil => exact fun _ => rfl
    | cons char text ih =>
        intro before
        rw [lowerAfter, lowerFrom, lowered_small, ← lowerAfter, ih, smallLetters]
  rw [lower_unfold, general]

end Letters

section Greek

/-- The capitals of ASCII and of the Greek alphabet. -/
def isCapital (char : Char) : Bool :=
  let code := char.toNat
  (65 ≤ code && code ≤ 90) || (0x391 ≤ code && code ≤ 0x3a9 && code != 0x3a2)

def microSign : Char := '\u00b5'

def isSmall (char : Char) : Bool :=
  let code := char.toNat
  (97 ≤ code && code ≤ 122) || (0x3b1 ≤ code && code ≤ 0x3c9) || char == microSign

def smallLetter (char : Char) : Char := if isCapital char then Char.ofNat (char.toNat + 32) else char

/-- The final sigma and the micro sign are small letters that fold into others. -/
def foldedLetter (char : Char) : Char :=
  if char = finalSigma then smallSigma
  else if char = microSign then '\u03bc'
  else smallLetter char

theorem small_letter_code {char : Char} (capital : isCapital char = true) :
    (smallLetter char).toNat = char.toNat + 32 := by
  have valid : (char.toNat + 32).isValidChar := by
    simp only [isCapital, Bool.or_eq_true, Bool.and_eq_true, decide_eq_true_eq] at capital
    exact .inl (by omega)
  unfold smallLetter Char.ofNat
  rw [if_pos capital, dif_pos valid]
  rfl

theorem small_letter_small {char : Char} (capital : isCapital char = true) :
    isSmall (smallLetter char) = true := by
  have code := small_letter_code capital
  simp only [isCapital, Bool.or_eq_true, Bool.and_eq_true, decide_eq_true_eq] at capital
  simp only [isSmall, code, Bool.or_eq_true, Bool.and_eq_true, decide_eq_true_eq]
  left
  omega

theorem small_letter_other {char : Char} (other : isCapital char = false) :
    smallLetter char = char := by
  simp [smallLetter, other]

theorem small_no_capital {char : Char} (small : isSmall char = true) : isCapital char = false := by
  simp only [isSmall, Bool.or_eq_true, Bool.and_eq_true, decide_eq_true_eq, beq_iff_eq] at small
  rcases small with codes | rfl
  · simp only [isCapital, Bool.or_eq_false_iff, Bool.and_eq_false_iff, decide_eq_false_iff_not]
    omega
  · decide

theorem letter_marks {char : Char} (letter : isCapital char = true ∨ isSmall char = true) :
    isSpace char = false ∧ char ∉ sentenceMarks ∧ char.isDigit = false := by
  have codes : (65 ≤ char.toNat ∧ char.toNat ≤ 122) ∨ char.toNat = 0xb5 ∨
      0x391 ≤ char.toNat ∧ char.toNat ≤ 0x3c9 := by
    have micro : microSign.toNat = 0xb5 := rfl
    simp only [isCapital, isSmall, Bool.or_eq_true, Bool.and_eq_true, decide_eq_true_eq,
      beq_iff_eq] at letter
    rcases letter with capital | small | same
    · omega
    · omega
    · rw [same]
      exact .inr (.inl micro)
  refine ⟨?_, ?_, ?_⟩
  · simp only [isSpace, Bool.or_eq_false_iff, Bool.and_eq_false_iff, decide_eq_false_iff_not,
      beq_eq_false_iff_ne]
    omega
  · intro mark
    have low : ∀ mark ∈ sentenceMarks, mark.toNat < 65 := by decide
    have bound := low char mark
    omega
  · by_contra digit
    have bounds := Char.isDigit_iff_toNat.mp (by simpa using digit)
    have nine : '9'.toNat = 57 := rfl
    omega

def isLetter (char : Char) : Bool := isCapital char || isSmall char

def passedOver (char : Char) : Bool := ['\'', '.', ':', '^'].contains char

/-- The tables on ASCII text, the micro sign and the Greek alphabet without accents. -/
@[reducible] def greekTables : UnicodeDatabase where
  alnum char := char.isAlphanum || isLetter char
  printable char := (32 ≤ char.toNat && char.toNat < 127) || isLetter char
  decimal char := if char.isDigit then some (char.toNat - 48) else none
  lower := lowerFrom (fun char => [smallLetter char]) isLetter passedOver []
  invisible char := char.toNat < 32 || char.toNat == 127

theorem letter_inner {char : Char} (letter : isLetter char = true) :
    @isInner greekTables char = true := by
  obtain ⟨seen, plain, noDigit⟩ := letter_marks (by simpa [isLetter] using letter)
  have unmarked : sentenceMarks.contains char = false := by
    simpa [List.contains_iff_mem] using plain
  have undigited : @isDecimal greekTables char = false := by
    change (if char.isDigit = true then some (char.toNat - 48) else none).isSome = false
    rw [noDigit]
    rfl
  unfold isInner
  rw [seen, unmarked, undigited]
  rfl

theorem small_letter_stable (char : Char) :
    smallLetter (smallLetter char) = smallLetter char ∧ smallLetter char ≠ capitalSigma := by
  cases capital : isCapital char with
  | true =>
      have lowered := small_no_capital (small_letter_small capital)
      refine ⟨small_letter_other lowered, ?_⟩
      intro same
      rw [same] at lowered
      exact absurd lowered (by decide)
  | false =>
      rw [small_letter_other capital]
      refine ⟨small_letter_other capital, ?_⟩
      intro same
      rw [same] at capital
      exact absurd capital (by decide)

theorem small_letter_changed (char : Char) :
    smallLetter char = char ∨ isLetter char = true ∧ isLetter (smallLetter char) = true := by
  cases capital : isCapital char with
  | true =>
      right
      rw [isLetter, isLetter, capital, small_letter_small capital]
      simp
  | false => exact .inl (small_letter_other capital)

theorem folded_letter_changed (char : Char) :
    foldedLetter char = char ∨ isLetter char = true ∧ isLetter (foldedLetter char) = true := by
  unfold foldedLetter
  split
  · rename_i isFinal
    rw [isFinal]
    exact .inr (by decide)
  · split
    · rename_i isMicro
      rw [isMicro]
      exact .inr (by decide)
    · exact small_letter_changed char

theorem undigited_outer {char : Char} (outer : isSpace char = true ∨ char ∈ sentenceMarks) :
    char.isDigit = false := by
  by_contra digit
  have bounds := Char.isDigit_iff_toNat.mp (by simpa using digit)
  have zero : '0'.toNat = 48 := rfl
  have nine : '9'.toNat = 57 := rfl
  rcases outer with space | mark
  · simp only [isSpace, Bool.or_eq_true, Bool.and_eq_true, decide_eq_true_eq, beq_iff_eq] at space
    omega
  · have low : ∀ mark ∈ sentenceMarks, mark.toNat < 48 := by decide
    have bound := low char mark
    omega

@[reducible] def greekDatabase : CasedDatabase where
  toUnicodeDatabase := greekTables
  lowerChar char := [smallLetter char]
  foldChar char := [foldedLetter char]
  cased := isLetter
  ignorable := passedOver
  lower_eq _ := rfl
  filled := by simp
  changed char := by
    rcases small_letter_changed char with same | ⟨letter, lowered⟩
    · exact .inl (congrArg (fun char => [char]) same)
    · refine .inr ⟨letter, ?_⟩
      intro low inside
      rw [List.mem_singleton.mp inside]
      exact letter_inner lowered
  stable char low inside := by
    obtain ⟨same, noSigma⟩ := small_letter_stable char
    rw [List.mem_singleton.mp inside]
    exact ⟨congrArg (fun char => [char]) same, noSigma⟩
  foldFilled := by simp
  foldChanged char := by
    rcases folded_letter_changed char with same | ⟨letter, folded⟩
    · exact .inl (congrArg (fun char => [char]) same)
    · refine .inr ⟨letter_inner letter, ?_⟩
      intro fold inside
      rw [List.mem_singleton.mp inside]
      exact letter_inner folded
  sigma := by decide
  final := ⟨by decide, letter_inner (by decide)⟩
  letters _ letter := letter_inner letter
  spaces char space := by
    by_contra passed
    have marks : ∀ char ∈ ['\'', '.', ':', '^'], isSpace char = false := by decide
    have mark : char ∈ ['\'', '.', ':', '^'] :=
      List.contains_iff_mem.mp (by simpa only [passedOver, Bool.not_eq_false] using passed)
    rw [marks char mark] at space
    cases space
  undigited char outer := by
    change (if char.isDigit = true then some (char.toNat - 48) else none).isSome = false
    rw [undigited_outer outer]
    rfl

end Greek

end Defender.Python
