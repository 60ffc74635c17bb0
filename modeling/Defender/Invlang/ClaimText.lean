import Defender.Invlang.ReceiptNote
import Defender.Python.LetterCase

/-!
# Claims compared as text

A claim is compared in lower case, with single spaces and freed of the quotes and sentence stops
around it. One round of freeing takes them in a fixed order and can expose more, so rounds are run
until one changes nothing. What they leave is one core, however the marks were nested. Claims whose
words fold to the same text are still told apart by letters that fold alike and are each a small
letter, as the two small sigmas are.
-/

namespace Defender.Invlang

open Defender.Python CasedDatabase

/-- What a claim is freed of at its ends. -/
def isOuter (char : Char) : Bool := isSpace char || sentenceMarks.contains char

theorem drop_behind {right : Str} (outer : ∀ char ∈ right, isOuter char = true) (text : Str) :
    (text ++ right).rdropWhile isOuter = text.rdropWhile isOuter := by
  induction right using List.reverseRecOn with
  | nil => rw [List.append_nil]
  | append_singleton right char ih =>
      rw [← List.append_assoc, List.rdropWhile_concat_pos _ _ _ (outer char (by simp))]
      exact ih fun next member => outer next (List.mem_append_left _ member)

theorem quote_outer (char : Char) (quote : ['"', '\''].contains char = true) :
    isOuter char = true ∧ char ≠ '.' := by
  have all : ∀ char ∈ ['"', '\''], isOuter char = true ∧ char ≠ '.' := by decide
  exact all char (List.contains_iff_mem.mp quote)

theorem stop_outer (char : Char) (stop : [' ', '.'].contains char = true) :
    isOuter char = true := by
  have all : ∀ char ∈ [' ', '.'], isOuter char = true := by decide
  exact all char (List.contains_iff_mem.mp stop)

theorem space_outer (char : Char) (space : isSpace char = true) :
    isOuter char = true ∧ char ≠ '.' := by
  refine ⟨by rw [isOuter, space]; rfl, ?_⟩
  rintro rfl
  exact absurd space (by decide)

theorem dropped_ends {drop : Char → Bool} {text : Str}
    (same : (text.dropWhile drop).rdropWhile drop = text) :
    text.dropWhile drop = text ∧ text.rdropWhile drop = text := by
  have front := (List.dropWhile_suffix drop (l := text)).length_le
  have behind := (List.rdropWhile_prefix drop (text.dropWhile drop)).length_le
  rw [same] at behind
  have whole : text.dropWhile drop = text :=
    (List.dropWhile_suffix drop).eq_of_length (Nat.le_antisymm front behind)
  rw [whole] at same
  exact ⟨whole, same⟩

variable [database : CasedDatabase]

def firstDigit (text : Str) : Bool := (text.head?.map isDecimal).getD false

/-- A text within another that has outer characters besides; a stop in front stands before no
digit. -/
def Wrapped (inner outer : Str) : Prop :=
  ∃ left right, outer = left ++ inner ++ right ∧ (∀ char ∈ left, isOuter char = true) ∧
    (∀ char ∈ right, isOuter char = true) ∧
    ∀ before after, left = before ++ '.' :: after → firstDigit (after ++ inner ++ right) = false

def skipOuter : Str → Str
  | [] => []
  | char :: rest =>
      if isOuter char && !(char == '.' && firstDigit rest) then skipOuter rest else char :: rest

def core (text : Str) : Str := (skipOuter text).rdropWhile isOuter

theorem outer_not_digit {char : Char} (outer : isOuter char = true) : isDecimal char = false := by
  apply undigited char
  simpa [isOuter] using outer

theorem outer_not_inner {char : Char} (outer : isOuter char = true) : isInner char = false := by
  simp only [isOuter, Bool.or_eq_true] at outer
  rcases outer with space | mark
  · rw [isInner, space]
    rfl
  · rw [isInner, mark, Bool.not_true, Bool.and_false]
    rfl

theorem outer_uncased {char : Char} (outer : isOuter char = true) : cased char = false :=
  uncased_of_outer (outer_not_inner outer)

theorem first_digit_cons (char : Char) (rest : Str) : firstDigit (char :: rest) = isDecimal char :=
  rfl

theorem first_digit_outer {text : Str} (outer : ∀ char ∈ text, isOuter char = true) :
    firstDigit text = false := by
  cases text with
  | nil => rfl
  | cons char rest => exact outer_not_digit (outer char List.mem_cons_self)

theorem first_digit_before {right : Str} (outer : ∀ char ∈ right, isOuter char = true) (text : Str) :
    firstDigit (text ++ right) = firstDigit text := by
  cases text with
  | nil => exact first_digit_outer outer
  | cons char text => rfl

section Wraps

variable {inner outer : Str}

theorem Wrapped.refl (text : Str) : Wrapped text text := by
  refine ⟨[], [], by simp, nofun, nofun, ?_⟩
  intro before after same
  simp at same

theorem Wrapped.trans {middle : Str} (first : Wrapped inner middle) (second : Wrapped middle outer) :
    Wrapped inner outer := by
  obtain ⟨left, right, rfl, leftOuter, rightOuter, leftStops⟩ := first
  obtain ⟨before, behind, rfl, beforeOuter, behindOuter, beforeStops⟩ := second
  refine ⟨before ++ left, right ++ behind, by simp, ?_, ?_, ?_⟩
  · intro char member
    rcases List.mem_append.mp member with early | late
    · exact beforeOuter char early
    · exact leftOuter char late
  · intro char member
    rcases List.mem_append.mp member with early | late
    · exact rightOuter char early
    · exact behindOuter char late
  · intro start rest same
    rcases List.append_eq_append_iff.mp same with ⟨more, whole, tail⟩ | ⟨more, whole, tail⟩
    · have stops := leftStops more rest tail
      rw [← List.append_assoc, first_digit_before behindOuter]
      exact stops
    · cases more with
      | nil =>
          have stops := leftStops [] rest (by simpa using tail.symm)
          rw [← List.append_assoc, first_digit_before behindOuter]
          exact stops
      | cons stop more =>
          rw [List.cons_append, List.cons.injEq] at tail
          obtain ⟨rfl, rfl⟩ := tail
          simpa using beforeStops start more whole

theorem Wrapped.length_le (wrapped : Wrapped inner outer) : inner.length ≤ outer.length := by
  obtain ⟨left, right, rfl, -⟩ := wrapped
  simp only [List.length_append]
  omega

theorem Wrapped.eq_of_length (wrapped : Wrapped inner outer) (same : inner.length = outer.length) :
    inner = outer := by
  obtain ⟨left, right, rfl, -⟩ := wrapped
  simp only [List.length_append] at same
  have noLeft : left = [] := List.length_eq_zero_iff.mp (by omega)
  have noRight : right = [] := List.length_eq_zero_iff.mp (by omega)
  rw [noLeft, noRight, List.nil_append, List.append_nil]

theorem skip_left {left rest : Str} (outer : ∀ char ∈ left, isOuter char = true)
    (stops : ∀ before after, left = before ++ '.' :: after → firstDigit (after ++ rest) = false) :
    skipOuter (left ++ rest) = skipOuter rest := by
  induction left with
  | nil => rfl
  | cons char left ih =>
      have point : (char == '.' && firstDigit (left ++ rest)) = false := by
        by_cases stop : char = '.'
        · rw [stops [] left (by rw [stop]; rfl), Bool.and_false]
        · simp [stop]
      rw [List.cons_append, skipOuter, outer char List.mem_cons_self, point]
      apply ih (fun next member => outer next (List.mem_cons_of_mem _ member))
      intro before after same
      exact stops (char :: before) after (by rw [same]; rfl)

theorem skip_right {right : Str} (outer : ∀ char ∈ right, isOuter char = true) (text : Str) :
    skipOuter (text ++ right) = if skipOuter text = [] then [] else skipOuter text ++ right := by
  induction text with
  | nil =>
      have stops : ∀ before after, right = before ++ '.' :: after →
          firstDigit (after ++ []) = false := by
        intro before after same
        rw [List.append_nil]
        apply first_digit_outer
        intro char member
        exact outer char (by rw [same]; simp [member])
      have gone := skip_left outer stops
      rw [List.append_nil] at gone
      simpa [skipOuter] using gone
  | cons char text ih =>
      rw [List.cons_append, skipOuter, skipOuter, first_digit_before outer]
      split
      · exact ih
      · simp

theorem Wrapped.core (wrapped : Wrapped inner outer) : core outer = core inner := by
  obtain ⟨left, right, rfl, leftOuter, rightOuter, stops⟩ := wrapped
  have skipped : skipOuter (left ++ inner ++ right) = skipOuter (inner ++ right) := by
    rw [List.append_assoc]
    apply skip_left leftOuter
    intro before after same
    rw [← List.append_assoc]
    exact stops before after same
  unfold Invlang.core
  rw [skipped, skip_right rightOuter]
  split
  · rename_i empty
    rw [empty]
  · exact drop_behind rightOuter _

end Wraps

section Rounds

theorem wrapped_front {drop : Char → Bool} (text : Str)
    (outer : ∀ char, drop char = true → isOuter char = true ∧ char ≠ '.') :
    Wrapped (text.dropWhile drop) text := by
  have dropped : ∀ char ∈ text.takeWhile drop, drop char = true := fun char inside =>
    List.mem_takeWhile_imp inside
  refine ⟨text.takeWhile drop, [], by simp, fun char inside => (outer char (dropped char inside)).1,
    nofun, ?_⟩
  intro before after same
  have stop : '.' ∈ text.takeWhile drop := by
    rw [same]
    simp
  exact absurd rfl (outer '.' (dropped '.' stop)).2

theorem wrapped_behind {drop : Char → Bool} (text : Str)
    (outer : ∀ char, drop char = true → isOuter char = true) :
    Wrapped (text.rdropWhile drop) text := by
  refine ⟨[], text.rtakeWhile drop, ?_, nofun, ?_, ?_⟩
  · rw [List.nil_append, List.rdropWhile_append_rtakeWhile]
  · exact fun char inside => outer char (List.mem_rtakeWhile_imp inside)
  · intro before after same
    simp at same

theorem strip_chars_wrapped (text : Str) : Wrapped (stripChars ['"', '\''] text) text :=
  (wrapped_behind _ fun char quote => (quote_outer char quote).1).trans
    (wrapped_front text quote_outer)

theorem leading_stop_wrapped (text : Str) : Wrapped (dropLeadingStop text) text := by
  unfold dropLeadingStop
  split
  · rename_i rest
    split
    · exact .refl _
    · rename_i point
      refine ⟨['.'], [], by simp, by decide, nofun, ?_⟩
      intro before after same
      cases before with
      | nil =>
          obtain rfl : after = [] := (List.cons.inj same).2.symm
          simpa [firstDigit] using point
      | cons char before => simp at same
  · exact .refl _

theorem strip_wrapped (text : Str) : Wrapped (strip text) text :=
  (wrapped_behind _ fun char space => (space_outer char space).1).trans
    (wrapped_front text space_outer)

theorem trim_wrapped (text : Str) : Wrapped (trimClaim text) text :=
  (strip_wrapped _).trans ((wrapped_behind _ stop_outer).trans
    ((leading_stop_wrapped _).trans (strip_chars_wrapped text)))

/-- What a round leaves as it was has no outer character at its ends. -/
theorem core_of_trimmed {text : Str} (same : trimClaim text = text) : core text = text := by
  have quotes := strip_chars_wrapped text
  have stop := leading_stop_wrapped (stripChars ['"', '\''] text)
  have stops : Wrapped (rstripChars [' ', '.'] (dropLeadingStop (stripChars ['"', '\''] text)))
      (dropLeadingStop (stripChars ['"', '\''] text)) := wrapped_behind _ stop_outer
  have spaces := strip_wrapped
    (rstripChars [' ', '.'] (dropLeadingStop (stripChars ['"', '\''] text)))
  have lengths := spaces.length_le
  have first := quotes.length_le
  have second := stop.length_le
  have third := stops.length_le
  unfold trimClaim at same
  rw [same] at lengths
  have unquoted : stripChars ['"', '\''] text = text := quotes.eq_of_length (by omega)
  rw [unquoted] at stop stops second third lengths same
  have unstopped : dropLeadingStop text = text := stop.eq_of_length (by omega)
  rw [unstopped] at stops third lengths same
  have closed : rstripChars [' ', '.'] text = text := stops.eq_of_length (by omega)
  rw [closed] at same
  obtain ⟨quoteFront, quoteBehind⟩ := dropped_ends unquoted
  obtain ⟨spaceFront, spaceBehind⟩ := dropped_ends same
  have skipped : skipOuter text = text := by
    cases text with
    | nil => rfl
    | cons char rest =>
        have noQuote : ['"', '\''].contains char = false :=
          Bool.eq_false_iff.mpr (List.dropWhile_eq_self_iff.mp quoteFront (Nat.zero_lt_succ _))
        have noSpace : isSpace char = false :=
          Bool.eq_false_iff.mpr (List.dropWhile_eq_self_iff.mp spaceFront (Nat.zero_lt_succ _))
        by_cases isStop : char = '.'
        · subst isStop
          have point : firstDigit rest = true := by
            by_contra noPoint
            simp only [dropLeadingStop, firstDigit] at unstopped noPoint
            rw [if_neg noPoint] at unstopped
            have shorter := congrArg List.length unstopped
            simp at shorter
          rw [skipOuter, point]
          simp
        · have inside : isOuter char = false := by
            simp only [List.contains_cons, List.contains_nil, Bool.or_false, Bool.or_eq_false_iff,
              beq_eq_false_iff_ne] at noQuote
            simp [isOuter, noSpace, sentenceMarks, noQuote.1, noQuote.2, isStop]
          rw [skipOuter, inside]
          rfl
  unfold core
  rw [skipped, List.rdropWhile_eq_self_iff]
  intro filled outer
  have noQuote := List.rdropWhile_eq_self_iff.mp quoteBehind filled
  have noStop := List.rdropWhile_eq_self_iff.mp closed filled
  have noSpace := List.rdropWhile_eq_self_iff.mp spaceBehind filled
  simp only [isOuter, Bool.or_eq_true, sentenceMarks, List.contains_cons, List.contains_nil,
    Bool.or_false] at outer noQuote noStop noSpace
  grind

theorem trim_shorter {text : Str} (changed : trimClaim text ≠ text) :
    (trimClaim text).length < text.length :=
  Nat.lt_of_le_of_ne (trim_wrapped text).length_le fun same =>
    changed ((trim_wrapped text).eq_of_length same)

theorem trim_from_core {fuel : Nat} {text : Str} (enough : text.length ≤ fuel) :
    trimClaimFrom fuel text = core text := by
  induction fuel generalizing text with
  | zero =>
      obtain rfl : text = [] := List.length_eq_zero_iff.mp (Nat.le_zero.mp enough)
      rfl
  | succ fuel ih =>
      rw [trimClaimFrom]
      split
      · rename_i same
        exact (core_of_trimmed same).symm
      · rename_i changed
        have shorter := trim_shorter changed
        rw [ih (by omega), (trim_wrapped text).core]

def LoopEnds (text result : Str) : Prop :=
  ∃ rounds, trimClaim^[rounds] text = result ∧ trimClaim result = result ∧
    ∀ round < rounds, trimClaim^[round + 1] text ≠ trimClaim^[round] text

theorem trim_from_ends {fuel : Nat} {text : Str} (enough : text.length ≤ fuel) :
    LoopEnds text (trimClaimFrom fuel text) := by
  induction fuel generalizing text with
  | zero =>
      obtain rfl : text = [] := List.length_eq_zero_iff.mp (Nat.le_zero.mp enough)
      exact ⟨0, rfl, rfl, nofun⟩
  | succ fuel ih =>
      rw [trimClaimFrom]
      split
      · rename_i same
        exact ⟨0, rfl, same, nofun⟩
      · rename_i changed
        have shorter := trim_shorter changed
        obtain ⟨rounds, reached, settled, before⟩ := @ih (trimClaim text) (by omega)
        refine ⟨rounds + 1, reached, settled, ?_⟩
        intro round early
        cases round with
        | zero => exact changed
        | succ round => exact before round (by omega)

theorem core_core (text : Str) : core (core text) = core text := by
  have settled : trimClaim (core text) = core text := by
    have ends := @trim_from_ends _ _ text (Nat.le_refl _)
    rw [trim_from_core (Nat.le_refl _)] at ends
    obtain ⟨_, _, settled, _⟩ := ends
    exact settled
  exact core_of_trimmed settled

end Rounds

section Squeezed

omit database

/-- A text with its words a space apart. -/
def squeeze (text : Str) : Str := join [' '] (splitWhitespace text)

theorem squeeze_space {char : Char} (space : isSpace char = true) (rest : Str) :
    squeeze (char :: rest) = squeeze rest := by
  unfold squeeze
  exact congrArg _ (@split_spaces [char] (by simpa using space) rest)

theorem squeeze_nil_iff (text : Str) : squeeze text = [] ↔ splitWhitespace text = [] := by
  unfold squeeze
  cases words : splitWhitespace text with
  | nil => simp [join]
  | cons first others =>
      have filled : first ≠ [] := by
        have inside : first ∈ splitWhitespace text := by
          rw [words]
          exact List.mem_cons_self
        simpa using (List.mem_filter.mp inside).2
      cases others with
      | nil => simpa [join] using filled
      | cons next more => simp [join, filled]

def gapBefore (rest : Str) : Str :=
  if rest.head?.any isSpace = true ∧ squeeze rest ≠ [] then [' '] else []

theorem squeeze_visible {char : Char} (visible : isSpace char = false) (rest : Str) :
    squeeze (char :: rest) = char :: (gapBefore rest ++ squeeze rest) := by
  have cut : (char :: rest).splitOnP isSpace =
      (rest.splitOnP isSpace).modifyHead (char :: ·) := by
    rw [List.splitOnP_cons_eq_if_modifyHead, if_neg (by simp [visible])]
  have words : splitWhitespace (char :: rest) =
      ((rest.splitOnP isSpace).modifyHead (char :: ·)).filter (· ≠ []) := by
    rw [splitWhitespace, cut]
  cases rest with
  | nil => simp [squeeze, gapBefore, splitWhitespace, visible, join, List.splitOnP_cons_eq_if_modifyHead]
  | cons next rest =>
      by_cases space : isSpace next = true
      · have first : (next :: rest).splitOnP isSpace = [] :: rest.splitOnP isSpace := by
          rw [List.splitOnP_cons_eq_if_modifyHead, if_pos space]
        have behind : splitWhitespace (next :: rest) = splitWhitespace rest := by
          rw [splitWhitespace, first]
          rfl
        have whole : splitWhitespace (char :: next :: rest) = [char] :: splitWhitespace rest := by
          rw [words, first]
          rfl
        have empty := squeeze_nil_iff (next :: rest)
        unfold squeeze at empty ⊢
        rw [whole, behind, gapBefore, squeeze, behind]
        rw [behind] at empty
        cases more : splitWhitespace rest with
        | nil => simp [join]
        | cons word others =>
            have filled : join [' '] (word :: others) ≠ [] := by
              rw [more] at empty
              simpa using empty
            simp [join, space, filled]
      · have seen : isSpace next = false := by simpa using space
        have inner : (next :: rest).splitOnP isSpace =
            (rest.splitOnP isSpace).modifyHead (next :: ·) := by
          rw [List.splitOnP_cons_eq_if_modifyHead, if_neg space]
        obtain ⟨word, others, pieces⟩ :=
          List.exists_cons_of_ne_nil (List.splitOnP_ne_nil isSpace rest)
        have behind : splitWhitespace (next :: rest) = (next :: word) :: others.filter (· ≠ []) := by
          rw [splitWhitespace, inner, pieces]
          rfl
        have whole : splitWhitespace (char :: next :: rest) =
            (char :: next :: word) :: others.filter (· ≠ []) := by
          rw [words, inner, pieces]
          rfl
        have noGap : gapBefore (next :: rest) = [] := by simp [gapBefore, seen]
        rw [noGap]
        unfold squeeze
        rw [whole, behind]
        cases others.filter (· ≠ []) with
        | nil => rfl
        | cons more others => rfl

theorem gap_cases (rest : Str) : gapBefore rest = [] ∨ gapBefore rest = [' '] := by
  unfold gapBefore
  split
  · exact .inr rfl
  · exact .inl rfl

/-- A visible character behind a text stands behind it squeezed, perhaps after a space. -/
theorem squeeze_last {char : Char} (visible : isSpace char = false) (text : Str) :
    ∃ gap, (gap = [] ∨ gap = [' ']) ∧ (squeeze text = [] → gap = []) ∧
      squeeze (text ++ [char]) = squeeze text ++ gap ++ [char] := by
  induction text with
  | nil =>
      refine ⟨[], .inl rfl, fun _ => rfl, ?_⟩
      rw [List.nil_append, squeeze_visible visible]
      rfl
  | cons first text ih =>
      obtain ⟨gap, spaced, none, whole⟩ := ih
      rw [List.cons_append]
      by_cases space : isSpace first = true
      · rw [squeeze_space space, squeeze_space space]
        exact ⟨gap, spaced, none, whole⟩
      · have seen : isSpace first = false := by simpa using space
        rw [squeeze_visible seen, squeeze_visible seen]
        by_cases empty : squeeze text = []
        · have noGap : gapBefore text = [] := by simp [gapBefore, empty]
          refine ⟨gapBefore (text ++ [char]), gap_cases _, nofun, ?_⟩
          rw [whole, none empty, empty, noGap]
          simp
        · have filled : squeeze (text ++ [char]) ≠ [] := by
            rw [whole]
            simp
          have same : gapBefore (text ++ [char]) = gapBefore text := by
            cases text with
            | nil => exact absurd rfl empty
            | cons next text =>
                unfold gapBefore
                simp only [List.cons_append, List.head?_cons] at filled ⊢
                simp only [empty, filled, ne_eq, not_false_eq_true, and_true]
          refine ⟨gap, spaced, nofun, ?_⟩
          rw [same, whole]
          simp

theorem mem_squeeze {char : Char} {text : Str} (inside : char ∈ squeeze text) :
    char ∈ text ∨ char = ' ' := by
  induction text with
  | nil => cases inside
  | cons first text ih =>
      by_cases space : isSpace first = true
      · rw [squeeze_space space] at inside
        exact (ih inside).imp_left (List.mem_cons_of_mem _)
      · rw [squeeze_visible (by simpa using space), List.mem_cons, List.mem_append] at inside
        rcases inside with here | gap | later
        · exact .inl (here ▸ List.mem_cons_self)
        · rcases gap_cases text with none | one
          · rw [none] at gap
            cases gap
          · rw [one] at gap
            exact .inr (List.mem_singleton.mp gap)
        · exact (ih later).imp_left (List.mem_cons_of_mem _)

theorem split_at_space {space : Char} (isOne : isSpace space = true) (text rest : Str) :
    splitWhitespace (text ++ space :: rest) = splitWhitespace text ++ splitWhitespace rest := by
  unfold splitWhitespace
  rw [List.splitOnP_append_cons _ _ isOne, List.filter_append]

theorem split_word {text : Str} (visible : ∀ char ∈ text, isSpace char = false) :
    splitWhitespace text = if text = [] then [] else [text] := by
  unfold splitWhitespace
  rw [List.splitOnP_eq_singleton visible]
  split
  · rename_i empty
    simp [empty]
  · rename_i filled
    simp [filled]

/-- A text is one word, or white space parts it. -/
theorem split_induction {motive : Str → Prop}
    (word : ∀ text, (∀ char ∈ text, isSpace char = false) → motive text)
    (cut : ∀ text space rest, isSpace space = true → motive text → motive rest →
      motive (text ++ space :: rest)) (text : Str) : motive text := by
  induction long : text.length using Nat.strong_induction_on generalizing text with
  | _ size ih =>
      by_cases spaced : ∃ char ∈ text, isSpace char = true
      · obtain ⟨space, inside, isOne⟩ := spaced
        obtain ⟨front, behind, rfl⟩ := List.append_of_mem inside
        rw [List.length_append, List.length_cons] at long
        exact cut front space behind isOne (ih front.length (by omega) front rfl)
          (ih behind.length (by omega) behind rfl)
      · exact word text (by simpa using spaced)

theorem split_visible (text : Str) :
    ∀ word ∈ splitWhitespace text, word ≠ [] ∧ ∀ char ∈ word, isSpace char = false := by
  induction text using split_induction with
  | word text visible =>
      rw [split_word visible]
      split
      · exact nofun
      · rename_i filled
        simpa [filled] using visible
  | cut text space rest isOne first last =>
      rw [split_at_space isOne]
      intro word member
      rcases List.mem_append.mp member with front | behind
      · exact first word front
      · exact last word behind

theorem split_join {words : List Str}
    (worded : ∀ word ∈ words, word ≠ [] ∧ ∀ char ∈ word, isSpace char = false) :
    splitWhitespace (join [' '] words) = words := by
  induction words with
  | nil => rfl
  | cons word others ih =>
      obtain ⟨filled, visible⟩ := worded word List.mem_cons_self
      have alone : splitWhitespace word = [word] := by rw [split_word visible, if_neg filled]
      have rest := ih fun other member => worded other (List.mem_cons_of_mem _ member)
      cases others with
      | nil => exact alone
      | cons next more =>
          rw [join_cons [' '] word (by simp), List.append_assoc, List.singleton_append,
            split_at_space (by decide), alone, rest]
          rfl

theorem split_squeeze (text : Str) : splitWhitespace (squeeze text) = splitWhitespace text :=
  split_join (split_visible text)

theorem squeeze_squeeze (text : Str) : squeeze (squeeze text) = squeeze text :=
  congrArg (join [' ']) (split_squeeze text)

end Squeezed

section Squeezing

theorem first_digit_gap (text : Str) :
    firstDigit (gapBefore text ++ squeeze text) = firstDigit text := by
  cases text with
  | nil => rfl
  | cons char text =>
      by_cases space : isSpace char = true
      · have outer : isOuter char = true := (space_outer char space).1
        rw [first_digit_cons, outer_not_digit outer]
        by_cases empty : squeeze (char :: text) = []
        · simp [gapBefore, empty, firstDigit]
        · have one : gapBefore (char :: text) = [' '] := by simp [gapBefore, empty, space]
          rw [one, List.singleton_append, first_digit_cons]
          exact outer_not_digit (by decide)
      · have visible : isSpace char = false := by simpa using space
        have none : gapBefore (char :: text) = [] := by simp [gapBefore, visible]
        rw [none, squeeze_visible visible]
        rfl

theorem skip_gap (text : Str) :
    skipOuter (gapBefore text ++ squeeze text) = skipOuter (squeeze text) := by
  apply skip_left
  · intro char inside
    rcases gap_cases text with none | one
    · rw [none] at inside
      cases inside
    · rw [one] at inside
      rw [List.mem_singleton.mp inside]
      decide
  · intro before after same
    have stop : '.' ∈ gapBefore text := by
      rw [same]
      simp
    rcases gap_cases text with none | one
    · rw [none] at stop
      cases stop
    · rw [one] at stop
      exact absurd stop (by decide)

theorem skip_squeeze (text : Str) : skipOuter (squeeze text) = squeeze (skipOuter text) := by
  induction text with
  | nil => rfl
  | cons char text ih =>
      by_cases space : isSpace char = true
      · obtain ⟨outer, noStop⟩ := space_outer char space
        have skipped : skipOuter (char :: text) = skipOuter text := by
          simp [skipOuter, outer, noStop]
        rw [squeeze_space space, skipped, ih]
      · have visible : isSpace char = false := by simpa using space
        rw [squeeze_visible visible, skipOuter, skipOuter, first_digit_gap]
        split
        · rw [skip_gap, ih]
        · rw [squeeze_visible visible]

omit database in
theorem drop_squeeze (text : Str) :
    (squeeze text).rdropWhile isOuter = squeeze (text.rdropWhile isOuter) := by
  induction text using List.reverseRecOn with
  | nil => rfl
  | append_singleton text char ih =>
      by_cases space : isSpace char = true
      · have gone : squeeze (text ++ [char]) = squeeze text := by
          unfold squeeze
          exact congrArg _ (split_blank text (by simpa using space))
        rw [gone, List.rdropWhile_concat_pos _ _ _ (space_outer char space).1, ih]
      · have visible : isSpace char = false := by simpa using space
        obtain ⟨gap, spaced, -, whole⟩ := squeeze_last visible text
        by_cases outer : isOuter char = true
        · have blank : ∀ next ∈ gap, isOuter next = true := by
            rcases spaced with none | one
            · rw [none]
              exact nofun
            · rw [one]
              decide
          rw [whole, List.rdropWhile_concat_pos _ _ _ outer, drop_behind blank,
            List.rdropWhile_concat_pos _ _ _ outer, ih]
        · rw [List.rdropWhile_concat_neg _ _ _ outer, whole, List.rdropWhile_concat_neg _ _ _ outer]

theorem core_squeeze (text : Str) : core (squeeze text) = squeeze (core text) := by
  unfold core
  rw [skip_squeeze, drop_squeeze]

end Squeezing

theorem inner_not_digit {char : Char} (inner : isInner char = true) : isDecimal char = false := by
  simp only [isInner, Bool.and_eq_true, Bool.not_eq_true'] at inner
  exact inner.2

theorem first_digit_lower (text : Str) : firstDigit (lower text) = firstDigit text := by
  rw [lower_unfold]
  cases text with
  | nil => rfl
  | cons char text =>
      rw [lowerAfter, lowerFrom]
      by_cases letter : cased char = true
      · have inner := lowered_inner letter [] text
        cases low : lowered lowerChar cased ignorable [] char text with
        | nil => exact absurd low (lowered_filled char [] text)
        | cons first others =>
            rw [low] at inner
            rw [List.cons_append, first_digit_cons, first_digit_cons,
              inner_not_digit (inner first List.mem_cons_self),
              inner_not_digit (letters char letter)]
      · rw [lowered_uncased (by simpa using letter)]
        rfl

theorem Wrapped.lowered {inner outer : Str} (wrapped : Wrapped inner outer) :
    Wrapped (lower inner) (lower outer) := by
  obtain ⟨left, right, rfl, leftOuter, rightOuter, stops⟩ := wrapped
  refine ⟨left, right, ?_, leftOuter, rightOuter, ?_⟩
  · exact lower_wrapped (fun char member => outer_uncased (leftOuter char member))
      (fun char member => outer_uncased (rightOuter char member)) inner
  · intro before after same
    have point := stops before after same
    rw [first_digit_before rightOuter] at point ⊢
    cases after with
    | nil => rwa [List.nil_append, first_digit_lower]
    | cons char after => exact point

theorem normalized_claim_core (claim : Str) : normalizedClaim claim = core (squeeze (lower claim)) :=
  trim_from_core (Nat.le_refl _)

theorem normalized_wrapped {inner claim : Str} (wrapped : Wrapped inner claim) :
    normalizedClaim claim = core (squeeze (lower inner)) := by
  rw [normalized_claim_core, core_squeeze, wrapped.lowered.core, ← core_squeeze]

theorem mem_core {char : Char} {text : Str} (inside : char ∈ core text) : char ∈ text := by
  have skipped : ∀ text : Str, skipOuter text ⊆ text := by
    intro text
    induction text with
    | nil => exact fun _ none => none
    | cons first text ih =>
        rw [skipOuter]
        split
        · exact fun next member => List.mem_cons_of_mem _ (ih member)
        · exact fun _ member => member
  exact skipped text ((List.rdropWhile_prefix isOuter _).subset inside)

theorem normalized_claim_stable (claim : Str) :
    normalizedClaim (normalizedClaim claim) = normalizedClaim claim := by
  have low : lower (normalizedClaim claim) = normalizedClaim claim := by
    apply lower_of_stable
    intro char inside
    rw [normalized_claim_core] at inside
    rcases mem_squeeze (mem_core inside) with lowered | rfl
    · exact mem_lower_stable lowered
    · exact ⟨lower_char_uncased (outer_uncased (by decide)), by decide⟩
  have tidy : squeeze (normalizedClaim claim) = normalizedClaim claim := by
    rw [normalized_claim_core, core_squeeze, squeeze_squeeze]
  have bare : core (normalizedClaim claim) = normalizedClaim claim := by
    rw [normalized_claim_core, core_core]
  rw [normalized_claim_core (normalizedClaim claim), low, tidy, bare]

section Letters

/-- Texts alike but for some inner characters. -/
inductive Akin : Str → Str → Prop
  | nil : Akin [] []
  | same (char : Char) {lefts rights : Str} (others : Akin lefts rights) :
      Akin (char :: lefts) (char :: rights)
  | letters {word word' lefts rights : Str} (filled : word ≠ []) (filled' : word' ≠ [])
      (inner : ∀ char ∈ word, isInner char = true) (inner' : ∀ char ∈ word', isInner char = true)
      (others : Akin lefts rights) : Akin (word ++ lefts) (word' ++ rights)

variable {lefts rights : Str}

theorem inner_not_outer {char : Char} (inner : isInner char = true) : isOuter char = false := by
  by_contra outer
  rw [outer_not_inner (by simpa using outer)] at inner
  cases inner

theorem akin_refl (text : Str) : Akin text text := by
  induction text with
  | nil => exact .nil
  | cons char _ ih => exact .same char ih

theorem akin_letters {word word' : Str} (filled : word ≠ []) (filled' : word' ≠ [])
    (inner : ∀ char ∈ word, isInner char = true) (inner' : ∀ char ∈ word', isInner char = true) :
    Akin word word' := by
  have alone := Akin.letters filled filled' inner inner' .nil
  rwa [List.append_nil, List.append_nil] at alone

theorem akin_append {lefts' rights' : Str} (first : Akin lefts rights) (last : Akin lefts' rights') :
    Akin (lefts ++ lefts') (rights ++ rights') := by
  induction first with
  | nil => exact last
  | same char _ ih => exact .same char ih
  | letters filled filled' inner inner' _ ih =>
      rw [List.append_assoc, List.append_assoc]
      exact .letters filled filled' inner inner' ih

theorem akin_reverse (akin : Akin lefts rights) : Akin lefts.reverse rights.reverse := by
  induction akin with
  | nil => exact .nil
  | same char _ ih =>
      rw [List.reverse_cons, List.reverse_cons]
      exact akin_append ih (akin_refl [char])
  | letters filled filled' inner inner' _ ih =>
      rw [List.reverse_append, List.reverse_append]
      apply akin_append ih
      apply akin_letters (by simpa using filled) (by simpa using filled')
      · exact fun char member => inner char (List.mem_reverse.mp member)
      · exact fun char member => inner' char (List.mem_reverse.mp member)

/-- What `skipOuter` skips. -/
def frontOuter : Str → Str
  | [] => []
  | char :: rest =>
      if isOuter char && !(char == '.' && firstDigit rest) then char :: frontOuter rest else []

theorem front_skip (text : Str) : frontOuter text ++ skipOuter text = text := by
  induction text with
  | nil => rfl
  | cons char rest ih =>
      rw [frontOuter, skipOuter]
      split
      · rw [List.cons_append, ih]
      · rfl

/-- Inner characters in front stop every search for outer ones. -/
theorem inner_front {word : Str} (filled : word ≠ []) (inner : ∀ char ∈ word, isInner char = true)
    (rest : Str) : firstDigit (word ++ rest) = false ∧ frontOuter (word ++ rest) = [] ∧
      skipOuter (word ++ rest) = word ++ rest ∧ (word ++ rest).takeWhile isOuter = [] := by
  obtain ⟨char, more, rfl⟩ := List.exists_cons_of_ne_nil filled
  have inside := inner char List.mem_cons_self
  rw [List.cons_append, first_digit_cons, frontOuter, skipOuter, List.takeWhile_cons,
    inner_not_outer inside]
  exact ⟨inner_not_digit inside, rfl, rfl, rfl⟩

theorem akin_first_digit (akin : Akin lefts rights) : firstDigit lefts = firstDigit rights := by
  cases akin with
  | nil => rfl
  | same char others => rfl
  | letters filled filled' inner inner' others =>
      rw [(inner_front filled inner _).1, (inner_front filled' inner' _).1]

theorem akin_skip (akin : Akin lefts rights) :
    frontOuter lefts = frontOuter rights ∧ Akin (skipOuter lefts) (skipOuter rights) := by
  induction akin with
  | nil => exact ⟨rfl, .nil⟩
  | same char others ih =>
      rw [frontOuter, frontOuter, skipOuter, skipOuter, akin_first_digit others]
      split
      · exact ⟨congrArg _ ih.1, ih.2⟩
      · exact ⟨rfl, .same char others⟩
  | letters filled filled' inner inner' others _ =>
      obtain ⟨-, front, skipped, -⟩ := inner_front filled inner _
      obtain ⟨-, front', skipped', -⟩ := inner_front filled' inner' _
      rw [front, front', skipped, skipped']
      exact ⟨rfl, .letters filled filled' inner inner' others⟩

theorem akin_take (akin : Akin lefts rights) :
    lefts.takeWhile isOuter = rights.takeWhile isOuter := by
  induction akin with
  | nil => rfl
  | same char _ ih => rw [List.takeWhile_cons, List.takeWhile_cons, ih]
  | letters filled filled' inner inner' _ _ =>
      rw [(inner_front filled inner _).2.2.2, (inner_front filled' inner' _).2.2.2]

/-- What stands around the core of a text. -/
def edges (text : Str) : Str × Str := (frontOuter text, (skipOuter text).rtakeWhile isOuter)

theorem edges_core (text : Str) : (edges text).1 ++ core text ++ (edges text).2 = text := by
  rw [edges, core, List.append_assoc, List.rdropWhile_append_rtakeWhile, front_skip]

theorem akin_edges (akin : Akin lefts rights) : edges lefts = edges rights := by
  obtain ⟨front, skipped⟩ := akin_skip akin
  have behind := akin_take (akin_reverse skipped)
  rw [edges, edges, front, List.rtakeWhile, List.rtakeWhile, behind]

theorem letter_akin (char : Char) (before after : Str) :
    Akin (lowered lowerChar cased ignorable before char after) (foldChar char) := by
  by_cases letter : cased char = true
  · refine akin_letters (lowered_filled char before after) (foldFilled char)
      (lowered_inner letter before after) ?_
    rcases foldChanged char with same | ⟨-, inner⟩
    · intro fold inside
      rw [same] at inside
      rw [List.mem_singleton.mp inside]
      exact letters char letter
    · exact inner
  · rw [lowered_uncased (by simpa using letter)]
    rcases foldChanged char with same | ⟨self, inner⟩
    · rw [same]
      exact akin_refl [char]
    · exact akin_letters (by simp) (foldFilled char) (by simpa using self) inner

theorem lower_akin (text : Str) : Akin (lower text) (casefold text) := by
  have general : ∀ before, Akin (lowerAfter before text) (casefold text) := by
    induction text with
    | nil => exact fun _ => .nil
    | cons char text ih =>
        intro before
        rw [lowerAfter, lowerFrom, casefold, List.flatMap_cons]
        exact akin_append (letter_akin char before text) (ih (char :: before))
  rw [lower_unfold]
  exact general []

theorem join_akin (words : List Str) :
    Akin (join [' '] (words.map lower)) (join [' '] (words.map casefold)) := by
  induction words with
  | nil => exact .nil
  | cons word others ih =>
      cases others with
      | nil => exact lower_akin word
      | cons next more =>
          have joined : ∀ recase : Str → Str, join [' '] ((word :: next :: more).map recase) =
              recase word ++ [' '] ++ join [' '] ((next :: more).map recase) :=
            fun recase => join_cons [' '] (recase word) (by simp)
          rw [joined, joined]
          exact akin_append (akin_append (lower_akin word) (akin_refl [' '])) ih

/-- Words that fold alike have the same outer characters around the core of their small letters. -/
theorem core_join {words words' : List Str} (folds : words.map casefold = words'.map casefold)
    (same : core (join [' '] (words.map lower)) = core (join [' '] (words'.map lower))) :
    join [' '] (words.map lower) = join [' '] (words'.map lower) := by
  have around : edges (join [' '] (words.map lower)) = edges (join [' '] (words'.map lower)) := by
    rw [akin_edges (join_akin words), akin_edges (join_akin words'), folds]
  rw [← edges_core (join [' '] (words.map lower)), ← edges_core (join [' '] (words'.map lower)),
    around, same]

end Letters

section Words

theorem lower_visible {text : Str} (visible : ∀ char ∈ text, isSpace char = false) :
    ∀ low ∈ lower text, isSpace low = false := by
  have general : ∀ before, ∀ low ∈ lowerAfter before text, isSpace low = false := by
    induction text with
    | nil => exact fun _ _ none => nomatch none
    | cons char text ih =>
        intro before low inside
        rw [lowerAfter, lowerFrom, List.mem_append] at inside
        rcases inside with here | later
        · by_cases letter : cased char = true
          · have inner := lowered_inner letter before text low here
            simp only [isInner, Bool.and_eq_true, Bool.not_eq_true'] at inner
            exact inner.1.1
          · rw [lowered_uncased (by simpa using letter), List.mem_singleton] at here
            exact here ▸ visible char List.mem_cons_self
        · exact ih (fun next member => visible next (List.mem_cons_of_mem _ member)) _ low later
  rw [lower_unfold]
  exact general []

theorem lower_nil_iff (text : Str) : lower text = [] ↔ text = [] := by
  rw [lower_unfold]
  cases text with
  | nil => exact ⟨fun _ => rfl, fun _ => rfl⟩
  | cons char text =>
      rw [lowerAfter, lowerFrom]
      simp [lowered_filled]

theorem lower_words (text : Str) : splitWhitespace (lower text) = (splitWhitespace text).map lower := by
  induction text using split_induction with
  | word text visible =>
      rw [split_word visible, split_word (lower_visible visible)]
      by_cases empty : text = []
      · simp [empty, (lower_nil_iff []).mpr rfl]
      · simp [empty, lower_nil_iff]
  | cut text space rest isOne first last =>
      rw [lower_space isOne, split_at_space isOne, split_at_space isOne, List.map_append, first, last]

/-- The rounds of a claim end and a second pass changes nothing; claims that differ only in letter
case, white space and what stands around them are one exactly where their words have the same small
letters. -/
theorem normalized_claim_exact {claim claim' inner inner' : Str} (wrapped : Wrapped inner claim)
    (wrapped' : Wrapped inner' claim') (folds : (splitWhitespace inner).map casefold =
      (splitWhitespace inner').map casefold) :
    LoopEnds (join [' '] (splitWhitespace (lower claim))) (normalizedClaim claim) ∧
      normalizedClaim (normalizedClaim claim) = normalizedClaim claim ∧
      (normalizedClaim claim = normalizedClaim claim' ↔
        (splitWhitespace inner).map (smallLetters []) =
          (splitWhitespace inner').map (smallLetters [])) := by
  refine ⟨trim_from_ends (Nat.le_refl _), normalized_claim_stable claim, ?_⟩
  have small : smallLetters [] = lower := funext fun text => (lower_small text).symm
  have squeezed : ∀ text, squeeze (lower text) = join [' '] ((splitWhitespace text).map lower) := by
    intro text
    rw [squeeze, lower_words]
  rw [normalized_wrapped wrapped, normalized_wrapped wrapped', small, ← lower_words, ← lower_words]
  constructor
  · intro same
    rw [squeezed, squeezed] at same
    have whole := core_join folds same
    rw [← squeezed, ← squeezed] at whole
    rw [← split_squeeze (lower inner), whole, split_squeeze]
  · intro same
    rw [squeeze, squeeze, same]

omit database in
/-- A quoted claim between stops and the bare claim in capitals. -/
theorem normalized_claim_quoted :
    let _ : CasedDatabase := greekDatabase
    normalizedClaim ". 'Port  up'. " = normalizedClaim "PORT UP" := by
  intro _
  have wrapped : Wrapped "Port  up" ". 'Port  up'. " := by
    refine ⟨". '", "'. ", rfl, by decide, by decide, ?_⟩
    intro before after same
    cases before with
    | nil =>
        obtain rfl : [' ', '\''] = after := (List.cons.inj same).2
        decide
    | cons char before =>
        have tail : [' ', '\''] = before ++ '.' :: after := (List.cons.inj same).2
        have stop : '.' ∈ [' ', '\''] := by
          rw [tail]
          simp
        exact absurd stop (by decide)
  exact (normalized_claim_exact wrapped (.refl _) (by decide)).2.2.mpr (by decide)

omit database in
/-- A word that ends in a sigma, and one with a micro sign, are not their words in capitals. -/
theorem capital_claims_apart :
    let _ : CasedDatabase := greekDatabase
    (casefold "Ασ" = casefold "ΑΣ" ∧ normalizedClaim "Ασ" ≠ normalizedClaim "ΑΣ") ∧
      casefold "\u00b5s" = casefold "\u039cS" ∧
      normalizedClaim "\u00b5s" ≠ normalizedClaim "\u039cS" := by
  intro _
  exact ⟨⟨by decide, by decide⟩, by decide, by decide⟩

end Words

end Defender.Invlang
