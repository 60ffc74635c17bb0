import Defender.Execution.BashExec

/-!
# Words written in single quotes

A word in single quotes, its own single quotes spelled in double ones, is one literal-free
stretch to the walker that decides structure and the word itself to the walker that resolves
values. So a command of such words is one stage whose arguments they are.
-/

namespace Defender.Execution

open Defender.Python

/-- A single quote closes the quotes, is written in double quotes, and opens them again. -/
def quotedChar (char : Char) : Str :=
  if char = '\'' then ['\'', '"', '\'', '"', '\''] else [char]

def quoteWord (word : Str) : Str := '\'' :: (word.flatMap quotedChar ++ ['\''])

def quoteCommand (words : List Str) : Str := join [' '] (words.map quoteWord)

section Mask

theorem mask_in_quotes {quote char : Char} (rest : Str) (plain : ¬(char = '\\' ∧ quote = '"')) :
    literalMaskFrom (some quote) (char :: rest) =
      (literalMaskFrom (if char = quote then none else some quote) rest).map (false :: ·) := by
  rw [literalMaskFrom.eq_def]
  exact if_neg plain

theorem mask_opens {char : Char} (rest : Str) (escapes : char ≠ '\\')
    (quote : char = '\'' ∨ char = '"') :
    literalMaskFrom none (char :: rest) =
      (literalMaskFrom (some char) rest).map (false :: ·) := by
  rw [literalMaskFrom.eq_def]
  exact (if_neg escapes).trans (if_pos quote)

theorem mask_plain {char : Char} (rest : Str) (escapes : char ≠ '\\')
    (quote : ¬(char = '\'' ∨ char = '"')) :
    literalMaskFrom none (char :: rest) = (literalMaskFrom none rest).map (true :: ·) := by
  rw [literalMaskFrom.eq_def]
  exact (if_neg escapes).trans (if_neg quote)

theorem spelled_quote_mask (rest : Str) :
    literalMaskFrom (some '\'') ('\'' :: '"' :: '\'' :: '"' :: '\'' :: rest) =
      (literalMaskFrom (some '\'') rest).map ([false, false, false, false, false] ++ ·) := by
  rw [mask_in_quotes _ (by decide), if_pos rfl, mask_opens _ (by decide) (Or.inr rfl),
    mask_in_quotes _ (by decide), if_neg (by decide), mask_in_quotes _ (by decide), if_pos rfl,
    mask_opens _ (by decide) (Or.inl rfl)]
  simp only [Option.map_map]
  rfl

theorem open_quote_mask (word rest : Str) :
    literalMaskFrom (some '\'') (word.flatMap quotedChar ++ '\'' :: rest) =
      (literalMaskFrom none rest).map
        (List.replicate ((word.flatMap quotedChar).length + 1) false ++ ·) := by
  induction word with
  | nil =>
      rw [List.flatMap_nil, List.nil_append, mask_in_quotes _ (by decide), if_pos rfl]
      rfl
  | cons char more ih =>
      rw [List.flatMap_cons, List.append_assoc]
      by_cases quote : char = '\''
      · have spelled : quotedChar char = ['\'', '"', '\'', '"', '\''] := if_pos quote
        rw [spelled]
        simp only [List.cons_append, List.nil_append]
        rw [spelled_quote_mask, ih, Option.map_map]
        rfl
      · have spelled : quotedChar char = [char] := if_neg quote
        rw [spelled, List.singleton_append, mask_in_quotes _ (by simp), if_neg quote, ih,
          Option.map_map]
        rfl

theorem quote_mask (word rest : Str) :
    literalMaskFrom none (quoteWord word ++ rest) =
      (literalMaskFrom none rest).map (List.replicate (quoteWord word).length false ++ ·) := by
  have inside : quoteWord word ++ rest = '\'' :: (word.flatMap quotedChar ++ '\'' :: rest) := by
    simp [quoteWord]
  have size : (quoteWord word).length = (word.flatMap quotedChar).length + 1 + 1 := by
    simp [quoteWord]
  rw [inside, size, mask_opens _ (by decide) (Or.inl rfl), open_quote_mask, Option.map_map]
  rfl

/-- The marks of a command: quoted words stand for nothing themselves, the spaces between
them do. -/
def commandMarks : List Str → List Marked
  | [] => []
  | [word] => (quoteWord word).map (⟨·, false⟩)
  | word :: others => (quoteWord word).map (⟨·, false⟩) ++ ⟨' ', true⟩ :: commandMarks others

theorem command_marks_cons (word next : Str) (more : List Str) :
    commandMarks (word :: next :: more) =
      (quoteWord word).map (⟨·, false⟩) ++ ⟨' ', true⟩ :: commandMarks (next :: more) := rfl

theorem marks_of_quoted (word rest : Str) (mask : List Bool) :
    List.zipWith Marked.mk (quoteWord word ++ rest)
        (List.replicate (quoteWord word).length false ++ mask) =
      (quoteWord word).map (⟨·, false⟩) ++ List.zipWith Marked.mk rest mask := by
  rw [List.zipWith_append (by simp)]
  congr 1
  induction quoteWord word with
  | nil => rfl
  | cons char more ih => simpa [List.replicate_succ] using ih

theorem command_marked (words : List Str) : ∃ mask, literalMask (quoteCommand words) = some mask ∧
    List.zipWith Marked.mk (quoteCommand words) mask = commandMarks words := by
  unfold literalMask
  induction words with
  | nil => exact ⟨[], rfl, rfl⟩
  | cons word others ih =>
      cases others with
      | nil =>
          have masked := quote_mask word []
          have marked := marks_of_quoted word [] []
          simp only [List.append_nil, List.zipWith_nil_left, literalMaskFrom,
            Option.map_some] at masked marked
          exact ⟨_, masked, marked⟩
      | cons next more =>
          obtain ⟨mask, masked, marked⟩ := ih
          refine ⟨List.replicate (quoteWord word).length false ++ true :: mask, ?_, ?_⟩
          · have space : literalMaskFrom none (' ' :: quoteCommand (next :: more)) =
                some (true :: mask) := by
              rw [mask_plain _ (by decide) (by decide), masked]
              rfl
            have both : quoteCommand (word :: next :: more) =
                quoteWord word ++ ' ' :: quoteCommand (next :: more) := by
              simp [quoteCommand, join]
            rw [both, quote_mask, space]
            rfl
          · have both : quoteCommand (word :: next :: more) =
                quoteWord word ++ ' ' :: quoteCommand (next :: more) := by
              simp [quoteCommand, join]
            rw [both, marks_of_quoted, List.zipWith_cons_cons, marked]
            rfl

end Mask

theorem single_quoted_word {front : Str} (plain : '\'' ∉ front) (rest : Str) :
    singleQuotedValue (front ++ '\'' :: rest) = some (front, rest) := by
  induction front with
  | nil => rfl
  | cons char more ih =>
      rw [List.mem_cons, not_or] at plain
      rw [List.cons_append, singleQuotedValue, if_neg (Ne.symm plain.1), ih plain.2]
      rfl

theorem plain_word_spelled {front : Str} (plain : '\'' ∉ front) :
    front.flatMap quotedChar = front := by
  induction front with
  | nil => rfl
  | cons char more ih =>
      rw [List.mem_cons, not_or] at plain
      rw [List.flatMap_cons, ih plain.2, quotedChar, if_neg (Ne.symm plain.1)]
      rfl

theorem double_quoted_quote (rest : Str) :
    doubleQuotedValue ('\'' :: '"' :: '\'' :: rest) = some (['\''], '\'' :: rest) := rfl

theorem resolve_single (rounds : Nat) (rest : Str) :
    resolveFrom (rounds + 1) ('\'' :: rest) = (singleQuotedValue rest).bind fun (value, after) =>
      (resolveFrom rounds after).map (value ++ ·) := by
  rw [resolveFrom.eq_def]
  exact (if_neg (by decide)).trans (if_pos rfl)

theorem resolve_double (rounds : Nat) (rest : Str) :
    resolveFrom (rounds + 1) ('"' :: rest) = (doubleQuotedValue rest).bind fun (value, after) =>
      (resolveFrom rounds after).map (value ++ ·) := by
  rw [resolveFrom.eq_def]
  exact (if_neg (by decide)).trans ((if_neg (by decide)).trans (if_pos rfl))

theorem resolve_quoted (word : Str) (rounds : Nat) (enough : (quoteWord word).length ≤ rounds) :
    resolveFrom rounds (quoteWord word) = some word := by
  induction size : word.length using Nat.strong_induction_on generalizing word rounds with
  | _ length ih =>
      obtain ⟨rounds, rfl⟩ : ∃ less, rounds = less + 1 := by
        refine ⟨rounds - 1, ?_⟩
        simp only [quoteWord, List.length_cons] at enough
        omega
      by_cases quoted : '\'' ∈ word
      · obtain ⟨front, back, rfl, plain⟩ := List.eq_append_cons_of_mem quoted
        have spelled : quoteWord (front ++ '\'' :: back) =
            '\'' :: (front ++ '\'' :: ('"' :: '\'' :: '"' :: quoteWord back)) := by
          unfold quoteWord
          rw [List.flatMap_append, plain_word_spelled plain, List.flatMap_cons]
          simp [quotedChar]
        rw [spelled] at enough ⊢
        obtain ⟨less, rfl⟩ : ∃ less, rounds = less + 1 := by
          refine ⟨rounds - 1, ?_⟩
          simp only [List.length_cons, List.length_append] at enough
          omega
        have further := ih back.length (by rw [← size]; simp; omega) back less
          (by simp only [List.length_cons, List.length_append] at enough; omega) rfl
        have inner : resolveFrom (less + 1) ('"' :: '\'' :: '"' :: quoteWord back) =
            some ('\'' :: back) := by
          rw [resolve_double]
          change (doubleQuotedValue ('\'' :: '"' :: '\'' :: (back.flatMap quotedChar ++ ['\'']))).bind
            _ = _
          rw [double_quoted_quote, Option.bind_some]
          change (resolveFrom less (quoteWord back)).map _ = _
          rw [further]
          rfl
        rw [resolve_single, single_quoted_word plain, Option.bind_some]
        dsimp only
        rw [inner]
        rfl
      · have spelled : quoteWord word = '\'' :: (word ++ '\'' :: []) := by
          rw [quoteWord, plain_word_spelled quoted]
        rw [spelled, resolve_single, single_quoted_word quoted, Option.bind_some]
        dsimp only
        cases rounds with
        | zero => simp [resolveFrom]
        | succ less => simp [resolveFrom]

theorem quoted_value (word : Str) : wordValue (quoteWord word) = some word := by
  rw [wordValue, if_pos (by simp [quoteWord])]
  exact resolve_quoted word _ le_rfl

def WordTokens (words : List Str) (tokens : List Token) : Prop :=
  tokens.map Token.value = words ∧ ∀ token ∈ tokens, token.kind = .word

def inWord (mark : Marked) : Bool := !(mark.isOneOf blanks || mark.isOneOf shlexPunctuation)

/-- A quoted word is read as one word up to the blank behind it. -/
theorem word_scanned (word : Str) (after : List Marked)
    (parted : ∀ mark ∈ after.head?, mark.isOneOf blanks = true) (rounds : Nat)
    (seen : List Marked) (tokens : List Token) : ∃ before start stop,
    scanFrom (rounds + 1) seen ((quoteWord word).map (⟨·, false⟩) ++ after) tokens =
      scanFrom rounds before after (⟨word, start, stop, .word⟩ :: tokens) := by
  let tail : List Marked := (word.flatMap quotedChar ++ ['\'']).map (⟨·, false⟩)
  have marks : (quoteWord word).map (⟨·, false⟩) = (⟨'\'', false⟩ : Marked) :: tail := rfl
  have inside : ∀ mark ∈ tail, inWord mark = true := by
    intro mark member
    obtain ⟨char, _, rfl⟩ := List.mem_map.mp member
    rfl
  have stops : after.takeWhile inWord = [] ∧ after.dropWhile inWord = after := by
    cases after with
    | nil => exact ⟨rfl, rfl⟩
    | cons mark more =>
        have ends : inWord mark = false := by
          simp [inWord, parted mark rfl]
        rw [List.takeWhile_cons_of_neg (by simp [ends]), List.dropWhile_cons_of_neg (by simp [ends])]
        exact ⟨rfl, rfl⟩
  have taken : (tail ++ after).takeWhile inWord = tail := by
    rw [List.takeWhile_append_of_pos inside, stops.1, List.append_nil]
  have left : (tail ++ after).dropWhile inWord = after := by
    rw [List.dropWhile_append_of_pos inside, stops.2]
  have spelled : ((⟨'\'', false⟩ : Marked) :: tail).map Marked.char = quoteWord word := by
    rw [← marks, List.map_map]
    exact List.map_id _
  refine ⟨((⟨'\'', false⟩ : Marked) :: tail).reverse ++ seen, seen.length,
    seen.length + ((⟨'\'', false⟩ : Marked) :: tail).length, ?_⟩
  rw [marks, List.cons_append, scanFrom]
  have sees : (fun next : Marked => !(next.isOneOf blanks || next.isOneOf shlexPunctuation)) =
      inWord := rfl
  rw [if_neg (by decide), if_neg (by decide), if_neg (by decide), sees]
  dsimp only
  rw [taken, left, spelled, quoted_value]

theorem command_scanned (words : List Str) (rounds : Nat) (seen : List Marked)
    (tokens : List Token) (enough : (commandMarks words).length ≤ rounds) :
    ∃ read, scanFrom rounds seen (commandMarks words) tokens = some (tokens.reverse ++ read) ∧
      WordTokens words read := by
  induction words generalizing rounds seen tokens with
  | nil => exact ⟨[], by cases rounds <;> simp [commandMarks, scanFrom], rfl, by intros; contradiction⟩
  | cons word others ih =>
      obtain ⟨rounds, rfl⟩ : ∃ less, rounds = less + 1 := by
        refine ⟨rounds - 1, ?_⟩
        cases others <;> simp [commandMarks, quoteWord] at enough <;> omega
      cases others with
      | nil =>
          obtain ⟨before, start, stop, scanned⟩ :=
            word_scanned word [] (by intros; contradiction) rounds seen tokens
          rw [List.append_nil] at scanned
          refine ⟨[⟨word, start, stop, .word⟩], ?_, rfl, by simp⟩
          rw [commandMarks, scanned]
          cases rounds <;> simp [scanFrom]
      | cons next more =>
          rw [command_marks_cons, List.length_append, List.length_cons] at enough
          have filled : 0 < ((quoteWord word).map (Marked.mk · false)).length := by
            simp [quoteWord]
          obtain ⟨rounds, rfl⟩ : ∃ less, rounds = less + 1 := ⟨rounds - 1, by omega⟩
          obtain ⟨before, start, stop, scanned⟩ := word_scanned word
            (⟨' ', true⟩ :: commandMarks (next :: more)) (by
              rintro mark first
              cases first
              rfl) (rounds + 1) seen tokens
          obtain ⟨read, rest, values, kinds⟩ := ih rounds (⟨' ', true⟩ :: before)
            (⟨word, start, stop, .word⟩ :: tokens) (by omega)
          refine ⟨⟨word, start, stop, .word⟩ :: read, ?_, by rw [List.map_cons, values], ?_⟩
          · have skipped : scanFrom (rounds + 1) before
                (⟨' ', true⟩ :: commandMarks (next :: more)) (⟨word, start, stop, .word⟩ :: tokens) =
                scanFrom rounds (⟨' ', true⟩ :: before) (commandMarks (next :: more))
                  (⟨word, start, stop, .word⟩ :: tokens) := by
              rw [scanFrom, if_pos (by decide)]
            rw [command_marks_cons, scanned, skipped, rest]
            simp
          · rintro token (_ | ⟨_, later⟩)
            · rfl
            · exact kinds token later

theorem quoted_single {word : Str} (single : '\n' ∉ word) : '\n' ∉ quoteWord word := by
  unfold quoteWord
  rw [List.mem_cons, List.mem_append, List.mem_flatMap]
  rintro (quote | ⟨char, inside, spelled⟩ | quote)
  · cases quote
  · by_cases quote : char = '\''
    · rw [quotedChar, if_pos quote] at spelled
      revert spelled
      decide
    · rw [quotedChar, if_neg quote, List.mem_singleton] at spelled
      exact single (spelled ▸ inside)
  · revert quote
    decide

theorem command_single {words : List Str} (single : ∀ word ∈ words, '\n' ∉ word) :
    '\n' ∉ quoteCommand words := by
  unfold quoteCommand
  induction words with
  | nil => exact List.not_mem_nil
  | cons word others ih =>
      have first := quoted_single (single word List.mem_cons_self)
      have rest := ih fun other member => single other (List.mem_cons_of_mem _ member)
      cases others with
      | nil => exact first
      | cons next more =>
          simp only [List.map_cons, join, List.mem_append, not_or]
          exact ⟨⟨first, by decide⟩, rest⟩

section Feed

variable [UnicodeDatabase]

theorem words_fed {words : List Str} {tokens : List Token} (read : WordTokens words tokens)
    (builder : PipelineBuilder) (previous : Option Token) :
    builder.feedTokens previous tokens =
      .ok { builder with curArgv := builder.curArgv ++ words } := by
  obtain ⟨values, kinds⟩ := read
  induction tokens generalizing words builder previous with
  | nil =>
      rw [List.map_nil] at values
      rw [← values, PipelineBuilder.feedTokens, List.append_nil]
  | cons token rest ih =>
      have word : token.kind = .word := kinds token List.mem_cons_self
      have fed : builder.feedToken previous token rest.head? =
          .ok (builder.addWord token.value, .token) := by
        rw [PipelineBuilder.feedToken, if_pos word]
      have further := ih (builder.addWord token.value) (some token) rfl
        (fun other member => kinds other (List.mem_cons_of_mem _ member))
      rw [PipelineBuilder.feedTokens, fed]
      dsimp only
      rw [further, ← values, PipelineBuilder.addWord]
      simp

theorem words_line {words : List Str} {tokens : List Token} (read : WordTokens words tokens)
    (some : words ≠ []) : PipelineBuilder.initial.feedLine tokens =
      .ok ⟨[⟨.first, [⟨words, .capture⟩]⟩], .semicolon, [], [], .capture⟩ := by
  have settled : PipelineBuilder.endsDangling tokens = false := by
    unfold PipelineBuilder.endsDangling
    cases last : tokens.getLast? with
    | none => rfl
    | some token =>
        have word := read.2 token (List.mem_of_getLast? last)
        simp [word]
  rw [PipelineBuilder.feedLine, words_fed read]
  dsimp only
  rw [settled]
  simp [PipelineBuilder.initial, PipelineBuilder.endPipeline, PipelineBuilder.endStage, some,
    Connector.dangles]

/-- Words in single quotes are parsed as one stage with these words as its arguments. -/
theorem parse_quoted (words : List Str) (some : words ≠ [])
    (single : ∀ word ∈ words, '\n' ∉ word) :
    parse (quoteCommand words) = .ok [⟨.first, [⟨words, .capture⟩]⟩] := by
  obtain ⟨mask, masked, marked⟩ := command_marked words
  have size : (commandMarks words).length ≤ (quoteCommand words).length := by
    rw [← marked, List.length_zipWith]
    exact min_le_left _ _
  obtain ⟨tokens, scanned, read⟩ := command_scanned words _ [] [] size
  have whole : scan (quoteCommand words) = .some tokens := by
    rw [scan, masked, Option.bind_some, marked, scanned]
    rfl
  rw [parse, split_on_word (command_single single), parseLines, whole]
  dsimp only
  rw [words_line read some]
  rfl

end Feed

theorem parse_quoted_operators :
    @parse asciiDatabase (quoteCommand ["grep", "it's 2>&1 | # \"x\\", ""]) =
      .ok [⟨.first, [⟨["grep", "it's 2>&1 | # \"x\\", ""], .capture⟩]⟩] :=
  @parse_quoted asciiDatabase _ (by decide) (by decide)

end Defender.Execution
