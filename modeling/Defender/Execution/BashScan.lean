import Defender.Python.Text

/-!
# The tokens of a command line

Structure is read off the raw line: which characters stand as themselves is
decided first, and an operator or a comment is one only where its characters do.
Quotes and escapes are resolved word by word afterwards.
-/

namespace Defender.Execution

open Defender.Python

def operatorChars : List Char := ['<', '>', '|', '&', ';']

def shlexPunctuation : List Char := ['(', ')', ';', '<', '>', '|', '&']

def blanks : List Char := [' ', '\t', '\n']

def commentChar : Char := '#'

def stderrFd : Str := "2"

inductive TokenKind where
  | word
  | operator
  | fdOperator
deriving DecidableEq, Repr

structure Token where
  value : Str
  start : Nat
  stop : Nat
  kind : TokenKind
deriving DecidableEq, Repr

/-- Which characters stand as themselves: unquoted, unescaped, and no quote or escape of
the syntax. -/
def literalMaskFrom : Option Char → Str → Option (List Bool)
  | none, [] => some []
  | some _, [] => none
  | none, char :: rest =>
      if char = '\\' then
        match rest with
        | [] => some [false]
        | _ :: more => (literalMaskFrom none more).map (false :: false :: ·)
      else if char = '\'' ∨ char = '"' then (literalMaskFrom (some char) rest).map (false :: ·)
      else (literalMaskFrom none rest).map (true :: ·)
  | some quote, char :: rest =>
      if char = '\\' ∧ quote = '"' then
        match rest with
        | [] => none
        | _ :: more => (literalMaskFrom (some quote) more).map (false :: false :: ·)
      else (literalMaskFrom (if char = quote then none else some quote) rest).map (false :: ·)

def literalMask (line : Str) : Option (List Bool) := literalMaskFrom none line

def doubleQuotedValue : Str → Option (Str × Str)
  | [] => none
  | [char] => if char = '"' then some ([], []) else none
  | char :: next :: more =>
      if char = '"' then some ([], next :: more)
      else if char = '\\' ∧ next ∈ ['"', '\\', '$', Char.ofNat 0x60] then
        (doubleQuotedValue more).map fun (value, after) => (next :: value, after)
      else (doubleQuotedValue (next :: more)).map fun (value, after) => (char :: value, after)

def singleQuotedValue : Str → Option (Str × Str)
  | [] => none
  | char :: rest =>
      if char = '\'' then some ([], rest)
      else (singleQuotedValue rest).map fun (value, after) => (char :: value, after)

/-- The loop of `wordValue`; every round drops a character, so the length of the span
is rounds enough. -/
def resolveFrom : Nat → Str → Option Str
  | _, [] => some []
  | 0, _ :: _ => none
  | rounds + 1, char :: rest =>
      if char = '\\' then
        match rest with
        | [] => none
        | escaped :: more => (resolveFrom rounds more).map (escaped :: ·)
      else if char = '\'' then
        (singleQuotedValue rest).bind fun (value, after) =>
          (resolveFrom rounds after).map (value ++ ·)
      else if char = '"' then
        (doubleQuotedValue rest).bind fun (value, after) =>
          (resolveFrom rounds after).map (value ++ ·)
      else (resolveFrom rounds rest).map (char :: ·)

/-- The value a word's raw text stands for. -/
def wordValue (span : Str) : Option Str :=
  if span.any (['\'', '"', '\\'].contains ·) then resolveFrom span.length span else some span

/-- A character with its place in the mask. -/
structure Marked where
  char : Char
  literal : Bool
deriving DecidableEq, Repr

def Marked.isOneOf (chars : List Char) (marked : Marked) : Bool :=
  marked.literal && chars.contains marked.char

/-- Whether the operator run that starts after `seen` has a bare `2` glued to its left;
`seen` and `tokens` are read backwards. -/
def isFdPrefix (seen : List Marked) (tokens : List Token) : Bool :=
  match seen with
  | [] => false
  | last :: before =>
      last.literal && (last.char == '2') &&
        (tokens.head?.any fun token => token.value == stderrFd) &&
        match before with
        | [] => true
        | previous :: _ => previous.isOneOf blanks || previous.isOneOf operatorChars

/-- The preceding bare digit becomes the descriptor. -/
def markFd : List Token → List Token
  | [] => []
  | previous :: earlier => { previous with kind := .fdOperator } :: earlier

/-- The loop of `scan`; every round reads a character, so the length of the line is
rounds enough. -/
def scanFrom : Nat → List Marked → List Marked → List Token → Option (List Token)
  | _, _, [], tokens => some tokens.reverse
  | 0, _, _ :: _, _ => none
  | rounds + 1, seen, mark :: rest, tokens =>
      if mark.isOneOf blanks then scanFrom rounds (mark :: seen) rest tokens
      else if mark.isOneOf [commentChar] then some tokens.reverse
      else if mark.isOneOf shlexPunctuation then
        let run := mark :: rest.takeWhile (Marked.isOneOf shlexPunctuation)
        let marked := if isFdPrefix seen tokens then markFd tokens else tokens
        scanFrom rounds (run.reverse ++ seen) (rest.dropWhile (Marked.isOneOf shlexPunctuation))
          (⟨run.map Marked.char, seen.length, seen.length + run.length, .operator⟩ :: marked)
      else
        let inWord := fun next : Marked => !(next.isOneOf blanks || next.isOneOf shlexPunctuation)
        let span := mark :: rest.takeWhile inWord
        match wordValue (span.map Marked.char) with
        | none => none
        | some value =>
            scanFrom rounds (span.reverse ++ seen) (rest.dropWhile inWord)
              (⟨value, seen.length, seen.length + span.length, .word⟩ :: tokens)

/-- The tokens of a line, or none when a quote never closes. -/
def scan (line : Str) : Option (List Token) :=
  (literalMask line).bind fun mask =>
    scanFrom line.length [] (List.zipWith Marked.mk line mask) []

/-- A descriptor is the bare `2`. -/
def FdsRead (tokens : List Token) : Prop :=
  ∀ token ∈ tokens, token.kind = .fdOperator → token.value = stderrFd

theorem scan_from_fds {rounds : Nat} {seen rest : List Marked} {tokens read : List Token}
    (fds : FdsRead tokens) (scanned : scanFrom rounds seen rest tokens = some read) :
    FdsRead read := by
  have turned : FdsRead tokens.reverse := fun token inside => fds token (List.mem_reverse.mp inside)
  induction rounds generalizing seen rest tokens with
  | zero =>
      rcases rest with - | ⟨mark, rest⟩
      · exact Option.some.inj scanned ▸ turned
      · exact absurd scanned (by simp [scanFrom])
  | succ rounds ih =>
      rcases rest with - | ⟨mark, rest⟩
      · exact Option.some.inj scanned ▸ turned
      have added : ∀ (token : Token) (held : List Token), token.kind ≠ .fdOperator →
          FdsRead held → FdsRead (token :: held) := by
        intro token held plain earlier other inside isFd
        rcases List.mem_cons.mp inside with rfl | before
        · exact absurd isFd plain
        · exact earlier other before isFd
      have again : ∀ {seen rest : List Marked} {held : List Token}, FdsRead held →
          scanFrom rounds seen rest held = some read → FdsRead read :=
        fun earlier step => ih earlier step
          fun token inside => earlier token (List.mem_reverse.mp inside)
      unfold scanFrom at scanned
      split at scanned
      · exact again fds scanned
      · split at scanned
        · exact Option.some.inj scanned ▸ turned
        · split at scanned
          · refine again (added _ _ (by simp) ?_) scanned
            split
            · rename_i glued
              rcases tokens with - | ⟨last, earlier⟩
              · exact fds
              · intro other inside isFd
                rcases List.mem_cons.mp inside with rfl | before
                · rcases seen with - | ⟨previous, before⟩
                  · simp [isFdPrefix] at glued
                  · simp only [isFdPrefix, List.head?_cons, Option.any_some, Bool.and_eq_true,
                      beq_iff_eq] at glued
                    exact glued.1.2
                · exact fds other (List.mem_cons_of_mem _ before) isFd
            · exact fds
          · dsimp only at scanned
            split at scanned
            · contradiction
            · exact again (added _ _ (by simp) fds) scanned

theorem scan_fds {line : Str} {tokens : List Token} (scanned : scan line = some tokens) :
    FdsRead tokens := by
  obtain ⟨mask, _, read⟩ := Option.bind_eq_some_iff.mp scanned
  exact scan_from_fds (fun _ inside => absurd inside List.not_mem_nil) read

end Defender.Execution
