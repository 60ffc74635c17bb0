import Mathlib.Data.List.Basic

/-!
# A backtracking pattern matcher

Patterns are matched in the order a backtracking engine tries them: the left
alternative first, a greedy repetition longest first, a lazy one shortest first.
The continuation is what the rest of the pattern still has to match, so a choice
made early is revised when the rest fails. A repetition runs on the length of
the remaining text and every round must consume a character.
-/

namespace Defender.Library.Regex

abbrev Text := List Char

/-- Where a match stands: characters consumed so far, the last of them, what is
left to read, and the captured groups, latest first. -/
structure Cursor where
  offset : Nat
  previous : Option Char
  rest : Text
  captures : List (Nat × Text)
deriving DecidableEq, Repr

def Cursor.start (text : Text) : Cursor := ⟨0, none, text, []⟩

/-- Step over one character; at the end of the text nothing moves. -/
def Cursor.advance (cursor : Cursor) : Cursor :=
  match cursor.rest with
  | [] => cursor
  | head :: tail => ⟨cursor.offset + 1, some head, tail, cursor.captures⟩

def Cursor.capture (index : Nat) (opened closed : Cursor) : Cursor :=
  { closed with captures :=
      (index, opened.rest.take (closed.offset - opened.offset)) :: closed.captures }

def Cursor.group (cursor : Cursor) (index : Nat) : Option Text :=
  (cursor.captures.find? fun entry => entry.1 == index).map Prod.snd

inductive Pattern where
  | epsilon
  | char (accepts : Char → Bool)
  | seq (first second : Pattern)
  | alt (first second : Pattern)
  | star (greedy : Bool) (body : Pattern)
  | group (index : Nat) (body : Pattern)
  | endOfText
  | boundary (word : Char → Bool)
  | notAhead (body : Pattern)

abbrev Continuation := Cursor → Option Cursor

/-- One repetition, `fuel` rounds at most. -/
def repeatFrom (round : Cursor → Continuation → Option Cursor) (greedy : Bool) :
    Nat → Cursor → Continuation → Option Cursor
  | 0, cursor, done => done cursor
  | fuel + 1, cursor, done =>
      let further := round cursor fun next =>
        if next.rest.length < cursor.rest.length then
          repeatFrom round greedy fuel next done
        else none
      if greedy then further.or (done cursor) else (done cursor).or further

def wordAt (word : Char → Bool) (here : Option Char) : Bool :=
  match here with
  | none => false
  | some char => word char

def Pattern.run : Pattern → Cursor → Continuation → Option Cursor
  | .epsilon, cursor, done => done cursor
  | .char accepts, cursor, done =>
      match cursor.rest with
      | [] => none
      | head :: _ => if accepts head then done cursor.advance else none
  | .seq first second, cursor, done =>
      first.run cursor fun middle => second.run middle done
  | .alt first second, cursor, done =>
      (first.run cursor done).or (second.run cursor done)
  | .star greedy body, cursor, done =>
      repeatFrom body.run greedy cursor.rest.length cursor done
  | .group index body, cursor, done =>
      body.run cursor fun closed => done (cursor.capture index closed)
  -- `$` also matches before a final line feed.
  | .endOfText, cursor, done =>
      if cursor.rest = [] ∨ cursor.rest = ['\n'] then done cursor else none
  | .boundary word, cursor, done =>
      if wordAt word cursor.previous ≠ wordAt word cursor.rest.head? then
        done cursor
      else none
  | .notAhead body, cursor, done =>
      match body.run cursor some with
      | none => done cursor
      | some _ => none

def Pattern.plus (body : Pattern) : Pattern := .seq body (.star true body)

def Pattern.optional (body : Pattern) : Pattern := .alt body .epsilon

def Pattern.literal : Text → Pattern
  | [] => .epsilon
  | head :: tail => .seq (.char (· == head)) (Pattern.literal tail)

/-- The alternatives in the order written, as in `a|b|c`. -/
def Pattern.oneOf : List Pattern → Pattern
  | [] => .char fun _ => false
  | [single] => single
  | first :: others => .alt first (Pattern.oneOf others)

def Pattern.sequence : List Pattern → Pattern
  | [] => .epsilon
  | first :: others => .seq first (Pattern.sequence others)

def Pattern.matchPrefix (pattern : Pattern) (text : Text) : Option Cursor :=
  pattern.run (.start text) some

def Pattern.fullMatch (pattern : Pattern) (text : Text) : Option Cursor :=
  pattern.run (.start text) fun cursor => if cursor.rest = [] then some cursor else none

def Pattern.matches (pattern : Pattern) (text : Text) : Bool :=
  (pattern.matchPrefix text).isSome

def Pattern.fullMatches (pattern : Pattern) (text : Text) : Bool :=
  (pattern.fullMatch text).isSome

structure Found where
  start : Nat
  stop : Nat
  text : Text
  cursor : Cursor
deriving DecidableEq, Repr

/-- Matches from left to right without overlap. After a match the scan resumes
at its end; an empty match is recorded and stepped over. -/
def Pattern.findFrom (pattern : Pattern) : Nat → Cursor → List Found
  | 0, _ => []
  | fuel + 1, cursor =>
      match pattern.run { cursor with captures := [] } some with
      | none => if cursor.rest = [] then [] else pattern.findFrom fuel cursor.advance
      | some stop =>
          ⟨cursor.offset, stop.offset, cursor.rest.take (stop.offset - cursor.offset), stop⟩ ::
            (if stop.offset = cursor.offset then
              if cursor.rest = [] then [] else pattern.findFrom fuel cursor.advance
            else pattern.findFrom fuel stop)

def Pattern.findAll (pattern : Pattern) (text : Text) : List Found :=
  pattern.findFrom (text.length + 1) (.start text)

def Pattern.occursIn (pattern : Pattern) (text : Text) : Bool :=
  !(pattern.findAll text).isEmpty

section Laws

variable (done : Continuation)

theorem literal_run (word rest : Text) (cursor : Cursor)
    (reads : cursor.rest = word ++ rest) :
    (Pattern.literal word).run cursor done =
      done ⟨cursor.offset + word.length, (word.getLast?).or cursor.previous, rest,
        cursor.captures⟩ := by
  induction word generalizing cursor with
  | nil =>
      have same : cursor = ⟨cursor.offset, cursor.previous, rest, cursor.captures⟩ := by
        cases cursor
        simpa using reads
      simpa [Pattern.literal, Pattern.run] using congrArg done same
  | cons head tail ih =>
      have stepped : cursor.advance =
          ⟨cursor.offset + 1, some head, tail ++ rest, cursor.captures⟩ := by
        simp [Cursor.advance, reads]
      simp only [Pattern.literal, Pattern.run, reads, List.cons_append, beq_self_eq_true,
        if_true]
      rw [ih _ (by rw [stepped]), stepped]
      simp only [List.length_cons]
      congr 2
      · omega
      · cases tail <;> simp [List.getLast?_cons]

theorem literal_run_none (word : Text) (cursor : Cursor)
    (differs : ¬ word <+: cursor.rest) :
    (Pattern.literal word).run cursor done = none := by
  induction word generalizing cursor with
  | nil => exact absurd List.nil_prefix differs
  | cons head tail ih =>
      cases rest : cursor.rest with
      | nil => simp [Pattern.literal, Pattern.run, rest]
      | cons first others =>
          by_cases same : first = head
          · subst same
            have stepped : cursor.advance.rest = others := by simp [Cursor.advance, rest]
            have further : ¬ tail <+: cursor.advance.rest := by
              rw [stepped]
              intro isPrefix
              exact differs (by rw [rest]; exact (List.prefix_cons_inj first).mpr isPrefix)
            simpa [Pattern.literal, Pattern.run, rest] using ih cursor.advance further
          · simp [Pattern.literal, Pattern.run, rest, same]

end Laws

end Defender.Library.Regex
