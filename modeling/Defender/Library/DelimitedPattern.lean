import Defender.Library.Regex
import Defender.Library.Delimited

/-!
# A lazy delimiter pattern reads the delimited regions

`opener (.*?) closer` with a dot that matches every character. The scan of the
backtracking engine is shown to report exactly the regions of `Delimited`, each
with its offsets.
-/

namespace Defender.Library.DelimitedPattern

open Defender.Library.Regex Defender.Library.Delimited

def anyChar : Pattern := .char fun _ => true

def delimited (opener closer : Text) : Pattern :=
  .seq (.literal opener) (.seq (.group 1 (.star false anyChar)) (.literal closer))

/-- The regions with the offsets of their delimiters, from `offset` on. -/
def located (opener closer : Text) : Nat → List (Text × Text) → List (Nat × Nat × Text)
  | _, [] => []
  | offset, (before, body) :: more =>
      let start := offset + before.length
      let stop := start + opener.length + body.length + closer.length
      (start, stop, body) :: located opener closer stop more

section Lazy

variable (done : Continuation)

theorem lazy_round (fuel : Nat) (cursor : Cursor) :
    repeatFrom anyChar.run false (fuel + 1) cursor done =
      (done cursor).or
        (if cursor.rest = [] then none
          else repeatFrom anyChar.run false fuel cursor.advance done) := by
  cases rest : cursor.rest with
  | nil => simp [repeatFrom, anyChar, Pattern.run, rest]
  | cons head tail => simp [repeatFrom, anyChar, Pattern.run, rest, Cursor.advance]

/-- The shortest body whose end the continuation accepts. -/
theorem lazy_stops (body rest : Text) (cursor : Cursor) (fuel : Nat)
    (enough : cursor.rest.length ≤ fuel) (reads : cursor.rest = body ++ rest)
    (earlier : ∀ left right previous, cursor.rest = left ++ right →
      left.length < body.length →
      done ⟨cursor.offset + left.length, previous, right, cursor.captures⟩ = none)
    (accepts : ∀ previous,
      (done ⟨cursor.offset + body.length, previous, rest, cursor.captures⟩).isSome) :
    ∃ previous, repeatFrom anyChar.run false fuel cursor done =
      done ⟨cursor.offset + body.length, previous, rest, cursor.captures⟩ := by
  induction body generalizing cursor fuel with
  | nil =>
      refine ⟨cursor.previous, ?_⟩
      have here : cursor = ⟨cursor.offset, cursor.previous, rest, cursor.captures⟩ := by
        cases cursor
        simpa using reads
      have some := accepts cursor.previous
      rw [List.length_nil, Nat.add_zero, ← here] at some ⊢
      cases fuel with
      | zero => rfl
      | succ fuel => rw [lazy_round, Option.or_of_isSome some]
  | cons head tail ih =>
      obtain ⟨fuel, rfl⟩ : ∃ less, fuel = less + 1 := by
        refine ⟨fuel - 1, ?_⟩
        rw [reads] at enough
        simp only [List.cons_append, List.length_cons] at enough
        omega
      have stepped : cursor.advance =
          ⟨cursor.offset + 1, some head, tail ++ rest, cursor.captures⟩ := by
        simp [Cursor.advance, reads]
      have refused : done cursor = none := by
        simpa using earlier [] cursor.rest cursor.previous rfl (by simp)
      have shift : ∀ count, cursor.offset + 1 + count = cursor.offset + (count + 1) := by
        intro count
        omega
      obtain ⟨previous, same⟩ := ih cursor.advance fuel
        (by rw [stepped]; rw [reads] at enough; simpa using enough)
        (by rw [stepped])
        (by
          intro left right previous split shorter
          rw [stepped] at split ⊢
          rw [show cursor.offset + 1 + left.length =
            cursor.offset + (head :: left).length from shift _]
          exact earlier (head :: left) right previous
            (by rw [reads]; simpa using split) (by simpa using shorter))
        (by
          intro previous
          rw [stepped, shift]
          exact accepts previous)
      refine ⟨previous, ?_⟩
      rw [lazy_round, refused, Option.none_or, if_neg (by simp [reads]), same, stepped]
      simp only [shift, List.length_cons]

theorem lazy_fails (cursor : Cursor) (fuel : Nat)
    (refused : ∀ left right previous, cursor.rest = left ++ right →
      done ⟨cursor.offset + left.length, previous, right, cursor.captures⟩ = none) :
    repeatFrom anyChar.run false fuel cursor done = none := by
  induction fuel generalizing cursor with
  | zero => simpa [repeatFrom] using refused [] cursor.rest cursor.previous rfl
  | succ fuel ih =>
      have here : done cursor = none := by
        simpa using refused [] cursor.rest cursor.previous rfl
      rw [lazy_round, here, Option.none_or]
      split
      · rfl
      · cases rest : cursor.rest with
        | nil => contradiction
        | cons head tail =>
            have stepped : cursor.advance =
                ⟨cursor.offset + 1, some head, tail, cursor.captures⟩ := by
              simp [Cursor.advance, rest]
            apply ih
            intro left right previous split
            rw [stepped] at split ⊢
            rw [show cursor.offset + 1 + left.length =
              cursor.offset + (head :: left).length by simp only [List.length_cons]; omega]
            exact refused (head :: left) right previous (by rw [rest]; simpa using split)

end Lazy

section Scan

variable {opener closer : Text}

theorem delimited_unopened (cursor : Cursor) (done : Continuation)
    (differs : ¬ opener <+: cursor.rest) :
    (delimited opener closer).run cursor done = none := by
  simp only [delimited, Pattern.run]
  exact literal_run_none _ opener cursor differs

theorem delimited_closed (opener : Text) (offset : Nat) (last : Option Char) (inner body rest : Text)
    (closed : findWord closer inner = some (body, rest)) :
    ∃ previous, (delimited opener closer).run ⟨offset, last, opener ++ inner, []⟩ some =
      some ⟨offset + opener.length + body.length + closer.length, previous, rest,
        [(1, body)]⟩ := by
  obtain ⟨split, leftmost⟩ := find_word_sound closed
  simp only [delimited, Pattern.run]
  rw [literal_run _ opener inner _ rfl]
  obtain ⟨previous, same⟩ := lazy_stops
    (fun ended => (Pattern.literal closer).run
      (Cursor.capture 1 ⟨offset + opener.length, (opener.getLast?).or last, inner, []⟩ ended)
      some)
    body (closer ++ rest) ⟨offset + opener.length, (opener.getLast?).or last, inner, []⟩
    inner.length (le_refl _) (by simpa using split)
    (by
      intro left right previous other shorter
      apply literal_run_none
      rintro ⟨tail, tailSplit⟩
      have occurrence : inner = left ++ closer ++ tail := by
        rw [List.append_assoc, tailSplit]
        exact other
      exact absurd (leftmost left tail occurrence) (by omega))
    (by
      intro previous
      rw [literal_run _ closer rest _ rfl]
      rfl)
  refine ⟨(closer.getLast?).or previous, ?_⟩
  rw [same, literal_run _ closer rest _ rfl]
  have consumed : offset + opener.length + body.length - (offset + opener.length) =
      body.length := by omega
  simp only [Cursor.capture, consumed]
  rw [split, List.append_assoc, List.take_left]

theorem delimited_unclosed (offset : Nat) (last : Option Char) (inner : Text)
    (absent : findWord closer inner = none) :
    (delimited opener closer).run ⟨offset, last, opener ++ inner, []⟩ some = none := by
  simp only [delimited, Pattern.run]
  rw [literal_run _ opener inner _ rfl]
  apply lazy_fails
  intro left right previous split
  apply literal_run_none
  rintro ⟨tail, tailSplit⟩
  apply find_word_none_iff.mp absent
  refine ⟨left, tail, ?_⟩
  rw [List.append_assoc, tailSplit]
  exact split.symm

theorem regions_skip {head : Char} {tail : Text} (visible : opener ≠ [])
    (differs : ¬ opener <+: head :: tail) (offset : Nat) :
    located opener closer offset (regions opener closer (head :: tail)) =
      located opener closer (offset + 1) (regions opener closer tail) := by
  have shifted := find_word_cons differs
  cases opened : findWord opener tail with
  | none =>
      rw [opened] at shifted
      rw [(regions_unopened closer shifted).1, (regions_unopened closer opened).1]
      rfl
  | some cut =>
      obtain ⟨before, inner⟩ := cut
      rw [opened, Option.map_some] at shifted
      cases closed : findWord closer inner with
      | none =>
          rw [(regions_unclosed shifted closed).1, (regions_unclosed opened closed).1]
          rfl
      | some innerCut =>
          obtain ⟨body, rest⟩ := innerCut
          rw [regions_step visible shifted closed, regions_step visible opened closed]
          have moved : offset + (head :: before).length = offset + 1 + before.length := by
            simp only [List.length_cons]
            omega
          simp only [located, moved]

theorem regions_none_behind {inner tail : Text} {head : Char}
    (text : opener ++ inner = head :: tail)
    (absent : findWord closer inner = none) : regions opener closer tail = [] := by
  cases opened : findWord opener tail with
  | none => exact (regions_unopened closer opened).1
  | some cut =>
      obtain ⟨before, later⟩ := cut
      have split := (find_word_sound opened).1
      have suffix : later <:+ inner := by
        have whole : opener ++ inner = head :: before ++ opener ++ later := by
          rw [text, split]
          simp
        have lengths := congrArg List.length whole
        simp only [List.length_append, List.length_cons] at lengths
        exact List.suffix_of_suffix_length_le ⟨head :: before ++ opener, whole.symm⟩
          (List.suffix_append opener inner) (by omega)
      apply (regions_unclosed opened _).1
      rw [find_word_none_iff] at absent ⊢
      exact fun present => absent (present.trans suffix.isInfix)

theorem find_from_located (visible : opener ≠ []) (fuel offset : Nat) (last : Option Char)
    (text : Text) (captures : List (Nat × Text)) (enough : text.length < fuel) :
    ((delimited opener closer).findFrom fuel ⟨offset, last, text, captures⟩).map
        (fun found => (found.start, found.stop, (found.cursor.group 1).getD [])) =
      located opener closer offset (regions opener closer text) := by
  induction fuel generalizing offset last text captures with
  | zero => omega
  | succ fuel ih =>
      rw [Pattern.findFrom]
      by_cases isPrefix : opener <+: text
      · obtain ⟨inner, rfl⟩ := isPrefix
        have opened := find_word_of_prefix opener inner
        cases closed : findWord closer inner with
        | none =>
            rw [(regions_unclosed opened closed).1]
            simp only [delimited_unclosed offset last inner closed]
            cases whole : opener ++ inner with
            | nil => exact absurd (List.append_eq_nil_iff.mp whole).1 visible
            | cons head tail =>
                rw [if_neg (by simp)]
                simp only [Cursor.advance]
                rw [ih _ _ _ _ (by rw [whole] at enough; simpa using enough),
                  regions_none_behind whole closed]
                rfl
        | some cut =>
            obtain ⟨body, rest⟩ := cut
            obtain ⟨previous, matched⟩ := delimited_closed opener offset last
              inner body rest closed
            have positive := List.length_pos_iff.mpr visible
            have within := find_word_length closed
            rw [regions_step visible opened closed]
            simp only [matched, List.map_cons, located, List.length_nil, Nat.add_zero]
            rw [if_neg (by omega), ih _ _ _ _ (by simp at enough; omega)]
            simp [Cursor.group]
      · rw [delimited_unopened _ _ isPrefix]
        cases text with
        | nil =>
            have absent : findWord opener [] = none := by simp [findWord, visible]
            simp [(regions_unopened closer absent).1, located]
        | cons head tail =>
            rw [if_neg (by simp), regions_skip visible isPrefix]
            simp only [Cursor.advance]
            exact ih _ _ _ _ (by simpa using enough)

theorem find_all_located (visible : opener ≠ []) (text : Text) :
    ((delimited opener closer).findAll text).map
        (fun found => (found.start, found.stop, (found.cursor.group 1).getD [])) =
      located opener closer 0 (regions opener closer text) :=
  find_from_located visible (text.length + 1) 0 none text [] (by omega)

end Scan

section Located

variable {opener closer : Text}

/-- A region at its offsets: the body ends at the first closer behind the opener. -/
def EnclosedAt (opener closer text : Text) (start stop : Nat) (body : Text) : Prop :=
  ∃ before inner after, text = before ++ opener ++ inner ∧ before.length = start ∧
    inner = body ++ closer ++ after ∧
    (∀ left right, inner = left ++ closer ++ right → body.length ≤ left.length) ∧
    stop = start + opener.length + body.length + closer.length

theorem located_bodies (offset : Nat) (read : List (Text × Text)) :
    (located opener closer offset read).map (fun region => region.2.2) =
      read.map Prod.snd := by
  induction read generalizing offset with
  | nil => rfl
  | cons head tail ih => simp only [located, List.map_cons, ih]

theorem located_prefix (offset : Nat) (read more : List (Text × Text)) :
    located opener closer offset read <+: located opener closer offset (read ++ more) := by
  induction read generalizing offset with
  | nil => exact List.nil_prefix
  | cons head tail ih =>
      simp only [located, List.cons_append]
      exact (List.prefix_cons_inj _).mpr (ih _)

theorem located_from (offset : Nat) (read : List (Text × Text)) :
    ∀ region ∈ located opener closer offset read, offset ≤ region.1 := by
  induction read generalizing offset with
  | nil => simp [located]
  | cons head tail ih =>
      intro region member
      rw [located, List.mem_cons] at member
      rcases member with rfl | later
      · simp
      · have := ih _ region later
        omega

theorem located_increasing (offset : Nat) (read : List (Text × Text)) :
    (located opener closer offset read).Pairwise
      (fun earlier later => earlier.2.1 ≤ later.1) := by
  induction read generalizing offset with
  | nil => exact List.Pairwise.nil
  | cons head tail ih =>
      rw [located, List.pairwise_cons]
      exact ⟨located_from _ tail, ih _⟩

theorem located_enclosed (visible : opener ≠ []) (skipped text : Text) :
    ∀ region ∈ located opener closer skipped.length (regions opener closer text),
      EnclosedAt opener closer (skipped ++ text) region.1 region.2.1 region.2.2 := by
  induction size : text.length using Nat.strong_induction_on generalizing skipped text with
  | _ size ih =>
      cases opened : findWord opener text with
      | none => simp [(regions_unopened closer opened).1, located]
      | some cut =>
          rcases cut with ⟨before, inner⟩
          cases closed : findWord closer inner with
          | none => simp [(regions_unclosed opened closed).1, located]
          | some innerCut =>
              rcases innerCut with ⟨body, rest⟩
              have outer := (find_word_sound opened).1
              have within := find_word_sound closed
              have shorter := region_shrinks visible opened closed
              have stop : skipped.length + before.length + opener.length + body.length +
                  closer.length =
                  (skipped ++ before ++ opener ++ body ++ closer).length := by
                simp only [List.length_append]
              have whole : skipped ++ text =
                  skipped ++ before ++ opener ++ body ++ closer ++ rest := by
                rw [outer, within.1]
                simp
              rw [regions_step visible opened closed]
              intro region member
              simp only [located, List.mem_cons] at member
              rcases member with rfl | later
              · refine ⟨skipped ++ before, inner, rest, ?_, by simp, within.1, within.2, rfl⟩
                rw [outer]
                simp
              · rw [stop] at later
                rw [whole]
                exact ih rest.length (by omega) _ rest rfl region later

end Located

end Defender.Library.DelimitedPattern
