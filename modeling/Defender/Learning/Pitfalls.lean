import Defender.Learning.CuratorTick
import Defender.Library.Gathered
import Defender.Python.JsonInteger

/-!
# Merging pitfalls

A queue row is one failure. Rows of one mistake are merged into the first of them, with the number
of failures it stands for; a merged record is a row like any other.
-/

namespace Defender.Learning.Pitfalls

open Defender.Python Defender.Library.OrderedDict Defender.Library.Gathered
open Curator (isContentLess)

abbrev Row := Dict Str Json

def bashShimQueryId : Str := "∅.bash-shim"

/-- Whether a number is spelled as a whole one. -/
def isWhole (literal : Str) : Bool :=
  let digits := if literal.head? = some '-' then literal.tail else literal
  digits ≠ [] && digits.all Json.isDigit

/-- `str(value or "")`. How a fraction and a filled list or mapping are rendered is given. -/
def strOrEmpty (render : Json → Str) : Option Json → Str
  | none => []
  | some .null => []
  | some (.bool true) => "True"
  | some (.bool false) => []
  | some (.string text) => text
  | some (.array []) => []
  | some (.object []) => []
  | some (.number literal) =>
      if isWhole literal then
        if literal.all (fun char => char = '0' || char = '-') then [] else literal
      else render (.number literal)
  | some value => render value

def positiveWhole : Json → Option Nat
  | .number literal =>
      if literal ≠ [] ∧ literal.all Json.isDigit ∧ 0 < Nat.ofDigitChars 10 literal 0 then
        some (Nat.ofDigitChars 10 literal 0)
      else none
  | _ => none

def occurrences (row : Row) : Nat := ((row.get? "occurrences").bind positiveWhole).getD 1

def withOccurrences (row : Row) (count : Nat) : Row := row.set "occurrences" (Json.ofNat count)

section Counts

variable (row : Row) (count : Nat)

theorem occurrences_positive : 0 < occurrences row := by
  unfold occurrences
  cases held : (row.get? "occurrences").bind positiveWhole with
  | none => exact Nat.one_pos
  | some number =>
      obtain ⟨value, -, read⟩ := Option.bind_eq_some_iff.mp held
      cases value with
      | number literal =>
          simp only [positiveWhole, Option.ite_none_right_eq_some] at read
          obtain ⟨⟨-, -, positive⟩, same⟩ := read
          rw [← Option.some.inj same]
          exact positive
      | _ => cases read

theorem positive_whole_of_nat (positive : 0 < count) :
    positiveWhole (Json.ofNat count) = some count := by
  have read : Nat.ofDigitChars 10 (decimalText count) 0 = count :=
    Nat.ofDigitChars_toDigits (by decide) (by decide)
  have filled := Json.decimal_filled count
  have digits := Json.decimal_digits count
  unfold Json.ofNat positiveWhole
  dsimp only
  rw [read, if_pos ⟨filled, digits, positive⟩]

theorem occurrences_set (positive : 0 < count) :
    occurrences (withOccurrences row count) = count := by
  unfold occurrences withOccurrences
  rw [Dict.get_set_self, Option.bind_some, positive_whole_of_nat count positive]
  rfl

theorem set_occurrences_twice (first second : Nat) :
    withOccurrences (withOccurrences row first) second = withOccurrences row second :=
  Gathering.set_set row _ _ _

theorem get_other (key : Str) (different : "occurrences".toList ≠ key) :
    (withOccurrences row count).get? key = row.get? key :=
  Dict.get_set_of_ne row _ different

end Counts

variable [UnicodeDatabase] (render : Json → Str)

/-- The digest without the first `exit=N;` it begins with. -/
def digestDiagnosis (digest : Str) : Str :=
  let body := digest.dropWhile isSpace
  match body with
  | 'e' :: 'x' :: 'i' :: 't' :: '=' :: rest =>
      let number := if rest.head? = some '-' then rest.tail else rest
      let isDecimal (char : Char) : Bool := (UnicodeDatabase.decimal char).isSome
      if number.takeWhile isDecimal = [] then digest
      else
        match (number.dropWhile isDecimal).dropWhile isSpace with
        | ';' :: diagnosis => diagnosis.dropWhile isSpace
        | _ => digest
  | _ => digest

def isReducerRow (row : Row) : Bool := strOrEmpty render (row.get? "query_id") = bashShimQueryId

def pitfallKey (row : Row) : Str × Str :=
  let owner :=
    if isReducerRow render row then bashShimQueryId
    else strip (strOrEmpty render (row.get? "system"))
  let digest := strOrEmpty render (row.get? "stderr_digest")
  if isContentLess (digestDiagnosis digest) then
    (owner, Char.ofNat 0 :: strOrEmpty render (row.get? "pitfall_id"))
  else (owner, digest)

def merging : Gathering Row (Str × Str) where
  keyOf := pitfallKey render
  fresh row := withOccurrences row (occurrences row)
  join exemplar row := withOccurrences exemplar (occurrences exemplar + occurrences row)

def mergePitfalls (rows : List Row) : List Row := (merging render).gather rows

theorem key_with_occurrences (row : Row) (count : Nat) :
    pitfallKey render (withOccurrences row count) = pitfallKey render row := by
  have query := get_other row count "query_id" (by decide)
  have system := get_other row count "system" (by decide)
  have digest := get_other row count "stderr_digest" (by decide)
  have id := get_other row count "pitfall_id" (by decide)
  unfold pitfallKey isReducerRow
  rw [query, system, digest, id]

theorem merging_lawful : (merging render).Lawful where
  key_fresh := fun row => key_with_occurrences render row _
  key_join := fun record _ => key_with_occurrences render record _
  fresh_fresh := fun row => by
    have counted := occurrences_set row _ (occurrences_positive row)
    simp only [merging, counted, set_occurrences_twice]
  fresh_join := fun record row => by
    have own := occurrences_set record _ (occurrences_positive record)
    have joined := occurrences_set record (occurrences record + occurrences row)
      (Nat.add_pos_left (occurrences_positive record) _)
    simp only [merging, own, joined, set_occurrences_twice]
  join_fresh := fun record row => by
    have counted := occurrences_set row _ (occurrences_positive row)
    simp only [merging, counted]
  join_join := fun record other row => by
    have joined := occurrences_set other (occurrences other + occurrences row)
      (Nat.add_pos_left (occurrences_positive other) _)
    have first := occurrences_set record (occurrences record + occurrences other)
      (Nat.add_pos_left (occurrences_positive record) _)
    simp only [merging, joined, first, set_occurrences_twice, Nat.add_assoc]

/-- Merging is a homomorphic projection that counts every failure once. -/
theorem merge_projects (first second : List Row) :
    mergePitfalls render (mergePitfalls render first ++ mergePitfalls render second) =
        mergePitfalls render (first ++ second) ∧
      mergePitfalls render (mergePitfalls render first) = mergePitfalls render first ∧
      ((mergePitfalls render first).map (pitfallKey render)).Nodup ∧
      (mergePitfalls render first).map (pitfallKey render) =
        dedup (first.map (pitfallKey render)) ∧
      ((mergePitfalls render first).map occurrences).sum = (first.map occurrences).sum := by
  have lawful := merging_lawful render
  obtain ⟨distinct, ordered⟩ := Gathering.gather_keys lawful first
  refine ⟨Gathering.gather_append lawful first second, Gathering.gather_gather lawful first,
    distinct, ordered, ?_⟩
  apply Gathering.gather_weight
  · intro row
    exact occurrences_set row _ (occurrences_positive row)
  · intro record row
    exact occurrences_set record _ (Nat.add_pos_left (occurrences_positive record) _)

end Defender.Learning.Pitfalls
