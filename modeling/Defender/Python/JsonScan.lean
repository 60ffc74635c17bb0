import Defender.Python.Json

/-!
# The widths of JSON

A number and a name are a front of the text they are read from. A string is written at least as
wide as it is.
-/

namespace Defender.Python.Json

theorem digits_split (text : Str) : text.takeWhile isDigit ++ text.dropWhile isDigit = text :=
  List.takeWhile_append_dropWhile

theorem fraction_split (text : Str) : (fractionOf text).1 ++ (fractionOf text).2 = text := by
  unfold fractionOf
  split
  · rename_i rest
    split
    · rfl
    · exact congrArg ('.' :: ·) (digits_split rest)
  · rfl

theorem exponent_split (text : Str) : (exponentOf text).1 ++ (exponentOf text).2 = text := by
  cases text with
  | nil => rfl
  | cons mark rest =>
      by_cases marked : mark = 'e' ∨ mark = 'E'
      · have signed : exponentSign rest ++ rest.drop (exponentSign rest).length = rest := by
          unfold exponentSign
          split <;> rfl
        have digits := digits_split (rest.drop (exponentSign rest).length)
        rw [exponent_marked rest marked]
        split
        · rfl
        · simp only [List.cons_append, List.append_assoc, digits, signed]
      · simp [exponentOf, if_neg marked]

theorem number_sign_split (text : Str) :
    numberSign text ++ text.drop (numberSign text).length = text := by
  unfold numberSign
  split
  · rename_i signed
    obtain ⟨rest, rfl⟩ := List.head?_eq_some_iff.mp signed
    rfl
  · rfl

theorem scan_number_split {text after : Str} {value : Json}
    (scanned : scanNumber text = some (value, after)) :
    ∃ read, value = .number read ∧ text = read ++ after := by
  rw [scan_number_signed, scanUnsigned] at scanned
  have signed := number_sign_split text
  generalize numberSign text = sign at scanned signed
  generalize text.drop sign.length = body at scanned signed
  obtain ⟨rest, whole⟩ := whole_digits_front body
  have dropped : body.drop (wholeDigits body).length = rest := by
    have left : (wholeDigits body ++ rest).drop (wholeDigits body).length = rest := List.drop_left
    rwa [whole] at left
  rw [dropped] at scanned
  have fraction := fraction_split rest
  have exponent := exponent_split (fractionOf rest).2
  dsimp only at scanned
  split_ifs at scanned with noDigits
  obtain ⟨rfl, rfl⟩ := Prod.mk.inj (Option.some.inj scanned)
  refine ⟨_, rfl, ?_⟩
  rw [List.append_assoc, exponent, List.append_assoc, fraction, List.append_assoc, whole, signed]

theorem scan_named_split {text after : Str} {value : Json}
    (scanned : scanNamed text = some (value, after)) :
    ∃ read, (read, value) ∈ namedValues ∧ text = read ++ after := by
  obtain ⟨named, found, same⟩ := Option.map_eq_some_iff.mp scanned
  obtain ⟨rfl, rfl⟩ := Prod.mk.inj same
  have front := List.find?_some found
  obtain ⟨rest, whole⟩ := List.isPrefixOf_iff_prefix.mp front
  refine ⟨named.1, List.mem_of_find?_eq_some found, ?_⟩
  rw [← whole, List.drop_left]

section Written

variable (text : Str)

/-- The width of a text inside its quotes. -/
def written : Nat := (text.flatMap escapeChar).length

theorem written_append (before after : Str) :
    written (before ++ after) = written before + written after := by
  simp [written]

theorem dumps_string_length : (dumpsString text).length = written text + 2 := by
  simp [dumpsString, written]

theorem escape_char_filled (char : Char) : 0 < (escapeChar char).length := by
  unfold escapeChar
  split_ifs
  case neg =>
    unfold codeUnits
    split <;> simp [escapeUnit]
  all_goals simp

theorem length_written : text.length ≤ written text := by
  induction text with
  | nil => exact Nat.zero_le _
  | cons char rest ih =>
      have filled := escape_char_filled char
      unfold written at ih ⊢
      simp only [List.flatMap_cons, List.length_append, List.length_cons]
      omega

theorem dumps_items_length (item : Json) (rest : List Json) :
    (dumpsItems (item :: rest)).length = item.dumps.length +
      if rest = [] then 0 else 2 + (dumpsItems rest).length := by
  cases rest with
  | nil => simp [dumpsItems]
  | cons next rest =>
      simp only [dumpsItems, List.length_append, List.length_cons, reduceCtorEq, if_false]
      omega

theorem dumps_entries_length (key : Str) (value : Json) (rest : List (Str × Json)) :
    (dumpsEntries ((key, value) :: rest)).length =
      (dumpsString key).length + 2 + value.dumps.length +
        if rest = [] then 0 else 2 + (dumpsEntries rest).length := by
  cases rest with
  | nil =>
      simp only [dumpsEntries, List.length_append, List.length_cons, if_true]
      omega
  | cons next rest =>
      simp only [dumpsEntries, List.length_append, List.length_cons, reduceCtorEq, if_false]
      omega

theorem member_width {entries : List (Str × Json)} {key : Str} {value : Json}
    (member : (key, value) ∈ entries) : value.dumps.length ≤ (dumpsEntries entries).length := by
  induction entries with
  | nil => cases member
  | cons entry rest ih =>
      obtain ⟨first, held⟩ := entry
      rw [dumps_entries_length]
      rcases List.mem_cons.mp member with same | later
      · cases same
        omega
      · have width := ih later
        have more : rest ≠ [] := List.ne_nil_of_mem later
        rw [if_neg more]
        omega

end Written

end Defender.Python.Json
