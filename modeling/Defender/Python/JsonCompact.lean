import Defender.Python.Json

/-!
# JSON without blanks

The encoder with the separators `","` and `":"`, and that the decoder reads what it writes.
-/

namespace Defender.Python.Json

mutual

def compact : Json → Str
  | .array items => '[' :: (compactItems items ++ [']'])
  | .object entries => Char.ofNat 0x7b :: (compactEntries entries ++ [Char.ofNat 0x7d])
  | .string text => dumpsString text
  | .number literal => literal
  | .null => "null"
  | .bool true => "true"
  | .bool false => "false"

def compactItems : List Json → Str
  | [] => []
  | [item] => compact item
  | item :: next :: rest => compact item ++ ',' :: compactItems (next :: rest)

def compactEntries : List (Str × Json) → Str
  | [] => []
  | [(key, value)] => dumpsString key ++ ':' :: compact value
  | (key, value) :: next :: rest =>
      dumpsString key ++ ':' :: (compact value ++ ',' :: compactEntries (next :: rest))

end

theorem compact_head (value : Json) (wellSpelled : value.spelled = true) :
    ∃ first rest, compact value = first :: rest ∧ isSpace first = false ∧ first ≠ ']' := by
  cases value with
  | null => exact ⟨'n', _, rfl, by decide, by decide⟩
  | bool value =>
      cases value with
      | true => exact ⟨'t', _, rfl, by decide, by decide⟩
      | false => exact ⟨'f', _, rfl, by decide, by decide⟩
  | number literal =>
      obtain ⟨first, rest, starts, visible, notClose, -⟩ := spelled_number_head wellSpelled
      exact ⟨first, rest, starts, visible, notClose⟩
  | string text => exact ⟨'"', _, by rw [compact]; rfl, by decide, by decide⟩
  | array items => exact ⟨'[', _, by rw [compact], by decide, by decide⟩
  | object entries => exact ⟨Char.ofNat 0x7b, _, by rw [compact], by decide, by decide⟩

theorem skip_space_compact (value : Json) (wellSpelled : value.spelled = true) (rest : Str) :
    skipSpace (compact value ++ rest) = compact value ++ rest := by
  obtain ⟨first, more, starts, visible, -⟩ := compact_head value wellSpelled
  rw [starts, List.cons_append, skip_space_head _ visible]

theorem compact_items_head {item : Json} {items : List Json}
    (wellSpelled : spelledItems (item :: items) = true) :
    ∃ first rest, compactItems (item :: items) = first :: rest ∧ isSpace first = false ∧
      first ≠ ']' := by
  rw [spelledItems, Bool.and_eq_true] at wellSpelled
  obtain ⟨first, rest, starts, visible, notClose⟩ := compact_head item wellSpelled.1
  cases items with
  | nil => exact ⟨first, rest, by rw [compactItems, starts], visible, notClose⟩
  | cons next more =>
      exact ⟨first, _, by rw [compactItems, starts, List.cons_append], visible, notClose⟩

theorem compact_entries_head (key : Str) (value : Json) (entries : List (Str × Json)) :
    ∃ rest, compactEntries ((key, value) :: entries) = '"' :: rest := by
  cases entries with
  | nil => exact ⟨_, by rw [compactEntries, dumpsString, List.cons_append]⟩
  | cons next more => exact ⟨_, by rw [compactEntries, dumpsString, List.cons_append]⟩

mutual

theorem scan_compact (value : Json) (wellSpelled : value.spelled = true) (rounds : Nat)
    (enough : 2 * (compact value).length ≤ rounds) (rest : Str) (ends : endsNumber rest = true) :
    scanValue (rounds + 1) (compact value ++ rest) = some (value, rest) := by
  match value with
  | .null => exact (scan_dumped_named rounds rest).1
  | .bool true => exact (scan_dumped_named rounds rest).2.1
  | .bool false => exact (scan_dumped_named rounds rest).2.2
  | .number literal => exact scan_dumped_number rounds wellSpelled ends
  | .string text =>
      rw [compact]
      exact scan_dumped_string rounds text rest
  | .array [] => simp [compact, compactItems, scanValue, skipSpace, isSpace]
  | .array (item :: items) =>
      rw [compact, List.length_cons, List.length_append] at enough
      obtain ⟨rounds, rfl⟩ := Nat.exists_eq_succ_of_ne_zero (by omega : rounds ≠ 0)
      have inside := scan_compact_items (item :: items) wellSpelled (by simp) rounds (by omega) rest
      obtain ⟨first, more, starts, visible, notClose⟩ := compact_items_head wellSpelled
      rw [compact, List.cons_append, scanValue, if_neg (by decide), if_neg (by decide), if_pos rfl,
        List.append_assoc, List.singleton_append, starts, List.cons_append,
        skip_space_head _ visible]
      rw [starts, List.cons_append] at inside
      dsimp only
      rw [if_neg notClose, inside]
      rfl
  | .object [] => simp [compact, compactEntries, scanValue, skipSpace, isSpace]
  | .object ((key, held) :: entries) =>
      rw [compact, List.length_cons, List.length_append] at enough
      obtain ⟨rounds, rfl⟩ := Nat.exists_eq_succ_of_ne_zero (by omega : rounds ≠ 0)
      have inside := scan_compact_entries ((key, held) :: entries) wellSpelled (by simp) rounds
        (by omega) rest
      obtain ⟨more, starts⟩ := compact_entries_head key held entries
      rw [compact, List.cons_append, scanValue, if_neg (by decide), if_pos rfl, List.append_assoc,
        List.singleton_append, starts, List.cons_append, skip_space_head _ (by decide)]
      rw [starts, List.cons_append] at inside
      dsimp only
      rw [if_neg (by decide), inside]
      rfl

theorem scan_compact_items (items : List Json) (wellSpelled : spelledItems items = true)
    (filled : items ≠ []) (rounds : Nat) (enough : 2 * (compactItems items).length < rounds)
    (rest : Str) :
    scanItems (rounds + 1) (compactItems items ++ ']' :: rest) = some (items, rest) := by
  obtain ⟨rounds, rfl⟩ := Nat.exists_eq_succ_of_ne_zero (by omega : rounds ≠ 0)
  match items with
  | [] => contradiction
  | [item] =>
      rw [compactItems] at enough ⊢
      simp only [spelledItems, Bool.and_true] at wellSpelled
      have held := scan_compact item wellSpelled rounds (by omega) (']' :: rest) rfl
      rw [scanItems, held]
      dsimp only
      rw [skip_space_head _ (by decide)]
      rfl
  | item :: next :: more =>
      rw [compactItems] at enough ⊢
      simp only [List.length_append, List.length_cons] at enough
      rw [spelledItems, Bool.and_eq_true] at wellSpelled
      have later := scan_compact_items (next :: more) wellSpelled.2 (by simp) rounds (by omega) rest
      obtain ⟨first, tail, starts, visible, -⟩ := compact_items_head wellSpelled.2
      have held := scan_compact item wellSpelled.1 rounds (by omega)
        (',' :: (compactItems (next :: more) ++ ']' :: rest)) rfl
      have close : skipSpace (compactItems (next :: more) ++ ']' :: rest) =
          compactItems (next :: more) ++ ']' :: rest := by
        rw [starts, List.cons_append, skip_space_head _ visible]
      rw [List.append_assoc, List.cons_append, scanItems, held]
      dsimp only
      rw [skip_space_head _ (by decide)]
      change (scanItems (rounds + 1) (skipSpace _)).map _ = _
      rw [close, later]
      rfl

theorem scan_compact_entries (entries : List (Str × Json))
    (wellSpelled : spelledEntries entries = true) (filled : entries ≠ []) (rounds : Nat)
    (enough : 2 * (compactEntries entries).length < rounds) (rest : Str) :
    scanEntries (rounds + 1) (compactEntries entries ++ Char.ofNat 0x7d :: rest) =
      some (entries, rest) := by
  obtain ⟨rounds, rfl⟩ := Nat.exists_eq_succ_of_ne_zero (by omega : rounds ≠ 0)
  match entries with
  | [] => contradiction
  | [(key, value)] =>
      rw [compactEntries] at enough ⊢
      simp only [spelledEntries, Bool.and_true] at wellSpelled
      simp only [List.length_append, List.length_cons] at enough
      have held := scan_compact value wellSpelled rounds (by omega) (Char.ofNat 0x7d :: rest) rfl
      rw [List.append_assoc, List.cons_append, scan_entries_key,
        skip_space_compact value wellSpelled, held]
      dsimp only
      rw [skip_space_head _ (by decide)]
      dsimp only
      rw [if_pos rfl]
  | (key, value) :: next :: more =>
      rw [compactEntries] at enough ⊢
      rw [spelledEntries, Bool.and_eq_true] at wellSpelled
      simp only [List.length_append, List.length_cons] at enough
      have later := scan_compact_entries (next :: more) wellSpelled.2 (by simp) rounds (by omega)
        rest
      obtain ⟨tail, starts⟩ := compact_entries_head next.1 next.2 more
      have held := scan_compact value wellSpelled.1 rounds (by omega)
        (',' :: (compactEntries (next :: more) ++ Char.ofNat 0x7d :: rest)) rfl
      have close : skipSpace (compactEntries (next :: more) ++ Char.ofNat 0x7d :: rest) =
          compactEntries (next :: more) ++ Char.ofNat 0x7d :: rest := by
        rw [starts, List.cons_append, skip_space_head _ (by decide)]
      rw [List.append_assoc, List.cons_append, scan_entries_key, List.append_assoc,
        skip_space_compact value wellSpelled.1, List.cons_append, held]
      dsimp only
      rw [skip_space_head _ (by decide)]
      dsimp only
      rw [if_neg (by decide), if_pos rfl, close, later]
      rfl

end

theorem loads_compact (value : Json) (wellSpelled : value.spelled = true) :
    loads (compact value) = some value := by
  have read := scan_compact value wellSpelled (2 * (compact value).length) le_rfl [] rfl
  have starts := skip_space_compact value wellSpelled []
  rw [List.append_nil] at read starts
  rw [loads, starts, read]
  rfl

end Defender.Python.Json
