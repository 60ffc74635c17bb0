import Defender.Investigation.QueryRules

/-!
# Values alike up to the order of members

A request's key writes a value with the members of every object sorted. Where no object names
a member twice, two values are written alike exactly when they differ in the order of members
alone.
-/

namespace Defender.Investigation

open Defender.Python

mutual

/-- Equal up to the order of the members of their objects. -/
inductive Alike : Json → Json → Prop
  | null : Alike .null .null
  | bool (value : Bool) : Alike (.bool value) (.bool value)
  | number (literal : Str) : Alike (.number literal) (.number literal)
  | string (text : Str) : Alike (.string text) (.string text)
  | array {left right : List Json} (items : AlikeItems left right) :
      Alike (.array left) (.array right)
  | object {left right : List (Str × Json)} (entries : AlikeEntries left right) :
      Alike (.object left) (.object right)

inductive AlikeItems : List Json → List Json → Prop
  | nil : AlikeItems [] []
  | cons {left right : Json} {lefts rights : List Json} (first : Alike left right)
      (rest : AlikeItems lefts rights) : AlikeItems (left :: lefts) (right :: rights)

inductive AlikeEntries : List (Str × Json) → List (Str × Json) → Prop
  | nil : AlikeEntries [] []
  | cons {key : Str} {left right : Json} {lefts before after : List (Str × Json)}
      (first : Alike left right) (rest : AlikeEntries lefts (before ++ after)) :
      AlikeEntries ((key, left) :: lefts) (before ++ (key, right) :: after)

end

mutual

def distinctMembers : Json → Prop
  | .array items => distinctItems items
  | .object entries => (entries.map Prod.fst).Nodup ∧ distinctEntries entries
  | _ => True

def distinctItems : List Json → Prop
  | [] => True
  | item :: items => distinctMembers item ∧ distinctItems items

def distinctEntries : List (Str × Json) → Prop
  | [] => True
  | (_, value) :: entries => distinctMembers value ∧ distinctEntries entries

end

theorem distinct_items_iff (items : List Json) :
    distinctItems items ↔ ∀ item ∈ items, distinctMembers item := by
  induction items with
  | nil => simp [distinctItems]
  | cons item items ih => simp [distinctItems, ih]

theorem distinct_entries_iff (entries : List (Str × Json)) :
    distinctEntries entries ↔ ∀ entry ∈ entries, distinctMembers entry.2 := by
  induction entries with
  | nil => simp [distinctEntries]
  | cons entry entries ih => simp [distinctEntries, ih]

theorem text_le_cons (first head : Char) (lefts rights : Str) :
    textLe (first :: lefts) (head :: rights) = true ↔
      first.toNat < head.toNat ∨ first.toNat = head.toNat ∧ textLe lefts rights = true := by
  simp [textLe]

theorem text_le_total (left right : Str) : textLe left right = true ∨ textLe right left = true := by
  induction left generalizing right with
  | nil => exact .inl rfl
  | cons first lefts ih =>
      cases right with
      | nil => exact .inr rfl
      | cons head rights =>
          rw [text_le_cons, text_le_cons]
          have rest := ih rights
          grind

theorem text_le_antisymm {left right : Str} (below : textLe left right = true)
    (above : textLe right left = true) : left = right := by
  induction left generalizing right with
  | nil =>
      cases right with
      | nil => rfl
      | cons head rights => nomatch above
  | cons first lefts ih =>
      cases right with
      | nil => nomatch below
      | cons head rights =>
          rw [text_le_cons] at below above
          have same : first.toNat = head.toNat := by grind
          have rest : lefts = rights := ih (by grind) (by grind)
          rw [Char.toNat_inj.mp same, rest]

theorem text_le_trans {left middle right : Str} (below : textLe left middle = true)
    (above : textLe middle right = true) : textLe left right = true := by
  induction left generalizing middle right with
  | nil => rfl
  | cons first lefts ih =>
      cases middle with
      | nil => nomatch below
      | cons between middles =>
          cases right with
          | nil => nomatch above
          | cons last rights =>
              rw [text_le_cons] at below above ⊢
              have rest := @ih middles rights
              grind

theorem sorted_of_perm {left right : List Str} (moved : left.Perm right) :
    sorted left = sorted right := by
  let le := fun left right : Str => textLe left right = true
  have : Std.Total le := ⟨text_le_total⟩
  have : IsTrans Str le := ⟨fun _ _ _ below above => text_le_trans below above⟩
  have both : (sorted left).Perm (sorted right) :=
    ((sorted_perm left).trans moved).trans (sorted_perm right).symm
  exact both.eq_of_pairwise (fun _ _ _ _ below above => text_le_antisymm below above)
    (List.pairwise_insertionSort le left) (List.pairwise_insertionSort le right)

section Sorted

/-- The order members are written in. -/
def keyLe (left right : Str × Json) : Prop := textLe left.1 right.1 = true

instance : DecidableRel keyLe := fun left right =>
  inferInstanceAs (Decidable (textLe left.1 right.1 = true))

instance : Std.Total keyLe := ⟨fun left right => text_le_total left.1 right.1⟩

instance : IsTrans (Str × Json) keyLe := ⟨fun _ _ _ below above => text_le_trans below above⟩

theorem sorted_members {left right : List (Str × Json)} (moved : left.Perm right)
    (distinct : (left.map Prod.fst).Nodup) :
    left.insertionSort keyLe = right.insertionSort keyLe := by
  have among : (left.insertionSort keyLe).Perm left := List.perm_insertionSort keyLe left
  have both : (left.insertionSort keyLe).Perm (right.insertionSort keyLe) :=
    (among.trans moved).trans (List.perm_insertionSort keyLe right).symm
  refine both.eq_of_pairwise ?_ (List.pairwise_insertionSort keyLe left)
    (List.pairwise_insertionSort keyLe right)
  intro first second firstIn secondIn below above
  have atFirst : first ∈ left := among.mem_iff.mp firstIn
  have atSecond : second ∈ left := among.mem_iff.mp (both.mem_iff.mpr secondIn)
  exact List.inj_on_of_nodup_map distinct atFirst atSecond (text_le_antisymm below above)

theorem sort_keys_object (entries : List (Str × Json)) :
    sortKeys (.object entries) = .object ((sortKeysEntries entries).insertionSort keyLe) := rfl

theorem sort_entries_keys (entries : List (Str × Json)) :
    (sortKeysEntries entries).map Prod.fst = entries.map Prod.fst := by
  rw [sort_entries_map, List.map_map]
  rfl

mutual

theorem sorted_of_alike {left right : Json} (alike : Alike left right)
    (distinct : distinctMembers left) : sortKeys left = sortKeys right := by
  cases alike with
  | null => rfl
  | bool value => rfl
  | number literal => rfl
  | string text => rfl
  | array items => rw [sortKeys, sortKeys, sorted_of_alike_items items distinct]
  | object entries =>
      rw [sort_keys_object, sort_keys_object]
      congr 1
      refine sorted_members (sorted_of_alike_entries entries distinct.2) ?_
      rw [sort_entries_keys]
      exact distinct.1

theorem sorted_of_alike_items {left right : List Json} (alike : AlikeItems left right)
    (distinct : distinctItems left) : sortKeysItems left = sortKeysItems right := by
  cases alike with
  | nil => rfl
  | cons first rest =>
      rw [sortKeysItems, sortKeysItems, sorted_of_alike first distinct.1,
        sorted_of_alike_items rest distinct.2]

theorem sorted_of_alike_entries {left right : List (Str × Json)} (alike : AlikeEntries left right)
    (distinct : distinctEntries left) : (sortKeysEntries left).Perm (sortKeysEntries right) := by
  cases alike with
  | nil => exact List.Perm.refl _
  | cons first rest =>
      have others := sorted_of_alike_entries rest distinct.2
      rw [sort_entries_map (_ ++ _), List.map_append] at others
      rw [sortKeysEntries, sorted_of_alike first distinct.1, sort_entries_map (_ ++ _),
        List.map_append, List.map_cons]
      exact (others.cons _).trans List.perm_middle.symm

end

mutual

theorem alike_of_sorted (left right : Json) (same : sortKeys left = sortKeys right) :
    Alike left right := by
  cases left with
  | null =>
      cases right with
      | null => exact .null
      | _ => nomatch same
  | bool value =>
      cases right with
      | bool other => cases same; exact .bool value
      | _ => nomatch same
  | number literal =>
      cases right with
      | number other => cases same; exact .number literal
      | _ => nomatch same
  | string text =>
      cases right with
      | string other => cases same; exact .string text
      | _ => nomatch same
  | array items =>
      cases right with
      | array others => exact .array (alike_of_sorted_items items others (Json.array.inj same))
      | _ => nomatch same
  | object entries =>
      cases right with
      | object others =>
          rw [sort_keys_object, sort_keys_object] at same
          have sorted := Json.object.inj same
          have moved : (sortKeysEntries entries).Perm (sortKeysEntries others) :=
            (List.perm_insertionSort keyLe _).symm.trans
              (sorted ▸ List.perm_insertionSort keyLe (sortKeysEntries others))
          exact .object (alike_of_sorted_entries entries others moved)
      | _ => nomatch same

theorem alike_of_sorted_items (left right : List Json)
    (same : sortKeysItems left = sortKeysItems right) : AlikeItems left right := by
  cases left with
  | nil =>
      cases right with
      | nil => exact .nil
      | cons other others => nomatch same
  | cons item items =>
      cases right with
      | nil => nomatch same
      | cons other others =>
          rw [sortKeysItems, sortKeysItems, List.cons.injEq] at same
          exact .cons (alike_of_sorted item other same.1)
            (alike_of_sorted_items items others same.2)

theorem alike_of_sorted_entries (left right : List (Str × Json))
    (moved : (sortKeysEntries left).Perm (sortKeysEntries right)) : AlikeEntries left right := by
  cases left with
  | nil =>
      cases right with
      | nil => exact .nil
      | cons other others => nomatch moved.length_eq
  | cons entry entries =>
      obtain ⟨key, value⟩ := entry
      have there : (key, sortKeys value) ∈ sortKeysEntries right :=
        moved.mem_iff.mp (List.mem_cons_self ..)
      rw [sort_entries_map] at there
      obtain ⟨other, held, same⟩ := List.mem_map.mp there
      obtain ⟨before, after, split⟩ := List.append_of_mem held
      obtain ⟨otherKey, otherValue⟩ := other
      obtain ⟨sameKey, sameValue⟩ := Prod.mk.inj same
      subst sameKey split
      refine .cons (alike_of_sorted value otherValue sameValue.symm) ?_
      apply alike_of_sorted_entries
      rw [sort_entries_map (_ ++ _), List.map_append, List.map_cons, sortKeysEntries] at moved
      rw [sort_entries_map (_ ++ _), List.map_append]
      have aside := moved.trans List.perm_middle
      rw [sameValue] at aside
      exact aside.cons_inv

end

theorem sorted_alike_iff {left : Json} (distinct : distinctMembers left) (right : Json) :
    sortKeys left = sortKeys right ↔ Alike left right :=
  ⟨alike_of_sorted left right, fun alike => sorted_of_alike alike distinct⟩

end Sorted

theorem dumps_injective {left right : Json} (leftSpelled : left.spelled = true)
    (rightSpelled : right.spelled = true) (same : left.dumps = right.dumps) : left = right := by
  have read := Json.loads_dumps left leftSpelled
  rw [same, Json.loads_dumps right rightSpelled] at read
  exact (Option.some.inj read).symm

end Defender.Investigation
