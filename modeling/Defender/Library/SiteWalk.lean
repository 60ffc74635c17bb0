import Defender.Library.Growth

/-!
# First items over sites

Items stand at sites and a reader walks the sites in order. When the sites grow,
an item added at an early site is met before everything that already stood at a
later one; `addedAhead` collects what is met before the first accepted item. A
reader that replaces what it holds until it holds a settled value ends on the
first settled one it meets.
-/

namespace Defender.Library.SiteWalk

open Defender.Library.Growth

variable {α : Type*}

def addedAhead (accepts : α → Bool) : List (List α) → List (List α) → List α
  | site :: sites, grown :: more =>
      if site.any accepts then [] else grown.drop site.length ++ addedAhead accepts sites more
  | _, _ => []

theorem find_grown {accepts : α → Bool} {sites grown : List (List α)} {item : α}
    (grows : PrefixUpTo (· <+: ·) sites grown) (found : sites.flatten.find? accepts = some item) :
    grown.flatten.find? accepts =
      ((addedAhead accepts sites grown).find? accepts).or (some item) := by
  induction grows with
  | nil after => simp at found
  | @cons site next sites more extended _ ih =>
      rcases extended with ⟨added, rfl⟩
      rw [List.flatten_cons, List.find?_append] at found
      by_cases here : site.any accepts = true
      · have some : (site.find? accepts).isSome := by
          rw [List.find?_isSome]
          simpa using here
        rw [Option.or_of_isSome some] at found
        simp [addedAhead, here, found]
      · have none : site.find? accepts = none := by
          simpa using here
        rw [none, Option.none_or] at found
        simp only [addedAhead, here, List.flatten_cons, List.find?_append, none,
          Option.none_or, List.drop_left, ih found]
        simp

section Settling

variable (accepts settled : α → Bool)

def supersede (held next : α) : α := if accepts next && !settled held then next else held

theorem supersede_self (held : α) : supersede accepts settled held held = held := by
  unfold supersede
  split
  · rfl
  · rfl

theorem foldl_supersede_iff (settles : ∀ item, settled item = true → accepts item = true)
    {value : α} (final : settled value = true) (items : List α) (held : α) :
    items.foldl (supersede accepts settled) held = value ↔
      (held :: items).find? settled = some value := by
  induction items generalizing held with
  | nil =>
      by_cases done : settled held = true
      · simp [done]
      · have other : held ≠ value := by
          rintro rfl
          exact done final
        simp [done, other]
  | cons next rest ih =>
      rw [List.foldl_cons, ih]
      by_cases done : settled held = true
      · simp [supersede, done]
      · by_cases taken : accepts next = true
        · simp [supersede, done, taken]
        · have open_next : ¬ settled next = true := fun settled => taken (settles next settled)
          simp [supersede, done, taken, open_next]

end Settling

end Defender.Library.SiteWalk
