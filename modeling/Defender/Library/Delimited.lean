import Mathlib.Data.List.Infix

/-!
# First occurrences and delimited regions

`findWord` cuts a list at the leftmost occurrence of a word. A region is an
opener, the shortest body that a closer ends, and the closer; `regions` reads
them from left to right. Reading is stable: what a list already delimits is not
changed by anything appended to it.
-/

namespace Defender.Library.Delimited

variable {α : Type*} [DecidableEq α]

def findWord (word : List α) : List α → Option (List α × List α)
  | [] => if word = [] then some ([], []) else none
  | head :: tail =>
      if word <+: head :: tail then some ([], (head :: tail).drop word.length)
      else (findWord word tail).map fun cut => (head :: cut.1, cut.2)

theorem find_word_of_prefix (word after : List α) :
    findWord word (word ++ after) = some ([], after) := by
  cases text : word ++ after with
  | nil =>
      have empty := List.append_eq_nil_iff.mp text
      simp [findWord, empty.1, empty.2]
  | cons head tail =>
      have isPrefix : word <+: head :: tail := ⟨after, text⟩
      rw [findWord, if_pos isPrefix, ← text, List.drop_left]

theorem find_word_cons {word tail : List α} {head : α} (differs : ¬ word <+: head :: tail) :
    findWord word (head :: tail) =
      (findWord word tail).map fun cut => (head :: cut.1, cut.2) := by
  rw [findWord, if_neg differs]

/-- The cut is at an occurrence, and no occurrence starts further left. -/
theorem find_word_sound {word text before after : List α}
    (found : findWord word text = some (before, after)) :
    text = before ++ word ++ after ∧
      ∀ left right, text = left ++ word ++ right → before.length ≤ left.length := by
  induction text generalizing before with
  | nil =>
      rw [findWord] at found
      split at found
      · rename_i empty
        cases found
        simp [empty]
      · contradiction
  | cons head tail ih =>
      by_cases isPrefix : word <+: head :: tail
      · rw [findWord, if_pos isPrefix] at found
        cases found
        refine ⟨?_, by simp⟩
        simpa using (List.prefix_append_drop isPrefix)
      · rw [find_word_cons isPrefix] at found
        obtain ⟨⟨inner, rest⟩, cut, same⟩ := Option.map_eq_some_iff.mp found
        cases same
        obtain ⟨split, leftmost⟩ := ih cut
        refine ⟨by simp [split], ?_⟩
        intro left right other
        cases left with
        | nil => exact absurd ⟨right, by simpa using other.symm⟩ isPrefix
        | cons first others =>
            have shifted : tail = others ++ word ++ right := by
              simpa using (List.cons_eq_cons.mp other).2
            simpa using leftmost others right shifted

theorem find_word_none_iff {word text : List α} :
    findWord word text = none ↔ ¬ word <:+: text := by
  induction text with
  | nil =>
      rw [findWord]
      split <;> simp_all
  | cons head tail ih =>
      by_cases isPrefix : word <+: head :: tail
      · simp [findWord, isPrefix, isPrefix.isInfix]
      · rw [find_word_cons isPrefix, Option.map_eq_none_iff, ih, List.infix_cons_iff]
        simp [isPrefix]

theorem find_word_eq {word text before after : List α}
    (split : text = before ++ word ++ after)
    (leftmost : ∀ left right, text = left ++ word ++ right → before.length ≤ left.length) :
    findWord word text = some (before, after) := by
  cases found : findWord word text with
  | none =>
      exact absurd ⟨before, after, split.symm⟩ (find_word_none_iff.mp found)
  | some cut =>
      obtain ⟨cutSplit, cutLeftmost⟩ := find_word_sound found
      have same : before.length = cut.1.length :=
        le_antisymm (leftmost _ _ cutSplit) (cutLeftmost _ _ split)
      have pieces : before ++ (word ++ after) = cut.1 ++ (word ++ cut.2) := by
        simpa [List.append_assoc] using split.symm.trans cutSplit
      obtain ⟨heads, tails⟩ := List.append_inj pieces same
      rw [heads, List.append_cancel_left tails]

theorem find_word_append {word text before after : List α} (more : List α)
    (found : findWord word text = some (before, after)) :
    findWord word (text ++ more) = some (before, after ++ more) := by
  obtain ⟨split, leftmost⟩ := find_word_sound found
  apply find_word_eq
  · simp [split]
  · intro left right other
    by_contra further
    have shorter : left.length + word.length ≤ text.length := by
      have := congrArg List.length split
      simp only [List.length_append] at this
      omega
    have inside : left ++ word <+: text :=
      List.prefix_of_prefix_length_le ⟨right, other.symm⟩ (List.prefix_append text more)
        (by simpa using shorter)
    obtain ⟨rest, same⟩ := inside
    exact further (leftmost left rest same.symm)

theorem find_word_length {word text before after : List α}
    (found : findWord word text = some (before, after)) :
    text.length = before.length + word.length + after.length := by
  rw [(find_word_sound found).1]
  simp [Nat.add_assoc]

/-- No word occurs across a seam whose left side holds no element of its tail. -/
theorem find_word_seam {head : α} {tail left right : List α}
    (fresh : head ∉ tail) (absent : ¬ head :: tail <:+: left)
    (last : left.getLast? = some head) :
    findWord (head :: tail) (left ++ tail ++ right) = some (left.dropLast, right) := by
  have ending : left.dropLast ++ [head] = left := by
    obtain ⟨start, rfl⟩ := List.getLast?_eq_some_iff.mp last
    simp
  apply find_word_eq
  · nth_rewrite 1 [← ending]
    simp
  · intro before after other
    by_contra further
    have lengths := congrArg List.length ending
    simp only [List.length_append, List.length_singleton] at lengths
    by_cases inside : before.length + (head :: tail).length ≤ left.length
    · have isPrefix : before ++ head :: tail <+: left :=
        List.prefix_of_prefix_length_le ⟨after, other.symm⟩
          ((List.prefix_append left tail).trans (List.prefix_append _ right))
          (by simpa using inside)
      exact absent ((List.suffix_append before (head :: tail)).isInfix.trans isPrefix.isInfix)
    · -- The occurrence reaches over the seam, so its tail covers the last `head`.
      have position : left.length - 1 < (left ++ tail ++ right).length := by
        simp only [List.length_append]; omega
      have here : (left ++ tail ++ right)[left.length - 1]? = some head := by
        nth_rewrite 1 [← ending]
        rw [show left.length - 1 = left.dropLast.length by omega]
        simp
      have there : (before ++ head :: tail ++ after)[left.length - 1]? =
          tail[left.length - 1 - before.length - 1]? := by
        have offset : left.length - 1 - before.length =
            (left.length - 1 - before.length - 1) + 1 := by omega
        have covered : left.length - 1 - before.length - 1 < tail.length := by
          simp only [List.length_cons] at inside
          omega
        rw [List.append_assoc, List.getElem?_append_right (by omega), List.cons_append,
          offset, List.getElem?_cons_succ, List.getElem?_append_left covered]
        simp
      rw [← other, here] at there
      exact fresh (List.mem_of_getElem? there.symm)

theorem find_word_after {start left : List α} {last : α} (right : List α)
    (fresh : last ∉ start) (absent : ¬ start ++ [last] <:+: left)
    (ends : left = [] ∨ left.getLast? = some last) :
    findWord (start ++ [last]) (left ++ (start ++ [last]) ++ right) = some (left, right) := by
  apply find_word_eq rfl
  intro before after other
  by_contra further
  rcases ends with rfl | ends
  · simp at further
  · rcases List.getLast?_eq_some_iff.mp ends with ⟨body, rfl⟩
    simp only [List.length_append, List.length_singleton] at further
    by_cases inside : before.length + (start.length + 1) ≤ body.length + 1
    · have isPrefix : before ++ (start ++ [last]) <+: body ++ [last] :=
        List.prefix_of_prefix_length_le ⟨after, other.symm⟩
          ((List.prefix_append _ (start ++ [last])).trans (List.prefix_append _ right))
          (by simpa using inside)
      exact absent ((List.suffix_append before _).isInfix.trans isPrefix.isInfix)
    · -- The occurrence covers the last element of the left side with its start.
      have here : (body ++ [last] ++ (start ++ [last]) ++ right)[body.length]? = some last := by
        simp
      rw [other, List.append_assoc, List.getElem?_append_right (by omega), List.append_assoc,
        List.getElem?_append_left (by omega)] at here
      exact fresh (List.mem_of_getElem? here)

/-- A word is not found in a part that neither holds it nor ends inside it. -/
theorem find_word_past {word left text : List α} (absent : ¬ word <:+: left)
    (apart : left = [] ∨ ∃ start last, left = start ++ [last] ∧ last ∉ word) :
    findWord word (left ++ text) = (findWord word text).map fun cut => (left ++ cut.1, cut.2) := by
  have beyond : ∀ before after, left ++ text = before ++ word ++ after →
      left.length ≤ before.length := by
    intro before after split
    by_contra short
    rcases apart with rfl | ⟨start, last, rfl, outside⟩
    · simp at short
    · by_cases inside : (before ++ word).length ≤ (start ++ [last]).length
      · have isPrefix : before ++ word <+: start ++ [last] :=
          List.prefix_of_prefix_length_le ⟨after, split.symm⟩ (List.prefix_append _ text) inside
        exact absent ((List.suffix_append before word).isInfix.trans isPrefix.isInfix)
      · -- The occurrence covers the last element of the part.
        simp only [List.length_append, List.length_singleton] at short inside
        have here : (start ++ [last] ++ text)[start.length]? = some last := by simp
        rw [split, List.append_assoc, List.getElem?_append_right (by omega),
          List.getElem?_append_left (by omega)] at here
        exact outside (List.mem_of_getElem? here)
  cases found : findWord word text with
  | some cut =>
      obtain ⟨split, leftmost⟩ := find_word_sound found
      apply find_word_eq
      · simp [split]
      · intro before after other
        obtain ⟨more, rfl⟩ : left <+: before := by
          apply List.prefix_of_prefix_length_le (List.prefix_append left text)
          · exact ⟨word ++ after, by simp [other]⟩
          · exact beyond before after other
        have rest : text = more ++ word ++ after := by simpa using other
        simpa using leftmost more after rest
  | none =>
      rw [Option.map_none, find_word_none_iff]
      rintro ⟨before, after, other⟩
      obtain ⟨more, rfl⟩ : left <+: before := by
        apply List.prefix_of_prefix_length_le (List.prefix_append left text)
        · exact ⟨word ++ after, by simp [← other]⟩
        · exact beyond before after other.symm
      have rest : more ++ word ++ after = text := by simpa using other
      exact find_word_none_iff.mp found ⟨more, after, rest⟩

omit [DecidableEq α] in
theorem infix_of_infix_append {head : α} {tail left right : List α} (fresh : head ∉ left)
    (occurs : head :: tail <:+: left ++ right) : head :: tail <:+: right := by
  induction left with
  | nil => simpa using occurs
  | cons first others ih =>
      rw [List.mem_cons, not_or] at fresh
      rw [List.cons_append, List.infix_cons_iff] at occurs
      rcases occurs with ⟨rest, starts⟩ | further
      · exact absurd (List.cons_eq_cons.mp starts).1 fresh.1
      · exact ih fresh.2 further

def regions (opener closer text : List α) : List (List α × List α) :=
  match findWord opener text with
  | none => []
  | some (before, inner) =>
      match findWord closer inner with
      | none => []
      | some (body, rest) =>
          if rest.length < text.length then
            (before, body) :: regions opener closer rest
          else [(before, body)]
termination_by text.length

/-- What stands after the last region. -/
def remainder (opener closer text : List α) : List α :=
  match findWord opener text with
  | none => text
  | some (_, inner) =>
      match findWord closer inner with
      | none => text
      | some (_, rest) =>
          if rest.length < text.length then remainder opener closer rest else rest
termination_by text.length

section Reading

variable {opener closer text : List α}

theorem region_shrinks {before inner body rest : List α} (visible : opener ≠ [])
    (opened : findWord opener text = some (before, inner))
    (closed : findWord closer inner = some (body, rest)) : rest.length < text.length := by
  have outer := find_word_length opened
  have within := find_word_length closed
  have positive := List.length_pos_iff.mpr visible
  omega

theorem region_rest_suffix {before inner body rest : List α}
    (opened : findWord opener text = some (before, inner))
    (closed : findWord closer inner = some (body, rest)) : rest <:+ text := by
  rw [(find_word_sound opened).1, (find_word_sound closed).1]
  exact (List.suffix_append _ rest).trans (List.suffix_append _ _)

theorem regions_step {before inner body rest : List α} (visible : opener ≠ [])
    (opened : findWord opener text = some (before, inner))
    (closed : findWord closer inner = some (body, rest)) :
    regions opener closer text = (before, body) :: regions opener closer rest := by
  rw [regions]
  simp only [opened, closed, region_shrinks visible opened closed, if_true]

theorem remainder_step {before inner body rest : List α} (visible : opener ≠ [])
    (opened : findWord opener text = some (before, inner))
    (closed : findWord closer inner = some (body, rest)) :
    remainder opener closer text = remainder opener closer rest := by
  rw [remainder]
  simp only [opened, closed, region_shrinks visible opened closed, if_true]

theorem regions_unopened (closer : List α) (absent : findWord opener text = none) :
    regions opener closer text = [] ∧ remainder opener closer text = text := by
  rw [regions, remainder]
  simp [absent]

theorem regions_unclosed {before inner : List α}
    (opened : findWord opener text = some (before, inner))
    (absent : findWord closer inner = none) :
    regions opener closer text = [] ∧ remainder opener closer text = text := by
  rw [regions, remainder]
  simp [opened, absent]

theorem regions_append (visible : opener ≠ []) (more : List α) :
    regions opener closer (text ++ more) =
      match regions opener closer text, remainder opener closer text with
      | read, left => read ++ regions opener closer (left ++ more) := by
  induction size : text.length using Nat.strong_induction_on generalizing text with
  | _ size ih =>
      cases opened : findWord opener text with
      | none =>
          obtain ⟨noRegion, whole⟩ := regions_unopened closer opened
          rw [noRegion, whole]
          rfl
      | some cut =>
          obtain ⟨before, inner⟩ := cut
          cases closed : findWord closer inner with
          | none =>
              obtain ⟨noRegion, whole⟩ := regions_unclosed opened closed
              rw [noRegion, whole]
              rfl
          | some innerCut =>
              obtain ⟨body, rest⟩ := innerCut
              have shorter := region_shrinks visible opened closed
              rw [regions_step visible (find_word_append more opened)
                (find_word_append more closed), ih rest.length (by omega) rfl,
                regions_step visible opened closed, remainder_step visible opened closed]
              rfl

theorem remainder_has_no_region (visible : opener ≠ []) :
    regions opener closer (remainder opener closer text) = [] := by
  induction size : text.length using Nat.strong_induction_on generalizing text with
  | _ size ih =>
      cases opened : findWord opener text with
      | none =>
          obtain ⟨noRegion, whole⟩ := regions_unopened closer opened
          rw [whole, noRegion]
      | some cut =>
          obtain ⟨before, inner⟩ := cut
          cases closed : findWord closer inner with
          | none =>
              obtain ⟨noRegion, whole⟩ := regions_unclosed opened closed
              rw [whole, noRegion]
          | some innerCut =>
              obtain ⟨body, rest⟩ := innerCut
              have shorter := region_shrinks visible opened closed
              rw [remainder_step visible opened closed]
              exact ih rest.length (by omega) rfl

theorem regions_ne_nil {before body after : List α}
    (split : text = before ++ opener ++ body ++ closer ++ after) :
    regions opener closer text ≠ [] := by
  have whole : text = before ++ opener ++ (body ++ closer ++ after) := by
    rw [split]
    simp
  cases opened : findWord opener text with
  | none => exact absurd ⟨before, _, whole.symm⟩ (find_word_none_iff.mp opened)
  | some cut =>
      rcases cut with ⟨earlier, inner⟩
      rcases find_word_sound opened with ⟨outer, leftmost⟩
      have notLater := leftmost before _ whole
      have suffix : body ++ closer ++ after <:+ inner := by
        have lengths := congrArg List.length (whole.symm.trans outer)
        simp only [List.length_append] at lengths
        exact List.suffix_of_suffix_length_le ⟨before ++ opener, whole.symm⟩
          ⟨earlier ++ opener, outer.symm⟩ (by simp only [List.length_append]; omega)
      have closes : closer <:+: inner :=
        List.IsInfix.trans ⟨body, after, rfl⟩ suffix.isInfix
      cases closed : findWord closer inner with
      | none => exact absurd closes (find_word_none_iff.mp closed)
      | some innerCut =>
          rw [regions]
          simp only [opened, closed]
          split <;> simp

theorem regions_occur (read : regions opener closer text ≠ []) :
    ∃ before body after, text = before ++ opener ++ body ++ closer ++ after := by
  cases opened : findWord opener text with
  | none => exact absurd (regions_unopened closer opened).1 read
  | some cut =>
      rcases cut with ⟨before, inner⟩
      cases closed : findWord closer inner with
      | none => exact absurd (regions_unclosed opened closed).1 read
      | some innerCut =>
          rcases innerCut with ⟨body, after⟩
          refine ⟨before, body, after, ?_⟩
          rw [(find_word_sound opened).1, (find_word_sound closed).1]
          simp

theorem remainder_suffix : remainder opener closer text <:+ text := by
  fun_induction remainder opener closer text with
  | case1 => exact List.suffix_rfl
  | case2 => exact List.suffix_rfl
  | case3 text before inner opened body rest closed shorter ih =>
      exact ih.trans ((region_rest_suffix opened closed))
  | case4 text before inner opened body rest closed longer =>
      exact region_rest_suffix opened closed

end Reading

end Defender.Library.Delimited
