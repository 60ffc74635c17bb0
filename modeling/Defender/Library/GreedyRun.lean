import Defender.Library.Regex

/-!
# Greedy runs of one character class

A greedy repetition of a character class offers the rest of a pattern every cut
of the longest run, longest first. Where the rest cannot go on inside the run,
only the whole run is tried.
-/

namespace Defender.Library.Regex

/-- The cursor once `read` is behind it and `rest` ahead. -/
def Cursor.past (cursor : Cursor) (read rest : Text) : Cursor :=
  ⟨cursor.offset + read.length, (read.getLast?).or cursor.previous, rest, cursor.captures⟩

/-- The cuts of a run into what is taken and what is given back, longest taken first. -/
def cuts : Text → List (Text × Text)
  | [] => [([], [])]
  | head :: tail => (cuts tail).map (fun cut => (head :: cut.1, cut.2)) ++ [([], head :: tail)]

theorem past_nil (cursor : Cursor) : cursor.past [] cursor.rest = cursor := by
  cases cursor
  rfl

theorem past_past (cursor : Cursor) (first second middle rest : Text) :
    (cursor.past first middle).past second rest = cursor.past (first ++ second) rest := by
  simp only [Cursor.past, Cursor.mk.injEq, List.length_append, and_true]
  constructor
  · omega
  · rw [List.getLast?_append, Option.or_assoc]

theorem advance_past (cursor : Cursor) (head : Char) (tail : Text)
    (reads : cursor.rest = head :: tail) : cursor.advance = cursor.past [head] tail := by
  simp [Cursor.advance, reads, Cursor.past]

theorem mem_cuts {run taken back : Text} :
    (taken, back) ∈ cuts run ↔ run = taken ++ back := by
  induction run generalizing taken with
  | nil => simp [cuts, eq_comm]
  | cons head tail ih =>
      rw [cuts, List.mem_append, List.mem_map, List.mem_singleton]
      constructor
      · rintro (⟨⟨first, second⟩, inside, same⟩ | whole)
        · obtain ⟨rfl, rfl⟩ := Prod.mk.inj same
          rw [ih.mp inside, List.cons_append]
        · obtain ⟨rfl, rfl⟩ := Prod.mk.inj whole
          rfl
      · intro split
        cases taken with
        | nil => exact Or.inr (by rw [split, List.nil_append])
        | cons first others =>
            rw [List.cons_append, List.cons.injEq] at split
            obtain ⟨rfl, split⟩ := split
            exact Or.inl ⟨(others, back), ih.mpr split, rfl⟩

theorem cuts_head (run : Text) : ∃ shorter, cuts run = (run, []) :: shorter := by
  induction run with
  | nil => exact ⟨[], rfl⟩
  | cons head tail ih =>
      obtain ⟨shorter, same⟩ := ih
      refine ⟨shorter.map (fun cut => (head :: cut.1, cut.2)) ++ [([], head :: tail)], ?_⟩
      rw [cuts, same]
      rfl

theorem find_some_answer {Item Answer : Type*} {answers : Item → Option Answer}
    {items : List Item} {answer : Option Answer}
    (each : ∀ item ∈ items, answers item = none ∨ answers item = answer)
    (found : ∃ item ∈ items, answers item = answer) : items.findSome? answers = answer := by
  obtain ⟨item, inside, gives⟩ := found
  cases first : items.findSome? answers with
  | none =>
      rw [List.findSome?_eq_none_iff] at first
      rw [← gives, first item inside]
  | some other =>
      obtain ⟨before, inside, same⟩ := List.exists_of_findSome?_eq_some first
      rcases each before inside with none | some
      · rw [none] at same
        cases same
      · rw [← some, same]

section Runs

variable {accepts : Char → Bool} (done : Continuation)

theorem char_accepted (head : Char) (tail : Text) (cursor : Cursor)
    (reads : cursor.rest = head :: tail) (accepted : accepts head = true) :
    (Pattern.char accepts).run cursor done = done (cursor.past [head] tail) := by
  simp only [Pattern.run, reads, accepted, if_true, advance_past cursor head tail reads]

theorem char_refused (cursor : Cursor)
    (outside : ∀ char ∈ cursor.rest.head?, accepts char = false) :
    (Pattern.char accepts).run cursor done = none := by
  simp only [Pattern.run]
  cases rest : cursor.rest with
  | nil => rfl
  | cons head tail =>
      have refused : accepts head = false := outside head (by rw [rest]; rfl)
      simp [refused]

theorem greedy_from (run rest : Text) (cursor : Cursor) (fuel : Nat)
    (enough : run.length ≤ fuel) (reads : cursor.rest = run ++ rest)
    (inside : ∀ char ∈ run, accepts char = true)
    (outside : ∀ char ∈ rest.head?, accepts char = false) :
    repeatFrom (Pattern.char accepts).run true fuel cursor done =
      (cuts run).findSome? fun cut => done (cursor.past cut.1 (cut.2 ++ rest)) := by
  induction run generalizing cursor fuel with
  | nil =>
      rw [List.nil_append] at reads
      have here : cursor.past [] rest = cursor := by rw [← reads, past_nil]
      simp only [cuts, List.findSome?_cons, List.nil_append, here, List.findSome?_nil]
      have last : repeatFrom (Pattern.char accepts).run true fuel cursor done = done cursor := by
        cases fuel with
        | zero => rfl
        | succ fuel =>
            rw [repeatFrom, char_refused _ cursor (by rw [reads]; exact outside)]
            rfl
      rw [last]
      cases done cursor <;> rfl
  | cons head tail ih =>
      cases fuel with
      | zero => exact absurd enough (by simp)
      | succ fuel =>
          rw [List.cons_append] at reads
          have accepted : accepts head = true := inside head List.mem_cons_self
          have further := ih (cursor.past [head] (tail ++ rest)) fuel
            (Nat.le_of_succ_le_succ enough) rfl
            (fun char member => inside char (List.mem_cons_of_mem _ member))
          have shorter : (cursor.past [head] (tail ++ rest)).rest.length < cursor.rest.length := by
            rw [reads]
            simp [Cursor.past]
          have stays : cursor.past [] ((head :: tail) ++ rest) = cursor := by
            rw [List.cons_append, ← reads, past_nil]
          rw [repeatFrom, char_accepted _ head (tail ++ rest) cursor reads accepted,
            if_pos shorter, further, cuts, List.findSome?_append, List.findSome?_map]
          simp only [if_true]
          congr 1
          · congr 1
            funext cut
            simp only [Function.comp, past_past, List.singleton_append]
          · simp only [List.findSome?_cons, stays, List.findSome?_nil]
            cases done cursor <;> rfl

theorem star_cuts (run rest : Text) (cursor : Cursor) (reads : cursor.rest = run ++ rest)
    (inside : ∀ char ∈ run, accepts char = true)
    (outside : ∀ char ∈ rest.head?, accepts char = false) :
    (Pattern.star true (.char accepts)).run cursor done =
      (cuts run).findSome? fun cut => done (cursor.past cut.1 (cut.2 ++ rest)) := by
  rw [Pattern.run]
  exact greedy_from done run rest cursor _ (by rw [reads]; simp) reads inside outside

theorem plus_cuts (head : Char) (run rest : Text) (cursor : Cursor)
    (reads : cursor.rest = head :: run ++ rest)
    (inside : ∀ char ∈ head :: run, accepts char = true)
    (outside : ∀ char ∈ rest.head?, accepts char = false) :
    (Pattern.plus (.char accepts)).run cursor done =
      (cuts run).findSome? fun cut => done (cursor.past (head :: cut.1) (cut.2 ++ rest)) := by
  have accepted : accepts head = true := inside head List.mem_cons_self
  have further := star_cuts done run rest (cursor.past [head] (run ++ rest)) rfl
    (fun char member => inside char (List.mem_cons_of_mem _ member)) outside
  have first : (Pattern.plus (.char accepts)).run cursor done =
      (Pattern.star true (.char accepts)).run (cursor.past [head] (run ++ rest)) done := by
    rw [Pattern.plus, Pattern.run]
    exact char_accepted _ head (run ++ rest) cursor reads accepted
  rw [first, further]
  congr 1
  funext cut
  simp only [past_past, List.singleton_append]

theorem plus_refused (cursor : Cursor)
    (outside : ∀ char ∈ cursor.rest.head?, accepts char = false) :
    (Pattern.plus (.char accepts)).run cursor done = none := by
  rw [Pattern.plus, Pattern.run]
  exact char_refused _ cursor outside

theorem cuts_whole {answers : Text × Text → Option Cursor} {run : Text}
    (refuses : ∀ taken head tail, run = taken ++ head :: tail →
      answers (taken, head :: tail) = none) :
    (cuts run).findSome? answers = answers (run, []) := by
  obtain ⟨shorter, same⟩ := cuts_head run
  cases whole : answers (run, []) with
  | some answer => simp [same, whole]
  | none =>
      rw [List.findSome?_eq_none_iff]
      rintro ⟨taken, back⟩ inside
      have split := mem_cuts.mp inside
      cases back with
      | nil =>
          rw [List.append_nil] at split
          rw [← split, whole]
      | cons head tail => exact refuses taken head tail split

theorem plus_whole (head : Char) (run rest : Text) (cursor : Cursor)
    (reads : cursor.rest = head :: run ++ rest)
    (inside : ∀ char ∈ head :: run, accepts char = true)
    (outside : ∀ char ∈ rest.head?, accepts char = false)
    (refuses : ∀ next : Cursor, (∃ char ∈ next.rest.head?, accepts char = true) →
      done next = none) :
    (Pattern.plus (.char accepts)).run cursor done = done (cursor.past (head :: run) rest) := by
  rw [plus_cuts done head run rest cursor reads inside outside, cuts_whole]
  · rfl
  · intro taken first tail split
    exact refuses _ ⟨first, rfl, inside first (by rw [split]; simp)⟩

end Runs

end Defender.Library.Regex
