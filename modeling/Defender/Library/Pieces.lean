import Defender.Library.Delimited

/-!
# Lists cut at separators

Every piece keeps the separator that ended it, so that a list is rebuilt from its
pieces, and cutting what was rebuilt from terminated pieces finds them again.
-/

namespace Defender.Library.Pieces

variable {α : Type*}

def pieces (isBreak : α → Bool) : List α → List (List α × List α)
  | [] => [([], [])]
  | head :: tail =>
      if isBreak head then ([], [head]) :: pieces isBreak tail
      else
        match pieces isBreak tail with
        | [] => [([head], [])]
        | (piece, separator) :: others => (head :: piece, separator) :: others

def rebuild (list : List (List α × List α)) : List α := list.flatMap fun piece => piece.1 ++ piece.2

def closeLast (separator : List α) : List (List α × List α) → List (List α × List α)
  | [] => []
  | [piece] => [(piece.1, separator)]
  | piece :: next :: others => piece :: closeLast separator (next :: others)

variable {isBreak : α → Bool}

/-- A piece without separators inside, ended by one. -/
def Terminated (isBreak : α → Bool) (piece : List α × List α) : Prop :=
  (∀ item ∈ piece.1, isBreak item = false) ∧ ∃ item, isBreak item = true ∧ piece.2 = [item]

theorem pieces_ne_nil (list : List α) : pieces isBreak list ≠ [] := by
  cases list with
  | nil => simp [pieces]
  | cons head tail =>
      rw [pieces]
      split
      · simp
      · split <;> simp

@[simp] theorem rebuild_cons (piece : List α × List α) (others : List (List α × List α)) :
    rebuild (piece :: others) = piece.1 ++ piece.2 ++ rebuild others := rfl

theorem rebuild_append (left right : List (List α × List α)) :
    rebuild (left ++ right) = rebuild left ++ rebuild right := by
  simp [rebuild]

theorem rebuild_pieces (list : List α) : rebuild (pieces isBreak list) = list := by
  induction list with
  | nil => rfl
  | cons head tail ih =>
      rw [pieces]
      split
      · simp [ih]
      · cases cut : pieces isBreak tail with
        | nil => exact absurd cut (pieces_ne_nil tail)
        | cons piece others =>
            rw [cut] at ih
            simpa using ih

theorem close_last_cons (separator : List α) (piece : List α × List α)
    {others : List (List α × List α)} (more : others ≠ []) :
    closeLast separator (piece :: others) = piece :: closeLast separator others := by
  cases others with
  | nil => exact absurd rfl more
  | cons next rest => rfl

theorem pieces_append {separator : α} (breaks : isBreak separator = true) (left right : List α) :
    pieces isBreak (left ++ separator :: right) =
      closeLast [separator] (pieces isBreak left) ++ pieces isBreak right := by
  induction left with
  | nil => simp [pieces, breaks, closeLast]
  | cons head tail ih =>
      rw [List.cons_append, pieces, pieces]
      split
      · rw [ih, close_last_cons _ _ (pieces_ne_nil tail), List.cons_append]
      · rw [ih]
        cases cut : pieces isBreak tail with
        | nil => exact absurd cut (pieces_ne_nil tail)
        | cons piece others =>
            cases others with
            | nil => rfl
            | cons next rest => rfl

/-- Every piece but the last is terminated. -/
theorem pieces_close_terminated {separator : α} (breaks : isBreak separator = true)
    (list : List α) :
    ∀ piece ∈ closeLast [separator] (pieces isBreak list), Terminated isBreak piece := by
  induction list with
  | nil =>
      intro piece member
      rw [pieces, closeLast, List.mem_singleton] at member
      subst member
      exact ⟨by simp, separator, breaks, rfl⟩
  | cons head tail ih =>
      intro piece member
      rw [pieces] at member
      split at member
      · rename_i ends
        rw [close_last_cons _ _ (pieces_ne_nil tail), List.mem_cons] at member
        rcases member with rfl | later
        · exact ⟨by simp, head, ends, rfl⟩
        · exact ih piece later
      · rename_i inside
        have plain : isBreak head = false := by simpa using inside
        cases cut : pieces isBreak tail with
        | nil => exact absurd cut (pieces_ne_nil tail)
        | cons first others =>
            rw [cut] at member ih
            have grown : ∀ ending, Terminated isBreak (first.1, ending) →
                Terminated isBreak (head :: first.1, ending) := by
              intro ending ended
              refine ⟨?_, ended.2⟩
              intro item inPiece
              rcases List.mem_cons.mp inPiece with rfl | inTail
              · exact plain
              · exact ended.1 item inTail
            cases others with
            | nil =>
                rw [closeLast, List.mem_singleton] at member
                subst member
                exact grown _ (ih _ (by simp [closeLast]))
            | cons next rest =>
                rw [closeLast, List.mem_cons] at member
                rcases member with rfl | later
                · exact grown _ (ih first (by simp [closeLast]))
                · exact ih piece (by simp [closeLast, later])

theorem pieces_plain {list : List α} (plain : ∀ item ∈ list, isBreak item = false) :
    pieces isBreak list = [(list, [])] := by
  induction list with
  | nil => rfl
  | cons head tail ih =>
      rw [pieces, ih (fun item member => plain item (List.mem_cons_of_mem _ member))]
      simp [plain head (by simp)]

theorem pieces_rebuild_append {list : List (List α × List α)}
    (ended : ∀ piece ∈ list, Terminated isBreak piece) (rest : List α) :
    pieces isBreak (rebuild list ++ rest) = list ++ pieces isBreak rest := by
  induction list with
  | nil => rfl
  | cons piece others ih =>
      rcases ended piece (by simp) with ⟨plain, separator, breaks, ending⟩
      rw [rebuild_cons, ending, List.append_assoc, List.append_assoc, List.singleton_append,
        pieces_append breaks, pieces_plain plain,
        ih (fun other member => ended other (List.mem_cons_of_mem _ member))]
      simp [closeLast, ← ending]

theorem pieces_rebuild {list : List (List α × List α)}
    (ended : ∀ piece ∈ list, Terminated isBreak piece) :
    pieces isBreak (rebuild list) = list ++ [([], [])] := by
  have cut := pieces_rebuild_append ended []
  rwa [List.append_nil] at cut

/-- What stands in front of the first break stays in the first piece. -/
theorem pieces_start {start : List α} (plain : ∀ item ∈ start, isBreak item = false)
    (rest : List α) : ∃ piece separator others,
      pieces isBreak (start ++ rest) = (start ++ piece, separator) :: others := by
  induction start with
  | nil =>
      obtain ⟨first, others, cut⟩ :=
        List.exists_cons_of_ne_nil (show pieces isBreak rest ≠ [] from pieces_ne_nil rest)
      exact ⟨first.1, first.2, others, cut⟩
  | cons head tail ih =>
      obtain ⟨piece, separator, others, cut⟩ :=
        ih fun item member => plain item (List.mem_cons_of_mem _ member)
      refine ⟨piece, separator, others, ?_⟩
      rw [List.cons_append, pieces, if_neg (by simp [plain head List.mem_cons_self]), cut]
      rfl

section Seams

variable [DecidableEq α]

/-- Whether the last piece ended at this separator. -/
def endsAt (separator : α) (list : List (List α × List α)) : Bool :=
  list.getLast?.any fun piece => piece.2 == [separator]

variable {head : α} {tail : List α} {list : List (List α × List α)}

omit [DecidableEq α] in
theorem prefix_before_break {piece rest : List α} {separator : α} (fresh : separator ∉ tail) :
    tail <+: piece ++ separator :: rest ↔ tail <+: piece := by
  constructor
  · intro starts
    by_cases fits : tail.length ≤ piece.length
    · exact List.prefix_of_prefix_length_le starts (List.prefix_append piece _) fits
    · have own : piece ++ [separator] <+: piece ++ separator :: rest := ⟨rest, by simp⟩
      have beyond : piece ++ [separator] <+: tail :=
        List.prefix_of_prefix_length_le own starts (by simp; omega)
      exact absurd (beyond.subset (by simp)) fresh
  · exact fun starts => starts.trans (List.prefix_append piece _)

/-- A word that starts at a break and has none further on stands where a piece starts behind that
separator. -/
theorem infix_rebuild_iff (ended : ∀ piece ∈ list, Terminated isBreak piece)
    (breaks : isBreak head = true) (whole : ∀ item ∈ tail, isBreak item = false)
    (visible : tail ≠ []) : head :: tail <:+: rebuild list ↔
      ∃ early next late, list = early ++ next :: late ∧ tail <+: next.1 ∧
        endsAt head early = true := by
  induction list with
  | nil =>
      constructor
      · intro occurs
        have empty := List.infix_nil.mp occurs
        contradiction
      · rintro ⟨early, next, late, split, -⟩
        simp at split
  | cons piece others ih =>
      obtain ⟨plain, separator, parts, ending⟩ := ended piece List.mem_cons_self
      have later := ih fun other member => ended other (List.mem_cons_of_mem _ member)
      have outside : head ∉ piece.1 := by
        intro inside
        rw [plain head inside] at breaks
        cases breaks
      have here : head :: tail <:+: rebuild (piece :: others) ↔
          separator = head ∧ tail <+: rebuild others ∨ head :: tail <:+: rebuild others := by
        rw [rebuild_cons, ending, List.append_assoc, List.singleton_append]
        constructor
        · intro occurs
          have behind := Delimited.infix_of_infix_append outside occurs
          rw [List.infix_cons_iff, List.cons_prefix_cons] at behind
          exact behind.imp_left fun both => ⟨both.1.symm, both.2⟩
        · intro found
          refine List.IsInfix.trans ?_ (List.suffix_append piece.1 _).isInfix
          rw [List.infix_cons_iff, List.cons_prefix_cons]
          exact found.imp_left fun both => ⟨both.1.symm, both.2⟩
      rw [here, later]
      constructor
      · rintro (⟨rfl, starts⟩ | ⟨early, next, late, rfl, starts, ends⟩)
        · cases others with
          | nil => exact absurd (List.prefix_nil.mp starts) visible
          | cons next late =>
              obtain ⟨-, last, closes, shut⟩ := ended next (by simp)
              have fresh : last ∉ tail := by
                intro inside
                rw [whole last inside] at closes
                cases closes
              rw [rebuild_cons, shut, List.append_assoc, List.singleton_append,
                prefix_before_break fresh] at starts
              exact ⟨[piece], next, late, rfl, starts, by simp [endsAt, ending]⟩
        · refine ⟨piece :: early, next, late, rfl, starts, ?_⟩
          cases early with
          | nil => cases ends
          | cons first more => simpa [endsAt] using ends
      · rintro ⟨early, next, late, split, starts, ends⟩
        cases early with
        | nil => cases ends
        | cons first more =>
            obtain ⟨rfl, rfl⟩ := List.cons_eq_cons.mp split
            cases more with
            | nil =>
                left
                refine ⟨by simpa [endsAt, ending] using ends, ?_⟩
                exact starts.trans ⟨next.2 ++ rebuild late, by simp⟩
            | cons second more =>
                exact .inr ⟨second :: more, next, late, rfl, starts, by simpa [endsAt] using ends⟩

end Seams

end Defender.Library.Pieces
