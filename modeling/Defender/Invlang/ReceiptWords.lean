import Defender.Invlang.Validate.Ceiling
import Defender.Library.GreedyRun
import Defender.Invlang.SlotScan

/-!
# Where the fields of a ceiling receipt end

The field pattern repeats `name=value` words greedily before `note=`, and a word of the note
can read as one more field. The text is taken as its words: the repetition goes past a note
only where another one follows with nothing but fields before it.
-/

namespace Defender.Invlang

open Defender.Python Defender.Library.Regex Defender.Library.OrderedDict

/-- A word the field pattern reads: an equals sign with something on both sides. -/
def isFieldWord (word : Str) : Bool := word.tail.dropLast.contains '='

def noteMark : Str := "note="

def restarts : List Str → Bool
  | [] => false
  | word :: others =>
      isFieldWord word && ((others.head?.map (startsWith noteMark)).getD false || restarts others)

/-- What the field pattern needs once a name is read: an equals sign and a value. -/
def startsValue : Str → Bool
  | '=' :: _ :: _ => true
  | _ => false

def valuePattern : Pattern := .sequence [.char (· == '='), nonSpaceRun, someSpace]

def fieldRound : Pattern := .sequence [nonSpaceRun, .char (· == '='), nonSpaceRun, someSpace]

theorem starts_value_iff (text : Str) : startsValue text = true ↔
    ∃ value, value ≠ [] ∧ text = '=' :: value := by
  unfold startsValue
  split
  · simp
  · rename_i others
    constructor
    · intro absurd
      cases absurd
    · rintro ⟨value, valued, rfl⟩
      cases value with
      | nil => exact absurd rfl valued
      | cons first more => exact absurd rfl (others first more)

theorem is_field_word_iff (word : Str) : isFieldWord word = true ↔
    ∃ name value, name ≠ [] ∧ value ≠ [] ∧ word = name ++ '=' :: value := by
  unfold isFieldWord
  rw [List.contains_iff_mem]
  constructor
  · intro inside
    obtain ⟨before, after, split⟩ := List.append_of_mem inside
    cases word with
    | nil => simp at inside
    | cons head tail =>
        rw [List.tail_cons] at inside split
        have filled : tail ≠ [] := by
          rintro rfl
          simp at inside
        refine ⟨head :: before, after ++ [tail.getLast filled], by simp, by simp, ?_⟩
        have whole := List.dropLast_append_getLast filled
        rw [split] at whole
        calc
          head :: tail = head :: (before ++ '=' :: after ++ [tail.getLast filled]) := by
            rw [whole]
          _ = _ := by simp
  · rintro ⟨name, value, named, valued, rfl⟩
    cases name with
    | nil => exact absurd rfl named
    | cons head tail =>
        rw [List.cons_append, List.tail_cons, List.dropLast_append_of_ne_nil (by simp),
          List.dropLast_cons_of_ne_nil valued]
        simp

section Rounds

variable (done : Continuation)

theorem gap_run (gap rest : Str) (cursor : Cursor) (reads : cursor.rest = gap ++ rest)
    (spaces : ∀ char ∈ gap, isSpace char = true)
    (resumed : ∀ char ∈ rest.head?, isSpace char = false)
    (refuses : ∀ next : Cursor, (∃ char ∈ next.rest.head?, isSpace char = true) →
      done next = none) :
    someSpace.run cursor done = if gap ≠ [] then done (cursor.past gap rest) else none := by
  cases gap with
  | nil =>
      rw [if_neg (by simp)]
      exact plus_refused done cursor (by rw [reads]; exact resumed)
  | cons head tail =>
      rw [if_pos (by simp)]
      exact plus_whole done head tail rest cursor reads spaces resumed refuses

variable (gap rest : Str) (spaces : ∀ char ∈ gap, isSpace char = true)
  (apart : gap = [] → rest = []) (resumed : ∀ char ∈ rest.head?, isSpace char = false)
  (refuses : ∀ next : Cursor, (∃ char ∈ next.rest.head?, isSpace char = true) →
    done next = none)

include spaces apart in
theorem gap_head : ∀ char ∈ (gap ++ rest).head?, isSpace char = true := by
  cases gap with
  | nil =>
      rw [apart rfl]
      simp
  | cons head tail =>
      intro char first
      cases first
      exact spaces _ List.mem_cons_self

include spaces apart resumed refuses in
theorem value_run (back : Str) (cursor : Cursor) (reads : cursor.rest = back ++ (gap ++ rest))
    (visible : ∀ char ∈ back, isSpace char = false) :
    valuePattern.run cursor done =
      if startsValue back = true ∧ gap ≠ [] then
        done (cursor.past (back ++ gap) rest)
      else none := by
  have spaced := gap_head gap rest spaces apart
  have ends : ∀ next : Cursor, (∃ char ∈ next.rest.head?, (!isSpace char) = true) →
      someSpace.run next done = none := by
    rintro next ⟨char, first, seen⟩
    apply plus_refused
    intro other same
    obtain rfl := Option.mem_unique first same
    simpa using seen
  have outside : ∀ char ∈ (gap ++ rest).head?, (!isSpace char) = false := by
    intro char first
    simp [spaced char first]
  change (Pattern.char (· == '=')).run cursor (fun next => nonSpaceRun.run next fun valued =>
    someSpace.run valued done) = _
  cases back with
  | nil =>
      rw [if_neg (by simp [startsValue])]
      apply char_refused
      intro char first
      rw [reads, List.nil_append] at first
      by_contra same
      have space := spaced char first
      rw [beq_iff_eq.mp (by simpa using same : (char == '=') = true)] at space
      revert space
      decide
  | cons head value =>
      by_cases same : head = '='
      · subst same
        rw [char_accepted _ '=' (value ++ (gap ++ rest)) cursor reads (by decide)]
        cases value with
        | nil =>
            rw [if_neg (by simp [startsValue])]
            exact plus_refused _ _ outside
        | cons first others =>
            have inside : ∀ char ∈ first :: others, (!isSpace char) = true := by
              intro char member
              simp [visible char (List.mem_cons_of_mem _ member)]
            have whole := @plus_whole (fun char => !isSpace char)
              (fun valued => someSpace.run valued done) first others (gap ++ rest)
              (cursor.past ['='] (first :: others ++ (gap ++ rest))) rfl inside outside ends
            change (Pattern.plus (.char fun char => !isSpace char)).run _ _ = _
            rw [whole, gap_run done gap rest _ rfl spaces resumed refuses, past_past, past_past]
            by_cases filled : gap = []
            · rw [if_neg (by simp [filled]), if_neg (by simp [filled])]
            · rw [if_pos filled, if_pos ⟨rfl, filled⟩]
              simp
      · rw [if_neg (by simp [startsValue, same])]
        apply char_refused
        intro char first
        rw [reads] at first
        cases first
        simpa using same

include spaces apart resumed refuses in
/-- A round of the field pattern reads one word and the space after it, or nothing. -/
theorem field_round_run (word : Str) (cursor : Cursor)
    (reads : cursor.rest = word ++ (gap ++ rest))
    (visible : ∀ char ∈ word, isSpace char = false) :
    fieldRound.run cursor done =
      if isFieldWord word = true ∧ gap ≠ [] then done (cursor.past (word ++ gap) rest)
      else none := by
  have spaced := gap_head gap rest spaces apart
  have outside : ∀ char ∈ (gap ++ rest).head?, (!isSpace char) = false := by
    intro char first
    simp [spaced char first]
  change nonSpaceRun.run cursor (fun named => valuePattern.run named done) = _
  cases word with
  | nil =>
      rw [if_neg (by simp [isFieldWord])]
      exact plus_refused _ cursor (by rw [reads]; exact outside)
  | cons head tail =>
      have inside : ∀ char ∈ head :: tail, (!isSpace char) = true := by
        intro char member
        simp [visible char member]
      have value : ∀ taken back, tail = taken ++ back →
          valuePattern.run (cursor.past (head :: taken) (back ++ (gap ++ rest))) done =
            if startsValue back = true ∧ gap ≠ [] then
              done (cursor.past (head :: tail ++ gap) rest)
            else none := by
        intro taken back split
        rw [value_run done gap rest spaces apart resumed refuses back _ rfl
          (fun char member => visible char (by rw [split]; simp [member])), past_past, split]
        simp only [List.cons_append, List.append_assoc]
      change (Pattern.plus (.char fun char => !isSpace char)).run cursor _ = _
      rw [plus_cuts (fun named => valuePattern.run named done) head tail (gap ++ rest) cursor reads
        inside outside]
      by_cases field : isFieldWord (head :: tail) = true ∧ gap ≠ []
      · rw [if_pos field]
        obtain ⟨name, text, named, valued, split⟩ := (is_field_word_iff _).mp field.1
        apply find_some_answer
        · rintro ⟨taken, back⟩ member
          rw [value taken back (mem_cuts.mp member)]
          by_cases starts : startsValue back = true ∧ gap ≠ []
          · exact Or.inr (if_pos starts)
          · exact Or.inl (if_neg starts)
        · cases name with
          | nil => exact absurd rfl named
          | cons first taken =>
              rw [List.cons_append, List.cons.injEq] at split
              obtain ⟨rfl, split⟩ := split
              refine ⟨(taken, '=' :: text), mem_cuts.mpr split, ?_⟩
              rw [value taken ('=' :: text) split, if_pos]
              exact ⟨(starts_value_iff _).mpr ⟨text, valued, rfl⟩, field.2⟩
      · rw [if_neg field, List.findSome?_eq_none_iff]
        rintro ⟨taken, back⟩ member
        have split := mem_cuts.mp member
        rw [value taken back split, if_neg]
        rintro ⟨starts, filled⟩
        obtain ⟨text, valued, same⟩ := (starts_value_iff back).mp starts
        refine field ⟨(is_field_word_iff _).mpr ⟨head :: taken, text, by simp, valued, ?_⟩, filled⟩
        rw [split, same, List.cons_append]

end Rounds

section Words

/-- A text as its words, each with the space that follows it. -/
def spelled (pieces : List (Str × Str)) : Str := pieces.flatMap fun piece => piece.1 ++ piece.2

/-- Words are not empty and free of space, and only the last may end the text. -/
inductive Spelling : List (Str × Str) → Prop where
  | nil : Spelling []
  | cons {word gap : Str} {more : List (Str × Str)} (filled : word ≠ [])
      (visible : ∀ char ∈ word, isSpace char = false)
      (spaces : ∀ char ∈ gap, isSpace char = true) (apart : gap = [] → more = [])
      (others : Spelling more) : Spelling ((word, gap) :: more)

theorem spelled_cons (word gap : Str) (more : List (Str × Str)) :
    spelled ((word, gap) :: more) = word ++ (gap ++ spelled more) := by
  simp [spelled]

theorem spelled_append (early late : List (Str × Str)) :
    spelled (early ++ late) = spelled early ++ spelled late := by
  simp [spelled]

theorem spelled_head {pieces : List (Str × Str)} (spelling : Spelling pieces) :
    ∀ char ∈ (spelled pieces).head?, isSpace char = false := by
  cases spelling with
  | nil => simp [spelled]
  | @cons word gap more filled visible spaces apart others =>
      cases word with
      | nil => exact absurd rfl filled
      | cons head tail =>
          intro char first
          cases first
          exact visible _ List.mem_cons_self

theorem spelling_prefix {early late : List (Str × Str)} (spelling : Spelling (early ++ late)) :
    Spelling early := by
  induction early with
  | nil => exact .nil
  | cons piece more ih =>
      cases spelling with
      | cons filled visible spaces apart others =>
          exact .cons filled visible spaces (fun empty => (List.append_eq_nil_iff.mp
            (apart empty)).1) (ih others)

/-- Every text that does not start with space is spelled by its words. -/
theorem exists_spelling (text : Str) (begun : ∀ char ∈ text.head?, isSpace char = false) :
    ∃ pieces, Spelling pieces ∧ spelled pieces = text := by
  induction bound : text.length using Nat.strong_induction_on generalizing text with
  | _ size ih =>
      cases text with
      | nil => exact ⟨[], .nil, rfl⟩
      | cons head tail =>
          let word := (head :: tail).takeWhile fun char => !isSpace char
          let after := (head :: tail).dropWhile fun char => !isSpace char
          let gap := after.takeWhile isSpace
          let rest := after.dropWhile isSpace
          have seen : isSpace head = false := begun head rfl
          have filled : word ≠ [] := by
            simp [word, seen]
          have visible : ∀ char ∈ word, isSpace char = false := by
            intro char member
            simpa using List.mem_takeWhile_imp member
          have spaces : ∀ char ∈ gap, isSpace char = true :=
            fun char member => List.mem_takeWhile_imp member
          have whole : word ++ (gap ++ rest) = head :: tail := by
            rw [List.takeWhile_append_dropWhile, List.takeWhile_append_dropWhile]
          have resumed : ∀ char ∈ rest.head?, isSpace char = false := lstrip_head after
          have shorter : rest.length < size := by
            have length := congrArg List.length whole
            have counted := List.length_pos_iff.mpr filled
            simp only [List.length_append] at length
            omega
          obtain ⟨pieces, spelling, same⟩ := ih _ shorter rest resumed rfl
          refine ⟨(word, gap) :: pieces, .cons filled visible spaces ?_ spelling, ?_⟩
          · intro empty
            have ends : ∀ char ∈ after.head?, isSpace char = true := by
              intro char first
              have stopped := List.head?_dropWhile_not (fun char => !isSpace char) (head :: tail)
              rw [Option.mem_def.mp first] at stopped
              simpa using stopped
            cases after' : after with
            | nil =>
                have none : rest = [] := by simp [rest, after']
                rw [none] at same
                cases spelling with
                | nil => rfl
                | @cons word gap more filled visible spaces apart others =>
                    rw [spelled_cons] at same
                    exact absurd (List.append_eq_nil_iff.mp same).1 filled
            | cons first others =>
                have space := ends first (by rw [after']; rfl)
                have taken : gap = first :: others.takeWhile isSpace := by
                  simp only [gap, after', List.takeWhile_cons, space, if_true]
                rw [taken] at empty
                cases empty
          · rw [spelled_cons, same, whole]

theorem split_spaces {gap : Str} (spaces : ∀ char ∈ gap, isSpace char = true) (rest : Str) :
    splitWhitespace (gap ++ rest) = splitWhitespace rest := by
  induction gap with
  | nil => rfl
  | cons head tail ih =>
      have space := spaces head List.mem_cons_self
      have further := ih fun char member => spaces char (List.mem_cons_of_mem _ member)
      rw [List.cons_append]
      unfold splitWhitespace at further ⊢
      rw [List.splitOnP_cons_eq_if_modifyHead, if_pos space]
      simpa using further

theorem split_spelled {pieces : List (Str × Str)} (spelling : Spelling pieces) :
    splitWhitespace (spelled pieces) = pieces.map Prod.fst := by
  induction spelling with
  | nil => rfl
  | @cons word gap more filled visible spaces apart others ih =>
      rw [spelled_cons, List.map_cons]
      cases gap with
      | nil =>
          rw [apart rfl]
          have single : word.splitOnP isSpace = [word] :=
            List.splitOnP_eq_singleton visible
          simp [splitWhitespace, spelled, single, filled]
      | cons head tail =>
          have first := List.splitOnP_append_cons_of_forall_mem visible head
            (spaces head List.mem_cons_self) (tail ++ spelled more)
          have rest := split_spaces
            (fun char member => spaces char (List.mem_cons_of_mem _ member)) (spelled more)
          unfold splitWhitespace at rest ih ⊢
          rw [List.cons_append, first, List.filter_cons_of_pos (by simpa using filled), rest, ih]

end Words

section Runs

variable {done : Continuation}

/-- Where the repetition of fields stops: as late as the rest of the pattern allows. -/
def fieldsThen (done : Continuation) : List (Str × Str) → Cursor → Option Cursor
  | [], cursor => done cursor
  | (word, gap) :: more, cursor =>
      (if isFieldWord word = true ∧ gap ≠ [] then
        fieldsThen done more (cursor.past (word ++ gap) (spelled more))
      else none).or (done cursor)

theorem fields_then_field {word gap : Str} (more : List (Str × Str)) (cursor : Cursor)
    (field : isFieldWord word = true) (parted : gap ≠ []) (refused : done cursor = none) :
    fieldsThen done ((word, gap) :: more) cursor =
      fieldsThen done more (cursor.past (word ++ gap) (spelled more)) := by
  rw [fieldsThen, if_pos ⟨field, parted⟩, refused, Option.or_none]

theorem fields_refused (fuel : Nat) (next : Cursor)
    (refuses : ∀ next : Cursor, (∃ char ∈ next.rest.head?, isSpace char = true) → done next = none)
    (begun : ∃ char ∈ next.rest.head?, isSpace char = true) :
    repeatFrom fieldRound.run true fuel next done = none := by
  cases fuel with
  | zero => exact refuses next begun
  | succ fuel =>
      have missed : ∀ further, fieldRound.run next further = none := by
        intro further
        apply plus_refused
        intro char first
        obtain ⟨other, same, space⟩ := begun
        obtain rfl := Option.mem_unique first same
        simp [space]
      rw [repeatFrom, missed]
      simp [refuses next begun]

/-- The repetition stops inside the words as `fieldsThen` says. -/
theorem fields_run {pieces : List (Str × Str)} (spelling : Spelling pieces) (cursor : Cursor)
    (fuel : Nat) (enough : pieces.length ≤ fuel) (reads : cursor.rest = spelled pieces)
    (refuses : ∀ next : Cursor, (∃ char ∈ next.rest.head?, isSpace char = true) →
      done next = none) :
    repeatFrom fieldRound.run true fuel cursor done = fieldsThen done pieces cursor := by
  induction spelling generalizing cursor fuel with
  | nil =>
      cases fuel with
      | zero => rfl
      | succ fuel =>
          have missed : ∀ further, fieldRound.run cursor further = none := by
            intro further
            exact plus_refused _ cursor (by simp [reads, spelled])
          rw [repeatFrom, missed]
          rfl
  | @cons word gap more filled visible spaces apart others ih =>
      cases fuel with
      | zero => exact absurd enough (by simp)
      | succ fuel =>
          rw [spelled_cons] at reads
          have unread : gap = [] → spelled more = [] := by
            intro empty
            rw [apart empty]
            rfl
          have moved := fun further => field_round_run further gap (spelled more) spaces unread
            (spelled_head others)
          have shorter : (cursor.past (word ++ gap) (spelled more)).rest.length <
              cursor.rest.length := by
            have counted := List.length_pos_iff.mpr filled
            rw [reads]
            simp only [Cursor.past, List.length_append]
            omega
          rw [repeatFrom, moved _ ?_ word cursor reads visible, fieldsThen, if_pos rfl]
          · by_cases field : isFieldWord word = true ∧ gap ≠ []
            · rw [if_pos field, if_pos field, if_pos shorter,
                ih _ fuel (Nat.le_of_succ_le_succ enough) rfl]
            · rw [if_neg field, if_neg field]
          · intro next begun
            split
            · exact fields_refused fuel next refuses begun
            · rfl

end Runs

section Stops

theorem note_prefix_word {word after : Str} (parted : ∀ char ∈ after.head?, isSpace char = true) :
    startsWith noteMark (word ++ after) = startsWith noteMark word := by
  rw [Bool.eq_iff_iff]
  unfold startsWith
  rw [List.isPrefixOf_iff_prefix, List.isPrefixOf_iff_prefix]
  constructor
  · intro both
    rcases List.prefix_or_prefix_of_prefix both (List.prefix_append word after) with
      inside | ⟨more, whole⟩
    · exact inside
    · rw [← whole] at both ⊢
      cases more with
      | nil => rw [List.append_nil]
      | cons head tail =>
          have start : head :: tail <+: after := (List.prefix_append_right_inj word).mp both
          obtain ⟨others, same⟩ := start
          have space : isSpace head = true := parted head (by rw [← same]; rfl)
          have inside : head ∈ noteMark := by
            rw [← whole]
            simp
          have seen : ∀ char ∈ noteMark, isSpace char = false := by decide
          rw [seen head inside] at space
          cases space
  · intro inside
    exact inside.trans (List.prefix_append word after)

theorem spelled_begins {pieces : List (Str × Str)} (spelling : Spelling pieces) :
    startsWith noteMark (spelled pieces) =
      ((pieces.map Prod.fst).head?.map (startsWith noteMark)).getD false := by
  cases spelling with
  | nil => decide
  | @cons word gap more filled visible spaces apart others =>
      rw [spelled_cons, note_prefix_word]
      · rfl
      · exact gap_head gap (spelled more) spaces (fun empty => by rw [apart empty]; rfl)

variable {done : Continuation} (answers : ∀ next : Cursor, '\n' ∉ next.rest →
  (done next).isSome = startsWith noteMark next.rest)

include answers in
theorem fields_then_here {pieces : List (Str × Str)} (spelling : Spelling pieces)
    (single : '\n' ∉ spelled pieces) (last : restarts (pieces.map Prod.fst) = false)
    (cursor : Cursor) : fieldsThen done pieces cursor = done cursor := by
  induction spelling generalizing cursor with
  | nil => rfl
  | @cons word gap more filled visible spaces apart others ih =>
      rw [List.map_cons, restarts, Bool.and_eq_false_iff] at last
      rw [spelled_cons, List.mem_append, List.mem_append, not_or, not_or] at single
      rw [fieldsThen]
      by_cases field : isFieldWord word = true ∧ gap ≠ []
      · rcases last with plain | stops
        · rw [field.1] at plain
          cases plain
        · rw [Bool.or_eq_false_iff] at stops
          let next := cursor.past (word ++ gap) (spelled more)
          have refused : done next = none := by
            rw [← Option.not_isSome_iff_eq_none, answers next single.2.2]
            rw [show next.rest = spelled more from rfl, spelled_begins others, stops.1]
            decide
          rw [if_pos field, ih single.2.2 stops.2, refused, Option.none_or]
      · rw [if_neg field, Option.none_or]

include answers in
/-- With another note the fields reach as far as the last one they lead to. -/
theorem fields_then_later {pieces : List (Str × Str)} (spelling : Spelling pieces)
    (single : '\n' ∉ spelled pieces) (again : restarts (pieces.map Prod.fst) = true)
    (cursor : Cursor) : ∃ fields others, fields ≠ [] ∧ pieces = fields ++ others ∧
      (∀ field ∈ fields, isFieldWord field.1 = true) ∧
      startsWith noteMark (spelled others) = true ∧
      fieldsThen done pieces cursor = done (cursor.past (spelled fields) (spelled others)) := by
  induction spelling generalizing cursor with
  | nil => cases again
  | @cons word gap more filled visible spaces apart others ih =>
      rw [List.map_cons, restarts, Bool.and_eq_true] at again
      rw [spelled_cons, List.mem_append, List.mem_append, not_or, not_or] at single
      have parted : gap ≠ [] := by
        intro empty
        rw [apart empty] at again
        exact absurd again.2 (by decide)
      have unended : ∀ rest : Str, rest <:+ spelled more → '\n' ∉ rest :=
        fun rest suffix inside => single.2.2 (suffix.mem inside)
      rw [fieldsThen, if_pos ⟨again.1, parted⟩]
      by_cases further : restarts (more.map Prod.fst) = true
      · obtain ⟨fields, rest, some, split, read, begun, stops⟩ :=
          ih single.2.2 further (cursor.past (word ++ gap) (spelled more))
        refine ⟨(word, gap) :: fields, rest, by simp, by rw [split, List.cons_append], ?_, begun, ?_⟩
        · rintro field (_ | ⟨_, member⟩)
          · exact again.1
          · exact read field member
        · have answered := answers (cursor.past (spelled ((word, gap) :: fields)) (spelled rest))
            (unended _ (by rw [split, spelled_append]; exact List.suffix_append _ _))
          have same : word ++ gap ++ spelled fields = spelled ((word, gap) :: fields) := by
            rw [spelled_cons, List.append_assoc]
          rw [stops, past_past, same, Option.or_of_isSome]
          rw [answered]
          exact begun
      · have begun : ((more.map Prod.fst).head?.map (startsWith noteMark)).getD false = true := by
          rcases Bool.or_eq_true _ _ ▸ again.2 with first | later
          · exact first
          · exact absurd later further
        have marked : startsWith noteMark (spelled more) = true := by
          rw [spelled_begins others, begun]
        refine ⟨[(word, gap)], more, by simp, rfl, by simpa using again.1, marked, ?_⟩
        have answered := answers (cursor.past (word ++ gap) (spelled more)) single.2.2
        rw [fields_then_here answers others single.2.2 (Bool.eq_false_iff.mpr further),
          Option.or_of_isSome (by rw [answered]; exact marked)]
        simp [spelled]

end Stops

end Defender.Invlang
