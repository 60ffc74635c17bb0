import Defender.Invlang.ReceiptWords

/-!
# The note of a ceiling receipt

The note is written last so that it needs no quoting. It is read as the rest of the line
exactly when no later word of it starts a note again behind words that all read as fields;
otherwise the fields swallow the note, one of them has a name no receipt has, and the row is
no receipt.
-/

namespace Defender.Invlang

open Defender.Python Defender.Library.Regex Defender.Library.OrderedDict

def noteRestarts (note : Str) : Bool := restarts (splitWhitespace (noteMark ++ note))

def receiptRow (state ref note : Str) : Str :=
  "state=" ++ state ++ " ref=" ++ ref ++ " note=" ++ note

/-- A token of the structured half: some text without space or equals sign. -/
structure FieldToken (token : Str) : Prop where
  filled : token ≠ []
  visible : ∀ char ∈ token, isSpace char = false
  plain : '=' ∉ token

section Found

theorem past_capture (cursor : Cursor) (index : Nat) (read rest : Str)
    (reads : cursor.rest = read ++ rest) :
    cursor.capture index (cursor.past read rest) =
      { cursor.past read rest with captures := (index, read) :: cursor.captures } := by
  simp [Cursor.capture, Cursor.past, reads]

def valueGroup : Pattern := .sequence [.char (· == '='), .group 2 nonSpaceRun]

variable (rest : Str) (parted : ∀ char ∈ rest.head?, isSpace char = true)

include parted in
theorem value_group_run (back : Str) (cursor : Cursor) (reads : cursor.rest = back ++ rest)
    (visible : ∀ char ∈ back, isSpace char = false) :
    valueGroup.run cursor some =
      if startsValue back = true then
        some { cursor.past back rest with captures := (2, back.tail) :: cursor.captures }
      else none := by
  have outside : ∀ char ∈ rest.head?, (!isSpace char) = false := by
    intro char first
    simp [parted char first]
  change (Pattern.char (· == '=')).run cursor (fun next => nonSpaceRun.run next fun closed =>
    some (next.capture 2 closed)) = _
  cases back with
  | nil =>
      rw [if_neg (by simp [startsValue])]
      apply char_refused
      intro char first
      rw [reads, List.nil_append] at first
      by_contra same
      have space := parted char first
      rw [beq_iff_eq.mp (by simpa using same : (char == '=') = true)] at space
      revert space
      decide
  | cons head value =>
      by_cases same : head = '='
      · subst same
        rw [char_accepted _ '=' (value ++ rest) cursor reads (by decide)]
        cases value with
        | nil =>
            rw [if_neg (by simp [startsValue])]
            exact plus_refused _ _ outside
        | cons first others =>
            have inside : ∀ char ∈ first :: others, (!isSpace char) = true := by
              intro char member
              simp [visible char (List.mem_cons_of_mem _ member)]
            obtain ⟨shorter, longest⟩ := cuts_head others
            change (Pattern.plus (.char fun char => !isSpace char)).run _ _ = _
            rw [plus_cuts _ first others rest _ rfl inside outside, longest,
              List.findSome?_cons_of_isSome (by rfl),
              if_pos (show startsValue ('=' :: first :: others) = true from rfl), List.nil_append,
              past_capture _ 2 (first :: others) rest rfl, past_past]
            rfl
      · rw [if_neg (by simp [startsValue, same])]
        apply char_refused
        intro char first
        rw [reads] at first
        cases first
        simpa using same

include parted in
/-- A field word is read as a name and a value around one of its equals signs. -/
theorem receipt_field_run (word : Str) (cursor : Cursor) (reads : cursor.rest = word ++ rest)
    (visible : ∀ char ∈ word, isSpace char = false) (field : isFieldWord word = true) :
    ∃ name value, name ≠ [] ∧ word = name ++ '=' :: value ∧
      receiptFieldRe.run cursor some =
        some { cursor.past word rest with
          captures := (2, value) :: (1, name) :: cursor.captures } := by
  have outside : ∀ char ∈ rest.head?, (!isSpace char) = false := by
    intro char first
    simp [parted char first]
  obtain ⟨first, text, named, valued, split⟩ := (is_field_word_iff word).mp field
  cases first with
  | nil => exact absurd rfl named
  | cons head taken =>
      subst split
      have inside : ∀ char ∈ head :: (taken ++ '=' :: text), (!isSpace char) = true := by
        intro char member
        simp [visible char (by simpa using member)]
      have read : ∀ front back, taken ++ '=' :: text = front ++ back →
          valueGroup.run (cursor.capture 1 (cursor.past (head :: front) (back ++ rest))) some =
            if startsValue back = true then
              some { cursor.past (head :: (taken ++ '=' :: text)) rest with
                captures := (2, back.tail) :: (1, head :: front) :: cursor.captures }
            else none := by
        intro front back split
        rw [past_capture cursor 1 (head :: front) (back ++ rest)
          (by rw [reads, List.cons_append, split]; simp)]
        rw [value_group_run rest parted back _ rfl
          (fun char member => visible char (by
            rw [List.cons_append, split]
            simp [member]))]
        have whole := past_past cursor (head :: front) back (back ++ rest) rest
        rw [List.cons_append, ← split] at whole
        rw [← whole]
        rfl
      have searched : receiptFieldRe.run cursor some =
          (cuts (taken ++ '=' :: text)).findSome? fun cut =>
            valueGroup.run (cursor.capture 1 (cursor.past (head :: cut.1) (cut.2 ++ rest))) some :=
        plus_cuts (fun closed => valueGroup.run (cursor.capture 1 closed) some) head
          (taken ++ '=' :: text) rest cursor reads inside outside
      rw [searched]
      have longest := (starts_value_iff ('=' :: text)).mpr ⟨text, valued, rfl⟩
      cases found : (cuts (taken ++ '=' :: text)).findSome? fun cut =>
          valueGroup.run (cursor.capture 1 (cursor.past (head :: cut.1) (cut.2 ++ rest))) some with
      | none =>
          rw [List.findSome?_eq_none_iff] at found
          have missed := found (taken, '=' :: text) (mem_cuts.mpr rfl)
          rw [read taken ('=' :: text) rfl, if_pos longest] at missed
          cases missed
      | some stop =>
          obtain ⟨⟨front, back⟩, member, answer⟩ := List.exists_of_findSome?_eq_some found
          have split := mem_cuts.mp member
          rw [read front back split] at answer
          by_cases starts : startsValue back = true
          · obtain ⟨value, _, same⟩ := (starts_value_iff back).mp starts
            rw [if_pos starts] at answer
            refine ⟨head :: front, value, by simp, ?_, ?_⟩
            · rw [List.cons_append, split, same, List.cons_append]
            · rw [← answer, same]
              rfl
          · rw [if_neg starts] at answer
            cases answer

/-- A piece read as a field: its word is the name, an equals sign and the value. -/
def ReadAs (piece : Str × Str) (pair : Str × Str) : Prop :=
  pair.1 ≠ [] ∧ piece.1 = pair.1 ++ '=' :: pair.2

def pairOf (found : Found) : Str × Str :=
  ((found.cursor.group 1).getD [], (found.cursor.group 2).getD [])

theorem find_past_gap (gap after : Str) (spaces : ∀ char ∈ gap, isSpace char = true)
    (cursor : Cursor) (reads : cursor.rest = gap ++ after) (fuel : Nat) :
    ∃ next : Cursor, next.rest = after ∧
      receiptFieldRe.findFrom (gap.length + fuel) cursor = receiptFieldRe.findFrom fuel next := by
  induction gap generalizing cursor with
  | nil => exact ⟨cursor, reads, by rw [List.length_nil, Nat.zero_add]⟩
  | cons head tail ih =>
      rw [List.cons_append] at reads
      have moved := advance_past cursor head (tail ++ after) reads
      obtain ⟨next, same, further⟩ := ih
        (fun char member => spaces char (List.mem_cons_of_mem _ member))
        cursor.advance (by rw [moved]; rfl)
      have missed : receiptFieldRe.run { cursor with captures := [] } some = none := by
        apply plus_refused
        intro char first
        change char ∈ cursor.rest.head? at first
        rw [reads] at first
        cases first
        simp [spaces _ List.mem_cons_self]
      refine ⟨next, same, ?_⟩
      rw [List.length_cons, Nat.add_right_comm, Pattern.findFrom, missed, ← further]
      simp [reads]

/-- Text made of field words is read word by word. -/
theorem fields_found {pieces : List (Str × Str)} (spelling : Spelling pieces)
    (fields : ∀ piece ∈ pieces, isFieldWord piece.1 = true) (cursor : Cursor)
    (reads : cursor.rest = spelled pieces) (fuel : Nat)
    (enough : (spelled pieces).length < fuel) :
    List.Forall₂ ReadAs pieces ((receiptFieldRe.findFrom fuel cursor).map pairOf) := by
  induction spelling generalizing cursor fuel with
  | nil =>
      cases fuel with
      | zero => exact .nil
      | succ fuel =>
          have missed : receiptFieldRe.run { cursor with captures := [] } some = none :=
            plus_refused _ _ (by simp [reads, spelled])
          rw [Pattern.findFrom, missed]
          simp [reads, spelled]
  | @cons word gap more filled visible spaces apart others ih =>
      rw [spelled_cons] at reads enough
      have counted := List.length_pos_iff.mpr filled
      simp only [List.length_append] at enough
      obtain ⟨less, rfl⟩ : ∃ less, fuel = gap.length + less + 1 :=
        ⟨fuel - 1 - gap.length, by omega⟩
      have parted := gap_head gap (spelled more) spaces (fun empty => by rw [apart empty]; rfl)
      let start : Cursor := { cursor with captures := [] }
      obtain ⟨name, value, named, split, read⟩ := receipt_field_run (gap ++ spelled more) parted
        word start reads visible (fields (word, gap) List.mem_cons_self)
      obtain ⟨next, same, skipped⟩ := find_past_gap gap (spelled more) spaces
        { start.past word (gap ++ spelled more) with captures := [(2, value), (1, name)] } rfl less
      have matched := ih (fun piece member => fields piece (List.mem_cons_of_mem _ member)) next
        same less (by omega)
      have moved : (start.past word (gap ++ spelled more)).offset ≠ cursor.offset := by
        simp only [Cursor.past, start]
        omega
      rw [← skipped] at matched
      rw [Pattern.findFrom, read]
      simp only [if_neg moved, List.map_cons]
      exact .cons ⟨named, split⟩ matched

end Found

/-- The rest of the row pattern once the fields are read. -/
def noteEnd (start closed : Cursor) : Option Cursor :=
  (Pattern.sequence [.literal ['n', 'o', 't', 'e', '='], .group 2 lineRest, .endOfText]).run
    (start.capture 1 closed) some

theorem note_end_missed (start closed : Cursor)
    (other : startsWith noteMark closed.rest = false) : noteEnd start closed = none := by
  apply literal_run_none
  intro begun
  change noteMark <+: closed.rest at begun
  rw [startsWith, ← Bool.not_eq_true, List.isPrefixOf_iff_prefix] at other
  exact other begun

theorem note_end_read (start closed : Cursor) (note : Str) (single : '\n' ∉ note)
    (reads : closed.rest = noteMark ++ note) :
    ∃ line, noteEnd start closed = some line ∧
      line.group 1 = some (start.rest.take (closed.offset - start.offset)) ∧
      line.group 2 = some note := by
  have inside : ∀ char ∈ note, (char != '\n') = true := by
    intro char member
    rw [bne_iff_ne]
    rintro rfl
    exact single member
  obtain ⟨shorter, longest⟩ := cuts_head note
  let marked : Cursor := ⟨closed.offset + 5, some '=', note,
    (1, start.rest.take (closed.offset - start.offset)) :: closed.captures⟩
  refine ⟨{ marked.past note [] with captures := (2, note) :: marked.captures }, ?_, rfl, rfl⟩
  have begun : noteEnd start closed = lineRest.run marked (fun stop =>
      Pattern.endOfText.run (marked.capture 2 stop) some) :=
    literal_run _ ['n', 'o', 't', 'e', '='] note (start.capture 1 closed) reads
  have captured : marked.capture 2 (marked.past note []) =
      { marked.past note [] with captures := (2, note) :: marked.captures } :=
    past_capture marked 2 note [] (by simp [marked])
  have ended : Pattern.endOfText.run (marked.capture 2 (marked.past note [])) some =
      some (marked.capture 2 (marked.past note [])) := rfl
  rw [begun, lineRest, star_cuts _ note [] marked (by simp [marked]) inside (by simp), longest,
    List.findSome?_cons_of_isSome (by rfl), List.append_nil]
  dsimp only
  rw [ended, captured]

theorem note_end_answers (start next : Cursor) (single : '\n' ∉ next.rest) :
    (noteEnd start next).isSome = startsWith noteMark next.rest := by
  cases begun : startsWith noteMark next.rest with
  | false => rw [note_end_missed start next begun]; rfl
  | true =>
      rw [startsWith, List.isPrefixOf_iff_prefix] at begun
      obtain ⟨note, whole⟩ := begun
      rw [← whole, List.mem_append, not_or] at single
      obtain ⟨line, read, _⟩ := note_end_read start next note single.2 whole.symm
      rw [read]
      rfl

/-- A line that is all words is matched as `fieldsThen` says. -/
theorem receipt_row_run {pieces : List (Str × Str)} (spelling : Spelling pieces) :
    receiptRowRe.matchPrefix (spelled pieces) =
      fieldsThen (noteEnd (.start (spelled pieces))) pieces (.start (spelled pieces)) := by
  have long : pieces.length ≤ (spelled pieces).length := by
    induction spelling with
    | nil => simp
    | cons filled visible spaces apart others ih =>
        have counted := List.length_pos_iff.mpr filled
        rw [spelled_cons, List.length_cons, List.length_append, List.length_append]
        omega
  apply fields_run spelling _ _ long rfl
  rintro next ⟨char, first, space⟩
  apply note_end_missed
  cases text : next.rest with
  | nil => rw [text] at first; cases first
  | cons head tail =>
      rw [text] at first
      cases first
      have other : 'n' ≠ char := by
        rintro rfl
        revert space
        decide
      unfold startsWith noteMark
      exact Bool.and_eq_false_iff.mpr (Or.inl (beq_false_of_ne other))

theorem strip_blank (text : Str) {blank : Str} (spaces : ∀ char ∈ blank, isSpace char = true) :
    strip (text ++ blank) = strip text := by
  induction blank using List.reverseRecOn with
  | nil => rw [List.append_nil]
  | append_singleton early last ih =>
      rw [← List.append_assoc, strip_space (spaces last (by simp)),
        ih fun char member => spaces char (by simp [member])]

theorem rstrip_note (front note : Str) :
    rstrip (front ++ (noteMark ++ rstrip note)) = front ++ (noteMark ++ rstrip note) := by
  rcases List.eq_nil_or_concat (rstrip note) with none | ⟨early, last, stripped⟩
  · have marked : front ++ (noteMark ++ []) = (front ++ ("note" : Str)) ++ ['='] := by
      simp [noteMark]
    rw [none, marked]
    exact List.rdropWhile_concat_neg isSpace _ '=' (by decide)
  · have seen : ¬ isSpace last = true := by
      have ends := List.rdropWhile_last_not isSpace note (by
        intro none
        rw [rstrip, none] at stripped
        simp at stripped)
      unfold rstrip at stripped
      simpa [stripped] using ends
    rw [stripped, List.concat_eq_append, ← List.append_assoc, ← List.append_assoc]
    exact List.rdropWhile_concat_neg isSpace _ last seen

theorem split_blank (text : Str) {blank : Str} (spaces : ∀ char ∈ blank, isSpace char = true) :
    splitWhitespace (text ++ blank) = splitWhitespace text := by
  cases blank with
  | nil => rw [List.append_nil]
  | cons head tail =>
      have none := split_spaces (fun char member => spaces char (List.mem_cons_of_mem _ member)) []
      rw [List.append_nil] at none
      unfold splitWhitespace at none ⊢
      rw [List.splitOnP_append_cons _ _ (spaces head List.mem_cons_self), List.filter_append, none]
      simp

section Receipt

def NoteIsRestOfLine (state ref note : Str) : Prop :=
  ∃ receipt, parseCeilingRow (receiptRow state ref note) = some receipt ∧
    receipt.state = state ∧ receipt.ref = some ref ∧ receipt.cap = none ∧
    receipt.note = strip note

def headPieces (state ref : Str) : List (Str × Str) :=
  [("state" ++ '=' :: state, " "), ("ref" ++ '=' :: ref, " ")]

theorem spelled_head_pieces (state ref : Str) :
    spelled (headPieces state ref) = "state=" ++ state ++ " ref=" ++ ref ++ " " := by
  simp [spelled, headPieces]

theorem receipt_row_laid (state ref note : Str) :
    receiptRow state ref note = spelled (headPieces state ref) ++ (noteMark ++ note) := by
  have parted : (" note=" : Str) = " " ++ noteMark := by decide
  rw [spelled_head_pieces]
  unfold receiptRow
  rw [parted]
  simp only [List.append_assoc]

theorem token_field (name : Str) {token : Str} (named : name ≠ []) (written : FieldToken token) :
    isFieldWord (name ++ '=' :: token) = true :=
  (is_field_word_iff _).mpr ⟨name, token, named, written.filled, rfl⟩

theorem head_spelling {state ref : Str} (stated : FieldToken state) (referred : FieldToken ref)
    {more : List (Str × Str)} (others : Spelling more) :
    Spelling (headPieces state ref ++ more) := by
  have visible : ∀ {token : Str} (name : Str), FieldToken token →
      (∀ char ∈ name, isSpace char = false) → ∀ char ∈ name ++ token, isSpace char = false := by
    intro token name written seen char member
    rcases List.mem_append.mp member with named | valued
    · exact seen char named
    · exact written.visible char valued
  have named : ∀ {token : Str} (name : Str), FieldToken token →
      (∀ char ∈ name ++ ['='], isSpace char = false) →
      ∀ char ∈ name ++ '=' :: token, isSpace char = false := by
    intro token name written seen
    simpa using visible (name ++ ['=']) written seen
  refine .cons (by simp) (named "state" stated (by decide)) (by decide) (by simp) ?_
  exact .cons (by simp) (named "ref" referred (by decide)) (by decide) (by simp) others

theorem read_as_token (key : Str) {token : Str} {pair : Str × Str} {gap : Str} (plain : '=' ∉ key)
    (written : FieldToken token) (read : ReadAs (key ++ '=' :: token, gap) pair) :
    pair = (key, token) := by
  obtain ⟨name, value⟩ := pair
  obtain ⟨_, same⟩ := read
  rcases List.append_eq_append_iff.mp same with ⟨early, named, rest⟩ | ⟨late, keyed, rest⟩
  · cases early with
    | nil =>
        obtain ⟨_, rfl⟩ := List.cons.inj rest
        rw [List.append_nil] at named
        exact Prod.ext named rfl
    | cons first others =>
        obtain ⟨rfl, inside⟩ := List.cons.inj rest
        exact absurd (by rw [inside]; simp) written.plain
  · cases late with
    | nil =>
        obtain ⟨_, rfl⟩ := List.cons.inj rest
        rw [List.append_nil] at keyed
        exact Prod.ext keyed.symm rfl
    | cons first others =>
        obtain ⟨rfl, inside⟩ := List.cons.inj rest
        exact absurd (by rw [keyed]; simp) plain

theorem fields_of_head {state ref : Str} (stated : FieldToken state) (referred : FieldToken ref) :
    receiptFields (spelled (headPieces state ref)) =
      Dict.ofList [(("state" : Str), state), ("ref", ref)] := by
  have spelling := head_spelling stated referred .nil
  rw [List.append_nil] at spelling
  have found := fields_found spelling (by
    rintro piece (_ | ⟨_, _ | ⟨_, none⟩⟩)
    · exact token_field "state" (by decide) stated
    · exact token_field "ref" (by decide) referred
    · cases none) (.start (spelled (headPieces state ref))) rfl
    ((spelled (headPieces state ref)).length + 1) (Nat.lt_succ_self _)
  change Dict.ofList ((receiptFieldRe.findFrom _ _).map pairOf) = _
  generalize (receiptFieldRe.findFrom _ _).map pairOf = pairs at found ⊢
  cases found with
  | @cons _ first _ others read more =>
      cases more with
      | @cons _ second _ none read' last =>
          cases last
          rw [read_as_token "state" (by decide) stated read,
            read_as_token "ref" (by decide) referred read']

/-- Fields that reach into the note have one that no receipt has. -/
theorem fields_into_note (state ref : Str) {early late : List (Str × Str)}
    (stated : FieldToken state) (referred : FieldToken ref)
    (spelling : Spelling (headPieces state ref ++ early)) (more : early ≠ [])
    (begun : startsWith noteMark (spelled (early ++ late)) = true)
    (fields : ∀ piece ∈ early, isFieldWord piece.1 = true) :
    ((receiptFields (spelled (headPieces state ref ++ early))).keys.all fun name =>
      receiptFieldNames.contains name) = false := by
  have read : ∀ piece ∈ headPieces state ref ++ early, isFieldWord piece.1 = true := by
    rintro piece (_ | ⟨_, _ | ⟨_, later⟩⟩)
    · exact token_field "state" (by decide) stated
    · exact token_field "ref" (by decide) referred
    · exact fields piece later
  have found := fields_found spelling read (.start (spelled (headPieces state ref ++ early))) rfl
    ((spelled (headPieces state ref ++ early)).length + 1) (Nat.lt_succ_self _)
  change ((Dict.ofList ((receiptFieldRe.findFrom _ _).map pairOf)).keys.all _) = false
  generalize (receiptFieldRe.findFrom _ _).map pairOf = pairs at found ⊢
  cases early with
  | nil => exact absurd rfl more
  | cons piece others =>
      obtain ⟨pair, among, named, split⟩ : ∃ pair ∈ pairs, ReadAs piece pair := by
        cases found with
        | cons _ rest =>
            cases rest with
            | cons _ rest =>
                cases rest with
                | cons read _ => exact ⟨_, by simp, read⟩
      rw [List.all_eq_false]
      refine ⟨pair.1, Dict.mem_keys_of_list among, ?_⟩
      cases name : pair.1 with
      | nil => exact absurd name named
      | cons head tail =>
          have first : 'n' = head := by
            obtain ⟨word, gap⟩ := piece
            rw [name] at split
            change word = _ at split
            rw [List.cons_append, spelled_cons, split, startsWith,
              List.isPrefixOf_iff_prefix] at begun
            exact (List.cons_prefix_cons.mp begun).1
          rw [← first]
          simp [receiptFieldNames]

section Pieces

variable {state ref : Str} (stated : FieldToken state) (referred : FieldToken ref)
  {pieces : List (Str × Str)}

/-- The row as it is matched, and where its note is reached. -/
def lineStart (state ref : Str) (pieces : List (Str × Str)) : Cursor :=
  .start (spelled (headPieces state ref ++ pieces))

def noteReached (state ref : Str) (pieces : List (Str × Str)) : Cursor :=
  (lineStart state ref pieces).past (spelled (headPieces state ref)) (spelled pieces)

include stated referred in
theorem strip_receipt_row {note : Str} (others : Spelling pieces)
    (written : spelled pieces = noteMark ++ rstrip note) :
    strip (receiptRow state ref note) = spelled (headPieces state ref ++ pieces) := by
  obtain ⟨blank, whole, spaces⟩ := rstrip_split note
  rw [List.all_eq_true] at spaces
  have laid : receiptRow state ref note =
      spelled (headPieces state ref) ++ (noteMark ++ rstrip note) ++ blank := by
    conv_lhs => rw [receipt_row_laid, whole]
    rw [List.append_assoc, List.append_assoc]
  have begun := spelled_head (head_spelling stated referred others)
  rw [spelled_append, written] at begun
  rw [laid, strip_blank _ spaces, strip, lstrip_of_head begun, rstrip_note, spelled_append,
    written]

include stated referred in
theorem receipt_row_matched (others : Spelling pieces) :
    receiptRowRe.matchPrefix (spelled (headPieces state ref ++ pieces)) =
      fieldsThen (noteEnd (lineStart state ref pieces)) pieces (noteReached state ref pieces) := by
  have missed : ∀ cursor : Cursor, ∀ head tail, cursor.rest = head :: tail → 'n' ≠ head →
      noteEnd (lineStart state ref pieces) cursor = none := by
    intro cursor head tail reads other
    apply note_end_missed
    rw [reads]
    unfold startsWith noteMark
    exact Bool.and_eq_false_iff.mpr (Or.inl (beq_false_of_ne other))
  rw [receipt_row_run (head_spelling stated referred others)]
  change fieldsThen (noteEnd (lineStart state ref pieces))
    (("state" ++ '=' :: state, " ") :: ("ref" ++ '=' :: ref, " ") :: pieces)
    (lineStart state ref pieces) = _
  rw [fields_then_field _ _ (token_field "state" (by decide) stated) (by decide)
      (missed _ _ _ rfl (by decide)),
    fields_then_field _ _ (token_field "ref" (by decide) referred) (by decide)
      (missed _ _ _ rfl (by decide)), past_past]
  unfold noteReached
  congr 2
  simp [spelled, headPieces]

theorem fields_taken (state ref : Str) {early late : List (Str × Str)} (split : pieces = early ++ late) :
    (lineStart state ref pieces).rest.take
        (((noteReached state ref pieces).past (spelled early) (spelled late)).offset -
          (lineStart state ref pieces).offset) =
      spelled (headPieces state ref ++ early) := by
  have text : (lineStart state ref pieces).rest =
      spelled (headPieces state ref ++ early) ++ spelled late := by
    rw [← spelled_append, List.append_assoc, ← split]
    rfl
  have length : ((noteReached state ref pieces).past (spelled early) (spelled late)).offset -
      (lineStart state ref pieces).offset = (spelled (headPieces state ref ++ early)).length := by
    rw [spelled_append, List.length_append]
    simp [noteReached, lineStart, Cursor.past, Cursor.start]
  rw [text, length, List.take_left]

end Pieces

theorem restarted_note_refused {state ref note : Str} {pieces : List (Str × Str)}
    (stated : FieldToken state) (referred : FieldToken ref) (others : Spelling pieces)
    (written : spelled pieces = noteMark ++ rstrip note) (unbroken : '\n' ∉ spelled pieces)
    (again : restarts (pieces.map Prod.fst) = true) :
    parseCeilingRow (receiptRow state ref note) = none := by
  let start := lineStart state ref pieces
  obtain ⟨early, late, more, split, fields, begun, stops⟩ :=
    fields_then_later (note_end_answers start) others unbroken again (noteReached state ref pieces)
  let stop := (noteReached state ref pieces).past (spelled early) (spelled late)
  have remaining : stop.rest = spelled late := rfl
  rw [startsWith, List.isPrefixOf_iff_prefix] at begun
  obtain ⟨rest, marked⟩ := begun
  have restSingle : '\n' ∉ rest := by
    rw [split, spelled_append, ← marked] at unbroken
    simp only [List.mem_append, not_or] at unbroken
    exact unbroken.2.2
  obtain ⟨found, read, fieldText, _⟩ :=
    note_end_read start stop rest restSingle (remaining.trans marked.symm)
  have begins : startsWith noteMark (spelled (early ++ late)) = true := by
    rw [← split, written, startsWith, List.isPrefixOf_iff_prefix]
    exact List.prefix_append _ _
  have prefixed : Spelling (headPieces state ref ++ early) := by
    apply spelling_prefix
    rw [List.append_assoc, ← split]
    exact head_spelling stated referred others
  have foreign := fields_into_note state ref stated referred prefixed more begins fields
  rw [parseCeilingRow, strip_receipt_row stated referred others written,
    receipt_row_matched stated referred others, stops, read, Option.bind_some, fieldText,
    fields_taken state ref split]
  simp only [Option.getD_some, foreign]
  rfl

/-- The note is the rest of the line exactly when it starts no other note. -/
theorem note_rest_of_line_iff (state ref note : Str) (stated : FieldToken state)
    (referred : FieldToken ref) (single : '\n' ∉ note) :
    NoteIsRestOfLine state ref note ↔ noteRestarts note = false := by
  obtain ⟨blank, whole, spaces⟩ := rstrip_split note
  rw [List.all_eq_true] at spaces
  obtain ⟨pieces, others, written⟩ := exists_spelling (noteMark ++ rstrip note) (by
    intro char first
    have same : 'n' = char := by simpa [noteMark] using first
    rw [← same]
    decide)
  have words : noteRestarts note = restarts (pieces.map Prod.fst) := by
    unfold noteRestarts
    conv_lhs => rw [whole]
    rw [← List.append_assoc, split_blank _ spaces, ← written, split_spelled others]
  have noteSingle : '\n' ∉ rstrip note := by
    intro inside
    exact single (by rw [whole]; exact List.mem_append_left _ inside)
  have unbroken : '\n' ∉ spelled pieces := by
    rw [written, List.mem_append, not_or]
    exact ⟨by decide, noteSingle⟩
  rw [words]
  constructor
  · rintro ⟨receipt, parsed, _⟩
    by_contra again
    rw [Bool.not_eq_false] at again
    rw [restarted_note_refused stated referred others written unbroken again] at parsed
    cases parsed
  · intro last
    obtain ⟨found, read, fieldText, noteText⟩ := note_end_read (lineStart state ref pieces)
      (noteReached state ref pieces) (rstrip note) noteSingle written
    have taken : (lineStart state ref pieces).rest.take
        ((noteReached state ref pieces).offset - (lineStart state ref pieces).offset) =
          spelled (headPieces state ref) := by
      have none : pieces = [] ++ pieces := rfl
      have all := fields_taken state ref none
      rw [List.append_nil] at all
      exact all
    have stripped : strip (rstrip note) = strip note := by
      conv_rhs => rw [whole, strip_blank _ spaces]
    refine ⟨⟨state, some ref, none, strip note, receiptRow state ref note⟩, ?_, rfl, rfl, rfl, rfl⟩
    rw [parseCeilingRow, strip_receipt_row stated referred others written,
      receipt_row_matched stated referred others,
      fields_then_here (note_end_answers _) others unbroken last, read, Option.bind_some,
      fieldText, noteText, taken, Option.getD_some, Option.getD_some,
      fields_of_head stated referred, stripped]
    rfl

/-- A note with a second note in it is dropped with its row. -/
theorem second_note_drops_receipt :
    ¬ ∀ state ref note : Str, FieldToken state → FieldToken ref → '\n' ∉ note →
      NoteIsRestOfLine state ref note := by
  intro always
  have stated : FieldToken "query-failed" := ⟨by decide, by decide, by decide⟩
  have referred : FieldToken "l-006" := ⟨by decide, by decide, by decide⟩
  obtain ⟨receipt, read, _⟩ := always _ _ "x note=y" stated referred (by decide)
  have refused : parseCeilingRow (receiptRow "query-failed" "l-006" "x note=y") = none := by
    decide +kernel
  rw [refused] at read
  cases read

theorem plain_note_rest_of_line :
    NoteIsRestOfLine "query-failed" "l-006" "blocked, no flow data" ↔
      noteRestarts "blocked, no flow data" = false :=
  note_rest_of_line_iff _ _ _ ⟨by decide, by decide, by decide⟩ ⟨by decide, by decide, by decide⟩
    (by decide)

end Receipt

end Defender.Invlang
