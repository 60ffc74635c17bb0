import Defender.Python.JsonScan
import Defender.Library.OrderedDict
import Defender.Python.JsonInteger

/-!
# How far the squeeze ladder tightens

A clip shortens what is written of a leaf. Under the tightest cap no marker leaves room for a
prefix, so nothing is clipped there, and the ladder tightens only where no rung clips at all.

An element wider than its share has its string leaves clipped under harder and harder caps; what
does not fit under the last one loses whole fields or cells.
-/

namespace Defender.Investigation

open Defender.Python Defender.Library.OrderedDict

def minClipPrefix : Nat := 8

def elisionPrefix : Str := "<<ELIDED"

/-- The separators of two bytes each. -/
def sepWidth : Nat := 2

/-- One region the view dropped. -/
structure Elision where
  path : Str
  kind : Str
  kept : Nat
  total : Nat
  deriving DecidableEq, Repr

def payloadTextOf (payload : Json) : Str := payload.dumps

def listMarker (kept total : Nat) (noun : Str) : Str :=
  elisionPrefix ++ " " ++ decimalText (total - kept) ++ " of " ++ decimalText total ++ " " ++ noun ++
    " — dropped from THIS VIEW only; the payload on disk has all " ++ decimalText total ++ ">>"

def stringMarker (kept total : Nat) : Str :=
  elisionPrefix ++ " " ++ decimalText (total - kept) ++ " of " ++ decimalText total ++ " chars>>"

/-- `_clip_string`: the text to at most `room` characters, and whether it was clipped. -/
def clipString (text : Str) (room : Nat) : Str × Bool :=
  if text.length ≤ room then (text, false)
  else
    let marker := stringMarker 0 text.length
    let keep := room - marker.length
    if keep < minClipPrefix ∨ room ≥ text.length then (text, false)
    else (text.take keep ++ stringMarker keep text.length, true)

mutual

/-- `_clip_leaves`, with the elisions it adds. -/
def clipLeaves (leafCap : Nat) (path : Str) : Json → Json × List Elision
  | .string text =>
      let clipped := clipString text leafCap
      (.string clipped.1, if clipped.2 then [⟨path, "string", leafCap, text.length⟩] else [])
  | .object entries =>
      let clipped := clipEntries leafCap path entries
      (.object clipped.1, clipped.2)
  | .array items =>
      let clipped := clipItems leafCap path 0 items
      (.array clipped.1, clipped.2)
  | value => (value, [])

def clipEntries (leafCap : Nat) (path : Str) :
    List (Str × Json) → List (Str × Json) × List Elision
  | [] => ([], [])
  | (key, value) :: rest =>
      let clipped := clipLeaves leafCap (path ++ '.' :: key) value
      let further := clipEntries leafCap path rest
      ((key, clipped.1) :: further.1, clipped.2 ++ further.2)

def clipItems (leafCap : Nat) (path : Str) (index : Nat) :
    List Json → List Json × List Elision
  | [] => ([], [])
  | item :: rest =>
      let clipped := clipLeaves leafCap (path ++ '[' :: (decimalText index ++ [']'])) item
      let further := clipItems leafCap path (index + 1) rest
      (clipped.1 :: further.1, clipped.2 ++ further.2)

end

def squeezeCaps : List Nat := [300, 120, 40, 12]

/-- The cap of the last rung. -/
def tightestCap : Nat := 12

/-- Whole pairs until the budget is spent. -/
def keptFields (budget reserve used : Nat) : List (Str × Json) → List (Str × Json)
  | [] => []
  | (key, value) :: rest =>
      let cost := (payloadTextOf (.object [(key, value)])).length
      if used + cost + reserve > budget then []
      else (key, value) :: keptFields budget reserve (used + cost) rest

/-- `_fit_fields`: whole pairs until the budget is spent, and how many were dropped. -/
def fitFields (entries : List (Str × Json)) (budget : Nat) (path : Str) : Json × List Elision :=
  let markerKey := elisionPrefix ++ ">>"
  let marker := listMarker 0 entries.length "fields"
  let reserve := (payloadTextOf (.object [(markerKey, .string marker)])).length + sepWidth
  let kept := keptFields budget reserve 2 entries
  if kept.length = entries.length then (.object kept, [])
  else
    (.object (Dict.setEntries markerKey (.string (listMarker kept.length entries.length "fields"))
        kept),
      [⟨path, "fields", kept.length, entries.length⟩])

def keptCells (budget reserve used : Nat) : List Json → List Json
  | [] => []
  | cell :: rest =>
      let cost := (payloadTextOf cell).length + sepWidth
      if used + cost + reserve > budget then []
      else cell :: keptCells budget reserve (used + cost) rest

/-- `_fit_cells`. -/
def fitCells (row : List Json) (budget : Nat) (path : Str) : Json × List Elision :=
  let marker := listMarker 0 row.length "cells"
  let reserve := (payloadTextOf (.string marker)).length + sepWidth
  let kept := keptCells budget reserve 2 row
  if kept.length = row.length then (.array kept, [])
  else
    (.array (kept ++ [.string (listMarker kept.length row.length "cells")]),
      [⟨path, "cells", kept.length, row.length⟩])

/-- The candidate of one rung. -/
def squeezed (element : Json) (path : Str) (cap : Nat) : Json := (clipLeaves cap path element).1

/-- The first rung whose candidate fits. -/
def squeeze (element : Json) (room : Nat) (path : Str) : List Nat → Option (Json × List Elision)
  | [] => none
  | cap :: rest =>
      let candidate := clipLeaves cap path element
      if (payloadTextOf candidate.1).length ≤ room then some candidate
      else squeeze element room path rest

/-- What the rungs leave where none fits: the candidate of the last one tried. -/
def handedOn (element : Json) (path : Str) : Json :=
  squeezeCaps.foldl (fun _ cap => squeezed element path cap) element

/-- Whole fields of a record, or whole cells of a row. -/
def fitWhole (candidate : Json) (room : Nat) (path : Str) : Option Json × List Elision :=
  match candidate with
  | .object entries =>
      let fitted := fitFields entries room path
      (some fitted.1, fitted.2)
  | .array row =>
      let fitted := fitCells row room path
      (some fitted.1, fitted.2)
  | _ => (none, [])

/-- `_fit_one`. -/
def fitOne (element : Json) (room : Nat) (path : Str) : Option Json × List Elision :=
  match squeeze element room path squeezeCaps with
  | some candidate => (some candidate.1, candidate.2)
  | none => if 0 < room then fitWhole (handedOn element path) room path else (none, [])

open Json

mutual

def stringLeaves : Json → List Str
  | .string text => [text]
  | .object entries => entryLeaves entries
  | .array items => itemLeaves items
  | _ => []

def entryLeaves : List (Str × Json) → List Str
  | [] => []
  | (_, value) :: rest => stringLeaves value ++ entryLeaves rest

def itemLeaves : List Json → List Str
  | [] => []
  | item :: rest => stringLeaves item ++ itemLeaves rest

end

section Written

variable (text : Str)

/-- A text that is written as it stands. -/
def Unescaped : Prop := ∀ char ∈ text, escapeChar char = [char]

variable {text}

instance : Decidable (Unescaped text) := inferInstanceAs (Decidable (∀ char ∈ text, _))

theorem unescaped_append {after : Str} (first : Unescaped text) (second : Unescaped after) :
    Unescaped (text ++ after) := by
  intro char member
  rcases List.mem_append.mp member with before | behind
  · exact first char before
  · exact second char behind

theorem digit_escaped {char : Char} (digit : isDigit char = true) : escapeChar char = [char] := by
  have table : ∀ value < 10,
      escapeChar (Char.ofNat (48 + value)) = [Char.ofNat (48 + value)] := by decide
  obtain ⟨low, high⟩ := digit_shape digit
  have found := table (char.toNat - 48) (by omega)
  rwa [Nat.add_sub_cancel' low, Char.ofNat_toNat] at found

theorem decimal_unescaped (number : Nat) : Unescaped (decimalText number) :=
  fun char member => digit_escaped (List.all_eq_true.mp (decimal_digits number) char member)

theorem written_unescaped (plain : Unescaped text) : written text = text.length := by
  induction text with
  | nil => rfl
  | cons char rest ih =>
      have first := plain char (List.mem_cons_self ..)
      have further := ih fun other member => plain other (List.mem_cons_of_mem _ member)
      unfold written at further ⊢
      rw [List.flatMap_cons, List.length_append, first, further]
      simp [Nat.add_comm]

end Written

theorem marker_unescaped (kept total : Nat) : Unescaped (stringMarker kept total) := by
  unfold stringMarker
  refine unescaped_append ?_ (by decide)
  refine unescaped_append ?_ (decimal_unescaped total)
  refine unescaped_append ?_ (by decide)
  refine unescaped_append ?_ (decimal_unescaped (total - kept))
  exact unescaped_append (by decide) (by decide)

theorem marker_length (kept total : Nat) : (stringMarker kept total).length =
    21 + (decimalText (total - kept)).length + (decimalText total).length := by
  have lengths : ∀ first gap dropped middle all last : Str,
      (first ++ gap ++ dropped ++ middle ++ all ++ last).length =
        first.length + gap.length + dropped.length + middle.length + all.length + last.length := by
    simp [Nat.add_assoc]
  have counted := lengths elisionPrefix " " (decimalText (total - kept)) " of " (decimalText total)
    " chars>>"
  have texts : (elisionPrefix).length = 8 ∧ (" " : Str).length = 1 ∧ (" of " : Str).length = 4 ∧
      (" chars>>" : Str).length = 8 := by decide
  obtain ⟨first, gap, middle, last⟩ := texts
  rw [first, gap, middle, last] at counted
  unfold stringMarker
  omega

theorem marker_widest (kept total : Nat) :
    (stringMarker kept total).length ≤ (stringMarker 0 total).length := by
  have narrower := decimal_length_mono (Nat.sub_le total kept)
  rw [marker_length, marker_length, Nat.sub_zero]
  omega

section Leaves

variable (text : Str) (room : Nat)

theorem clip_string_cases : (text.length ≤ room ∨ room < 29 + 2 * (decimalText text.length).length) ∧
      clipString text room = (text, false) ∨
    ∃ keep, keep + (stringMarker 0 text.length).length = room ∧ room < text.length ∧
      29 + 2 * (decimalText text.length).length ≤ room ∧
      clipString text room = (text.take keep ++ stringMarker keep text.length, true) := by
  have widest := marker_length 0 text.length
  rw [Nat.sub_zero] at widest
  unfold clipString
  by_cases short : text.length ≤ room
  · left
    exact ⟨Or.inl short, if_pos short⟩
  · rw [if_neg short]
    dsimp only
    by_cases refused : room - (stringMarker 0 text.length).length < minClipPrefix ∨
        room ≥ text.length
    · left
      refine ⟨Or.inr ?_, if_pos refused⟩
      simp only [minClipPrefix] at refused
      omega
    · right
      rw [if_neg refused]
      simp only [minClipPrefix] at refused
      exact ⟨_, by omega, by omega, by omega, rfl⟩

theorem clip_string_clips : (clipString text room).2 = true ↔
    room < text.length ∧ 29 + 2 * (decimalText text.length).length ≤ room := by
  rcases clip_string_cases text room with ⟨refused, same⟩ | ⟨keep, _, long, wide, same⟩
  · rw [same]
    simp only [Bool.false_eq_true, false_iff]
    omega
  · rw [same]
    exact iff_of_true rfl ⟨long, wide⟩

theorem clip_string_whole (whole : (clipString text room).2 = false) :
    (clipString text room).1 = text := by
  rcases clip_string_cases text room with ⟨_, same⟩ | ⟨keep, _, _, _, same⟩
  · rw [same]
  · rw [same] at whole
    cases whole

theorem clip_string_shorter (clips : (clipString text room).2 = true) :
    written (clipString text room).1 < written text := by
  rcases clip_string_cases text room with ⟨_, same⟩ | ⟨keep, kept, long, _, same⟩
  · rw [same] at clips
    cases clips
  · have marker := marker_widest keep text.length
    have rest := length_written (text.drop keep)
    have whole : written text = written (text.take keep) + written (text.drop keep) := by
      rw [← written_append, List.take_append_drop]
    rw [List.length_drop] at rest
    rw [same, written_append, written_unescaped (marker_unescaped keep text.length), whole]
    omega

end Leaves

section Elements

variable (cap : Nat)

theorem clip_entries_nil (path : Str) (entries : List (Str × Json)) :
    (clipEntries cap path entries).1 = [] ↔ entries = [] := by
  cases entries <;> simp [clipEntries]

theorem clip_items_nil (path : Str) (index : Nat) (items : List Json) :
    (clipItems cap path index items).1 = [] ↔ items = [] := by
  cases items <;> simp [clipItems]

mutual

theorem clip_leaves_whole (path : Str) (value : Json)
    (whole : ∀ leaf ∈ stringLeaves value, (clipString leaf cap).2 = false) :
    (clipLeaves cap path value).1 = value := by
  cases value with
  | null => rfl
  | bool value => rfl
  | number literal => rfl
  | string text =>
      rw [clipLeaves, clip_string_whole text cap (whole text (List.mem_singleton_self _))]
  | array items => rw [clipLeaves, clip_items_whole path 0 items whole]
  | object entries => rw [clipLeaves, clip_entries_whole path entries whole]

theorem clip_items_whole (path : Str) (index : Nat) (items : List Json)
    (whole : ∀ leaf ∈ itemLeaves items, (clipString leaf cap).2 = false) :
    (clipItems cap path index items).1 = items := by
  cases items with
  | nil => rfl
  | cons item rest =>
      have first := clip_leaves_whole (path ++ '[' :: (decimalText index ++ [']'])) item
        fun leaf member => whole leaf (List.mem_append_left _ member)
      have further := clip_items_whole path (index + 1) rest
        fun leaf member => whole leaf (List.mem_append_right _ member)
      simp only [clipItems, first, further]

theorem clip_entries_whole (path : Str) (entries : List (Str × Json))
    (whole : ∀ leaf ∈ entryLeaves entries, (clipString leaf cap).2 = false) :
    (clipEntries cap path entries).1 = entries := by
  cases entries with
  | nil => rfl
  | cons entry rest =>
      obtain ⟨key, value⟩ := entry
      have first := clip_leaves_whole (path ++ '.' :: key) value
        fun leaf member => whole leaf (List.mem_append_left _ member)
      have further := clip_entries_whole path rest
        fun leaf member => whole leaf (List.mem_append_right _ member)
      simp only [clipEntries, first, further]

end

mutual

theorem clip_leaves_shorter (path : Str) (value : Json) :
    (clipLeaves cap path value).1.dumps.length ≤ value.dumps.length ∧
      ((∃ leaf ∈ stringLeaves value, (clipString leaf cap).2 = true) →
        (clipLeaves cap path value).1.dumps.length < value.dumps.length) := by
  cases value with
  | null => exact ⟨le_rfl, nofun⟩
  | bool value => exact ⟨le_rfl, nofun⟩
  | number literal => exact ⟨le_rfl, nofun⟩
  | string text =>
      simp only [clipLeaves, dumps, dumps_string_length, stringLeaves, List.mem_singleton,
        exists_eq_left]
      cases clips : (clipString text cap).2 with
      | false =>
          rw [clip_string_whole text cap clips]
          exact ⟨le_rfl, nofun⟩
      | true =>
          have shorter := clip_string_shorter text cap clips
          omega
  | array items =>
      obtain ⟨narrow, strict⟩ := clip_items_shorter path 0 items
      simp only [clipLeaves, dumps, List.length_cons, List.length_append]
      refine ⟨by omega, fun clips => ?_⟩
      have shorter := strict clips
      omega
  | object entries =>
      obtain ⟨narrow, strict⟩ := clip_entries_shorter path entries
      simp only [clipLeaves, dumps, List.length_cons, List.length_append]
      refine ⟨by omega, fun clips => ?_⟩
      have shorter := strict clips
      omega

theorem clip_items_shorter (path : Str) (index : Nat) (items : List Json) :
    (dumpsItems (clipItems cap path index items).1).length ≤ (dumpsItems items).length ∧
      ((∃ leaf ∈ itemLeaves items, (clipString leaf cap).2 = true) →
        (dumpsItems (clipItems cap path index items).1).length < (dumpsItems items).length) := by
  cases items with
  | nil => exact ⟨le_rfl, nofun⟩
  | cons item rest =>
      obtain ⟨narrow, strict⟩ :=
        clip_leaves_shorter (path ++ '[' :: (decimalText index ++ [']'])) item
      obtain ⟨further, stricter⟩ := clip_items_shorter path (index + 1) rest
      simp only [clipItems, dumps_items_length, clip_items_nil]
      constructor
      · split <;> omega
      · rintro ⟨leaf, member, clips⟩
        rcases List.mem_append.mp member with here | later
        · have shorter := strict ⟨leaf, here, clips⟩
          split <;> omega
        · have shorter := stricter ⟨leaf, later, clips⟩
          have more : rest ≠ [] := by
            intro none_left
            rw [none_left] at later
            cases later
          rw [if_neg more, if_neg more]
          omega

theorem clip_entries_shorter (path : Str) (entries : List (Str × Json)) :
    (dumpsEntries (clipEntries cap path entries).1).length ≤ (dumpsEntries entries).length ∧
      ((∃ leaf ∈ entryLeaves entries, (clipString leaf cap).2 = true) →
        (dumpsEntries (clipEntries cap path entries).1).length <
          (dumpsEntries entries).length) := by
  cases entries with
  | nil => exact ⟨le_rfl, nofun⟩
  | cons entry rest =>
      obtain ⟨key, value⟩ := entry
      obtain ⟨narrow, strict⟩ := clip_leaves_shorter (path ++ '.' :: key) value
      obtain ⟨further, stricter⟩ := clip_entries_shorter path rest
      simp only [clipEntries, dumps_entries_length, clip_entries_nil]
      constructor
      · split <;> omega
      · rintro ⟨leaf, member, clips⟩
        rcases List.mem_append.mp member with here | later
        · have shorter := strict ⟨leaf, here, clips⟩
          split <;> omega
        · have shorter := stricter ⟨leaf, later, clips⟩
          have more : rest ≠ [] := by
            intro none_left
            rw [none_left] at later
            cases later
          rw [if_neg more, if_neg more]
          omega

end

end Elements

section Ladder

variable (element : Json) (path : Str)

def candidateWidth (cap : Nat) : Nat := (payloadTextOf (squeezed element path cap)).length

/-- A smaller cap never makes a wider candidate, and the one handed on to lose whole fields or
cells is the narrowest tried. -/
def Tightens : Prop :=
  (∀ cap ∈ squeezeCaps, ∀ wider ∈ squeezeCaps, cap ≤ wider →
    candidateWidth element path cap ≤ candidateWidth element path wider) ∧
  ∀ cap ∈ squeezeCaps,
    (payloadTextOf (handedOn element path)).length ≤ candidateWidth element path cap

/-- Where no rung fits, fields or cells are dropped from what is handed on. -/
theorem fit_one_hands_on {room : Nat} (unfit : squeeze element room path squeezeCaps = none)
    (some_room : 0 < room) :
    fitOne element room path = fitWhole (handedOn element path) room path := by
  unfold fitOne
  rw [unfit]
  exact if_pos some_room

theorem tightest_clips_nothing (text : Str) : (clipString text tightestCap).2 = false := by
  rw [Bool.eq_false_iff, ne_eq, clip_string_clips]
  unfold tightestCap
  omega

theorem handed_on_whole : handedOn element path = element :=
  clip_leaves_whole tightestCap path element fun leaf _ => tightest_clips_nothing leaf

theorem no_rung_clips (text : Str) :
    (∀ cap ∈ squeezeCaps, (clipString text cap).2 = false) ↔
      text.length ≤ 40 ∨ 10 ^ 135 ≤ text.length := by
  have digits : ∀ width, 0 < width →
      ((decimalText text.length).length ≤ width ↔ text.length < 10 ^ width) := fun width positive =>
    Nat.length_toDigits_le_iff (by decide) positive
  have five := digits 5 (by decide)
  have many := digits 45 (by decide)
  have most := digits 135 (by decide)
  have clips := fun cap => clip_string_clips text cap
  simp only [squeezeCaps, List.forall_mem_cons, List.not_mem_nil, false_implies, implies_true,
    and_true, ← Bool.not_eq_true, clips]
  omega

theorem ladder_tightens_iff : Tightens element path ↔
    ∀ leaf ∈ stringLeaves element, leaf.length ≤ 40 ∨ 10 ^ 135 ≤ leaf.length := by
  constructor
  · intro tightens leaf member
    rw [← no_rung_clips]
    intro cap rung
    by_contra clips
    rw [Bool.not_eq_false] at clips
    have narrower := (clip_leaves_shorter cap path element).2 ⟨leaf, member, clips⟩
    have last := tightens.2 cap rung
    rw [handed_on_whole] at last
    exact absurd narrower (not_lt.mpr last)
  · intro whole
    have same : ∀ cap ∈ squeezeCaps, squeezed element path cap = element := by
      intro cap rung
      apply clip_leaves_whole
      intro leaf member
      exact (no_rung_clips leaf).mpr (whole leaf member) cap rung
    constructor
    · intro cap rung wider rungs _
      rw [candidateWidth, candidateWidth, same cap rung, same wider rungs]
    · intro cap rung
      rw [candidateWidth, same cap rung, handed_on_whole]

/-- A text of a hundred characters is clipped to forty and then left whole. -/
theorem hundred_widens :
    ¬ Tightens (.string (List.replicate 100 'a')) [] := by
  intro tightens
  have narrower := tightens.2 40 (by decide)
  revert narrower
  decide +kernel

end Ladder

end Defender.Investigation
