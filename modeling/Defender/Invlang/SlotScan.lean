import Defender.Invlang.Validate.Slots

/-!
# Braces that are not closed

The slot scan keeps its depth at zero when a closing brace has nothing to close, while a slot
reads as open by its plain counts of braces. So a closing brace that closes nothing, in the
last slot, cancels an opening brace the scan still holds open, and such a cell reads as
settled unless a slot of it is written whole as an open value.
-/

namespace Defender.Invlang

open Defender.Python

def endDepthFrom : Nat → Str → Nat
  | depth, [] => depth
  | depth, char :: rest =>
      if char == '{' then endDepthFrom (depth + 1) rest
      else if char == '}' then endDepthFrom (depth - 1) rest
      else endDepthFrom depth rest

def endDepth (classification : Str) : Nat := endDepthFrom 0 (withoutTypePrefix classification)

/-- The closing braces met with nothing to close, since the last slash that cuts. -/
def strayClosersFrom : Nat → Nat → Str → Nat
  | _, strays, [] => strays
  | depth, strays, char :: rest =>
      if char == '{' then strayClosersFrom (depth + 1) strays rest
      else if char == '}' then
        strayClosersFrom (depth - 1) (if depth = 0 then strays + 1 else strays) rest
      else if char == '/' && depth == 0 then strayClosersFrom depth 0 rest
      else strayClosersFrom depth strays rest

def strayClosers (classification : Str) : Nat :=
  strayClosersFrom 0 0 (withoutTypePrefix classification)

def writtenOpen (slot : Str) : Bool :=
  slot == openMarker || (startsWith ['{'] slot && endsWith ['}'] slot)

def NoUnclosedBraceHidden (cell : Str) : Prop :=
  (0 < endDepth cell → hasOpenSlot cell = true) ∧
    ((∀ slot ∈ classSlots cell, '{' ∉ slot ∧ '}' ∉ slot ∧ slot ≠ openMarker) →
      hasOpenSlot cell = false)

theorem lstrip_of_head {text : Str} (visible : ∀ char ∈ text.head?, isSpace char = false) :
    lstrip text = text := by
  cases text with
  | nil => rfl
  | cons char rest =>
      have unspaced := visible char rfl
      rw [lstrip, List.dropWhile_cons_of_neg (by simp [unspaced])]

theorem lstrip_head (text : Str) : ∀ char ∈ (lstrip text).head?, isSpace char = false := by
  intro char first
  have visible := List.head?_dropWhile_not isSpace text
  rw [lstrip] at first
  rw [Option.mem_def.mp first] at visible
  exact visible

theorem strip_strip (text : Str) : strip (strip text) = strip text := by
  have shorter : rstrip (lstrip text) <+: lstrip text := List.rdropWhile_prefix _ _
  have visible : ∀ char ∈ (rstrip (lstrip text)).head?, isSpace char = false := by
    intro char first
    obtain ⟨more, whole⟩ := shorter
    refine lstrip_head text char ?_
    rw [← whole]
    exact List.mem_head?_append_of_mem_head? first
  unfold strip
  rw [lstrip_of_head visible]
  exact List.rdropWhile_idempotent _ _

theorem count_strip {char : Char} (visible : isSpace char = false) (text : Str) :
    (strip text).count char = text.count char := by
  have left : ∀ text : Str, (lstrip text).count char = text.count char := by
    intro text
    have halves := List.takeWhile_append_dropWhile (p := isSpace) (l := text)
    have none : (text.takeWhile isSpace).count char = 0 := by
      rw [List.count_eq_zero]
      intro inside
      have space := List.mem_takeWhile_imp inside
      rw [visible] at space
      cases space
    rw [lstrip]
    conv_rhs => rw [← halves]
    rw [List.count_append, none, Nat.zero_add]
  have right : ∀ text : Str, (rstrip text).count char = text.count char := by
    intro text
    obtain ⟨blank, whole, spaces⟩ := rstrip_split text
    have none : blank.count char = 0 := by
      rw [List.count_eq_zero]
      intro inside
      have space := List.all_eq_true.mp spaces char inside
      rw [visible] at space
      cases space
    conv_rhs => rw [whole]
    rw [List.count_append, none, Nat.add_zero]
  rw [strip, right, left]

/-- Slots cut at depth zero close what they open; the last one leaves the scan's depth open,
less the closers that closed nothing. -/
theorem class_slots_counted (depth strays : Nat) (cur text : Str)
    (balance : cur.count '{' + strays = cur.count '}' + depth) :
    ∃ early last, classSlotsFrom depth cur text = early ++ [last] ∧
      (∀ slot ∈ early, slot.count '{' ≤ slot.count '}') ∧
      last.count '{' + strayClosersFrom depth strays text =
        last.count '}' + endDepthFrom depth text := by
  induction text generalizing depth strays cur with
  | nil => exact ⟨[], cur, rfl, nofun, balance⟩
  | cons char rest ih =>
      rw [classSlotsFrom, strayClosersFrom, endDepthFrom]
      by_cases opening : char == '{'
      · rw [if_pos opening, if_pos opening, if_pos opening]
        refine ih _ _ _ ?_
        have brace : char = '{' := by simpa using opening
        subst brace
        simp [List.count_append]
        omega
      · rw [if_neg opening, if_neg opening, if_neg opening]
        by_cases closing : char == '}'
        · rw [if_pos closing, if_pos closing, if_pos closing]
          refine ih _ _ _ ?_
          have brace : char = '}' := by simpa using closing
          subst brace
          simp [List.count_append]
          split <;> omega
        · rw [if_neg closing, if_neg closing, if_neg closing]
          have neither : char ≠ '{' ∧ char ≠ '}' := ⟨by simpa using opening, by simpa using closing⟩
          by_cases cut : char == '/' && depth == 0
          · rw [if_pos cut, if_pos cut]
            rw [Bool.and_eq_true, beq_iff_eq, beq_iff_eq] at cut
            obtain ⟨early, last, same, closed, counted⟩ := ih depth 0 [] (by simp [cut.2])
            refine ⟨cur :: early, last, by rw [same]; rfl, ?_, counted⟩
            intro slot member
            rcases List.mem_cons.mp member with rfl | later
            · omega
            · exact closed slot later
          · rw [if_neg cut, if_neg cut]
            refine ih _ _ _ ?_
            simp [List.count_append, neither.1, neither.2]
            exact balance

theorem prefix_char (char : Char) (text : Str) :
    startsWith [char] text = (text.head? == some char) := by
  cases text with
  | nil => rfl
  | cons first rest => simp [startsWith, List.isPrefixOf, eq_comm]

theorem stripped_slot_open {slot : Str} (bare : strip slot = slot) :
    isOpenSlot slot = (writtenOpen slot || decide (slot.count '}' < slot.count '{')) := by
  unfold isOpenSlot isUnresolved writtenOpen
  dsimp only
  rw [bare]
  cases startsWith ['{'] slot <;> cases endsWith ['}'] slot <;>
    cases decide (slot.count '}' < slot.count '{') <;> simp

/-- When a cell reads as open: its last slot holds fewer stray closers than the scan's depth
at the end, or a slot is written whole as an open value. -/
theorem has_open_slot_iff (cell : Str) :
    hasOpenSlot cell = true ↔
      strayClosers cell < endDepth cell ∨ ∃ slot ∈ classSlots cell, writtenOpen slot = true := by
  obtain ⟨early, last, same, closed, counted⟩ :=
    class_slots_counted 0 0 [] (withoutTypePrefix cell) rfl
  have slots : classSlots cell = early.map strip ++ [strip last] := by
    rw [classSlots, same, List.map_append, List.map_singleton]
  have opens : ∀ slot : Str, (strip slot).count '{' = slot.count '{' := count_strip (by decide)
  have closes : ∀ slot : Str, (strip slot).count '}' = slot.count '}' := count_strip (by decide)
  have unclosed : last.count '}' < last.count '{' ↔ strayClosers cell < endDepth cell := by
    unfold strayClosers endDepth
    omega
  have each : ∀ slot, isOpenSlot (strip slot) = true ↔
      writtenOpen (strip slot) = true ∨ slot.count '}' < slot.count '{' := by
    intro slot
    rw [stripped_slot_open (strip_strip slot), opens, closes, Bool.or_eq_true, decide_eq_true_eq]
  rw [hasOpenSlot, List.any_eq_true, slots]
  constructor
  · rintro ⟨slot, member, reads⟩
    rcases List.mem_append.mp member with among | final
    · obtain ⟨cut, listed, rfl⟩ := List.mem_map.mp among
      rcases (each cut).mp reads with written | more
      · exact .inr ⟨_, member, written⟩
      · exact absurd (closed cut listed) (not_le.mpr more)
    · obtain rfl := List.mem_singleton.mp final
      rcases (each last).mp reads with written | more
      · exact .inr ⟨_, member, written⟩
      · exact .inl (unclosed.mp more)
  · rintro (fewer | ⟨slot, member, written⟩)
    · exact ⟨strip last, by simp, (each last).mpr (.inr (unclosed.mpr fewer))⟩
    · refine ⟨slot, member, ?_⟩
      rw [← slots] at member
      obtain ⟨cut, _, rfl⟩ := List.mem_map.mp member
      exact (each cut).mpr (.inl written)

theorem no_brace_not_open {slot : Str} (bare : strip slot = slot) (unopened : '{' ∉ slot)
    (settled : slot ≠ openMarker) : isOpenSlot slot = false := by
  have none : slot.count '{' = 0 := List.count_eq_zero.mpr unopened
  have start : startsWith ['{'] slot = false := by
    rw [prefix_char, beq_eq_false_iff_ne]
    exact fun first => unopened (List.mem_of_mem_head? first)
  rw [stripped_slot_open bare, writtenOpen, none, start, beq_eq_false_iff_ne.mpr settled]
  simp

/-- A cell with a brace that is never closed reads as open, and a settled one as settled,
exactly unless the closers that close nothing are, in the last slot, at least as many as the
braces left open and no slot is written whole as an open value. -/
theorem unclosed_brace_open_iff (cell : Str) :
    NoUnclosedBraceHidden cell ↔
      (endDepth cell = 0 ∨ strayClosers cell < endDepth cell ∨
        ∃ slot ∈ classSlots cell, writtenOpen slot = true) := by
  have settled : (∀ slot ∈ classSlots cell, '{' ∉ slot ∧ '}' ∉ slot ∧ slot ≠ openMarker) →
      hasOpenSlot cell = false := by
    intro plain
    rw [hasOpenSlot, List.any_eq_false]
    intro slot member
    obtain ⟨cut, _, rfl⟩ := List.mem_map.mp member
    obtain ⟨unopened, _, unmarked⟩ := plain _ member
    rw [no_brace_not_open (strip_strip cut) unopened unmarked]
    exact Bool.false_ne_true
  constructor
  · rintro ⟨shown, _⟩
    rcases Nat.eq_zero_or_pos (endDepth cell) with closed | unclosed
    · exact .inl closed
    · exact .inr ((has_open_slot_iff cell).mp (shown unclosed))
  · rintro (closed | shown)
    · exact ⟨fun unclosed => absurd closed (Nat.pos_iff_ne_zero.mp unclosed), settled⟩
    · exact ⟨fun _ => (has_open_slot_iff cell).mpr shown, settled⟩

theorem stray_closer_hides_brace :
    endDepth "\x7d\x7binternal" = 1 ∧ hasOpenSlot "\x7d\x7binternal" = false ∧
      ¬ NoUnclosedBraceHidden "\x7d\x7binternal" := by
  have depth : endDepth "\x7d\x7binternal" = 1 := by decide
  have settled : hasOpenSlot "\x7d\x7binternal" = false := by decide
  refine ⟨depth, settled, fun shown => ?_⟩
  have reads := shown.1 (by rw [depth]; decide)
  rw [settled] at reads
  exact Bool.false_ne_true reads

end Defender.Invlang
