import Defender.Invlang.Cells

/-!
# The two splits of a row

The cooked and the raw split of a row are one scan under two modes. They cut at the same
pipes, the raw cells joined are the row, and a cooked cell is its raw one with the escaped
pipes bare and the ends stripped. The scan ends inside a quote exactly when the quotes it
toggles on are odd in number.
-/

namespace Defender.Invlang

open Defender.Python

def scanQuotedFrom (mode : SplitMode) (separator : Char) : Bool → Str → Str → List Str × Bool
  | quoted, cur, [] => (mode.emit cur [], quoted)
  | quoted, cur, ['\\'] => scanQuotedFrom mode separator quoted (cur ++ ['\\']) []
  | quoted, cur, '\\' :: next :: rest =>
      if mode.unescapeDelim && next == separator then
        scanQuotedFrom mode separator quoted (cur ++ [separator]) rest
      else scanQuotedFrom mode separator quoted (cur ++ ['\\', next]) rest
  | quoted, cur, char :: rest =>
      if char == '"' then scanQuotedFrom mode separator (!quoted) (cur ++ [char]) rest
      else if char == separator && !quoted then
        let (cells, ended) := scanQuotedFrom mode separator quoted [] rest
        (mode.emit cur cells, ended)
      else scanQuotedFrom mode separator quoted (cur ++ [char]) rest

def scanQuoted (mode : SplitMode) (separator : Char) (text : Str) : List Str × Bool :=
  scanQuotedFrom mode separator false [] text

/-- A raw cell with each escaped pipe bare. -/
def unescapePipes : Str → Str
  | [] => []
  | ['\\'] => ['\\']
  | '\\' :: next :: rest =>
      if next == '|' then '|' :: unescapePipes rest else '\\' :: next :: unescapePipes rest
  | char :: rest => char :: unescapePipes rest

section Scan

variable (mode : SplitMode) (separator : Char)

theorem scan_quoted_cells (quoted : Bool) (cur text : Str) :
    (scanQuotedFrom mode separator quoted cur text).1 =
      splitQuotedFrom mode separator quoted cur text := by
  fun_induction splitQuotedFrom mode separator quoted cur text with
  | case1 quoted cur => simp [scanQuotedFrom]
  | case2 quoted cur ih => simpa [scanQuotedFrom] using ih
  | case3 quoted cur next rest escaped ih =>
      rw [scanQuotedFrom, if_pos escaped]
      exact ih
  | case4 quoted cur next rest kept ih =>
      rw [scanQuotedFrom, if_neg kept]
      exact ih
  | case5 quoted cur char rest lone pair quote ih =>
      rw [scanQuotedFrom, if_pos quote]
      exact ih
      all_goals assumption
  | case6 quoted cur char rest lone pair quote cut ih =>
      rw [scanQuotedFrom, if_neg quote, if_pos cut]
      exact congrArg (mode.emit cur) ih
      all_goals assumption
  | case7 quoted cur char rest lone pair quote uncut ih =>
      rw [scanQuotedFrom, if_neg quote, if_neg uncut]
      exact ih
      all_goals assumption

/-- Each quote the scan toggles on is one that is counted. -/
theorem scan_quoted_ends (quoted : Bool) (cur text : Str) :
    (scanQuotedFrom mode separator quoted cur text).2 = (quoted ^^ hasUnbalancedQuote text) := by
  fun_induction splitQuotedFrom mode separator quoted cur text with
  | case1 quoted cur => simp [scanQuotedFrom, hasUnbalancedQuote, countUnescapedQuotes]
  | case2 quoted cur ih => simp [scanQuotedFrom, hasUnbalancedQuote, countUnescapedQuotes]
  | case3 quoted cur next rest escaped ih =>
      rw [scanQuotedFrom, if_pos escaped, ih, hasUnbalancedQuote, hasUnbalancedQuote,
        countUnescapedQuotes]
  | case4 quoted cur next rest kept ih =>
      rw [scanQuotedFrom, if_neg kept, ih, hasUnbalancedQuote, hasUnbalancedQuote,
        countUnescapedQuotes]
  | case5 quoted cur char rest lone pair quote ih =>
      have toggled : hasUnbalancedQuote (char :: rest) = !hasUnbalancedQuote rest := by
        rw [hasUnbalancedQuote, hasUnbalancedQuote, countUnescapedQuotes, if_pos quote]
        · rcases Nat.mod_two_eq_zero_or_one (countUnescapedQuotes rest) with even | odd
          · simp [Nat.add_mod, even]
          · simp [Nat.add_mod, odd]
        all_goals assumption
      rw [scanQuotedFrom, if_pos quote, ih, toggled]
      · cases quoted <;> simp
      all_goals assumption
  | case6 quoted cur char rest lone pair quote cut ih =>
      have counted : hasUnbalancedQuote (char :: rest) = hasUnbalancedQuote rest := by
        rw [hasUnbalancedQuote, hasUnbalancedQuote, countUnescapedQuotes, if_neg quote, Nat.zero_add]
        all_goals assumption
      rw [scanQuotedFrom, if_neg quote, if_pos cut, counted]
      · exact ih
      all_goals assumption
  | case7 quoted cur char rest lone pair quote uncut ih =>
      have counted : hasUnbalancedQuote (char :: rest) = hasUnbalancedQuote rest := by
        rw [hasUnbalancedQuote, hasUnbalancedQuote, countUnescapedQuotes, if_neg quote, Nat.zero_add]
        all_goals assumption
      rw [scanQuotedFrom, if_neg quote, if_neg uncut, counted]
      · exact ih
      all_goals assumption

end Scan

theorem raw_split_filled (quoted : Bool) (cur text : Str) :
    splitQuotedFrom ⟨false, true, false⟩ '|' quoted cur text ≠ [] := by
  fun_induction splitQuotedFrom ⟨false, true, false⟩ '|' quoted cur text with
  | case1 => simp [SplitMode.emit]
  | case2 quoted cur ih => exact ih
  | case3 quoted cur next rest escaped ih => exact ih
  | case4 quoted cur next rest kept ih => exact ih
  | case5 quoted cur char rest lone pair quote ih => exact ih
  | case6 => simp [SplitMode.emit]
  | case7 quoted cur char rest lone pair quote uncut ih => exact ih

theorem join_raw_split (quoted : Bool) (cur text : Str) :
    join ['|'] (splitQuotedFrom ⟨false, true, false⟩ '|' quoted cur text) = cur ++ text := by
  fun_induction splitQuotedFrom ⟨false, true, false⟩ '|' quoted cur text with
  | case1 => simp [SplitMode.emit, join]
  | case2 quoted cur ih => simpa using ih
  | case3 quoted cur next rest escaped ih => simp at escaped
  | case4 quoted cur next rest kept ih => simpa using ih
  | case5 quoted cur char rest lone pair quote ih => simpa using ih
  | case6 quoted cur char rest lone pair quote cut ih =>
      have pipe : char = '|' := by simp at cut; exact cut.1
      have filled := raw_split_filled quoted [] rest
      simp only [SplitMode.emit, Bool.false_eq_true, if_false, Bool.true_or, if_true]
      rw [join_cons ['|'] cur filled, ih, pipe]
      simp
  | case7 quoted cur char rest lone pair quote uncut ih => simpa using ih

def Paired (text : Str) : Prop :=
  ∀ more, unescapePipes (text ++ more) = unescapePipes text ++ unescapePipes more

theorem paired_nil : Paired [] := fun _ => rfl

theorem Paired.append {text more : Str} (early : Paired text) (late : Paired more) :
    Paired (text ++ more) := by
  intro rest
  rw [List.append_assoc, early, late, early, List.append_assoc]

theorem paired_pair (next : Char) : Paired ['\\', next] := by
  intro more
  by_cases pipe : next == '|'
  · simp [unescapePipes, pipe]
  · simp [unescapePipes, pipe]

theorem unescape_char {char : Char} (plain : char ≠ '\\') (more : Str) :
    unescapePipes (char :: more) = char :: unescapePipes more := by
  rw [unescapePipes]
  · exact fun same _ => absurd same plain
  · exact fun _ _ same _ => absurd same plain

theorem paired_char {char : Char} (plain : char ≠ '\\') : Paired [char] := by
  intro more
  rw [List.singleton_append, unescape_char plain, unescape_char plain]
  rfl

/-- The cooked scan keeps what the raw one does, unescaped. -/
theorem cooked_split {cur : Str} (quoted : Bool) (paired : Paired cur) (text : Str) :
    splitQuotedFrom ⟨true, true, true⟩ '|' quoted (unescapePipes cur) text =
      (splitQuotedFrom ⟨false, true, false⟩ '|' quoted cur text).map fun raw =>
        strip (unescapePipes raw) := by
  fun_induction splitQuotedFrom ⟨false, true, false⟩ '|' quoted cur text with
  | case1 quoted cur => simp [splitQuotedFrom, SplitMode.emit]
  | case2 quoted cur ih =>
      have whole := paired ['\\']
      simp [splitQuotedFrom, SplitMode.emit, whole, unescapePipes]
  | case3 quoted cur next rest escaped ih => simp at escaped
  | case4 quoted cur next rest kept ih =>
      have further := ih (paired.append (paired_pair next))
      rw [paired] at further
      by_cases pipe : next == '|'
      · rw [splitQuotedFrom, if_pos (by simpa using pipe), ← further]
        simp [unescapePipes, pipe]
      · rw [splitQuotedFrom, if_neg (by simpa using pipe), ← further]
        simp [unescapePipes, pipe]
  | case5 quoted cur char rest lone pair quote ih =>
      have mark : char = '"' := by simpa using quote
      subst mark
      have further := ih (paired.append (paired_char (by decide)))
      rw [paired] at further
      rw [splitQuotedFrom, if_pos quote, ← further]
      · rfl
      all_goals assumption
  | case6 quoted cur char rest lone pair quote cut ih =>
      have further := ih paired_nil
      rw [splitQuotedFrom, if_neg quote, if_pos cut]
      · simp only [SplitMode.emit, Bool.true_or, if_true, Bool.false_eq_true, if_false,
          List.map_cons]
        rw [← further]
        rfl
      all_goals assumption
  | case7 quoted cur char rest lone pair quote uncut ih =>
      have plain : char ≠ '\\' := by
        rintro rfl
        cases rest with
        | nil => exact lone rfl rfl
        | cons next more => exact pair next more rfl rfl
      have further := ih (paired.append (paired_char plain))
      rw [paired] at further
      rw [unescape_char plain] at further
      rw [splitQuotedFrom, if_neg quote, if_neg uncut, ← further]
      · rfl
      all_goals assumption

/-- The raw split loses nothing, cuts where the cooked one cuts and holds the cooked cells
before they are unescaped and stripped; the scan of either ends inside a quote exactly when
the row has an unbalanced one. -/
theorem row_splits_agree (row : Str) :
    join ['|'] (splitCellsRaw row) = row ∧
      (splitCellsRaw row).length = (splitCells row).length ∧
      (∀ index : Nat, (splitCells row)[index]? =
        (splitCellsRaw row)[index]?.map fun raw => strip (unescapePipes raw)) ∧
      ∀ mode separator, (scanQuoted mode separator row).1 = splitQuoted mode separator row ∧
        (hasUnbalancedQuote row = true ↔ (scanQuoted mode separator row).2 = true) := by
  have cooked : splitCells row =
      (splitCellsRaw row).map fun raw => strip (unescapePipes raw) :=
    cooked_split false paired_nil row
  refine ⟨join_raw_split false [] row, ?_, ?_, fun mode separator => ⟨?_, ?_⟩⟩
  · rw [cooked, List.length_map]
  · intro index
    rw [cooked, List.getElem?_map]
  · exact scan_quoted_cells mode separator false [] row
  · rw [scanQuoted, scan_quoted_ends, Bool.false_xor]

end Defender.Invlang
