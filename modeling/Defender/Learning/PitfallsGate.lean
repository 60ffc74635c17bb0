import Defender.Library.Alignment
import Defender.Library.Wire
import Defender.Python.Text
import Mathlib.Data.List.Dedup

/-!
# The pitfalls gate

What a curator leaves of the reducer surface is compared with what is committed, line by line.
The outline says which section a line sits in, the alignment which lines the edit added, removed
and kept; no line outside the lane's own section may be any of the first two or cross its boundary.
-/

namespace Defender.Learning.PitfallsGate

open Defender.Python Defender.Library.Alignment
open Defender.Library.Delimited (findWord)
open Defender.Library.Wire (except_bind_ok)

def reducerRel : Str := "agent/skills/gather/defender-sql.pitfalls.md"

def pitfallsSection : Str := "## Common pitfalls"

/-- `_frontmatter_block`: the text between the fences, where it reads as a mapping. What reads as
one is the YAML reader's to say. -/
def frontmatterBlock (readsMapping : Str → Bool) (text : Str) : Option Str :=
  let text := replace ['\r'] ['\n'] (replace ['\r', '\n'] ['\n'] text)
  if !startsWith "---\n" text then none
  else
    match findWord "\n---" (text.drop 4) with
    | none => none
    | some (raw, _) => if readsMapping raw then some raw else none

def isFenceLine (line : Str) : Bool :=
  startsWith "```" (lstrip line) || startsWith "~~~" (lstrip line)

def isSetextUnderline (line : Str) : Bool :=
  let run := rstripChars [' ', '\t'] line
  run ≠ [] && (run.all (· == '=') || run.all (· == '-'))

/-- The headings met, the section of every line so far, and where the walk stands. -/
structure Outline where
  headings : List (Nat × Str) := []
  sections : List (Option Str) := []
  heading : Option Str := none
  fenced : Bool := false
  previous : Option Str := none

/-- Whether an underline may stand after the line before it. -/
def underlines (before : Str) : Bool := strip before ≠ [] && !startsWith ['#'] before

def outlineLine (state : Outline) (line : Str) : Outline :=
  if isFenceLine line then
    { state with
      fenced := !state.fenced
      sections := state.sections ++ [state.heading]
      previous := some line }
  else if state.fenced then
    { state with sections := state.sections ++ [state.heading], previous := some line }
  else if startsWith "## " line then
    { state with
      headings := state.headings ++ [(state.sections.length, line)]
      sections := state.sections ++ [some (strip line)]
      heading := some (strip line)
      previous := some line }
  else if startsWith "# " line then
    { state with sections := state.sections ++ [none], heading := none, previous := some line }
  else if isSetextUnderline line && state.previous.any underlines then
    { state with
      sections := state.sections.dropLast ++ [none, none]
      heading := none
      previous := some line }
  else { state with sections := state.sections ++ [state.heading], previous := some line }

/-- `_outline`. -/
def outline (lines : List Str) : Outline := lines.foldl outlineLine {}

structure LineOps where
  added : List Nat
  removed : List Nat
  kept : List (Nat × Nat)

/-- `_line_ops`. -/
def lineOps (aligner : Aligner Str) (old new : List Str) : LineOps :=
  let ops := aligner.opcodes old new
  { added := ops.flatMap fun op =>
      if op.tag = .insert ∨ op.tag = .replace then
        List.range' op.rightFrom (op.rightTo - op.rightFrom)
      else []
    removed := ops.flatMap fun op =>
      if op.tag = .delete ∨ op.tag = .replace then
        List.range' op.leftFrom (op.leftTo - op.leftFrom)
      else []
    kept := ops.flatMap fun op =>
      if op.tag = .equal then
        (List.range (op.leftTo - op.leftFrom)).map fun offset =>
          (op.leftFrom + offset, op.rightFrom + offset)
      else [] }

section Rule

def isOutside (line : Str) (heading : Option Str) : Bool :=
  strip line ≠ [] && heading ≠ some pitfallsSection

def outsideAt (lines : List Str) (sections : List (Option Str)) (place : Nat) : Option Str :=
  match lines[place]?, sections[place]? with
  | some line, some heading => if isOutside line heading then some line else none
  | _, _ => none

/-- A kept line that changed the side of the boundary it sits on. -/
def reparentedAt (lines : List Str) (before after : List (Option Str)) (place : Nat × Nat) :
    Option Str :=
  match lines[place.1]?, before[place.1]?, after[place.2]? with
  | some line, some old, some new =>
      if strip line ≠ [] ∧ ¬(old = some pitfallsSection ↔ new = some pitfallsSection) then some line
      else none
  | _, _, _ => none

/-- `sorted({...})`. -/
def listed (lines : List Str) : List Str := sorted lines.dedup

variable [UnicodeDatabase]

def refuse (found : List Str) (before after : List Str) : Except Str Unit :=
  if found = [] then .ok () else .error (message (before ++ [reprList found] ++ after))

/-- The reducer surface: as the base commits it, and what the curator left at its path. -/
structure Surface where
  committed : Option Str
  isFile : Bool
  current : Except Str Str

variable (aligner : Aligner Str) (readsMapping : Str → Bool)

/-- `_readable_pair`. -/
def readablePair (surface : Surface) (path : Str) : Except Str (Str × Str) :=
  match surface.committed with
  | none => .error (message ["pitfalls curator created ", path, "; refusing to commit (the reducer ",
      "surface is a committed document this lane amends in place, never mints)"])
  | some committed =>
      if !surface.isFile then
        .error (message ["pitfalls curator left ", path,
          " unreadable as a file; refusing to commit"])
      else
        match surface.current with
        | .error reason => .error (message ["pitfalls curator left ", path,
            " unreadable as UTF-8 text (", reason, "); refusing to commit"])
        | .ok current =>
            if frontmatterBlock readsMapping current ≠ frontmatterBlock readsMapping committed then
              .error (message ["pitfalls curator rewrote ", path, "'s frontmatter block; refusing ",
                "to commit (the reducer surface's metadata is not a pitfalls edit)"])
            else .ok (committed, current)

def aheadOf (survived : List (Nat × Str)) (added : List Nat) : List Str :=
  let planted := (survived.filter fun heading =>
    heading.1 ∈ added && strip heading.2 = pitfallsSection).map Prod.fst
  (survived.filter fun heading =>
    planted ≠ [] && planted.all (· < heading.1)).map Prod.snd

/-- The five checks of `_pitfalls_content_rule` over the two texts. -/
def checkLines (path committed current : Str) : Except Str Unit := do
  let lines := splitlines current
  let committedLines := splitlines committed
  let survived := outline lines
  let held := outline committedLines
  let ops := lineOps aligner committedLines lines
  refuse ((held.headings.map Prod.snd).filter (· ∉ survived.headings.map Prod.snd))
    ["pitfalls curator dropped section(s) "]
    [" from ", path, "; refusing to commit (a pitfall is appended, never written over the document)"]
  refuse (listed (ops.added.filterMap (outsideAt lines survived.sections)))
    ["pitfalls curator added "]
    [" to ", path, " outside `", pitfallsSection,
      "`; refusing to commit (a pitfall lands in that section, created if absent)"]
  refuse (listed (ops.removed.filterMap (outsideAt committedLines held.sections)))
    ["pitfalls curator removed "]
    [" from ", path, " outside `", pitfallsSection, "`; refusing to commit (a pitfall is appended, ",
      "and only that section is pruned in place)"]
  refuse (listed (ops.kept.filterMap (reparentedAt committedLines held.sections survived.sections)))
    ["pitfalls curator moved "]
    [" across `", pitfallsSection, "`'s boundary in ", path, "; refusing to commit (the section is ",
      "created at the end of the file, never planted around prose it does not own)"]
  refuse (aheadOf survived.headings ops.added)
    ["pitfalls curator planted `", pitfallsSection, "` in ", path, " above "]
    ["; refusing to commit (the section is created at the END of the file, so a bullet never ",
      "lands ahead of the guidance the document already carries)"]

/-- `_pitfalls_content_rule`. -/
def contentRule (surface : Surface) (xy path : Str) : Except Str Unit :=
  if path ≠ reducerRel ∨ xy.contains 'D' then .ok ()
  else do
    let (committed, current) ← readablePair readsMapping surface path
    checkLines aligner path committed current

end Rule

theorem outline_line_length {state : Outline}
    (begun : state.previous.isSome → 0 < state.sections.length) (line : Str) :
    (outlineLine state line).sections.length = state.sections.length + 1 := by
  unfold outlineLine
  split
  · exact List.length_append
  split
  · exact List.length_append
  split
  · exact List.length_append
  split
  · exact List.length_append
  split
  · rename_i underlined
    rw [Bool.and_eq_true, Option.any_eq_true] at underlined
    obtain ⟨-, before, held, -⟩ := underlined
    have filled := begun (by rw [held]; rfl)
    rw [List.length_append, List.length_dropLast, List.length_cons, List.length_singleton]
    omega
  · exact List.length_append

theorem outline_length (lines : List Str) : (outline lines).sections.length = lines.length := by
  have general : ∀ state : Outline, (state.previous.isSome → 0 < state.sections.length) →
      (lines.foldl outlineLine state).sections.length = state.sections.length + lines.length := by
    induction lines with
    | nil => exact fun state _ => rfl
    | cons line lines ih =>
        intro state begun
        have longer := outline_line_length begun line
        rw [List.foldl_cons, ih _ fun _ => by omega, longer, List.length_cons]
        omega
  exact (general {} nofun).trans (Nat.zero_add _)

def marks (lines : List Str) : List (Str × Bool) :=
  lines.zipWith (fun line heading => (line, isOutside line heading)) (outline lines).sections

/-- The lines with text on them that stand outside the lane's section. -/
def outsideLines (lines : List Str) : List Str :=
  ((marks lines).filter Prod.snd).map Prod.fst

theorem marks_length (lines : List Str) : (marks lines).length = lines.length := by
  rw [marks, List.length_zipWith, outline_length, Nat.min_self]

theorem mark_at {lines : List Str} {place : Nat} {line : Str} (held : lines[place]? = some line) :
    ∃ heading, (outline lines).sections[place]? = some heading ∧
      (marks lines)[place]? = some (line, isOutside line heading) := by
  have within : place < (outline lines).sections.length := by
    rw [outline_length]
    exact (List.getElem?_eq_some_iff.mp held).1
  refine ⟨(outline lines).sections[place], List.getElem?_eq_getElem within, ?_⟩
  rw [marks, List.getElem?_zipWith, held, List.getElem?_eq_getElem within]

theorem unmarked_at {lines : List Str} {place : Nat} {mark : Str × Bool}
    (inside : outsideAt lines (outline lines).sections place = none)
    (marked : (marks lines)[place]? = some mark) : mark.2 = false := by
  have within : place < lines.length := by
    rw [← marks_length]
    exact (List.getElem?_eq_some_iff.mp marked).1
  obtain ⟨heading, found, same⟩ := mark_at (List.getElem?_eq_getElem within)
  rw [marked] at same
  cases same
  unfold outsideAt at inside
  rw [List.getElem?_eq_getElem within, found] at inside
  change (if isOutside lines[place] heading = true then some lines[place] else none) = none at inside
  by_contra outside
  rw [Bool.not_eq_false] at outside
  rw [if_pos outside] at inside
  contradiction

section Framed

variable {aligner : Aligner Str} {committed current : List Str}

theorem filter_map_none {Place : Type*} {found : Place → Option Str} {places : List Place}
    (nothing : listed (places.filterMap found) = []) {place : Place} (among : place ∈ places) :
    found place = none := by
  have empty : places.filterMap found = [] := by
    have moved := sorted_perm (places.filterMap found).dedup
    rw [listed] at nothing
    rw [nothing] at moved
    exact (List.dedup_eq_nil _).mp moved.symm.eq_nil
  exact List.filterMap_eq_nil_iff.mp empty place among

theorem block_unmarked {lines : List Str} {start stop : Nat} {places : List Nat}
    (nothing : listed (places.filterMap (outsideAt lines (outline lines).sections)) = [])
    (held : ∀ place ∈ List.range' start (stop - start), place ∈ places) :
    ∀ mark ∈ slice (marks lines) start stop, mark.2 = false := by
  intro mark among
  obtain ⟨place, after, before, found⟩ := mem_slice among
  have listedPlace : place ∈ List.range' start (stop - start) := by
    rw [List.mem_range'_1]
    omega
  exact unmarked_at (filter_map_none nothing (held place listedPlace)) found

/-- Kept lines that stay on their side of the boundary are marked alike. -/
theorem block_kept {op : Opcode}
    (laid : Lays committed current 0 0 (aligner.opcodes committed current))
    (among : op ∈ aligner.opcodes committed current) (equal : op.tag = .equal)
    (nothing : listed ((lineOps aligner committed current).kept.filterMap
      (reparentedAt committed (outline committed).sections (outline current).sections)) = []) :
    op.leftSlice (marks committed) = op.rightSlice (marks current) := by
  have bounds := lays_bounds laid among
  apply List.ext_getElem?
  intro offset
  have sameLine := congrArg (fun lines : List Str => lines[offset]?) (equal_laid laid among equal)
  simp only [Opcode.leftSlice, Opcode.rightSlice, slice_get] at sameLine ⊢
  by_cases inLeft : op.leftFrom + offset < op.leftTo
  · obtain ⟨line, held⟩ : ∃ line, committed[op.leftFrom + offset]? = some line :=
      ⟨_, List.getElem?_eq_getElem (by omega)⟩
    rw [if_pos inLeft, held] at sameLine
    obtain ⟨inRight, kept⟩ := Option.ite_none_right_eq_some.mp sameLine.symm
    obtain ⟨before, beforeAt, markBefore⟩ := mark_at held
    obtain ⟨after, afterAt, markAfter⟩ := mark_at kept
    have pair : (op.leftFrom + offset, op.rightFrom + offset) ∈
        (lineOps aligner committed current).kept := by
      refine List.mem_flatMap.mpr ⟨op, among, ?_⟩
      rw [if_pos equal]
      exact List.mem_map.mpr ⟨offset, List.mem_range.mpr (by omega), rfl⟩
    have stays := filter_map_none nothing pair
    unfold reparentedAt at stays
    simp only [held, beforeAt, afterAt] at stays
    have alike : isOutside line before = isOutside line after := by
      unfold isOutside
      by_cases blank : strip line = []
      · rw [decide_eq_false (not_not.mpr blank), Bool.false_and, Bool.false_and]
      · have side : before = some pitfallsSection ↔ after = some pitfallsSection := by
          by_contra crossed
          rw [if_pos ⟨blank, crossed⟩] at stays
          contradiction
        exact congrArg _ (decide_eq_decide.mpr (not_congr side))
    rw [if_pos inLeft, if_pos inRight, markBefore, markAfter, alike]
  · have outRight : ¬op.rightFrom + offset < op.rightTo := by
      intro inRight
      rw [if_neg inLeft, if_pos inRight, List.getElem?_eq_getElem (by omega)] at sameLine
      contradiction
    rw [if_neg inLeft, if_neg outRight]

theorem outside_kept
    (stray : listed ((lineOps aligner committed current).added.filterMap
      (outsideAt current (outline current).sections)) = [])
    (erased : listed ((lineOps aligner committed current).removed.filterMap
      (outsideAt committed (outline committed).sections)) = [])
    (reparented : listed ((lineOps aligner committed current).kept.filterMap
      (reparentedAt committed (outline committed).sections (outline current).sections)) = []) :
    outsideLines committed = outsideLines current := by
  have laid := aligner.lays committed current
  unfold outsideLines
  congr 1
  refine marked_agree laid (marks_length committed) (marks_length current) ?_ ?_ ?_
  · intro op among alone
    refine block_unmarked erased fun place within => List.mem_flatMap.mpr ⟨op, among, ?_⟩
    rw [if_pos alone]
    exact within
  · intro op among alone
    refine block_unmarked stray fun place within => List.mem_flatMap.mpr ⟨op, among, ?_⟩
    rw [if_pos alone]
    exact within
  · intro op among equal
    rw [block_kept laid among equal reparented]

theorem pair_read {readsMapping : Str → Bool} {surface : Surface} {path committed current : Str}
    (read : readablePair readsMapping surface path = .ok (committed, current)) :
    surface.committed = some committed ∧ surface.current = .ok current ∧
      frontmatterBlock readsMapping committed = frontmatterBlock readsMapping current := by
  unfold readablePair at read
  split at read
  · contradiction
  split at read
  · contradiction
  split at read
  · contradiction
  split at read
  · contradiction
  · rename_i held _ _ _ left same
    cases read
    exact ⟨held, left, (not_not.mp same).symm⟩

variable [UnicodeDatabase]

theorem refuse_ok {found before after : List Str} (passed : refuse found before after = .ok ()) :
    found = [] := by
  by_contra some
  rw [refuse, if_neg some] at passed
  contradiction

theorem checked_lines {path committed current : Str}
    (passed : checkLines aligner path committed current = .ok ()) :
    outsideLines (splitlines committed) = outsideLines (splitlines current) := by
  unfold checkLines at passed
  obtain ⟨_, -, passed⟩ := except_bind_ok.mp passed
  obtain ⟨_, stray, passed⟩ := except_bind_ok.mp passed
  obtain ⟨_, erased, passed⟩ := except_bind_ok.mp passed
  obtain ⟨_, reparented, -⟩ := except_bind_ok.mp passed
  exact outside_kept (refuse_ok stray) (refuse_ok erased) (refuse_ok reparented)

end Framed

/-- An accepted edit of the reducer surface leaves the frontmatter and the lines with text on them
outside the lane's section as they were, whatever alignment is picked. -/
theorem edit_stays_in_section [UnicodeDatabase] (aligner : Aligner Str) (readsMapping : Str → Bool)
    (surface : Surface) (xy : Str) (present : 'D' ∉ xy)
    (accepted : contentRule aligner readsMapping surface xy reducerRel = .ok ()) :
    ∃ committed current, surface.committed = some committed ∧ surface.current = .ok current ∧
      outsideLines (splitlines committed) = outsideLines (splitlines current) ∧
      frontmatterBlock readsMapping committed = frontmatterBlock readsMapping current := by
  have asked : ¬(reducerRel ≠ reducerRel ∨ xy.contains 'D' = true) := by
    rintro (other | deleted)
    · exact other rfl
    · exact present (List.contains_iff_mem.mp deleted)
  rw [contentRule, if_neg asked] at accepted
  cases read : readablePair readsMapping surface reducerRel with
  | error text =>
      rw [read] at accepted
      contradiction
  | ok texts =>
      rw [read] at accepted
      obtain ⟨held, left, sameBlock⟩ := pair_read read
      exact ⟨texts.1, texts.2, held, left, checked_lines accepted, sameBlock⟩

def bulletedPage (first : Str) : Str :=
  message ["---\nname: sql\n---\n# SQL\n\n", first, "\n\n## Common pitfalls\n- quote names\n"]

def replacedPage : Surface where
  committed := some (bulletedPage "Read first.")
  isFile := true
  current := .ok (bulletedPage "Read first." ++ "- cast dates\n")

/-- A bullet added to the section is accepted, and nothing else has changed. -/
theorem bullet_stays_in_section :
    ∃ committed current, replacedPage.committed = some committed ∧
      replacedPage.current = .ok current ∧
      outsideLines (splitlines committed) = outsideLines (splitlines current) ∧
      frontmatterBlock (fun raw => raw == "name: sql".toList) committed =
        frontmatterBlock (fun raw => raw == "name: sql".toList) current :=
  @edit_stays_in_section asciiDatabase Aligner.leading (fun raw => raw == "name: sql".toList)
    replacedPage "M " (by decide) (by decide +kernel)

def rejoinedPage : Surface where
  committed := some (bulletedPage "one\u2028two")
  isFile := true
  current := .ok (bulletedPage "one\ntwo")

/-- A line separator outside the section may become a newline: no line of the two texts differs,
and one line of the committed text is two lines of the accepted one. -/
theorem separator_rewritten :
    @contentRule asciiDatabase Aligner.leading (fun raw => raw == "name: sql".toList) rejoinedPage
        "M " reducerRel = .ok () ∧
      outsideLines (splitOn '\n' (bulletedPage "one\u2028two")) ≠
        outsideLines (splitOn '\n' (bulletedPage "one\ntwo")) :=
  ⟨by decide +kernel, by decide +kernel⟩

end Defender.Learning.PitfallsGate
