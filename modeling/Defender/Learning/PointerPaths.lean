import Defender.Learning.JudgePointers
import Mathlib.Algebra.Order.BigOperators.Group.List

/-!
# Pointers resolve canonically and stay inside

The components a pointer is reduced to are a sublist of the written ones, so its canonical spelling
passes every check the written pointer passed and is reduced to itself. Followed as it is written,
a pointer that resolves never leaves the episode, nor a world's folder it has entered.
-/

namespace Defender.Learning.Judge

open Defender.Python Defender.Library.OrderedDict Defender.Library.Delimited
open Defender.Library.Wire (except_bind_ok)

section Reduced

/-- A component that names something. -/
structure PlainPart (part : Str) : Prop where
  filled : part ≠ []
  notHere : part ≠ ['.']
  notUp : part ≠ ['.', '.']

def InWorld (place : List Str) : Prop := 2 ≤ place.length ∧ place.head? = some worldsName

/-- All a written component can do. -/
theorem canonical_step_cases {out next : List Str} {part : Str}
    (stepped : canonicalStep out part = some next) :
    ((part = [] ∨ part = ['.']) ∧ next = out) ∨
      (part = ['.', '.'] ∧ out ≠ [] ∧ next = out.dropLast ∧ (InWorld out → 2 ≤ next.length)) ∨
      (PlainPart part ∧ next = out ++ [part]) := by
  unfold canonicalStep at stepped
  split at stepped
  · rename_i still
    exact .inl ⟨still, (Option.some.inj stepped).symm⟩
  · rename_i moves
    rw [not_or] at moves
    split at stepped
    · rename_i up
      split at stepped
      · contradiction
      · rename_i filled
        split at stepped
        · contradiction
        · rename_i stays
          cases stepped
          refine .inr (.inl ⟨up, filled, rfl, ?_⟩)
          intro inside
          by_contra short
          exact stays ⟨inside, Nat.not_le.mp short⟩
    · rename_i down
      cases stepped
      exact .inr (.inr ⟨⟨moves.1, moves.2, down⟩, rfl⟩)

theorem canonical_step_plain {part : Str} (plain : PlainPart part) (out : List Str) :
    canonicalStep out part = some (out ++ [part]) := by
  unfold canonicalStep
  rw [if_neg (not_or.mpr ⟨plain.filled, plain.notHere⟩), if_neg plain.notUp]

theorem canonical_steps_plain {parts : List Str} (plain : ∀ part ∈ parts, PlainPart part)
    (out : List Str) : parts.foldlM canonicalStep out = some (out ++ parts) := by
  induction parts generalizing out with
  | nil => rw [List.foldlM_nil, List.append_nil]; rfl
  | cons part parts ih =>
      rw [List.foldlM_cons, canonical_step_plain (plain part List.mem_cons_self)]
      change parts.foldlM canonicalStep (out ++ [part]) = _
      rw [ih fun other among => plain other (List.mem_cons_of_mem _ among), List.append_assoc,
        List.singleton_append]

/-- What is left of the written components is a sublist of them, and each names something. -/
theorem reduced_sublist {parts out : List Str}
    (reduced : parts.foldlM canonicalStep [] = some out) :
    out.Sublist parts ∧ ∀ part ∈ out, PlainPart part := by
  have general : ∀ start before : List Str, start.Sublist before →
      (∀ part ∈ start, PlainPart part) → parts.foldlM canonicalStep start = some out →
        out.Sublist (before ++ parts) ∧ ∀ part ∈ out, PlainPart part := by
    clear reduced
    induction parts with
    | nil =>
        intro start before held plain reduced
        cases reduced
        rw [List.append_nil]
        exact ⟨held, plain⟩
    | cons part parts ih =>
        intro start before held plain reduced
        rw [List.foldlM_cons] at reduced
        obtain ⟨next, stepped, rest⟩ := Option.bind_eq_some_iff.mp reduced
        have further := ih next (before ++ [part])
        rw [List.append_assoc, List.singleton_append] at further
        rcases canonical_step_cases stepped with ⟨-, rfl⟩ | ⟨-, -, rfl, -⟩ | ⟨named, rfl⟩
        · exact further (held.trans (List.sublist_append_left _ _)) plain rest
        · exact further (((List.dropLast_sublist _).trans held).trans
            (List.sublist_append_left _ _))
            (fun other among => plain other (List.mem_of_mem_dropLast among)) rest
        · refine further (held.append (.refl _)) ?_ rest
          intro other among
          rcases List.mem_append.mp among with among | among
          · exact plain other among
          · rw [List.mem_singleton.mp among]
            exact named
  exact general [] [] (.refl _) (fun part among => nomatch among) reduced

/-- A path reduced to `parts`. -/
structure Reduced (path : Str) (parts : List Str) : Prop where
  filled : parts ≠ []
  written : parts.Sublist (splitOn '/' path)
  plain : ∀ part ∈ parts, PlainPart part
  whole : ∀ part ∈ parts, '/' ∉ part

theorem canonical_reduced {path : Str} {parts : List Str} (found : canonicalParts path = some parts) :
    Reduced path parts := by
  obtain ⟨out, reduced, kept⟩ := Option.bind_eq_some_iff.mp found
  split at kept
  · contradiction
  · rename_i filled
    cases kept
    obtain ⟨written, plain⟩ := reduced_sublist reduced
    exact ⟨filled, written, plain,
      fun part among => split_on_fresh '/' path part (written.subset among)⟩

variable {path : Str} {parts : List Str}

theorem Reduced.split (reduced : Reduced path parts) : splitOn '/' (join ['/'] parts) = parts :=
  split_on_join reduced.filled reduced.whole

theorem Reduced.again (reduced : Reduced path parts) :
    canonicalParts (join ['/'] parts) = some parts := by
  rw [canonicalParts, reduced.split, canonical_steps_plain reduced.plain, Option.bind_some,
    List.nil_append, if_neg reduced.filled]

theorem Reduced.shorter (reduced : Reduced path parts) :
    (join ['/'] parts).length ≤ path.length := by
  have total := split_on_total '/' (join ['/'] parts)
  rw [reduced.split] at total
  have most := (reduced.written.map fun part => part.length + 1).sum_le_sum
    fun _ _ => Nat.zero_le _
  rw [split_on_total] at most
  omega

theorem mem_join_cases {char separator : Char} {parts : List Str}
    (among : char ∈ join [separator] parts) : char = separator ∨ ∃ part ∈ parts, char ∈ part := by
  induction parts with
  | nil => nomatch among
  | cons first others ih =>
      cases others with
      | nil => exact .inr ⟨first, List.mem_cons_self, among⟩
      | cons next rest =>
          rw [join_cons _ _ (by simp), List.append_assoc, List.mem_append] at among
          rcases among with here | among
          · exact .inr ⟨first, List.mem_cons_self, here⟩
          · rcases List.mem_cons.mp among with same | further
            · exact .inl same
            · rcases ih further with same | ⟨part, held, inside⟩
              · exact .inl same
              · exact .inr ⟨part, List.mem_cons_of_mem _ held, inside⟩

theorem mem_join_part {char separator : Char} {parts : List Str} {part : Str} (held : part ∈ parts)
    (inside : char ∈ part) : char ∈ join [separator] parts := by
  obtain ⟨before, after, rfl⟩ := List.append_of_mem held
  have tail : char ∈ join [separator] (part :: after) := by
    cases after with
    | nil => exact inside
    | cons next rest =>
        rw [join_cons _ _ (by simp), List.append_assoc]
        exact List.mem_append_left _ inside
  cases before with
  | nil => exact tail
  | cons first others =>
      rw [join_append _ (by simp) (by simp)]
      exact List.mem_append_right _ tail

theorem Reduced.chars (reduced : Reduced path parts) {char : Char}
    (among : char ∈ join ['/'] parts) : char = '/' ∨ char ∈ path := by
  rcases mem_join_cases among with same | ⟨part, held, inside⟩
  · exact .inl same
  · right
    rw [← join_split_on '/' path]
    exact mem_join_part (reduced.written.subset held) inside

theorem split_on_doubled (left right : Str) :
    ([] : Str) ∈ splitOn '/' (left ++ '/' :: '/' :: right) := by
  rw [split_on_append, splitOn, if_pos rfl]
  exact List.mem_append_right _ List.mem_cons_self

theorem Reduced.undoubled (reduced : Reduced path parts) (left right : Str) :
    join ['/'] parts ≠ left ++ '/' :: '/' :: right := by
  intro same
  have empty := split_on_doubled left right
  rw [← same, reduced.split] at empty
  exact (reduced.plain [] empty).filled rfl

theorem Reduced.relative (reduced : Reduced path parts) :
    startsWith ['/'] (join ['/'] parts) = false := by
  by_contra begins
  rw [Bool.not_eq_false, startsWith, List.isPrefixOf_iff_prefix] at begins
  obtain ⟨rest, same⟩ := begins
  have empty : ([] : Str) ∈ splitOn '/' (['/'] ++ rest) := by
    rw [List.singleton_append, splitOn, if_pos rfl]
    exact List.mem_cons_self
  rw [same, reduced.split] at empty
  exact (reduced.plain [] empty).filled rfl

end Reduced

section Spelled

theorem infix_beside {α : Type*} {separator : α} {word left right : List α}
    (fresh : separator ∉ word) (occurs : word <:+: left ++ separator :: right) :
    word <:+: left ∨ word <:+: right := by
  obtain ⟨before, after, same⟩ := occurs
  rcases List.append_eq_append_iff.mp same with ⟨more, within, -⟩ | ⟨more, across, rest⟩
  · exact .inl ⟨before, more, within.symm⟩
  · cases more with
    | nil => exact .inl ⟨before, [], by rw [List.append_nil, across, List.append_nil]⟩
    | cons head others =>
        obtain ⟨rfl, further⟩ := List.cons_eq_cons.mp rest
        rcases List.append_eq_append_iff.mp across.symm with ⟨gap, -, parts⟩ | ⟨gap, -, parts⟩
        · cases gap with
          | nil =>
              rw [List.nil_append] at parts
              exact absurd (parts ▸ List.mem_cons_self) fresh
          | cons first gap =>
              obtain ⟨-, skipped⟩ := List.cons_eq_cons.mp parts
              exact .inr ⟨gap, after, by rw [further, skipped]; rfl⟩
        · exact absurd (parts ▸ List.mem_append_right _ List.mem_cons_self) fresh

/-- What a text pointer is parsed to. -/
structure Parsed (text path : Str) (parts : List Str) (fragment : Option Str) : Prop where
  filled : strip text ≠ []
  short : text.length ≤ maxPointer
  reduced : Reduced path parts
  unmarked : '#' ∉ path
  text_eq : text = match fragment with
    | none => path
    | some fragment => path ++ '#' :: fragment

theorem pointer_parsed {text : Str} {parts : List Str} {fragment : Option Str}
    (parsed : parseText text = some (parts, fragment)) :
    ∃ path, (partition ['#'] text).1 = path ∧ canonicalParts path = some parts ∧
      Parsed text path parts fragment := by
  unfold parseText at parsed
  split at parsed
  · contradiction
  · rename_i admitted
    rw [not_or, Nat.not_lt] at admitted
    rcases partition_cases '#' text with ⟨fresh, cut⟩ | ⟨path, after, same, fresh, cut⟩
    · rw [cut] at parsed ⊢
      dsimp only at parsed
      split at parsed
      · contradiction
      · obtain ⟨reduced, found, pair⟩ := Option.map_eq_some_iff.mp parsed
        cases pair
        exact ⟨text, rfl, found, admitted.1, admitted.2, canonical_reduced found, fresh, rfl⟩
    · rw [cut] at parsed ⊢
      dsimp only at parsed
      split at parsed
      · contradiction
      · obtain ⟨reduced, found, pair⟩ := Option.map_eq_some_iff.mp parsed
        cases pair
        exact ⟨path, rfl, found, admitted.1, admitted.2, canonical_reduced found, fresh, same⟩

variable {text path : Str} {parts : List Str} {fragment : Option Str}

theorem Parsed.unmarked_join (parsed : Parsed text path parts fragment) :
    '#' ∉ join ['/'] parts := by
  intro among
  rcases parsed.reduced.chars among with same | inside
  · exact absurd same (by decide)
  · exact parsed.unmarked inside

theorem Parsed.shorter (parsed : Parsed text path parts fragment) :
    (spellPointer parts fragment).length ≤ maxPointer := by
  have most := parsed.short
  have path := parsed.reduced.shorter
  rw [parsed.text_eq] at most
  cases fragment with
  | none => exact path.trans most
  | some fragment =>
      simp only [spellPointer, List.length_append] at most ⊢
      omega

theorem Parsed.chars (parsed : Parsed text path parts fragment) {char : Char}
    (among : char ∈ spellPointer parts fragment) : char = '/' ∨ char ∈ text := by
  rw [parsed.text_eq]
  cases fragment with
  | none => exact parsed.reduced.chars among
  | some fragment =>
      rcases List.mem_append.mp among with here | after
      · rcases parsed.reduced.chars here with same | inside
        · exact .inl same
        · exact .inr (List.mem_append_left _ inside)
      · exact .inr (List.mem_append_right _ after)

/-- A canonical spelling holds nothing the written pointer was not refused for. -/
theorem Parsed.spelled_well (parsed : Parsed text path parts fragment)
    (well : misspelled text = false) : misspelled (spellPointer parts fragment) = false := by
  unfold misspelled at well ⊢
  rw [Bool.or_eq_false_iff] at well ⊢
  constructor
  · rw [List.any_eq_false]
    intro char among
    rcases parsed.chars among with rfl | inside
    · decide
    · exact List.any_eq_false.mp well.1 char inside
  · rw [← Bool.not_eq_true, contains_infix_iff]
    intro occurs
    have absent : ¬ ("://".toList : Str) <:+: text := by
      rw [← contains_infix_iff, well.2]
      nofun
    have alone : ¬ ("://".toList : Str) <:+: join ['/'] parts := by
      rintro ⟨left, right, same⟩
      apply parsed.reduced.undoubled (left ++ [':']) right
      rw [← same]
      simp
    cases fragment with
    | none => exact alone occurs
    | some fragment =>
        rcases infix_beside (by decide) occurs with inPath | inFragment
        · exact alone inPath
        · apply absent
          rw [parsed.text_eq]
          exact inFragment.trans ⟨path ++ ['#'], [], by simp⟩

theorem Parsed.again (parsed : Parsed text path parts fragment)
    (visible : strip (spellPointer parts fragment) ≠ []) :
    parseText (spellPointer parts fragment) = some (parts, fragment) := by
  have admitted : ¬(strip (spellPointer parts fragment) = [] ∨
      maxPointer < (spellPointer parts fragment).length) :=
    not_or.mpr ⟨visible, Nat.not_lt.mpr parsed.shorter⟩
  unfold parseText
  rw [if_neg admitted]
  cases fragment with
  | none =>
      rw [spellPointer, partition_absent parsed.unmarked_join]
      dsimp only
      rw [parsed.reduced.relative, parsed.reduced.again]
      rfl
  | some fragment =>
      rw [spellPointer, partition_char parsed.unmarked_join]
      dsimp only
      rw [parsed.reduced.relative, parsed.reduced.again]
      rfl

end Spelled

section Resolved

variable {render : Json → Str} {scope : PointerScope} {pointer : Str} {parts : List Str}
  {fragment : Option Str} {resolution : Resolution}

theorem plain_file_pointer {name : Str} {kind : PointerKind} {run : Option Str}
    (found : plainFile scope pointer name kind run = some resolution) :
    resolution.pointer = pointer := by
  obtain ⟨-, same⟩ := Option.ite_none_right_eq_some.mp found
  cases same
  rfl

theorem world_pointer_kept
    (found : worldPointer render scope pointer parts fragment = .ok (some resolution)) :
    resolution.pointer = pointer := by
  unfold worldPointer at found
  dsimp only at found
  split at found
  · cases found
  split at found
  · cases found
  split at found
  · obtain ⟨folder, -, reads⟩ := except_bind_ok.mp found
    exact plain_file_pointer (Except.ok.inj reads)
  split at found
  · cases found
    rfl
  split at found
  · split at found
    · cases found
    · obtain ⟨blocked, -, made⟩ := except_bind_ok.mp found
      cases made
      rfl
  split at found
  · obtain ⟨folder, -, reads⟩ := except_bind_ok.mp found
    exact plain_file_pointer (Except.ok.inj reads)
  · cases found

theorem served_pointer_kept {name : Str}
    (found : servedPointer render scope pointer name fragment = .ok (some resolution)) :
    resolution.pointer = pointer := by
  unfold servedPointer at found
  split at found
  · cases found
  split at found
  · cases found
  · obtain ⟨blocked, -, made⟩ := except_bind_ok.mp found
    cases made
    rfl

theorem plan_pointer_kept (found : planPointer scope pointer fragment = .ok (some resolution)) :
    resolution.pointer = pointer := by
  unfold planPointer at found
  split at found
  · cases found
  split at found
  · obtain ⟨declared, -, made⟩ := except_bind_ok.mp found
    obtain ⟨-, same⟩ := Option.ite_none_right_eq_some.mp (Except.ok.inj made)
    cases same
    rfl
  split at found
  · cases found
    rfl
  · cases found

theorem episode_pointer_kept {head : Str}
    (found : episodePointer scope pointer head fragment = .ok (some resolution)) :
    resolution.pointer = pointer ∧ ∃ char ∈ head, isSpace char = false := by
  unfold episodePointer at found
  split at found
  · rename_i named
    exact ⟨plan_pointer_kept found, 'f', by rw [named]; decide, by decide⟩
  split at found
  · rename_i named
    have visible : ∃ char ∈ head, isSpace char = false := ⟨'s', by rw [named]; decide, by decide⟩
    split at found
    · split at found
      · cases found
        exact ⟨rfl, visible⟩
      · cases found
    · cases found
  split at found
  · rename_i named
    split at found
    · cases found
    · cases found
      exact ⟨rfl, 'o', by rw [named]; decide, by decide⟩
  · cases found

theorem built_pointer_kept
    (found : builtPointer scope pointer parts = .ok (some (some resolution))) :
    resolution.pointer = pointer ∧ parts.headD [] = oracleName := by
  unfold builtPointer at found
  split at found
  · cases found
  rename_i long
  split at found
  · cases found
  obtain ⟨folder, named, made⟩ := except_bind_ok.mp found
  obtain ⟨same, plain⟩ := Option.ite_none_right_eq_some.mp (Except.ok.inj made)
  refine ⟨plain_file_pointer (Option.some.inj plain), ?_⟩
  match parts, long with
  | first :: second :: others, _ =>
      unfold worldFolder at named
      split at named
      · cases named
        change first ++ ['/'] ++ second = oracleName ++ ['/'] ++ second at same
        exact List.append_cancel_right (List.append_cancel_right same)
      · cases named
  | [_], long => exact absurd (by simp) long
  | [], long => exact absurd (by simp) long

theorem resolved_pointer
    (found : resolveParts render scope pointer parts fragment = .ok (some resolution)) :
    resolution.pointer = pointer ∧ ∃ char ∈ parts.headD [], isSpace char = false := by
  unfold resolveParts at found
  dsimp only at found
  split at found
  · rename_i world
    exact ⟨world_pointer_kept found, 'w', by rw [world.1]; decide, by decide⟩
  split at found
  · rename_i served
    exact ⟨served_pointer_kept found, 's', by rw [served.1]; decide, by decide⟩
  obtain ⟨built, tried, rest⟩ := except_bind_ok.mp found
  cases built with
  | some held =>
      cases rest
      obtain ⟨kept, named⟩ := built_pointer_kept tried
      exact ⟨kept, 'o', by rw [named]; decide, by decide⟩
  | none =>
      dsimp only at rest
      split at rest
      · cases rest
      · exact episode_pointer_kept rest

end Resolved

section Followed

def followStep (place : List Str) (component : Str) : Option (List Str) :=
  if component = [] ∨ component = ['.'] then some place
  else if component = ['.', '.'] then if place = [] then none else some place.dropLast
  else some (place ++ [component])

/-- Components followed one at a time from the episode's folder. -/
def follow (components : List Str) : Option (List Str) := components.foldlM followStep []

/-- Followed one at a time, components never leave the episode, nor a world's folder once they
have entered it. -/
structure Contained (components : List Str) : Prop where
  inEpisode : ∀ count, (follow (components.take count)).isSome
  inWorld : ∀ early late, early ≤ late → ∀ place later, follow (components.take early) = some place →
    InWorld place → follow (components.take late) = some later → place.take 2 <+: later

theorem canonical_step_followed {out next : List Str} {part : Str}
    (stepped : canonicalStep out part = some next) : followStep out part = some next := by
  unfold followStep
  rcases canonical_step_cases stepped with ⟨still, rfl⟩ | ⟨rfl, filled, rfl, -⟩ | ⟨named, rfl⟩
  · rw [if_pos still]
  · rw [if_neg (by decide), if_pos rfl, if_neg filled]
  · rw [if_neg (not_or.mpr ⟨named.filled, named.notHere⟩), if_neg named.notUp]

theorem canonical_followed {parts out next : List Str}
    (reduced : parts.foldlM canonicalStep out = some next) :
    parts.foldlM followStep out = some next := by
  induction parts generalizing out with
  | nil => exact reduced
  | cons part parts ih =>
      rw [List.foldlM_cons] at reduced ⊢
      obtain ⟨middle, stepped, rest⟩ := Option.bind_eq_some_iff.mp reduced
      rw [canonical_step_followed stepped]
      exact ih rest

theorem canonical_step_inside {out next : List Str} {part : Str}
    (stepped : canonicalStep out part = some next) (inside : InWorld out) :
    InWorld next ∧ next.take 2 = out.take 2 := by
  obtain ⟨long, named⟩ := inside
  rcases canonical_step_cases stepped with ⟨-, rfl⟩ | ⟨-, -, rfl, stays⟩ | ⟨-, rfl⟩
  · exact ⟨⟨long, named⟩, rfl⟩
  · match out, named, stays ⟨long, named⟩ with
    | first :: second :: third :: rest, named, longer => exact ⟨⟨longer, named⟩, by simp⟩
  · match out, named, long with
    | first :: second :: rest, named, _ =>
        exact ⟨⟨by simp, named⟩, rfl⟩

theorem canonical_inside {parts out next : List Str}
    (reduced : parts.foldlM canonicalStep out = some next) (inside : InWorld out) :
    next.take 2 = out.take 2 := by
  induction parts generalizing out with
  | nil => cases reduced; rfl
  | cons part parts ih =>
      rw [List.foldlM_cons] at reduced
      obtain ⟨middle, stepped, rest⟩ := Option.bind_eq_some_iff.mp reduced
      obtain ⟨stays, same⟩ := canonical_step_inside stepped inside
      rw [ih rest stays, same]

theorem canonical_take {parts out : List Str} (reduced : parts.foldlM canonicalStep [] = some out)
    (count : Nat) : ∃ place, (parts.take count).foldlM canonicalStep [] = some place := by
  rw [← List.take_append_drop count parts, List.foldlM_append] at reduced
  obtain ⟨place, begun, -⟩ := Option.bind_eq_some_iff.mp reduced
  exact ⟨place, begun⟩

theorem canonical_contained {path : Str} {parts : List Str}
    (found : canonicalParts path = some parts) : Contained (splitOn '/' path) := by
  obtain ⟨out, reduced, -⟩ := Option.bind_eq_some_iff.mp found
  constructor
  · intro count
    obtain ⟨place, begun⟩ := canonical_take reduced count
    rw [follow, canonical_followed begun]
    rfl
  · intro early late ordered place later atEarly inside atLate
    obtain ⟨place', begun⟩ := canonical_take reduced early
    obtain ⟨later', further⟩ := canonical_take reduced late
    rw [follow, canonical_followed begun] at atEarly
    rw [follow, canonical_followed further] at atLate
    cases atEarly
    cases atLate
    have parted : (splitOn '/' path).take late = (splitOn '/' path).take early ++
        ((splitOn '/' path).drop early).take (late - early) := by
      rw [← List.take_add, Nat.add_sub_cancel' ordered]
    rw [parted, List.foldlM_append, begun] at further
    rw [← canonical_inside further inside]
    exact List.take_prefix 2 later

end Followed

section Assessed

variable {render : Json → Str} {scope : PointerScope}

/-- What resolves among the filed pointers was parsed from one of them and resolved. -/
theorem assessed_resolution {pointers : List Json} {assessment : Assessment}
    (assessed : assess render scope pointers = .ok assessment) {resolution : Resolution}
    (among : resolution ∈ assessment.resolving) :
    ∃ text parts fragment, .string text ∈ pointers ∧ parseText text = some (parts, fragment) ∧
      resolves render scope text parts fragment = .ok (some resolution) := by
  obtain ⟨found, folded, made⟩ := except_bind_ok.mp assessed
  cases made
  change resolution ∈ found.1 at among
  have general : ∀ held : List Resolution × Bool,
      pointers.foldlM (assessPointer render scope) held = .ok found →
        resolution ∈ held.1 ∨ ∃ text parts fragment, .string text ∈ pointers ∧
          parseText text = some (parts, fragment) ∧
          resolves render scope text parts fragment = .ok (some resolution) := by
    clear folded assessed
    induction pointers with
    | nil =>
        intro held folded
        cases folded
        exact .inl among
    | cons pointer pointers ih =>
        intro held folded
        rw [List.foldlM_cons] at folded
        obtain ⟨next, taken, rest⟩ := except_bind_ok.mp folded
        rcases ih next rest with held' | ⟨text, parts, fragment, member, parsed, resolved⟩
        · unfold assessPointer at taken
          split at taken
          · rename_i text parts fragment parsed
            obtain ⟨answer, resolved, same⟩ := except_bind_ok.mp taken
            cases same
            rcases List.mem_append.mp held' with earlier | here
            · exact .inl earlier
            · rw [Option.mem_toList] at here
              exact .inr ⟨text, parts, fragment, List.mem_cons_self, parsed, here ▸ resolved⟩
          · cases taken
            exact .inl held'
        · exact .inr ⟨text, parts, fragment, List.mem_cons_of_mem _ member, parsed, resolved⟩
  exact (general _ folded).resolve_left fun none => nomatch none

theorem blank_of_strip {text : Str} (nothing : strip text = []) :
    ∀ char ∈ text, isSpace char = true := by
  rw [strip, rstrip, List.rdropWhile_eq_nil_iff] at nothing
  intro char among
  rw [← List.takeWhile_append_dropWhile (p := isSpace) (l := text)] at among
  rcases List.mem_append.mp among with leading | rest
  · exact List.mem_takeWhile_imp leading
  · exact nothing char rest

theorem visible_spelling {parts : List Str} (filled : parts ≠ []) (fragment : Option Str)
    (visible : ∃ char ∈ parts.headD [], isSpace char = false) :
    strip (spellPointer parts fragment) ≠ [] := by
  obtain ⟨char, inHead, shown⟩ := visible
  obtain ⟨first, others, rfl⟩ := List.exists_cons_of_ne_nil filled
  have inside : char ∈ join ['/'] (first :: others) := mem_join_part List.mem_cons_self inHead
  have among : char ∈ spellPointer (first :: others) fragment := by
    cases fragment with
    | none => exact inside
    | some fragment => exact List.mem_append_left _ inside
  intro nothing
  rw [blank_of_strip nothing char among] at shown
  contradiction

/-- A resolution's own spelling, assessed alone, resolves to it again. -/
theorem resolution_again {text : Str} {parts : List Str} {fragment : Option Str}
    {resolution : Resolution} (parsed : parseText text = some (parts, fragment))
    (resolved : resolves render scope text parts fragment = .ok (some resolution)) :
    ∃ again, assess render scope [.string resolution.pointer] = .ok again ∧
      again.resolving = [resolution] := by
  obtain ⟨path, -, -, read⟩ := pointer_parsed parsed
  unfold resolves at resolved
  split at resolved
  · cases resolved
  rename_i well
  rw [Bool.not_eq_true] at well
  obtain ⟨spelled, visible⟩ := resolved_pointer resolved
  have reparsed : parsePointer (.string (spellPointer parts fragment)) = some (parts, fragment) :=
    read.again (visible_spelling read.reduced.filled fragment visible)
  have resolvedAgain : resolves render scope (spellPointer parts fragment) parts fragment =
      .ok (some resolution) := by
    unfold resolves
    rw [read.spelled_well well]
    exact resolved
  have taken : assessPointer render scope ([], false) (.string (spellPointer parts fragment)) =
      .ok ([resolution], prohibited scope parts fragment) := by
    unfold assessPointer
    rw [reparsed]
    dsimp only
    rw [resolvedAgain]
    rfl
  rw [spelled]
  refine ⟨⟨[.string (spellPointer parts fragment)], [resolution],
    prohibited scope parts fragment⟩, ?_, rfl⟩
  unfold assess
  rw [List.foldlM_cons, taken]
  rfl

end Assessed

/-- The canonical spelling of what resolves resolves to the same again; and a pointer that
resolves, followed as it is written, stays in the episode and in the world it enters. -/
theorem pointers_canonical_and_contained (render : Json → Str) (scope : PointerScope) :
    (∀ {pointers : List Json} {assessment : Assessment},
      assess render scope pointers = .ok assessment →
      ∀ resolution ∈ assessment.resolving,
        ∃ again, assess render scope [.string resolution.pointer] = .ok again ∧
          again.resolving = [resolution]) ∧
    ∀ {pointer : Str} {assessment : Assessment},
      assess render scope [.string pointer] = .ok assessment → assessment.resolving ≠ [] →
        Contained (splitOn '/' (partition ['#'] pointer).1) := by
  constructor
  · intro pointers assessment assessed resolution among
    obtain ⟨text, parts, fragment, -, parsed, resolved⟩ := assessed_resolution assessed among
    exact resolution_again parsed resolved
  · intro pointer assessment assessed some
    obtain ⟨resolution, others, same⟩ := List.exists_cons_of_ne_nil some
    have among : resolution ∈ assessment.resolving := same ▸ List.mem_cons_self
    obtain ⟨text, parts, fragment, filed, parsed, -⟩ := assessed_resolution assessed among
    cases List.mem_singleton.mp filed
    obtain ⟨path, cut, found, -⟩ := pointer_parsed parsed
    rw [cut]
    exact canonical_contained found

def oneRun : Dict Str WorldFacts :=
  Dict.empty.set "b" ⟨"af3ba774-355d-4dbc-b8b6-3becc9d3e7a1", [], [], []⟩

def oneRunScope : PointerScope where
  readsPlain name := name == "worlds/af3ba774-355d-4dbc-b8b6-3becc9d3e7a1/report.md".toList
  runFacts := oneRun
  manifest := Dict.empty
  outcome := Dict.empty
  samples := none
  inheritedDenials := []
  servedSystems := []

def reportPointer : Str := "worlds/./af3ba774-355d-4dbc-b8b6-3becc9d3e7a1/drafts/..//report.md"

def reportResolution : Resolution where
  pointer := "worlds/af3ba774-355d-4dbc-b8b6-3becc9d3e7a1/report.md"
  kind := .conduct
  run := some "b"

/-- A report cited by way of a folder beside it. -/
theorem report_resolves_again :
    (∃ again, assess (fun _ => []) oneRunScope [.string reportResolution.pointer] = .ok again ∧
        again.resolving = [reportResolution]) ∧
      Contained (splitOn '/' (partition ['#'] reportPointer).1) := by
  have assessed : assess (fun _ => []) oneRunScope [.string reportPointer] =
      .ok ⟨[.string reportPointer], [reportResolution], false⟩ := by
    rfl
  obtain ⟨canonical, contained⟩ := pointers_canonical_and_contained (fun _ => []) oneRunScope
  exact ⟨canonical assessed reportResolution List.mem_cons_self, contained assessed nofun⟩

end Defender.Learning.Judge
