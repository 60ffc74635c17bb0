import Defender.Invlang.Tokenize

/-!
# Fences under append

The fence scan is the region reading of `Delimited`, so a fence that was read
stays read. What an append adds is read from the remainder, the text behind the
last fence; a mention of the opener in that text pairs with the appended fence.
-/

namespace Defender.Invlang

open Defender.Python Defender.Library.Regex Defender.Library.Delimited
open Defender.Library.DelimitedPattern

theorem fence_opener_visible : fenceOpener ≠ [] := by decide

def fenceRegions (text : Str) : List (Nat × Nat × Str) :=
  located fenceOpener fenceCloser 0 (regions fenceOpener fenceCloser text)

theorem scan_fences_spans (text : Str) :
    (scanFences text).spans = (fenceRegions text).map (fun region => (region.1, region.2.1)) := by
  unfold fenceRegions
  rw [← find_all_located fence_opener_visible text]
  simp [scanFences, invlangFenceRe]

theorem scan_fences_bodies (text : Str) :
    (scanFences text).bodies = (fenceRegions text).map (fun region => region.2.2) := by
  unfold fenceRegions
  rw [← find_all_located fence_opener_visible text]
  simp [scanFences, invlangFenceRe]

theorem fence_bodies (text : Str) :
    (scanFences text).bodies = (regions fenceOpener fenceCloser text).map Prod.snd := by
  rw [scan_fences_bodies, fenceRegions, located_bodies]

theorem fence_regions_prefix (text more : Str) :
    fenceRegions text <+: fenceRegions (text ++ more) := by
  unfold fenceRegions
  rw [regions_append fence_opener_visible more]
  exact located_prefix 0 _ _

theorem fence_regions_enclosed (text : Str) :
    ∀ region ∈ fenceRegions text,
      EnclosedAt fenceOpener fenceCloser text region.1 region.2.1 region.2.2 :=
  located_enclosed fence_opener_visible [] text

/-- Fences are read once and for all; their spans increase without overlap and
every body runs from its opener to the first closer. -/
theorem fence_scan_prefix_stable (text more : Str) :
    (scanFences text).spans <+: (scanFences (text ++ more)).spans ∧
      (scanFences text).bodies <+: (scanFences (text ++ more)).bodies ∧
      (scanFences text).spans.Pairwise (fun earlier later => earlier.2 ≤ later.1) ∧
      (∀ span ∈ (scanFences text).spans, span.1 < span.2) ∧
      List.Forall₂ (fun span body => EnclosedAt fenceOpener fenceCloser text span.1 span.2 body)
        (scanFences text).spans (scanFences text).bodies := by
  have stable := fence_regions_prefix text more
  have enclosed := fence_regions_enclosed text
  simp only [scan_fences_spans, scan_fences_bodies]
  refine ⟨stable.map _, stable.map _, ?_, ?_, ?_⟩
  · rw [List.pairwise_map]
    exact located_increasing 0 _
  · intro span member
    rcases List.mem_map.mp member with ⟨region, read, rfl⟩
    rcases enclosed region read with ⟨_, _, _, _, _, _, _, stop⟩
    have wide : 0 < fenceOpener.length := by decide
    simp only
    omega
  · rw [List.forall₂_map_left_iff, List.forall₂_map_right_iff, List.forall₂_same]
    exact enclosed

section Appending

/-- What `append_block` writes for a body. -/
def appendedFence (body : Str) : Str := fenceOpener ++ body ++ fenceCloser ++ ['\n']

def fenceMark : Str := ['`', '`', '`']

def NoFenceLine (body : Str) : Prop := ∀ line ∈ splitOn '\n' body, ¬ fenceMark <+: line

instance (body : Str) : Decidable (NoFenceLine body) := by
  unfold NoFenceLine
  infer_instance

def fenceRemainder (text : Str) : Str := remainder fenceOpener fenceCloser text

theorem fence_closer_eq : fenceCloser = '\n' :: fenceMark := by decide

theorem fence_opener_eq : fenceOpener = fenceOpenLine ++ ['\n'] := by decide

theorem no_closer_in_line_start {body : Str} (plain : NoFenceLine body) :
    ¬ fenceCloser <:+: '\n' :: body := by
  have fresh : '\n' ∉ fenceMark := by decide
  rw [fence_closer_eq, List.infix_cons_iff, List.cons_prefix_cons, not_or]
  constructor
  · rintro ⟨_, starts⟩
    rcases split_on_starts fresh starts with ⟨first, others, pieces, begins⟩
    exact plain first (by rw [pieces]; exact List.mem_cons_self) begins
  · intro occurs
    rcases split_on_follows fresh occurs with ⟨line, member, begins⟩
    exact plain line (List.mem_of_mem_tail member) begins

theorem no_closer_before_newline {left : Str} (absent : ¬ fenceCloser <:+: left) :
    ¬ fenceCloser <:+: left ++ ['\n'] := by
  rintro ⟨before, after, split⟩
  cases after using List.reverseRecOn with
  | nil =>
      have last := congrArg List.getLast? split
      rw [fence_closer_eq, fenceMark] at last
      simp at last
  | append_singleton others last =>
      apply absent
      refine ⟨before, others, ?_⟩
      rw [← List.append_assoc] at split
      exact (List.append_inj' split rfl).1

theorem closer_found_at_end {left : Str} (right : Str) (absent : ¬ fenceCloser <:+: left) :
    findWord fenceCloser (left ++ fenceCloser ++ right) = some (left, right) := by
  have seam : findWord ('\n' :: fenceMark) (left ++ ['\n'] ++ fenceMark ++ right) =
      some ((left ++ ['\n']).dropLast, right) :=
    find_word_seam (by decide)
      (by rw [← fence_closer_eq]; exact no_closer_before_newline absent) (by simp)
  simpa [fence_closer_eq] using seam

theorem remainder_ends_in_newline {text : Str} (ends : text.getLast? = some '\n') :
    fenceRemainder text = [] ∨ (fenceRemainder text).getLast? = some '\n' := by
  rcases List.eq_nil_or_concat (fenceRemainder text) with empty | ⟨start, last, same⟩
  · exact .inl empty
  · have suffix : fenceRemainder text <:+ text := remainder_suffix
    right
    rcases suffix with ⟨before, whole⟩
    rw [← whole, same] at ends
    rw [same]
    simpa using ends

theorem no_closer_in_body {body : Str} (plain : NoFenceLine body) :
    ¬ fenceCloser <:+: body := fun occurs =>
  no_closer_in_line_start plain (List.infix_cons_iff.mpr (.inr occurs))

theorem append_read_alone {left body : Str} (plain : NoFenceLine body)
    (ends : left = [] ∨ left.getLast? = some '\n') (unopened : findWord fenceOpener left = none) :
    regions fenceOpener fenceCloser (left ++ appendedFence body) = [(left, body)] := by
  have opened : findWord fenceOpener (left ++ appendedFence body) =
      some (left, body ++ fenceCloser ++ ['\n']) := by
    have seam := find_word_after (body ++ fenceCloser ++ ['\n'])
      (show '\n' ∉ fenceOpenLine by decide)
      (by rw [← fence_opener_eq]; exact find_word_none_iff.mp unopened) ends
    rw [← fence_opener_eq] at seam
    simpa [appendedFence] using seam
  have closed := closer_found_at_end ['\n'] (no_closer_in_body plain)
  rw [regions_step fence_opener_visible opened closed,
    (regions_unopened fenceCloser (by decide)).1]

theorem append_read_after_bare_opener {left before body : Str} (plain : NoFenceLine body)
    (opened : findWord fenceOpener left = some (before, [])) :
    (regions fenceOpener fenceCloser (left ++ appendedFence body)).map Prod.snd =
      [fenceOpener ++ body] := by
  have absent : ¬ fenceCloser <:+: fenceOpener ++ body := by
    have fresh : '\n' ∉ fenceOpenLine := by decide
    rw [fence_opener_eq, List.append_assoc, List.singleton_append]
    intro occurs
    rw [fence_closer_eq] at occurs
    exact no_closer_in_line_start plain
      (by rw [fence_closer_eq]; exact infix_of_infix_append fresh occurs)
  have closed := closer_found_at_end ['\n'] absent
  have later := find_word_append (appendedFence body) opened
  rw [List.nil_append] at later
  rw [regions_step fence_opener_visible later
      (by simpa [appendedFence] using closed),
    (regions_unopened fenceCloser (by decide)).1]
  rfl

def openerWord : Str := ['i', 'n', 'v', 'l', 'a', 'n', 'g', '\n']

/-- What the appended text holds behind its first three backticks. -/
def appendedRest (body : Str) : Str := openerWord ++ body ++ fenceCloser ++ ['\n']

theorem fence_opener_marked : fenceOpener = fenceMark ++ openerWord := by decide

theorem appended_rest_regions (body : Str) :
    regions fenceOpener fenceCloser (appendedRest body) = [] ↔ ¬ fenceOpener <:+: body := by
  constructor
  · rintro empty ⟨before, after, split⟩
    have enclosed : appendedRest body =
        (openerWord ++ before) ++ fenceOpener ++ after ++ fenceCloser ++ ['\n'] := by
      rw [appendedRest, ← split]
      simp
    exact regions_ne_nil enclosed empty
  · intro absent
    cases opened : findWord fenceOpener (appendedRest body) with
    | none => exact (regions_unopened fenceCloser opened).1
    | some cut =>
        rcases cut with ⟨before, inner⟩
        apply (regions_unclosed opened _).1
        have split := (find_word_sound opened).1
        have lengths := congrArg List.length split
        have sizes : fenceOpener.length = 11 ∧ fenceCloser.length = 4 ∧
            openerWord.length = 8 := by decide
        simp only [appendedRest, List.length_append, List.length_singleton] at lengths
        by_cases inside : before.length + fenceOpener.length ≤ openerWord.length + body.length
        · exfalso
          have isPrefix : before ++ fenceOpener <+: openerWord ++ body :=
            List.prefix_of_prefix_length_le ⟨inner, split.symm⟩
              ⟨fenceCloser ++ ['\n'], by simp [appendedRest]⟩ (by simpa using inside)
          have occurs : fenceOpener <:+: openerWord ++ body :=
            (List.suffix_append before _).isInfix.trans isPrefix.isInfix
          exact absent (infix_of_infix_append (show '`' ∉ openerWord by decide) occurs)
        · -- The opener ends at the line feed of the closer, and nothing closes it.
          have short : inner <:+ fenceMark ++ ['\n'] :=
            List.suffix_of_suffix_length_le ⟨before ++ fenceOpener, split.symm⟩
              ⟨openerWord ++ body ++ ['\n'], by simp [appendedRest, fence_closer_eq]⟩
              (by have : (fenceMark ++ ['\n']).length = 4 := by decide
                  omega)
          rw [find_word_none_iff]
          intro occurs
          exact absurd (occurs.trans short.isInfix) (by decide)

theorem append_read_after_opener {left before inner : Str} (body : Str)
    (opened : findWord fenceOpener left = some (before, inner ++ ['\n']))
    (unclosed : findWord fenceCloser (inner ++ ['\n']) = none) :
    regions fenceOpener fenceCloser (left ++ appendedFence body) =
      (before, inner) :: regions fenceOpener fenceCloser (appendedRest body) := by
  have absent : ¬ fenceCloser <:+: inner := fun occurs =>
    find_word_none_iff.mp unclosed (occurs.trans (List.prefix_append _ _).isInfix)
  have closed := closer_found_at_end (appendedRest body) absent
  have later := find_word_append (appendedFence body) opened
  refine regions_step fence_opener_visible later ?_
  have same : inner ++ ['\n'] ++ appendedFence body =
      inner ++ fenceCloser ++ appendedRest body := by
    simp [appendedFence, appendedRest, fence_opener_marked, fence_closer_eq]
  rw [same]
  exact closed

/-- The left-over text of a document holds no opener, or it holds one whose
following text is the appended body, which then takes the body's place. -/
def AppendReadsBody (text body : Str) : Prop :=
  findWord fenceOpener (fenceRemainder text) = none ∨
    (∃ before, findWord fenceOpener (fenceRemainder text) = some (before, body ++ ['\n'])) ∧
      ¬ fenceOpener <:+: body

theorem left_over_read_iff {left body : Str} (plain : NoFenceLine body)
    (ends : left = [] ∨ left.getLast? = some '\n')
    (unread : regions fenceOpener fenceCloser left = []) :
    (regions fenceOpener fenceCloser (left ++ appendedFence body)).map Prod.snd = [body] ↔
      findWord fenceOpener left = none ∨
        (∃ before, findWord fenceOpener left = some (before, body ++ ['\n'])) ∧
          ¬ fenceOpener <:+: body := by
  cases opened : findWord fenceOpener left with
  | none => simp [append_read_alone plain ends opened]
  | some cut =>
      rcases cut with ⟨before, inner⟩
      have split := (find_word_sound opened).1
      have unclosed : findWord fenceCloser inner = none := by
        cases closed : findWord fenceCloser inner with
        | none => rfl
        | some innerCut =>
            rw [regions_step fence_opener_visible opened closed] at unread
            contradiction
      rcases List.eq_nil_or_concat inner with rfl | ⟨start, last, rfl⟩
      · rw [append_read_after_bare_opener plain opened]
        simp [fence_opener_visible]
      · have newline : last = '\n' := by
          rcases ends with rfl | ends
          · simp at split
          · rw [split] at ends
            simpa using ends
        subst newline
        rw [List.concat_eq_append] at opened unclosed
        rw [append_read_after_opener body opened unclosed, ← appended_rest_regions body]
        simp

theorem appended_fence_read_iff (text body : Str) (ends : text.getLast? = some '\n')
    (plain : NoFenceLine body) :
    (scanFences (text ++ appendedFence body)).bodies = (scanFences text).bodies ++ [body] ↔
      AppendReadsBody text body := by
  have read := left_over_read_iff plain (remainder_ends_in_newline ends)
    (remainder_has_no_region fence_opener_visible)
  rw [AppendReadsBody, ← read]
  simp only [scan_fences_bodies, fenceRegions, located_bodies]
  rw [regions_append fence_opener_visible, List.map_append, List.append_right_inj]
  rfl

def titledText : Str := "# t\n"

def vertexBody : Str := ":V v"

theorem appended_fence_read_after_title :
    (scanFences (titledText ++ appendedFence vertexBody)).bodies =
        (scanFences titledText).bodies ++ [vertexBody] ↔
      AppendReadsBody titledText vertexBody :=
  appended_fence_read_iff titledText vertexBody (by decide) (by decide)

def openerMention : Str := "see ```invlang\n"

/-- A mention of the opener inside a prose line leaves `open_tail` unset and
still pairs with the appended fence, whose own opener becomes body text. -/
theorem appended_fence_captured_by_mention :
    openerMention.getLast? = some '\n' ∧ (scanFences openerMention).openTail = none ∧
      NoFenceLine vertexBody ∧
      (scanFences (openerMention ++ appendedFence vertexBody)).bodies ≠
        (scanFences openerMention).bodies ++ [vertexBody] := by
  decide +kernel

end Appending

end Defender.Invlang
