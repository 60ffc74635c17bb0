import Mathlib.Data.List.Forall2
import Defender.Execution.CommandTokens

/-!
# Which pipelines are conditional

The separators cut the token stream into segments; those with words are the
pipelines. The builder gives a pipeline the connector that closed the last segment
with words, which is the last separator before the pipeline only when no segment
in between was opened by `&&` or `||` and left empty.
-/

namespace Defender.Execution

open Defender.Python

/-- What stands before a segment. -/
inductive Opening where
  | start
  | lineBreak
  | separator (connector : Connector)
deriving DecidableEq, Repr

def Opening.dangles : Opening → Bool
  | .separator connector => connector.dangles
  | .start | .lineBreak => false

/-- The segments of a line, each with what stands before it. -/
def segmentsFrom : Opening → List Token → List (Opening × List Token)
  | opening, [] => [(opening, [])]
  | opening, token :: rest =>
      match separatorOf token with
      | some connector => (opening, []) :: segmentsFrom (.separator connector) rest
      | none =>
          (segmentsFrom opening rest).modifyHead fun segment => (segment.1, token :: segment.2)

def segments : Opening → List (List Token) → List (Opening × List Token)
  | _, [] => []
  | opening, line :: rest => segmentsFrom opening line ++ segments .lineBreak rest

/-- What stands before the words, and the words. -/
abbrev Spoken := Opening × List Str

def spokenLine (opening : Opening) (tokens : List Token) : List Spoken :=
  (segmentsFrom opening tokens).map fun segment => (segment.1, keptValues segment.2)

/-- The segments with words: the last separator before each pipeline's first word, and
the words of the pipeline. -/
def worded (spoken : List Spoken) : List Spoken := spoken.filter fun segment => segment.2 ≠ []

def spokenFrom (opening : Opening) (lines : List (List Token)) : List Spoken :=
  (segments opening lines).map fun segment => (segment.1, keptValues segment.2)

/-- A pipeline's connector is the `&&` or `||` before its first word, and it runs in any
case after anything else. -/
def Follows (segment : Spoken) (pipeline : Pipeline) : Prop :=
  (pipeline.connector = .both ↔ segment.1 = .separator .both) ∧
    (pipeline.connector = .either ↔ segment.1 = .separator .either) ∧
    (segment.1.dangles = false → ∀ ranAny code, (ranAny && shortCircuit pipeline code) = false)

/-- Every `&&` and `||` has words to its right before the next separator. -/
def RightSides (spoken : List Spoken) : Prop :=
  ∀ segment ∈ spoken, segment.1.dangles = true → segment.2 ≠ []

section Segments

variable {token : Token} {rest : List Token}

theorem segments_from_head (opening : Opening) (tokens : List Token) :
    ∃ first more, segmentsFrom opening tokens = (opening, first) :: more ∧
      ∀ next ∈ first.head?, next ∈ tokens.head? := by
  induction tokens generalizing opening with
  | nil => exact ⟨[], [], rfl, by simp⟩
  | cons token rest ih =>
      unfold segmentsFrom
      cases separatorOf token with
      | some connector => exact ⟨[], _, rfl, by simp⟩
      | none =>
          obtain ⟨first, more, split, _⟩ := ih opening
          refine ⟨token :: first, more, ?_, by simp⟩
          dsimp only
          rw [split]
          rfl

theorem spoken_line_head (opening : Opening) (tokens : List Token) :
    ∃ words more, spokenLine opening tokens = (opening, words) :: more := by
  obtain ⟨first, more, split, _⟩ := segments_from_head opening tokens
  exact ⟨keptValues first, _, by rw [spokenLine, split]; rfl⟩

/-- The words read before a segment's tokens belong to it. -/
def extend (words : List Str) (spoken : List Spoken) : List Spoken :=
  spoken.modifyHead fun segment => (segment.1, words ++ segment.2)

theorem extend_nil (spoken : List Spoken) : extend [] spoken = spoken := by
  cases spoken <;> rfl

theorem extend_cons (words more : List Str) (opening : Opening) (spoken : List Spoken) :
    extend words ((opening, more) :: spoken) = (opening, words ++ more) :: spoken := rfl

theorem spoken_word {opening : Opening} (plain : isConnector token = false)
    (apart : ∀ next ∈ rest.head?, isRedirectOperator next = false) :
    spokenLine opening (token :: rest) = extend [token.value] (spokenLine opening rest) := by
  have noSeparator : separatorOf token = none := by
    simp only [isConnector, Bool.or_eq_false_iff, Option.isSome_eq_false_iff,
      Option.isNone_iff_eq_none] at plain
    exact plain.2
  obtain ⟨first, more, split, heads⟩ := segments_from_head opening rest
  have kept : keptValues (token :: first) = token.value :: keptValues first := by
    rw [kept_values_cons fun _ next inside => apart next (heads next inside), ownValue, plain]
    rfl
  simp only [spokenLine, segmentsFrom, noSeparator, split]
  simp [extend, kept]

theorem spoken_pipe {opening : Opening} (pipe : isPipe token = true) :
    spokenLine opening (token :: rest) = spokenLine opening rest := by
  have connects : isConnector token = true := by simp [isConnector, pipe]
  have noSeparator : separatorOf token = none := by
    cases separates : separatorOf token with
    | none => rfl
    | some connector =>
        have other := (separator_connects separates).2
        rw [pipe] at other
        contradiction
  obtain ⟨first, more, split, _⟩ := segments_from_head opening rest
  have kept : keptValues (token :: first) = keptValues first := by
    rw [kept_values_cons fun isFd => absurd isFd (connector_plain connects).1, ownValue, connects]
    rfl
  simp only [spokenLine, segmentsFrom, noSeparator, split]
  simp [kept]

theorem spoken_separator {opening : Opening} {connector : Connector}
    (separates : separatorOf token = some connector) :
    spokenLine opening (token :: rest) =
      (opening, []) :: spokenLine (.separator connector) rest := by
  rw [spokenLine, segmentsFrom, separates]
  rfl

theorem spoken_redirect {opening : Opening} {fd operator target : Token}
    (redirect : isStderrRedirect fd operator target = true) :
    spokenLine opening (fd :: operator :: target :: rest) = spokenLine opening rest := by
  obtain ⟨_, fdPlain, operatorPlain, targetPlain⟩ := redirect_plain redirect
  simp only [isConnector, Bool.or_eq_false_iff, Option.isSome_eq_false_iff,
    Option.isNone_iff_eq_none] at fdPlain operatorPlain targetPlain
  obtain ⟨first, more, split, _⟩ := segments_from_head opening rest
  have kept : keptValues (fd :: operator :: target :: first) = keptValues first := by
    rw [keptValues, if_pos redirect]
  simp only [spokenLine, segmentsFrom, fdPlain.2, operatorPlain.2, targetPlain.2, split]
  simp [kept]

end Segments

section Joining

/-- How the builder joins the segments of a line: the pending connector stays over an
empty segment, and is the separator after a segment with words. -/
inductive Joins : Connector → List Spoken → List Pipeline → Connector → Prop where
  | lastEmpty {pending : Connector} {opening : Opening} :
      Joins pending [(opening, [])] [] pending
  | lastWords {pipeline : Pipeline} {opening : Opening} :
      pipeline.words ≠ [] →
      Joins pipeline.connector [(opening, pipeline.words)] [pipeline] .semicolon
  | empty {pending left connector : Connector} {opening : Opening} {words : List Str}
      {rest : List Spoken} {pipelines : List Pipeline} :
      connector.dangles = false →
      Joins pending ((.separator connector, words) :: rest) pipelines left →
      Joins pending ((opening, []) :: (.separator connector, words) :: rest) pipelines left
  | words {pipeline : Pipeline} {left connector : Connector} {opening : Opening}
      {words : List Str} {rest : List Spoken} {pipelines : List Pipeline} :
      pipeline.words ≠ [] →
      Joins connector ((.separator connector, words) :: rest) pipelines left →
      Joins pipeline.connector ((opening, pipeline.words) :: (.separator connector, words) :: rest)
        (pipeline :: pipelines) left

variable {builder ended : PipelineBuilder} {tokens : List Token}

def closedPipeline (builder : PipelineBuilder) : Pipeline :=
  ⟨builder.pendingConnector, builder.curStages ++ [⟨builder.curArgv, builder.curStderr⟩]⟩

theorem closed_pipeline_words (builder : PipelineBuilder) :
    (closedPipeline builder).words = builder.segment := by
  simp [closedPipeline, Pipeline.words, PipelineBuilder.segment]

theorem closed_pipeline_spoken (some : builder.curArgv ≠ []) :
    (closedPipeline builder).words ≠ [] := by
  simp [closed_pipeline_words, PipelineBuilder.segment, some]

theorem segment_empty (noWords : builder.curArgv = []) (noStages : builder.curStages = []) :
    builder.segment = [] := by
  simp [PipelineBuilder.segment, noWords, noStages]

theorem fed_joins (opening : Opening) (read : Fed builder tokens ended) :
    ∃ pipelines, ended.pipelines = builder.pipelines ++ pipelines ∧
      Joins builder.pendingConnector (extend builder.segment (spokenLine opening tokens))
        pipelines ended.pendingConnector := by
  induction read generalizing opening with
  | @done builder ended closes =>
      rcases end_pipeline_cases closes with ⟨noWords, noStages, rfl⟩ | ⟨some, rfl⟩
      · refine ⟨[], by simp, ?_⟩
        rw [segment_empty noWords noStages, extend_nil]
        exact .lastEmpty
      · refine ⟨[closedPipeline builder], rfl, ?_⟩
        have spoken : extend builder.segment (spokenLine opening []) =
            [(opening, (closedPipeline builder).words)] := by
          rw [closed_pipeline_words]
          change [(opening, builder.segment ++ [])] = _
          rw [List.append_nil]
        rw [spoken]
        exact .lastWords (closed_pipeline_spoken some)
  | @word builder ended token rest notConnector plain read ih =>
      obtain ⟨pipelines, appended, joins⟩ := ih opening
      refine ⟨pipelines, appended, ?_⟩
      rw [spoken_word notConnector (fed_head_plain read)]
      obtain ⟨words, more, heads⟩ := spoken_line_head opening rest
      rw [heads] at joins ⊢
      simpa [extend, PipelineBuilder.segment, PipelineBuilder.addWord] using joins
  | @pipe builder ended token rest pipe leftSide read ih =>
      obtain ⟨pipelines, appended, joins⟩ := ih opening
      refine ⟨pipelines, appended, ?_⟩
      rw [spoken_pipe pipe]
      have sameSegment : builder.endStage.segment = builder.segment := by
        simp [PipelineBuilder.segment, PipelineBuilder.endStage, leftSide]
      rw [← sameSegment]
      exact joins
  | @separator builder closed ended token rest connector separates leftSide closes read ih =>
      obtain ⟨pipelines, appended, joins⟩ := ih (.separator connector)
      obtain ⟨words, more, heads⟩ := spoken_line_head (.separator connector) rest
      rw [spoken_separator separates]
      rw [heads] at joins ⊢
      rcases end_pipeline_cases closes with ⟨noWords, noStages, rfl⟩ | ⟨some, rfl⟩
      · refine ⟨pipelines, appended, ?_⟩
        have settled : connector.dangles = false := by
          by_contra dangles
          exact leftSide (by simpa using dangles) noWords
        have noSegment := segment_empty noWords noStages
        rw [noSegment, extend_nil]
        refine .empty settled ?_
        have unread : ({ builder with curStderr := .capture } : PipelineBuilder).segment = [] :=
          noSegment
        rw [unread, extend_nil] at joins
        exact joins
      · refine ⟨closedPipeline builder :: pipelines, by rw [appended]; simp [closedPipeline], ?_⟩
        rw [extend_cons, List.append_nil, ← closed_pipeline_words]
        exact .words (closed_pipeline_spoken some) joins
  | @redirect builder ended fd operator target rest mode redirect read ih =>
      obtain ⟨pipelines, appended, joins⟩ := ih opening
      refine ⟨pipelines, appended, ?_⟩
      rw [spoken_redirect redirect]
      exact joins

variable {pending left : Connector} {spoken : List Spoken} {pipelines : List Pipeline}

theorem worded_cons {opening : Opening} {words : List Str} {rest : List Spoken}
    (some : words ≠ []) : worded ((opening, words) :: rest) = (opening, words) :: worded rest := by
  simp [worded, some]

theorem worded_empty (opening : Opening) (rest : List Spoken) :
    worded ((opening, []) :: rest) = worded rest := by
  simp [worded]

theorem joins_words (joins : Joins pending spoken pipelines left) :
    List.Forall₂ (fun segment pipeline => segment.2 = Pipeline.words pipeline) (worded spoken)
      pipelines := by
  induction joins with
  | lastEmpty => exact .nil
  | lastWords some =>
      rw [worded_cons some]
      exact .cons rfl .nil
  | empty settled joins ih =>
      rw [worded_empty]
      exact ih
  | words some joins ih =>
      rw [worded_cons some]
      exact .cons rfl ih

def Agrees (pending : Connector) (opening : Opening) : Prop :=
  (pending = .both ↔ opening = .separator .both) ∧
    (pending = .either ↔ opening = .separator .either)

theorem agrees_dangles {opening : Opening} (agrees : Agrees pending opening) :
    pending.dangles = opening.dangles := by
  rcases opening with - | - | connector
  · cases pending <;> simp_all [Agrees, Connector.dangles, Opening.dangles]
  · cases pending <;> simp_all [Agrees, Connector.dangles, Opening.dangles]
  · cases pending <;> cases connector <;> simp_all [Agrees, Connector.dangles, Opening.dangles]

theorem agrees_settled {opening : Opening} (settled : pending.dangles = false)
    (plain : opening.dangles = false) : Agrees pending opening := by
  rcases opening with - | - | connector
  · cases pending <;> simp_all [Agrees, Connector.dangles]
  · cases pending <;> simp_all [Agrees, Connector.dangles]
  · cases pending <;> cases connector <;> simp_all [Agrees, Connector.dangles, Opening.dangles]

theorem follows_iff {segment : Spoken} {pipeline : Pipeline} :
    Follows segment pipeline ↔ Agrees pipeline.connector segment.1 := by
  constructor
  · exact fun follows => ⟨follows.1, follows.2.1⟩
  · intro agrees
    refine ⟨agrees.1, agrees.2, ?_⟩
    intro plain ranAny code
    have settled := (agrees_dangles agrees).trans plain
    cases connector : pipeline.connector with
    | first | semicolon => simp [shortCircuit, connector]
    | both | either =>
        rw [connector] at settled
        contradiction

/-- A connector left pending over the segment it opened comes back at a pipeline that
another separator opens. -/
theorem joins_stray {opening : Opening} {words : List Str} {rest : List Spoken}
    (joins : Joins pending ((opening, words) :: rest) pipelines left)
    (dangles : pending.dangles = true) (plain : opening.dangles = false)
    (settled : left.dangles = false) :
    ¬ List.Forall₂ Follows (worded ((opening, words) :: rest)) pipelines := by
  generalize shape : (opening, words) :: rest = spoken at joins
  induction joins generalizing opening words rest with
  | lastEmpty =>
      rw [dangles] at settled
      contradiction
  | lastWords some =>
      cases shape
      intro follows
      rw [worded_cons some] at follows
      have agrees := follows_iff.mp (List.forall₂_cons.mp follows).1
      rw [agrees_dangles agrees] at dangles
      exact absurd (dangles.symm.trans plain) (by simp)
  | empty next joins ih =>
      cases shape
      rw [worded_empty]
      exact @ih (.separator _) _ _ dangles next settled rfl
  | words some joins ih =>
      cases shape
      intro follows
      rw [worded_cons some] at follows
      have agrees := follows_iff.mp (List.forall₂_cons.mp follows).1
      rw [agrees_dangles agrees] at dangles
      exact absurd (dangles.symm.trans plain) (by simp)

/-- On one line, the connectors follow the separators exactly when every `&&` and `||`
has words to its right. -/
theorem joins_follow {opening : Opening} {words : List Str} {rest : List Spoken}
    (joins : Joins pending ((opening, words) :: rest) pipelines left)
    (agrees : Agrees pending opening) (settled : left.dangles = false) :
    List.Forall₂ Follows (worded ((opening, words) :: rest)) pipelines ↔
      RightSides ((opening, words) :: rest) := by
  generalize shape : (opening, words) :: rest = spoken at joins
  induction joins generalizing opening words rest with
  | lastEmpty =>
      cases shape
      have plain := (agrees_dangles agrees).symm.trans settled
      constructor
      · intro _ segment inside dangles
        obtain rfl := List.mem_singleton.mp inside
        exact absurd (dangles.symm.trans plain) (by simp)
      · exact fun _ => .nil
  | lastWords some =>
      cases shape
      rw [worded_cons some]
      constructor
      · intro _ segment inside _
        obtain rfl := List.mem_singleton.mp inside
        exact some
      · exact fun _ => .cons (follows_iff.mpr agrees) .nil
  | @empty pending left connector opening next more pipelines plainNext joins ih =>
      cases shape
      rw [worded_empty]
      by_cases plain : opening.dangles = false
      · have settledPending := (agrees_dangles agrees).trans plain
        rw [@ih (.separator connector) _ _ (agrees_settled settledPending plainNext) settled rfl]
        constructor
        · intro sides segment inside dangles
          rcases List.mem_cons.mp inside with rfl | later
          · exact absurd (dangles.symm.trans plain) (by simp)
          · exact sides segment later dangles
        · exact fun sides segment later => sides segment (List.mem_cons_of_mem _ later)
      · have dangles : opening.dangles = true := by simpa using plain
        have stray := joins_stray joins ((agrees_dangles agrees).trans dangles) plainNext settled
        constructor
        · exact fun follows => absurd follows stray
        · exact fun sides => absurd rfl (sides (opening, []) List.mem_cons_self dangles)
  | @words pipeline left connector opening next more pipelines some joins ih =>
      cases shape
      rw [worded_cons some, List.forall₂_cons, ih ⟨by simp, by simp⟩ settled rfl]
      constructor
      · rintro ⟨-, sides⟩ segment inside dangles
        rcases List.mem_cons.mp inside with rfl | later
        · exact some
        · exact sides segment later dangles
      · intro sides
        exact ⟨follows_iff.mpr agrees,
          fun segment later => sides segment (List.mem_cons_of_mem _ later)⟩

end Joining

section Lines

variable {builder ended : PipelineBuilder} {lines : List (List Token)}

theorem forall₂_append_iff {α β : Type*} {related : α → β → Prop} {left left' : List α}
    {right right' : List β} (sameLength : left.length = right.length) :
    List.Forall₂ related (left ++ left') (right ++ right') ↔
      List.Forall₂ related left right ∧ List.Forall₂ related left' right' := by
  induction left generalizing right with
  | nil =>
      obtain rfl := List.length_eq_zero_iff.mp sameLength.symm
      simp
  | cons first rest ih =>
      cases right with
      | nil => contradiction
      | cons other others =>
          rw [List.cons_append, List.cons_append, List.forall₂_cons, List.forall₂_cons,
            ih (by simpa using sameLength), and_assoc]

theorem right_sides_append (first second : List Spoken) :
    RightSides (first ++ second) ↔ RightSides first ∧ RightSides second := by
  simp [RightSides, or_imp, forall_and]

theorem fed_lines_follow (opening : Opening) (read : FedLines builder lines ended)
    (fresh : builder.Fresh) (settled : builder.pendingConnector.dangles = false)
    (plain : opening.dangles = false) :
    ∃ pipelines, ended.pipelines = builder.pipelines ++ pipelines ∧
      List.Forall₂ (fun segment pipeline => segment.2 = Pipeline.words pipeline)
        (worded (spokenFrom opening lines)) pipelines ∧
      (List.Forall₂ Follows (worded (spokenFrom opening lines)) pipelines ↔
        RightSides (spokenFrom opening lines)) := by
  induction read generalizing opening with
  | nil => exact ⟨[], by simp, .nil, by simp [spokenFrom, segments, worded, RightSides]⟩
  | @cons builder closed ended line rest fedLine closedSettled read ih =>
      have lineFresh := (fed_words fedLine).2.2.2
      obtain ⟨later, appendedLater, wordsLater, followsLater⟩ :=
        ih .lineBreak lineFresh closedSettled rfl
      obtain ⟨pipelines, appended, joins⟩ := fed_joins opening fedLine
      rw [segment_empty fresh.2 fresh.1, extend_nil] at joins
      have lineWords := joins_words joins
      obtain ⟨words, more, heads⟩ := spoken_line_head opening line
      have follows : List.Forall₂ Follows (worded (spokenLine opening line)) pipelines ↔
          RightSides (spokenLine opening line) := by
        rw [heads] at joins ⊢
        exact joins_follow joins (agrees_settled settled plain) closedSettled
      have split : spokenFrom opening (line :: rest) =
          spokenLine opening line ++ spokenFrom .lineBreak rest := by
        simp [spokenFrom, segments, spokenLine]
      refine ⟨pipelines ++ later, by rw [appendedLater, appended, List.append_assoc], ?_⟩
      have cut : worded (spokenLine opening line ++ spokenFrom .lineBreak rest) =
          worded (spokenLine opening line) ++ worded (spokenFrom .lineBreak rest) :=
        List.filter_append ..
      have sameLength := lineWords.length_eq
      rw [split, cut, right_sides_append, forall₂_append_iff sameLength,
        forall₂_append_iff sameLength, follows, followsLater]
      exact ⟨⟨lineWords, wordsLater⟩, Iff.rfl⟩

variable [UnicodeDatabase]

/-- Each pipeline holds the words of a segment, in order; and its connector is the `&&` or
`||` before these words, with a pipeline after anything else run in any case, exactly when
every `&&` and `||` has words to its right. -/
theorem parse_connectors_iff (cmd : Str) (pipelines : List Pipeline)
    (accepted : parse cmd = .ok pipelines) :
    ∃ lines, tokenLines cmd = some lines ∧
      List.Forall₂ (fun segment pipeline => segment.2 = Pipeline.words pipeline)
        (worded (spokenFrom .start lines)) pipelines ∧
      (List.Forall₂ Follows (worded (spokenFrom .start lines)) pipelines ↔
        RightSides (spokenFrom .start lines)) := by
  obtain ⟨lines, ended, scanned, read, rfl⟩ := parse_fed accepted
  obtain ⟨pipelines, appended, words, follows⟩ :=
    fed_lines_follow .start read ⟨rfl, rfl⟩ rfl rfl
  have all : ended.pipelines = pipelines := appended
  rw [all]
  exact ⟨lines, scanned, words, follows⟩

end Lines

theorem mixed_command_connectors :
    @parse asciiDatabase mixedCommand = .ok mixedPipelines ∧
      ∃ lines, tokenLines mixedCommand = some lines ∧
        List.Forall₂ (fun segment pipeline => segment.2 = Pipeline.words pipeline)
          (worded (spokenFrom .start lines)) mixedPipelines ∧
        (List.Forall₂ Follows (worded (spokenFrom .start lines)) mixedPipelines ↔
          RightSides (spokenFrom .start lines)) :=
  have accepted : @parse asciiDatabase mixedCommand = .ok mixedPipelines := by decide +kernel
  ⟨accepted, @parse_connectors_iff asciiDatabase _ _ accepted⟩

/-- An `&&` whose right side is empty, closed by a `;`. -/
def emptyRightSide : Str := "A && ; B"

def unconditionalPart : Pipeline := ⟨.first, [⟨["A"], .capture⟩]⟩

def conditionalPart : Pipeline := ⟨.both, [⟨["B"], .capture⟩]⟩

/-- The second pipeline follows the `;` and is run only when the first succeeds. -/
theorem semicolon_runs_conditionally :
    @parse asciiDatabase emptyRightSide = .ok [unconditionalPart, conditionalPart] ∧
      (tokenLines emptyRightSide).map (fun lines => worded (spokenFrom .start lines)) =
        some [(.start, unconditionalPart.words),
          (.separator .semicolon, conditionalPart.words)] ∧
      conditionalPart.connector = .both ∧ shortCircuit conditionalPart 1 = true := by
  decide +kernel

end Defender.Execution
