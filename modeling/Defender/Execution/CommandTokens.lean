import Defender.Execution.BashExec

/-!
# What the pipelines keep of the tokens

The tokens of an accepted line form a derivation of `Fed`, whose steps name the
role of each token. The argv words, the number of stages and the connectors are
then read off by induction over the derivation, and compared with what the token
stream says by itself.
-/

namespace Defender.Execution

open Defender.Python

section Roles

def separatorOf (token : Token) : Option Connector :=
  if token.kind = .operator then pipelineSeparators token.value else none

def isPipe (token : Token) : Bool := token.kind = .operator ∧ token.value = ("|" : Str)

def isRedirectOperator (token : Token) : Bool :=
  token.kind = .operator ∧ (fd2Redirects token.value).isSome

def isStderrRedirect (fd operator target : Token) : Bool :=
  fd.kind = .fdOperator ∧ operator.kind = .operator ∧
    (fd2Redirects operator.value).any fun redirect => redirect.1 = target.value

/-- A connector or separator operator, the `|` included. -/
def isConnector (token : Token) : Bool := isPipe token || (separatorOf token).isSome

def ownValue (token : Token) : List Str := if isConnector token then [] else [token.value]

def keptValues : List Token → List Str
  | fd :: operator :: target :: rest =>
      if isStderrRedirect fd operator target then keptValues rest
      else ownValue fd ++ keptValues (operator :: target :: rest)
  | [first, last] => ownValue first ++ ownValue last
  | [token] => ownValue token
  | [] => []

theorem kept_values_cons {token : Token} {rest : List Token}
    (plain : token.kind = .fdOperator → ∀ next ∈ rest.head?, isRedirectOperator next = false) :
    keptValues (token :: rest) = ownValue token ++ keptValues rest := by
  rcases rest with - | ⟨operator, - | ⟨target, more⟩⟩
  · simp [keptValues]
  · simp [keptValues]
  · rw [keptValues, if_neg]
    intro redirect
    simp only [isStderrRedirect, decide_eq_true_eq] at redirect
    have operand := plain redirect.1 operator (by simp)
    simp only [isRedirectOperator, decide_eq_false_iff_not, not_and] at operand
    obtain ⟨found, held, -⟩ := (Option.any_eq_true _ _).mp redirect.2.2
    exact operand redirect.2.1 (held ▸ rfl)

theorem separator_values {text : Str} {connector : Connector}
    (found : pipelineSeparators text = some connector) :
    text = connector.text ∧ connector ≠ .first := by
  unfold pipelineSeparators at found
  split at found
  · cases found
    exact ⟨by assumption, by simp⟩
  · split at found
    · cases found
      exact ⟨by assumption, by simp⟩
    · split at found
      · cases found
        exact ⟨by assumption, by simp⟩
      · contradiction

theorem redirect_values {text target : Str} {mode : StderrMode}
    (found : fd2Redirects text = some (target, mode)) :
    text = (">" : Str) ∧ target = ("/dev/null" : Str) ∨
      text = (">&" : Str) ∧ target = ("1" : Str) := by
  unfold fd2Redirects at found
  split at found
  · cases found
    exact .inl ⟨by assumption, rfl⟩
  · split at found
    · cases found
      exact .inr ⟨by assumption, rfl⟩
    · contradiction

theorem redirect_target_plain {fd operator target : Token}
    (fds : target.kind = .fdOperator → target.value = stderrFd)
    (redirect : isStderrRedirect fd operator target = true) : target.kind ≠ .fdOperator := by
  intro isFd
  simp only [isStderrRedirect, decide_eq_true_eq] at redirect
  obtain ⟨⟨text, mode⟩, found, same⟩ := (Option.any_eq_true _ _).mp redirect.2.2
  simp only [decide_eq_true_eq, fds isFd] at same
  rcases redirect_values found with ⟨-, rfl⟩ | ⟨-, rfl⟩
  · exact absurd same (by decide)
  · exact absurd same (by decide)

theorem connector_plain {token : Token} (connects : isConnector token = true) :
    token.kind ≠ .fdOperator ∧ isRedirectOperator token = false := by
  simp only [isConnector, Bool.or_eq_true] at connects
  rcases connects with pipe | separates
  · simp only [isPipe, decide_eq_true_eq] at pipe
    simp [isRedirectOperator, pipe, fd2Redirects]
  · obtain ⟨connector, found⟩ := Option.isSome_iff_exists.mp separates
    unfold separatorOf at found
    split at found
    · rename_i kind
      obtain ⟨value, later⟩ := separator_values found
      refine ⟨by simp [kind], ?_⟩
      cases connector with
      | first => contradiction
      | both | either | semicolon => simp [isRedirectOperator, value, Connector.text, fd2Redirects]
    · contradiction

theorem separator_connects {token : Token} {connector : Connector}
    (separates : separatorOf token = some connector) :
    isConnector token = true ∧ isPipe token = false := by
  refine ⟨by simp [isConnector, separates], ?_⟩
  unfold separatorOf at separates
  split at separates
  · obtain ⟨value, _⟩ := separator_values separates
    cases connector with
    | first | both | either | semicolon => simp [isPipe, value, Connector.text]
  · contradiction

theorem redirect_plain {fd operator target : Token}
    (redirect : isStderrRedirect fd operator target = true) :
    isRedirectOperator fd = false ∧ isConnector fd = false ∧ isConnector operator = false ∧
      isConnector target = false := by
  simp only [isStderrRedirect, decide_eq_true_eq] at redirect
  obtain ⟨⟨text, mode⟩, found, same⟩ := (Option.any_eq_true _ _).mp redirect.2.2
  simp only [decide_eq_true_eq] at same
  subst same
  refine ⟨by simp [isRedirectOperator, redirect.1],
    by simp [isConnector, isPipe, separatorOf, redirect.1], ?_⟩
  rcases redirect_values found with ⟨value, goal⟩ | ⟨value, goal⟩
  · simp [isConnector, isPipe, separatorOf, pipelineSeparators, value, goal]
  · simp [isConnector, isPipe, separatorOf, pipelineSeparators, value, goal]

end Roles

section Feeding

/-- A line that the builder reads to its end, one case for each role of a token. -/
inductive Fed : PipelineBuilder → List Token → PipelineBuilder → Prop where
  | done {builder ended : PipelineBuilder} :
      builder.endPipeline .semicolon = .ok ended → Fed builder [] ended
  | word {builder ended : PipelineBuilder} {token : Token} {rest : List Token} :
      isConnector token = false → isRedirectOperator token = false →
      Fed (builder.addWord token.value) rest ended → Fed builder (token :: rest) ended
  | pipe {builder ended : PipelineBuilder} {token : Token} {rest : List Token} :
      isPipe token = true → builder.curArgv ≠ [] →
      Fed builder.endStage rest ended → Fed builder (token :: rest) ended
  | separator {builder closed ended : PipelineBuilder} {token : Token} {rest : List Token}
      {connector : Connector} :
      separatorOf token = some connector →
      (connector.dangles = true → builder.curArgv ≠ []) →
      builder.endPipeline connector = .ok closed →
      Fed closed rest ended → Fed builder (token :: rest) ended
  | redirect {builder ended : PipelineBuilder} {fd operator target : Token} {rest : List Token}
      (mode : StderrMode) :
      isStderrRedirect fd operator target = true →
      Fed { builder with curStderr := mode } rest ended →
      Fed builder (fd :: operator :: target :: rest) ended

theorem except_map_ok {α β ε : Type*} {result : Except ε α} {change : α → β} {after : β}
    (mapped : result.map change = .ok after) : ∃ before, result = .ok before ∧ change before = after := by
  cases result with
  | error refused => contradiction
  | ok before => exact ⟨before, rfl, Except.ok.inj mapped⟩

variable {builder fed ended : PipelineBuilder}

theorem end_pipeline_cases {connector : Connector}
    (closed : builder.endPipeline connector = .ok ended) :
    (builder.curArgv = [] ∧ builder.curStages = [] ∧
        ended = { builder with curStderr := .capture }) ∨
      builder.curArgv ≠ [] ∧
        ended = ⟨builder.pipelines ++ [⟨builder.pendingConnector,
          builder.curStages ++ [⟨builder.curArgv, builder.curStderr⟩]⟩], connector, [], [],
          .capture⟩ := by
  unfold PipelineBuilder.endPipeline at closed
  split at closed
  · contradiction
  · rename_i whole
    replace closed := Except.ok.inj closed
    by_cases empty : builder.curArgv = []
    · have noStages : builder.curStages = [] := by
        by_contra some
        exact whole ⟨some, empty⟩
      left
      refine ⟨empty, noStages, ?_⟩
      rw [← closed]
      simp [PipelineBuilder.endStage, empty, noStages]
    · right
      refine ⟨empty, ?_⟩
      rw [← closed]
      simp [PipelineBuilder.endStage, empty]

variable [UnicodeDatabase] {previous following : Option Token} {token : Token}
  {tokens : List Token} {consumed : Consumed}

/-- What one token can do. -/
theorem feed_token_cases (fds : token.kind = .fdOperator → token.value = stderrFd)
    (step : builder.feedToken previous token following = .ok (fed, consumed)) :
    (isConnector token = false ∧ isRedirectOperator token = false ∧
        fed = builder.addWord token.value ∧ consumed = .token) ∨
      (isPipe token = true ∧ builder.curArgv ≠ [] ∧ fed = builder.endStage ∧
        consumed = .token) ∨
      (∃ connector, separatorOf token = some connector ∧
        (connector.dangles = true → builder.curArgv ≠ []) ∧
        builder.endPipeline connector = .ok fed ∧ consumed = .token) ∨
      ∃ fd target mode argv, previous = some fd ∧ following = some target ∧
        isStderrRedirect fd token target = true ∧ builder.curArgv = argv ++ [stderrFd] ∧
        fed = { builder with curArgv := argv, curStderr := mode } ∧
        consumed = .tokenAndTarget := by
  -- a descriptor reads `2`, so whatever has another text is an operator
  have operator : token.kind ≠ .word → token.value ≠ stderrFd → token.kind = .operator := by
    intro notWord notFd
    cases kind : token.kind with
    | word => exact absurd kind notWord
    | operator => rfl
    | fdOperator => exact absurd (fds kind) notFd
  unfold PipelineBuilder.feedToken at step
  split at step
  · rename_i isWord
    obtain ⟨rfl, rfl⟩ := Prod.mk.injEq .. ▸ Except.ok.inj step
    left
    simp [isConnector, isPipe, separatorOf, isRedirectOperator, isWord]
  rename_i notWord
  split at step
  · contradiction
  rename_i leftSide
  split at step
  · rename_i pipe
    obtain ⟨rfl, rfl⟩ := Prod.mk.injEq .. ▸ Except.ok.inj step
    have kind := operator notWord (by rw [pipe]; decide)
    refine .inr (.inl ⟨by simp [isPipe, kind, pipe], ?_, rfl, rfl⟩)
    intro empty
    exact leftSide ⟨by rw [pipe]; decide, empty⟩
  rename_i notPipe
  split at step
  · rename_i connector found
    obtain ⟨value, later⟩ := separator_values found
    have kind := operator notWord (by rw [value]; cases connector <;> decide)
    obtain ⟨after, closed, same⟩ := except_map_ok step
    obtain ⟨rfl, rfl⟩ := Prod.mk.injEq .. ▸ same
    refine .inr (.inr (.inl ⟨connector, by rw [separatorOf, if_pos kind, found], ?_, closed, rfl⟩))
    intro dangles empty
    refine leftSide ⟨?_, empty⟩
    rw [value]
    cases connector with
    | first | semicolon => contradiction
    | both | either => decide
  rename_i noSeparator
  split at step
  · rename_i target mode found
    split at step
    · rename_i glued
      obtain ⟨fd, rfl, isFd⟩ := (Option.any_eq_true _ _).mp glued.1
      obtain ⟨operand, rfl, same⟩ := (Option.any_eq_true _ _).mp glued.2.2
      obtain ⟨rfl, rfl⟩ := Prod.mk.injEq .. ▸ Except.ok.inj step
      have kind := operator notWord (by
        rcases redirect_values found with ⟨value, -⟩ | ⟨value, -⟩ <;> rw [value] <;> decide)
      have argv := List.dropLast_append_getLast? _ glued.2.1
      refine .inr (.inr (.inr ⟨fd, operand, mode, _, rfl, rfl, ?_, argv.symm, rfl, rfl⟩))
      simp only [decide_eq_true_eq] at isFd same
      simp [isStderrRedirect, isFd, kind, found, same]
    · contradiction
  rename_i noRedirect
  split at step
  · contradiction
  · obtain ⟨rfl, rfl⟩ := Prod.mk.injEq .. ▸ Except.ok.inj step
    have plain : isPipe token = false := by
      simp only [isPipe, notPipe, and_false, decide_false]
    left
    simp [isConnector, plain, separatorOf, isRedirectOperator, noSeparator, noRedirect]

/-- A descriptor with a redirect operator glued to it: the descriptor is fed as a word
and taken back. -/
theorem feed_redirect {rest : List Token} {operator : Token} (fds : FdsRead (token :: rest))
    (heads : operator ∈ rest.head?)
    (redirects : isRedirectOperator operator = true)
    (read : (builder.addWord token.value).feedTokens (some token) rest = .ok fed) :
    ∃ target more mode, rest = operator :: target :: more ∧
      isStderrRedirect token operator target = true ∧
      ({ builder with curStderr := mode } : PipelineBuilder).feedTokens (some target) more =
        .ok fed := by
  obtain ⟨tail, rfl⟩ : ∃ tail, rest = operator :: tail := by
    cases rest with
    | nil => simp at heads
    | cons first tail =>
        obtain rfl := Option.mem_some_iff.mp heads
        exact ⟨tail, rfl⟩
  simp only [isRedirectOperator, decide_eq_true_eq] at redirects
  obtain ⟨⟨text, wanted⟩, found⟩ := Option.isSome_iff_exists.mp redirects.2
  have value := redirect_values found
  have noConnector : isConnector operator = false ∧ separatorOf operator = none := by
    rcases value with ⟨value, -⟩ | ⟨value, -⟩
    · simp [isConnector, isPipe, separatorOf, redirects.1, value, pipelineSeparators]
    · simp [isConnector, isPipe, separatorOf, redirects.1, value, pipelineSeparators]
  rw [PipelineBuilder.feedTokens] at read
  cases step : (builder.addWord token.value).feedToken (some token) operator tail.head? with
  | error refused =>
      rw [step] at read
      contradiction
  | ok result =>
      rcases result with ⟨next, consumed⟩
      rw [step] at read
      rcases feed_token_cases (fds operator (by simp)) step with
        ⟨_, notRedirect, _⟩ | ⟨pipe, _⟩ | ⟨connector, separates, _⟩ |
        ⟨fd, target, mode, argv, same, followed, redirect, last, rfl, rfl⟩
      · simp [isRedirectOperator, redirects] at notRedirect
      · simp [isConnector, pipe] at noConnector
      · rw [noConnector.2] at separates
        contradiction
      · cases same
        cases tail with
        | nil => contradiction
        | cons first more =>
            cases followed
            refine ⟨target, more, mode, rfl, redirect, ?_⟩
            have kept : argv = builder.curArgv := by
              have same : builder.curArgv ++ [token.value] = argv ++ [stderrFd] := last
              exact (List.append_inj' same rfl).1.symm
            subst kept
            exact read

/-- The tokens of a line are a derivation: a descriptor and the redirect after it are
one step of it. -/
theorem feed_tokens_fed (fds : FdsRead tokens)
    (apart : ∀ fd ∈ previous, fd.kind = .fdOperator →
      ∀ next ∈ tokens.head?, isRedirectOperator next = false)
    (read : builder.feedTokens previous tokens = .ok fed)
    (closed : fed.endPipeline .semicolon = .ok ended) : Fed builder tokens ended := by
  induction size : tokens.length using Nat.strong_induction_on
    generalizing builder previous tokens with
  | _ size ih =>
    rcases tokens with - | ⟨token, rest⟩
    · cases read
      exact .done closed
    have later : FdsRead rest := fun other inside => fds other (List.mem_cons_of_mem _ inside)
    rw [PipelineBuilder.feedTokens] at read
    cases step : builder.feedToken previous token rest.head? with
    | error refused =>
        rw [step] at read
        contradiction
    | ok result =>
        rcases result with ⟨next, consumed⟩
        rw [step] at read
        have continues : ∀ {after : PipelineBuilder}, after.feedTokens (some token) rest = .ok fed →
            (token.kind = .fdOperator → ∀ other ∈ rest.head?, isRedirectOperator other = false) →
            Fed after rest ended := by
          intro after reads plain
          refine ih rest.length (by simp [← size]) later ?_ reads rfl
          intro fd same isFd
          obtain rfl := Option.mem_some_iff.mp same
          exact plain isFd
        rcases feed_token_cases (fds token List.mem_cons_self) step with
          ⟨notConnector, notRedirect, rfl, rfl⟩ | ⟨pipe, leftSide, rfl, rfl⟩ |
          ⟨connector, separates, leftSide, ends, rfl⟩ |
          ⟨fd, target, mode, argv, rfl, _, redirect, _, _, rfl⟩
        · dsimp only at read
          by_cases glued : token.kind = .fdOperator ∧
              ∃ operator ∈ rest.head?, isRedirectOperator operator = true
          · obtain ⟨isFd, operator, heads, redirects⟩ := glued
            obtain ⟨target, more, mode, rfl, redirect, reads⟩ :=
              feed_redirect fds heads redirects read
            refine .redirect mode redirect (ih more.length (by simp [← size]; omega) ?_ ?_ reads rfl)
            · exact fun other inside => later other (by simp [inside])
            · intro fd same isFd
              obtain rfl := Option.mem_some_iff.mp same
              exact absurd isFd (redirect_target_plain (later _ (by simp)) redirect)
          · refine .word notConnector notRedirect (continues read ?_)
            intro isFd other heads
            by_contra redirects
            exact glued ⟨isFd, other, heads, by simpa using redirects⟩
        · refine .pipe pipe leftSide (continues read ?_)
          intro isFd
          simp [isPipe, isFd] at pipe
        · refine .separator separates leftSide ends (continues read ?_)
          intro isFd
          simp [separatorOf, isFd] at separates
        · -- no descriptor was left for this operator
          simp only [isStderrRedirect, decide_eq_true_eq] at redirect
          have plain := apart fd rfl redirect.1 token rfl
          obtain ⟨found, held, -⟩ := (Option.any_eq_true _ _).mp redirect.2.2
          simp [isRedirectOperator, redirect.2.1, held] at plain

theorem feed_line_fed (fds : FdsRead tokens) (read : builder.feedLine tokens = .ok ended) :
    Fed builder tokens ended ∧ ended.pendingConnector.dangles = false := by
  unfold PipelineBuilder.feedLine at read
  cases fedTokens : builder.feedTokens none tokens with
  | error refused =>
      rw [fedTokens] at read
      contradiction
  | ok fed =>
      rw [fedTokens] at read
      dsimp only at read
      split at read
      · contradiction
      cases closed : fed.endPipeline .semicolon with
      | error refused =>
          rw [closed] at read
          contradiction
      | ok after =>
          rw [closed] at read
          dsimp only at read
          split at read
          · contradiction
          · rename_i settled
            cases read
            exact ⟨feed_tokens_fed fds (by simp) fedTokens closed, by simpa using settled⟩

/-- The lines of a command, each read to its end with no connector left open. -/
inductive FedLines : PipelineBuilder → List (List Token) → PipelineBuilder → Prop where
  | nil {builder : PipelineBuilder} : FedLines builder [] builder
  | cons {builder closed ended : PipelineBuilder} {line : List Token}
      {rest : List (List Token)} :
      Fed builder line closed → closed.pendingConnector.dangles = false →
      FedLines closed rest ended → FedLines builder (line :: rest) ended

def tokenLines (cmd : Str) : Option (List (List Token)) := (splitOn '\n' cmd).mapM scan

theorem parse_lines_fed {texts : List Str} (read : parseLines builder texts = .ok ended) :
    ∃ lines, texts.mapM scan = some lines ∧ FedLines builder lines ended := by
  induction texts generalizing builder with
  | nil =>
      cases read
      exact ⟨[], rfl, .nil⟩
  | cons text rest ih =>
      unfold parseLines at read
      cases scanned : scan text with
      | none =>
          rw [scanned] at read
          contradiction
      | some tokens =>
          rw [scanned] at read
          dsimp only at read
          cases step : builder.feedLine tokens with
          | error refused =>
              rw [step] at read
              contradiction
          | ok closed =>
              rw [step] at read
              obtain ⟨lines, scans, fedRest⟩ := ih read
              obtain ⟨fedLine, settled⟩ := feed_line_fed (scan_fds scanned) step
              refine ⟨tokens :: lines, ?_, .cons fedLine settled fedRest⟩
              simp [List.mapM_cons, scanned, scans]

theorem parse_fed {cmd : Str} {pipelines : List Pipeline} (accepted : parse cmd = .ok pipelines) :
    ∃ lines ended, tokenLines cmd = some lines ∧ FedLines .initial lines ended ∧
      ended.pipelines = pipelines := by
  obtain ⟨ended, read, same⟩ := except_map_ok accepted
  obtain ⟨lines, scanned, fedLines⟩ := parse_lines_fed read
  exact ⟨lines, ended, scanned, fedLines, same⟩

end Feeding

section Words

def Pipeline.words (pipeline : Pipeline) : List Str := pipeline.stages.flatMap Stage.argv

namespace PipelineBuilder

/-- The words of the segment that is being read. -/
def segment (builder : PipelineBuilder) : List Str :=
  builder.curStages.flatMap Stage.argv ++ builder.curArgv

def words (builder : PipelineBuilder) : List Str :=
  builder.pipelines.flatMap Pipeline.words ++ builder.segment

/-- The `|` operators read so far. -/
def pipes (builder : PipelineBuilder) : Nat :=
  (builder.pipelines.map fun pipeline => pipeline.stages.length - 1).sum + builder.curStages.length

/-- No segment is being read. -/
def Fresh (builder : PipelineBuilder) : Prop := builder.curStages = [] ∧ builder.curArgv = []

def Filled (builder : PipelineBuilder) : Prop :=
  (∀ pipeline ∈ builder.pipelines, pipeline.stages ≠ [] ∧
    ∀ stage ∈ pipeline.stages, stage.argv ≠ []) ∧
    ∀ stage ∈ builder.curStages, stage.argv ≠ []

end PipelineBuilder

variable {builder ended : PipelineBuilder} {tokens : List Token}

theorem end_pipeline_words {connector : Connector}
    (closed : builder.endPipeline connector = .ok ended) :
    ended.words = builder.words ∧ ended.pipes = builder.pipes ∧
      (builder.Filled → ended.Filled) ∧ ended.Fresh := by
  rcases end_pipeline_cases closed with ⟨noWords, noStages, rfl⟩ | ⟨some, rfl⟩
  · exact ⟨rfl, rfl, id, noStages, noWords⟩
  · refine ⟨?_, ?_, ?_, rfl, rfl⟩
    · simp [PipelineBuilder.words, PipelineBuilder.segment, Pipeline.words]
    · simp [PipelineBuilder.pipes]
    · rintro ⟨earlier, current⟩
      refine ⟨?_, by simp⟩
      intro pipeline inside
      rcases List.mem_append.mp inside with before | last
      · exact earlier pipeline before
      · obtain rfl := List.mem_singleton.mp last
        refine ⟨by simp, ?_⟩
        intro stage inStages
        rcases List.mem_append.mp inStages with before | last
        · exact current stage before
        · obtain rfl := List.mem_singleton.mp last
          exact some

theorem end_stage_words (some : builder.curArgv ≠ []) :
    builder.endStage.words = builder.words ∧ builder.endStage.pipes = builder.pipes + 1 ∧
      (builder.Filled → builder.endStage.Filled) := by
  refine ⟨?_, ?_, ?_⟩
  · simp [PipelineBuilder.words, PipelineBuilder.segment, PipelineBuilder.endStage, some]
  · simp [PipelineBuilder.pipes, PipelineBuilder.endStage, some, Nat.add_assoc]
  · rintro ⟨earlier, current⟩
    refine ⟨earlier, ?_⟩
    intro stage inside
    simp only [PipelineBuilder.endStage, some, if_false] at inside
    rcases List.mem_append.mp inside with before | last
    · exact current stage before
    · obtain rfl := List.mem_singleton.mp last
      exact some

theorem fed_head_plain (read : Fed builder tokens ended) :
    ∀ next ∈ tokens.head?, isRedirectOperator next = false := by
  intro next heads
  cases read with
  | done _ => simp at heads
  | word _ plain _ =>
      obtain rfl := Option.mem_some_iff.mp heads
      exact plain
  | pipe pipe _ _ =>
      obtain rfl := Option.mem_some_iff.mp heads
      exact (connector_plain (by simp [isConnector, pipe])).2
  | separator separates _ _ _ =>
      obtain rfl := Option.mem_some_iff.mp heads
      exact (connector_plain (separator_connects separates).1).2
  | redirect mode redirect _ =>
      obtain rfl := Option.mem_some_iff.mp heads
      exact (redirect_plain redirect).1

/-- A line keeps its words in order, and one stage more than its `|` operators. -/
theorem fed_words (read : Fed builder tokens ended) :
    ended.words = builder.words ++ keptValues tokens ∧
      ended.pipes = builder.pipes + tokens.countP isPipe ∧
      (builder.Filled → ended.Filled) ∧ ended.Fresh := by
  induction read with
  | done closed =>
      obtain ⟨words, pipes, filled, fresh⟩ := end_pipeline_words closed
      refine ⟨?_, ?_, filled, fresh⟩
      · rw [words]
        simp [keptValues]
      · simpa using pipes
  | @word builder ended token rest notConnector plain read ih =>
      obtain ⟨words, pipes, filled, fresh⟩ := ih
      have notPipe : isPipe token = false := by
        simp only [isConnector, Bool.or_eq_false_iff] at notConnector
        exact notConnector.1
      refine ⟨?_, ?_, filled, fresh⟩
      · rw [words, kept_values_cons fun _ => fed_head_plain read, ownValue, notConnector]
        simp [PipelineBuilder.words, PipelineBuilder.segment, PipelineBuilder.addWord]
      · rw [pipes, List.countP_cons_of_neg (by simp [notPipe])]
        rfl
  | @pipe builder ended token rest pipe leftSide read ih =>
      obtain ⟨words, pipes, filled, fresh⟩ := ih
      obtain ⟨sameWords, onePipe, stillFilled⟩ := end_stage_words leftSide
      have connects : isConnector token = true := by simp [isConnector, pipe]
      refine ⟨?_, ?_, filled ∘ stillFilled, fresh⟩
      · rw [words, sameWords, kept_values_cons fun isFd => absurd isFd (connector_plain connects).1,
          ownValue, connects]
        rfl
      · rw [pipes, onePipe, List.countP_cons_of_pos pipe]
        omega
  | @separator builder closed ended token rest connector separates leftSide closes read ih =>
      obtain ⟨words, pipes, filled, fresh⟩ := ih
      obtain ⟨sameWords, samePipes, stillFilled, _⟩ := end_pipeline_words closes
      obtain ⟨connects, notPipe⟩ := separator_connects separates
      refine ⟨?_, ?_, filled ∘ stillFilled, fresh⟩
      · rw [words, sameWords, kept_values_cons fun isFd => absurd isFd (connector_plain connects).1,
          ownValue, connects]
        rfl
      · rw [pipes, samePipes, List.countP_cons_of_neg (by simp [notPipe])]
  | @redirect builder ended fd operator target rest mode redirect read ih =>
      obtain ⟨words, pipes, filled, fresh⟩ := ih
      obtain ⟨_, fdPlain, operatorPlain, targetPlain⟩ := redirect_plain redirect
      simp only [isConnector, Bool.or_eq_false_iff] at fdPlain operatorPlain targetPlain
      refine ⟨?_, ?_, filled, fresh⟩
      · rw [words, keptValues, if_pos redirect]
        rfl
      · rw [pipes, List.countP_cons_of_neg (by simp [fdPlain]),
          List.countP_cons_of_neg (by simp [operatorPlain]),
          List.countP_cons_of_neg (by simp [targetPlain])]
        rfl

theorem fed_lines_words {lines : List (List Token)} (read : FedLines builder lines ended)
    (fresh : builder.Fresh) :
    ended.words = builder.words ++ lines.flatMap keptValues ∧
      ended.pipes = builder.pipes + lines.flatten.countP isPipe ∧
      (builder.Filled → ended.Filled) ∧ ended.Fresh := by
  induction read with
  | nil => exact ⟨by simp, by simp, id, fresh⟩
  | @cons builder closed ended line rest fedLine settled read ih =>
      obtain ⟨lineWords, linePipes, lineFilled, lineFresh⟩ := fed_words fedLine
      obtain ⟨words, pipes, filled, fresh⟩ := ih lineFresh
      refine ⟨?_, ?_, filled ∘ lineFilled, fresh⟩
      · rw [words, lineWords, List.flatMap_cons, List.append_assoc]
      · rw [pipes, linePipes, List.flatten_cons, List.countP_append, Nat.add_assoc]

variable [UnicodeDatabase]

/-- The gate decides on the argv of every stage, and these are the words of the command:
every token but the connectors and the stderr redirects, with one stage more than `|`
operators in each pipeline. -/
theorem parse_keeps_words (cmd : Str) (pipelines : List Pipeline)
    (accepted : parse cmd = .ok pipelines) :
    ∃ lines, tokenLines cmd = some lines ∧
      (pipelines.flatMap fun pipeline => pipeline.stages.flatMap Stage.argv) =
        lines.flatMap keptValues ∧
      lines.flatten.countP isPipe =
        (pipelines.map fun pipeline => pipeline.stages.length - 1).sum ∧
      (∀ pipeline ∈ pipelines, pipeline.stages ≠ [] ∧
        ∀ stage ∈ pipeline.stages, stage.argv ≠ []) ∧
      flatStages pipelines = pipelines.flatMap fun pipeline => pipeline.stages.map Stage.argv := by
  obtain ⟨lines, ended, scanned, read, rfl⟩ := parse_fed accepted
  have unread : PipelineBuilder.initial.Fresh := ⟨rfl, rfl⟩
  obtain ⟨words, pipes, filled, noStages, noWords⟩ := fed_lines_words read unread
  have allFilled : ended.Filled := filled ⟨by simp [PipelineBuilder.initial], by
    simp [PipelineBuilder.initial]⟩
  refine ⟨lines, scanned, ?_, ?_, allFilled.1, ?_⟩
  · change ended.pipelines.flatMap Pipeline.words = _
    simpa [PipelineBuilder.words, PipelineBuilder.segment, noStages, noWords,
      PipelineBuilder.initial] using words
  · simpa [PipelineBuilder.pipes, noStages, PipelineBuilder.initial] using pipes.symm
  · apply List.flatMap_congr
    intro pipeline inside
    apply List.filter_eq_self.mpr
    intro argv inStages
    obtain ⟨stage, declared, rfl⟩ := List.mem_map.mp inStages
    simpa using (allFilled.1 pipeline inside).2 stage declared

end Words

/-- A redirect, a pipe, a conditional pipeline and a second line. -/
def mixedCommand : Str := "cat a 2>/dev/null | grep 'x y' && wc\n\necho 2 # ; rm"

def mixedPipelines : List Pipeline :=
  [⟨.first, [⟨["cat", "a"], .devnull⟩, ⟨["grep", "x y"], .capture⟩]⟩,
    ⟨.both, [⟨["wc"], .capture⟩]⟩, ⟨.semicolon, [⟨["echo", "2"], .capture⟩]⟩]

theorem mixed_command_keeps_words :
    @parse asciiDatabase mixedCommand = .ok mixedPipelines ∧
      ∃ lines, tokenLines mixedCommand = some lines ∧
        (mixedPipelines.flatMap fun pipeline => pipeline.stages.flatMap Stage.argv) =
          lines.flatMap keptValues ∧
        lines.flatten.countP isPipe =
          (mixedPipelines.map fun pipeline => pipeline.stages.length - 1).sum ∧
        (∀ pipeline ∈ mixedPipelines, pipeline.stages ≠ [] ∧
          ∀ stage ∈ pipeline.stages, stage.argv ≠ []) ∧
        flatStages mixedPipelines =
          mixedPipelines.flatMap fun pipeline => pipeline.stages.map Stage.argv :=
  have accepted : @parse asciiDatabase mixedCommand = .ok mixedPipelines := by decide +kernel
  ⟨accepted, @parse_keeps_words asciiDatabase _ _ accepted⟩

end Defender.Execution
