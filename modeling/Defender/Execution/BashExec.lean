import Defender.Execution.BashScan

/-!
# The pipelines of a command

`parse` feeds the tokens of each physical line to a builder whose pending
connector outlives segments and lines. What a token can do is said once, by
`feed_token_cases`; a whole line is a derivation of `Fed`, in which a stderr
redirect is one step.
-/

namespace Defender.Execution

open Defender.Python

inductive StderrMode where
  | capture
  | devnull
  | stdout
deriving DecidableEq, Repr

structure Stage where
  argv : List Str
  stderr : StderrMode
deriving DecidableEq, Repr

/-- What joins a pipeline to the one before it. -/
inductive Connector where
  | first
  | both
  | either
  | semicolon
deriving DecidableEq, Repr

structure Pipeline where
  connector : Connector
  stages : List Stage
deriving DecidableEq, Repr

def Connector.dangles : Connector → Bool
  | .both | .either => true
  | .first | .semicolon => false

/-- `BashExecError` and its subclass for commands that do not tokenize. -/
inductive CommandError where
  | bashExec (text : Str)
  | untokenizable (text : Str)
deriving DecidableEq, Repr

def danglingConnectors : List Str := ["|", "&&", "||"]

def pipelineSeparators (text : Str) : Option Connector :=
  if text = ("||" : Str) then some .either
  else if text = ("&&" : Str) then some .both
  else if text = (";" : Str) then some .semicolon
  else none

def Connector.text : Connector → Str
  | .first => "first"
  | .both => "&&"
  | .either => "||"
  | .semicolon => ";"

/-- The redirects of descriptor 2: the target each requires and its mode. -/
def fd2Redirects (text : Str) : Option (Str × StderrMode) :=
  if text = (">" : Str) then some ("/dev/null", .devnull)
  else if text = (">&" : Str) then some ("1", .stdout)
  else none

structure PipelineBuilder where
  pipelines : List Pipeline
  pendingConnector : Connector
  curStages : List Stage
  curArgv : List Str
  curStderr : StderrMode
deriving DecidableEq, Repr

/-- How many tokens a call of `feedToken` reads. -/
inductive Consumed where
  | token
  | tokenAndTarget
deriving DecidableEq, Repr

namespace PipelineBuilder

def initial : PipelineBuilder := ⟨[], .first, [], [], .capture⟩

def endStage (builder : PipelineBuilder) : PipelineBuilder :=
  { builder with
    curStages := if builder.curArgv = [] then builder.curStages
      else builder.curStages ++ [⟨builder.curArgv, builder.curStderr⟩]
    curArgv := []
    curStderr := .capture }

def endPipeline (builder : PipelineBuilder) (nextConnector : Connector) :
    Except CommandError PipelineBuilder :=
  if builder.curStages ≠ [] ∧ builder.curArgv = [] then
    .error (.untokenizable "pipeline token '|' has nothing to its right")
  else
    let ended := builder.endStage
    .ok (if ended.curStages = [] then ended
      else { ended with
        pipelines := ended.pipelines ++ [⟨ended.pendingConnector, ended.curStages⟩]
        curStages := []
        pendingConnector := nextConnector })

def addWord (builder : PipelineBuilder) (value : Str) : PipelineBuilder :=
  { builder with curArgv := builder.curArgv ++ [value] }

def endsDangling (tokens : List Token) : Bool :=
  tokens.getLast?.any fun token => token.value ∈ danglingConnectors ∧ token.kind ≠ .word

variable [UnicodeDatabase]

/-- One token, between the one before it and the one after it. -/
def feedToken (builder : PipelineBuilder) (previous : Option Token) (token : Token)
    (following : Option Token) : Except CommandError (PipelineBuilder × Consumed) :=
  if token.kind = .word then .ok (builder.addWord token.value, .token)
  else if token.value ∈ danglingConnectors ∧ builder.curArgv = [] then
    .error (.untokenizable (message ["pipeline/connector token ", reprText token.value,
      " has no command to its left"]))
  else if token.value = ("|" : Str) then .ok (builder.endStage, .token)
  else
    match pipelineSeparators token.value with
    | some connector => (builder.endPipeline connector).map fun ended => (ended, .token)
    | none =>
        match fd2Redirects token.value with
        | some (target, mode) =>
            -- the descriptor was fed as a word and is taken back here
            if (previous.any fun fd => fd.kind = .fdOperator) ∧
                builder.curArgv.getLast? = some stderrFd ∧
                (following.any fun operand => operand.value = target) then
              .ok ({ builder with curArgv := builder.curArgv.dropLast, curStderr := mode },
                .tokenAndTarget)
            else .error (.bashExec (message
              ["unexpected redirect token in validated command: ", reprText token.value]))
        | none =>
            if token.value ≠ [] ∧ token.value.all (operatorChars.contains ·) then
              .error (.bashExec (message
                ["unexpected operator token in validated command: ", reprText token.value]))
            else .ok (builder.addWord token.value, .token)

/-- The tokens of a line, in turn. -/
def feedTokens : PipelineBuilder → Option Token → List Token →
    Except CommandError PipelineBuilder
  | builder, _, [] => .ok builder
  | builder, previous, token :: rest =>
      match builder.feedToken previous token rest.head? with
      | .error refused => .error refused
      | .ok (fed, .token) => feedTokens fed (some token) rest
      | .ok (fed, .tokenAndTarget) =>
          match rest with
          | [] => .ok fed
          | target :: more => feedTokens fed (some target) more

def feedLine (builder : PipelineBuilder) (tokens : List Token) :
    Except CommandError PipelineBuilder :=
  match builder.feedTokens none tokens with
  | .error refused => .error refused
  | .ok fed =>
      if endsDangling tokens then
        .error (.untokenizable (message ["pipeline/connector token ",
          reprText ((tokens.getLast?.map Token.value).getD []),
          " closes a line with nothing to its right"]))
      else
        match fed.endPipeline .semicolon with
        | .error refused => .error refused
        | .ok ended =>
            if ended.pendingConnector.dangles then
              .error (.untokenizable (message ["pipeline/connector token ",
                reprText ended.pendingConnector.text, " has no command to its right"]))
            else .ok ended

end PipelineBuilder

section Parse

variable [UnicodeDatabase]

def parseLines : PipelineBuilder → List Str → Except CommandError PipelineBuilder
  | builder, [] => .ok builder
  | builder, line :: rest =>
      match scan line with
      | none => .error (.untokenizable "untokenizable command reached the executor")
      | some tokens =>
          match builder.feedLine tokens with
          | .error refused => .error refused
          | .ok fed => parseLines fed rest

def parse (cmd : Str) : Except CommandError (List Pipeline) :=
  (parseLines .initial (splitOn '\n' cmd)).map PipelineBuilder.pipelines

end Parse

/-- The argv lists the permission gate decides on. -/
def flatStages (pipelines : List Pipeline) : List (List Str) :=
  pipelines.flatMap fun pipeline => (pipeline.stages.map Stage.argv).filter (· ≠ [])

def shortCircuit (pipeline : Pipeline) (code : Int) : Bool :=
  (pipeline.connector = .both ∧ code ≠ 0) ∨ (pipeline.connector = .either ∧ code = 0)

section Run

variable {World Stopped : Type*}

/-- The loop of `_run_all`; `run` starts one pipeline (a `cd` or processes), gives its
exit code, and may stop the whole command. -/
def runAll (run : World → Pipeline → Except Stopped (Int × World)) :
    Bool → Int → World → List Pipeline → Except Stopped (Bool × Int × World)
  | ranAny, code, world, [] => .ok (ranAny, code, world)
  | ranAny, code, world, pipeline :: rest =>
      if ranAny && shortCircuit pipeline code then runAll run ranAny code world rest
      else
        match run world pipeline with
        | .error stopped => .error stopped
        | .ok (code, world) => runAll run true code world rest

variable (run : World → Pipeline → Except Stopped (Int × World))

end Run

/-- An and-or list as the shell's grammar has it; it joins to the left. -/
inductive AndOr where
  | one (pipeline : Pipeline)
  | both (before : AndOr) (pipeline : Pipeline)
  | either (before : AndOr) (pipeline : Pipeline)

/-- The lists of a command: a pipeline behind no `&&` or `||` begins the next one. -/
def andOrsFrom : AndOr → List Pipeline → List AndOr
  | list, [] => [list]
  | list, pipeline :: rest =>
      match pipeline.connector with
      | .both => andOrsFrom (.both list pipeline) rest
      | .either => andOrsFrom (.either list pipeline) rest
      | .first | .semicolon => list :: andOrsFrom (.one pipeline) rest

def andOrs : List Pipeline → List AndOr
  | [] => []
  | pipeline :: rest => andOrsFrom (.one pipeline) rest

section Meant

variable {World Stopped : Type*} (run : World → Pipeline → Except Stopped (Int × World))

/-- A pipeline behind `&&` runs where the list before it worked, one behind `||` where it failed. -/
def AndOr.eval (world : World) : AndOr → Except Stopped (Int × World)
  | .one pipeline => run world pipeline
  | .both before pipeline =>
      (before.eval world).bind fun ended =>
        if ended.1 = 0 then run ended.2 pipeline else .ok ended
  | .either before pipeline =>
      (before.eval world).bind fun ended =>
        if ended.1 = 0 then .ok ended else run ended.2 pipeline

/-- Lists run one after another; the last one's code is the command's. -/
def evalLists : Int × World → List AndOr → Except Stopped (Int × World)
  | ended, [] => .ok ended
  | ended, list :: rest => (list.eval run ended.2).bind fun next => evalLists next rest

theorem eval_lists_from (list : AndOr) (rest : List Pipeline) (ended : Int × World) :
    evalLists run ended (andOrsFrom list rest) =
      (list.eval run ended.2).bind fun next =>
        (runAll run true next.1 next.2 rest).map fun result => result.2 := by
  induction rest generalizing list ended with
  | nil => rfl
  | cons pipeline rest ih =>
      rw [andOrsFrom]
      cases joined : pipeline.connector with
      | both =>
          rw [ih, AndOr.eval]
          cases list.eval run ended.2 with
          | error stopped => rfl
          | ok next =>
              by_cases worked : next.1 = 0
              · simp only [Except.bind, runAll, shortCircuit, joined, worked]
                cases run next.2 pipeline <;> rfl
              · simp [Except.bind, runAll, shortCircuit, joined, worked]
      | either =>
          rw [ih, AndOr.eval]
          cases list.eval run ended.2 with
          | error stopped => rfl
          | ok next =>
              by_cases worked : next.1 = 0
              · simp [Except.bind, runAll, shortCircuit, joined, worked]
              · simp only [Except.bind, runAll, shortCircuit, joined, worked]
                cases run next.2 pipeline <;> rfl
      | first | semicolon =>
          rw [evalLists]
          cases list.eval run ended.2 with
          | error stopped => rfl
          | ok next =>
              simp only [Except.bind, ih, AndOr.eval, runAll, shortCircuit, joined]
              cases run next.2 pipeline <;> rfl

theorem run_all_meant (pipelines : List Pipeline) (world : World) :
    (runAll run false 0 world pipelines).map (fun result => result.2) =
      evalLists run (0, world) (andOrs pipelines) := by
  cases pipelines with
  | nil => rfl
  | cons pipeline rest =>
      rw [andOrs, eval_lists_from, AndOr.eval, runAll]
      cases run world pipeline <;> rfl

end Meant

end Defender.Execution
