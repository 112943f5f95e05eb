import StagedPipeline.Completion.Request
import StagedPipeline.Error

/-!
# Scripted executors

An executor for rehearsals. It tells the stage of a request by the role its system prompt names, and
answers with what a script holds for that stage: the outcomes in order, then a fallback, or a canned
response if there is none. A stage may have a gate: its calls announce themselves and wait to be let
through before they take an outcome. A `Bell` carries such an announcement or permission; it holds
at most one that nobody has taken.
-/

namespace StagedPipeline

/-- A well-formed response for every stage. -/
def Stage.cannedResponse : Stage → String
  | .requirements =>
    "\x7b\"functional\": [\"users can log in with email and password\"], "
      ++ "\"nonFunctional\": [\"responds within 200ms\"], \"acceptanceCriteria\": "
      ++ "[\"valid credentials reach the dashboard\"]\x7d"
  | .design =>
    "\x7b\"architecture\": \"layered web app\", \"components\": [\"LoginForm\", "
      ++ "\"AuthService\"], \"dataModel\": \"User(email, password_hash)\", \"apis\": "
      ++ "[\"POST /login\"]\x7d"
  | .coding =>
    "\x7b\"files\": [\x7b\"path\": \"src/login.rs\", \"content\": \"pub fn login() \x7b\x7d\", "
      ++ "\"language\": \"rust\"\x7d], \"changes\": [\"add login form handler\"]\x7d"
  | .testing =>
    "\x7b\"testFiles\": [\x7b\"path\": \"tests/login.rs\", \"content\": \"#[test] fn ok() "
      ++ "\x7b\x7d\", \"language\": \"rust\"\x7d], \"passed\": 3, \"failed\": 0, "
      ++ "\"coverage\": 82.5\x7d"
  | .deployment =>
    "\x7b\"config\": \"replicas: 2\", \"documentation\": \"Run the server and open "
      ++ "/login\", \"checklist\": [\"set SESSION_SECRET\"]\x7d"

namespace Simulation

/-- What a scripted call ends in. -/
inductive Outcome where
  | succeed (text : String)
  /-- The canned response of the stage. -/
  | canned
  | fail (error : ExecutorError)
  /-- Another outcome, some milliseconds later. -/
  | delay (time : Nat) (inner : Outcome)
deriving Repr

namespace Outcome

/-- Time until the answer, in milliseconds. -/
def totalDelay : Outcome → Nat
  | delay time inner => time + inner.totalDelay
  | _ => 0

/-- The answer to a call for a stage. -/
def answer (stage : Stage) : Outcome → Except ExecutorError String
  | succeed text => .ok text
  | canned => .ok stage.cannedResponse
  | fail error => .error error
  | delay _ inner => inner.answer stage

end Outcome

/-- Whether a text holds another one. -/
def holds (piece : List Char) : List Char → Bool
  | [] => piece.isEmpty
  | c :: rest => piece.isPrefixOf (c :: rest) || holds piece rest

/-- The first stage whose role a system prompt names. -/
def stageOf? (systemPrompt : String) : Option Stage :=
  Stage.all.find? fun stage => holds stage.role.toList systemPrompt.toList

/-- Something that one side rings and another waits for. Those that wait hold numbered tickets. -/
structure Bell where
  /-- It rang while nobody waited. -/
  rung : Bool
  waiting : List Nat
  /-- Tickets it has rung for, but whose holders have not gone on yet. -/
  called : List Nat
deriving DecidableEq, Repr

namespace Bell

/-- A bell that has not rung. -/
def silent : Bell := ⟨false, [], []⟩

/-- Rings for the one that has waited longest, or for the next one to come. -/
def ring (b : Bell) : Bell :=
  match b.waiting with
  | ticket :: rest => { b with waiting := rest, called := ticket :: b.called }
  | [] => { b with rung := true }

/-- Starts to wait, and tells whether the bell has rung already. -/
def wait (b : Bell) (ticket : Nat) : Bell × Bool :=
  if b.rung then ({ b with rung := false }, true)
  else ({ b with waiting := b.waiting ++ [ticket] }, false)

/-- Whether the bell has rung for a ticket. -/
def hasCalled (b : Bell) (ticket : Nat) : Bool :=
  b.called.contains ticket

/-- Goes on after the bell has rung. -/
def go (b : Bell) (ticket : Nat) : Bell :=
  { b with called := b.called.filter (· ≠ ticket) }

/-- Stops waiting. What the bell has rung for is passed to the next one. -/
def leave (b : Bell) (ticket : Nat) : Bell :=
  if b.hasCalled ticket then (b.go ticket).ring
  else { b with waiting := b.waiting.filter (· ≠ ticket) }

end Bell

/-- The gate of a stage. -/
structure Gate where
  /-- Rung by a call that comes to the gate. -/
  entered : Bell
  /-- Rung to let one call through. -/
  release : Bell
deriving DecidableEq, Repr

/-- A gate nobody has come to. -/
def Gate.closed : Gate := ⟨.silent, .silent⟩

/-- An executor that follows a script. -/
structure ScriptedExecutor where
  scripts : PerStage (List Outcome)
  fallback : Option Outcome
  gates : PerStage (Option Gate)
  /-- The stages of all calls so far. -/
  calls : List Stage

namespace ScriptedExecutor

/-- An executor without a script. -/
def empty : ScriptedExecutor := ⟨.const [], none, .const none, []⟩

/-- Puts outcomes behind those a stage has. -/
def withScript (e : ScriptedExecutor) (stage : Stage) (outcomes : List Outcome) :
    ScriptedExecutor :=
  { e with scripts := e.scripts.modify stage (· ++ outcomes) }

/-- Puts failures with a message behind the outcomes a stage has. -/
def failing (e : ScriptedExecutor) (stage : Stage) (count : Nat) (message : String) :
    ScriptedExecutor :=
  e.withScript stage (List.replicate count (.fail (.other message)))

/-- Answers with an outcome behind the scripts. -/
def withFallback (e : ScriptedExecutor) (outcome : Outcome) : ScriptedExecutor :=
  { e with fallback := some outcome }

/-- Holds the calls of a stage at a gate. -/
def gated (e : ScriptedExecutor) (stage : Stage) : ScriptedExecutor :=
  { e with gates := e.gates.set stage (some .closed) }

/-- Notes a call. -/
def note (e : ScriptedExecutor) (stage : Stage) : ScriptedExecutor :=
  { e with calls := e.calls ++ [stage] }

/-- Takes the next outcome of a stage; behind the script it is the fallback. -/
def take (e : ScriptedExecutor) (stage : Stage) : ScriptedExecutor × Outcome :=
  match e.scripts.get stage with
  | outcome :: rest => ({ e with scripts := e.scripts.set stage rest }, outcome)
  | [] => (e, e.fallback.getD .canned)

/-- Changes the gate of a stage. -/
def onGate (e : ScriptedExecutor) (stage : Stage) (f : Gate → Gate) :
    ScriptedExecutor :=
  { e with gates := e.gates.modify stage (·.map f) }

/-- Number of calls for a stage. -/
def countCalls (e : ScriptedExecutor) (stage : Stage) : Nat :=
  e.calls.count stage

/-- What is answered to a request that names no role. -/
def unrecognised : ExecutorError := .invalidResponse "unrecognised stage prompt"

end ScriptedExecutor

end Simulation

end StagedPipeline
