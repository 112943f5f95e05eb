import StagedPipeline.Simulation.Script

/-!
# Calls of a scripted executor

A call is noted, comes to the gate of its stage, takes an outcome as soon as it is past the gate,
and follows the outcome through its delays. `ScriptedExecutor.call` takes a call to its answer or to
its first wait, and `ScriptedExecutor.poll` goes on from there. Between two polls a call is a
`Call`: it waits at a gate or it sleeps. `ScriptedExecutor.abandon` ends a call that is not polled
any more.
-/

namespace StagedPipeline.Simulation

/-- A call that waits. -/
inductive Call where
  /-- It waits at the gate of its stage, with a ticket. -/
  | gated (stage : Stage) (ticket : Nat)
  /-- It sleeps until a point in time, and follows an outcome then. -/
  | asleep (stage : Stage) (wake : Nat) (next : Outcome)
deriving Repr

namespace Call

/-- How far a call has come. -/
inductive Progress where
  | waiting (call : Call)
  | answered (answer : Except ExecutorError String)

/-- The stage a call is for. -/
def stage : Call → Stage
  | gated stage _ => stage
  | asleep stage _ _ => stage

end Call

/-- Follows an outcome from a point in time on, up to the first delay that takes time. -/
def Outcome.follow (stage : Stage) (now : Nat) : Outcome → Call.Progress
  | succeed text => .answered (.ok text)
  | canned => .answered (.ok stage.cannedResponse)
  | fail error => .answered (.error error)
  | delay time inner =>
    if time = 0 then inner.follow stage now else .waiting (.asleep stage (now + time) inner)

namespace ScriptedExecutor

/-- A call that is past its gate takes an outcome, and follows it. -/
def serve (e : ScriptedExecutor) (stage : Stage) (now : Nat) : ScriptedExecutor × Call.Progress :=
  let (e, outcome) := e.take stage
  (e, outcome.follow stage now)

/-- A call comes to the gate of its stage, if there is one, and announces itself there. -/
def enter (e : ScriptedExecutor) (stage : Stage) (ticket now : Nat) :
    ScriptedExecutor × Call.Progress :=
  match e.gates.get stage with
  | none => e.serve stage now
  | some gate =>
    let (release, rung) := gate.release.wait ticket
    let e := e.onGate stage fun _ => ⟨gate.entered.ring, release⟩
    if rung then e.serve stage now else (e, .waiting (.gated stage ticket))

/-- A call begins. One whose system prompt names no role is refused. -/
def call (e : ScriptedExecutor) (systemPrompt : String) (ticket now : Nat) :
    ScriptedExecutor × Call.Progress :=
  match stageOf? systemPrompt with
  | none => (e, .answered (.error unrecognised))
  | some stage => (e.note stage).enter stage ticket now

/-- Whether a call can go on. -/
def isReady (e : ScriptedExecutor) (now : Nat) : Call → Bool
  | .gated stage ticket => (e.gates.get stage).all (·.release.hasCalled ticket)
  | .asleep _ wake _ => wake ≤ now

/-- A call goes on. -/
def proceed (e : ScriptedExecutor) (now : Nat) : Call → ScriptedExecutor × Call.Progress
  | .gated stage ticket =>
    (e.onGate stage fun gate => { gate with release := gate.release.go ticket }).serve stage now
  | .asleep stage _ next => (e, next.follow stage now)

/-- A call goes on if it can. -/
def poll (e : ScriptedExecutor) (now : Nat) (c : Call) : ScriptedExecutor × Call.Progress :=
  if e.isReady now c then e.proceed now c else (e, .waiting c)

/-- A call is given up. -/
def abandon (e : ScriptedExecutor) : Call → ScriptedExecutor
  | .gated stage ticket =>
    e.onGate stage fun gate => { gate with release := gate.release.leave ticket }
  | .asleep _ _ _ => e

end ScriptedExecutor

end StagedPipeline.Simulation
