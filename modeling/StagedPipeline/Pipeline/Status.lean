import StagedPipeline.Json.Codec

/-!
# Status of a pipeline

A pipeline waits to be started, runs, pauses, and ends as completed or failed.
-/

namespace StagedPipeline

/-- Where a pipeline stands. -/
inductive Status where
  | pending
  | running
  | paused
  | completed
  | failed
deriving DecidableEq, Repr, Inhabited

namespace Status

/-- Every status. -/
def all : List Status := [.pending, .running, .paused, .completed, .failed]

/-- The name a status is written with. -/
def name : Status → String
  | pending => "pending"
  | running => "running"
  | paused => "paused"
  | completed => "completed"
  | failed => "failed"

/-- The status with a name. -/
def ofName? (name : String) : Option Status :=
  all.find? (·.name == name)

@[simp] theorem ofName?_name (s : Status) : ofName? s.name = some s := by
  cases s <;> decide

/-- Whether a pipeline has come to its end. -/
def isTerminal : Status → Bool
  | completed => true
  | failed => true
  | _ => false

/-- A status, by its name. -/
def codec : Json.Codec Status :=
  .choice ofName? name

end Status

end StagedPipeline
