import Mathlib.Data.List.Induction
import StagedPipeline.Simulation.Script

/-!
# Setting up a scripted executor

An executor is set up by any steps in any order: outcomes and failures for a stage, a fallback,
gates. The script of a stage is what the steps hold for it, one step after the other
(`Setup.scripts_executor`); of several fallbacks the last one counts, and a stage has a gate if some
step gave it one.
-/

namespace StagedPipeline.Simulation

/-- A step in setting up an executor. -/
inductive Setup where
  | script (stage : Stage) (outcomes : List Outcome)
  | failing (stage : Stage) (count : Nat) (message : String)
  | fallback (outcome : Outcome)
  | gated (stage : Stage)

namespace Setup

/-- An executor after a further step. -/
def apply (e : ScriptedExecutor) : Setup → ScriptedExecutor
  | script stage outcomes => e.withScript stage outcomes
  | failing stage count message => e.failing stage count message
  | fallback outcome => e.withFallback outcome
  | gated stage => e.gated stage

/-- The executor that is set up by some steps. -/
def executor (setups : List Setup) : ScriptedExecutor :=
  setups.foldl apply .empty

/-- What a step puts behind the outcomes of a stage. -/
def outcomes (stage : Stage) : Setup → List Outcome
  | script other outcomes => if other = stage then outcomes else []
  | failing other count message =>
    if other = stage then List.replicate count (.fail (.other message)) else []
  | _ => []

/-- The fallback that a step sets. -/
def fallback? : Setup → Option Outcome
  | fallback outcome => some outcome
  | _ => none

/-- What the calls of a stage that get past its gate are to take, counted from zero: first what was
scripted for the stage, then the last fallback, or else the canned response. -/
def outcomeAt (setups : List Setup) (stage : Stage) (k : Nat) : Outcome :=
  (setups.flatMap (outcomes stage))[k]?.getD ((setups.filterMap fallback?).getLast?.getD .canned)

variable (setups : List Setup) (setup : Setup) (stage : Stage)

theorem executor_concat : executor (setups ++ [setup]) = setup.apply (executor setups) := by
  rw [executor, List.foldl_append, List.foldl_cons, List.foldl_nil, executor]

theorem scripts_withScript (e : ScriptedExecutor) (other : Stage) (outcomes : List Outcome) :
    (e.withScript other outcomes).scripts.get stage =
      e.scripts.get stage ++ if other = stage then outcomes else [] := by
  rw [ScriptedExecutor.withScript, PerStage.modify]
  split
  · rename_i hstage
    subst hstage
    exact PerStage.get_set_self _ _ _
  · rename_i hstage
    rw [PerStage.get_set_of_ne _ _ (Ne.symm hstage), List.append_nil]

theorem scripts_apply (e : ScriptedExecutor) :
    (setup.apply e).scripts.get stage = e.scripts.get stage ++ setup.outcomes stage := by
  cases setup with
  | script other outcomes => exact scripts_withScript stage e other outcomes
  | failing other count message => exact scripts_withScript stage e other _
  | fallback outcome => exact (List.append_nil _).symm
  | gated other => exact (List.append_nil _).symm

theorem scripts_executor :
    (executor setups).scripts.get stage = setups.flatMap (outcomes stage) := by
  induction setups using List.reverseRecOn with
  | nil => exact PerStage.get_const _ _
  | append_singleton setups setup ih =>
    rw [executor_concat, scripts_apply, ih, List.flatMap_append, List.flatMap_singleton]

theorem fallback_executor :
    (executor setups).fallback = (setups.filterMap fallback?).getLast? := by
  induction setups using List.reverseRecOn with
  | nil => rfl
  | append_singleton setups setup ih =>
    rw [executor_concat, List.filterMap_append]
    cases setup with
    | fallback outcome => exact List.getLast?_concat.symm
    | script other outcomes => exact ih.trans (by simp [fallback?])
    | failing other count message => exact ih.trans (by simp [fallback?])
    | gated other => exact ih.trans (by simp [fallback?])

theorem calls_executor : (executor setups).calls = [] := by
  induction setups using List.reverseRecOn with
  | nil => rfl
  | append_singleton setups setup ih =>
    rw [executor_concat]
    cases setup <;> exact ih

/-- A stage has a gate if it was given one. -/
theorem isSome_gate_executor :
    ((executor setups).gates.get stage).isSome = true ↔ gated stage ∈ setups := by
  induction setups using List.reverseRecOn with
  | nil => simp [executor, ScriptedExecutor.empty]
  | append_singleton setups setup ih =>
    rw [executor_concat, List.mem_append, List.mem_singleton, ← ih]
    cases setup with
    | gated other =>
      rw [apply, ScriptedExecutor.gated]
      by_cases hstage : stage = other
      · subst hstage
        simp
      · simp [PerStage.get_set_of_ne _ _ hstage, hstage]
    | script other outcomes => exact ⟨.inl, fun h => h.resolve_right nofun⟩
    | failing other count message => exact ⟨.inl, fun h => h.resolve_right nofun⟩
    | fallback outcome => exact ⟨.inl, fun h => h.resolve_right nofun⟩

end Setup

end StagedPipeline.Simulation
