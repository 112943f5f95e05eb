import Mathlib.Data.List.Infix
import StagedPipeline.Simulation.Call

/-!
# What a call takes from a scripted executor

A prompt is for the first stage whose role it names (`stageOf?_eq_some_iff`). A call for a stage
either waits at the gate of the stage, which leaves the script alone, or it is served: it takes the
first outcome of the stage's own script, or what comes behind the scripts, and nothing else changes
(`ScriptedExecutor.Served`). An outcome that is followed from delay to delay comes to its answer
exactly when the sum of its delays is over (`Outcome.leads_follow`).
-/

namespace StagedPipeline.Simulation

/-! ### Roles in a prompt -/

/-- A prompt names the role of a stage. -/
def Names (prompt : String) (stage : Stage) : Prop :=
  stage.role.toList <:+: prompt.toList

theorem holds_iff {piece text : List Char} : holds piece text = true ↔ piece <:+: text := by
  induction text with
  | nil => rw [holds, List.isEmpty_iff, List.infix_nil]
  | cons c rest ih =>
    rw [holds, Bool.or_eq_true, List.isPrefixOf_iff_prefix, ih, List.infix_cons_iff]

/-- A prompt is for the first stage whose role it names. -/
theorem stageOf?_eq_some_iff {prompt : String} {stage : Stage} :
    stageOf? prompt = some stage ↔
      Names prompt stage ∧ ∀ other, other < stage → ¬ Names prompt other := by
  have hall : ∀ {k : Nat} {s : Stage}, Stage.all[k]? = some s ↔ s.index = k :=
    Stage.getElem?_all_eq_some_iff
  rw [stageOf?, List.find?_eq_some_iff_getElem, holds_iff]
  refine and_congr Iff.rfl ⟨?_, ?_⟩
  · rintro ⟨k, hk, hstage, hbefore⟩ other hother
    have hindex : stage.index = k := hall.mp (List.getElem?_eq_some_iff.mpr ⟨hk, hstage⟩)
    have hlt : other.index < k := hindex ▸ hother
    obtain ⟨_, hat⟩ := List.getElem?_eq_some_iff.mp (hall.mpr (rfl : other.index = _))
    have hnot := hbefore other.index hlt
    rw [hat, Bool.not_eq_true', ← Bool.not_eq_true, holds_iff] at hnot
    exact hnot
  · intro hbefore
    obtain ⟨hk, hstage⟩ := List.getElem?_eq_some_iff.mp (hall.mpr (rfl : stage.index = _))
    refine ⟨stage.index, hk, hstage, fun j hj => ?_⟩
    have hlength : j < Stage.all.length := Nat.lt_trans hj hk
    have hindex : Stage.all[j].index = j := hall.mp (List.getElem?_eq_some_iff.mpr ⟨hlength, rfl⟩)
    have hlt : Stage.all[j] < stage := by
      change Stage.all[j].index < stage.index
      rwa [hindex]
    rw [Bool.not_eq_true', ← Bool.not_eq_true, holds_iff]
    exact hbefore _ hlt

theorem stageOf?_eq_none_iff {prompt : String} :
    stageOf? prompt = none ↔ ∀ stage, ¬ Names prompt stage := by
  rw [stageOf?, List.find?_eq_none]
  exact ⟨fun h stage => by rw [Names, ← holds_iff]; exact h stage stage.mem_all,
    fun h stage _ => by rw [holds_iff]; exact h stage⟩

/-! ### From delay to delay -/

/-- A call that waits will come to the answer of an outcome when it is due. -/
def Call.Leads (stage : Stage) (outcome : Outcome) (due : Nat) : Call → Prop
  | gated _ _ => False
  | asleep stage' wake next =>
    stage' = stage ∧ next.answer stage = outcome.answer stage ∧ wake + next.totalDelay = due

/-- A call comes to the answer of an outcome, now or when it is due. -/
def Call.Progress.Leads (stage : Stage) (outcome : Outcome) (now due : Nat) :
    Call.Progress → Prop
  | waiting call => call.Leads stage outcome due
  | answered answer => answer = outcome.answer stage ∧ now = due

/-- Whoever follows an outcome has its answer when the sum of its delays is over. -/
theorem Outcome.leads_follow (stage : Stage) (now : Nat) (outcome : Outcome) :
    (outcome.follow stage now).Leads stage outcome now (now + outcome.totalDelay) := by
  induction outcome with
  | succeed text => exact ⟨rfl, rfl⟩
  | canned => exact ⟨rfl, rfl⟩
  | fail error => exact ⟨rfl, rfl⟩
  | delay time inner ih =>
    rw [follow]
    split
    · rename_i htime
      rw [totalDelay, htime, Nat.zero_add]
      exact ih
    · exact ⟨rfl, rfl, by rw [totalDelay, Nat.add_assoc]⟩

/-- It is the same to follow an outcome, and one that leads to the same answer at the same time. -/
theorem Call.Progress.Leads.of_next {stage : Stage} {outcome next : Outcome} {now due due' : Nat}
    {progress : Call.Progress} (h : progress.Leads stage next now due)
    (hanswer : next.answer stage = outcome.answer stage) (hdue : due = due') :
    progress.Leads stage outcome now due' := by
  subst hdue
  cases progress with
  | answered answer => exact ⟨h.1.trans hanswer, h.2⟩
  | waiting call =>
    cases call with
    | gated stage' ticket => exact h
    | asleep stage' wake next' => exact ⟨h.1, h.2.1.trans hanswer, h.2.2⟩

/-! ### Calls and the executor -/

namespace ScriptedExecutor

/-- The outcome that the next call of a stage takes. -/
def nextOutcome (e : ScriptedExecutor) (stage : Stage) : Outcome :=
  (e.scripts.get stage).head?.getD (e.fallback.getD .canned)

/-- Two executors that may differ in what goes on at their gates. -/
structure Alike (e e' : ScriptedExecutor) : Prop where
  calls : e'.calls = e.calls
  fallback : e'.fallback = e.fallback
  scripts : e'.scripts = e.scripts
  gates : ∀ stage, (e'.gates.get stage).isSome = (e.gates.get stage).isSome

/-- An executor before and after a call of a stage has been served. -/
structure Served (stage : Stage) (e e' : ScriptedExecutor) : Prop where
  calls : e'.calls = e.calls
  fallback : e'.fallback = e.fallback
  script : e'.scripts.get stage = (e.scripts.get stage).tail
  others : ∀ other, other ≠ stage → e'.scripts.get other = e.scripts.get other
  gates : ∀ stage, (e'.gates.get stage).isSome = (e.gates.get stage).isSome

variable {e e' e'' : ScriptedExecutor} {stage : Stage} {ticket now : Nat}

theorem Alike.refl (e : ScriptedExecutor) : e.Alike e := ⟨rfl, rfl, rfl, fun _ => rfl⟩

theorem Alike.nextOutcome_eq (h : e.Alike e') (stage : Stage) :
    e'.nextOutcome stage = e.nextOutcome stage := by
  rw [nextOutcome, h.scripts, h.fallback, nextOutcome]

theorem Served.of_alike (h : e.Alike e') (h' : Served stage e' e'') : Served stage e e'' :=
  ⟨h'.calls.trans h.calls, h'.fallback.trans h.fallback, h.scripts ▸ h'.script,
    h.scripts ▸ h'.others, fun stage => (h'.gates stage).trans (h.gates stage)⟩

/-- What goes on at a gate changes nothing else. -/
theorem alike_onGate (e : ScriptedExecutor) (stage : Stage) (f : Gate → Gate) :
    e.Alike (e.onGate stage f) := by
  refine ⟨rfl, rfl, rfl, fun other => ?_⟩
  rw [onGate, PerStage.modify]
  by_cases hother : other = stage
  · subst hother
    rw [PerStage.get_set_self, Option.isSome_map]
  · rw [PerStage.get_set_of_ne _ _ hother]

/-- A call that is served takes the next outcome of its stage and follows it. -/
theorem served_serve (e : ScriptedExecutor) (stage : Stage) (now : Nat) :
    Served stage e (e.serve stage now).1 ∧
      (e.serve stage now).2 = (e.nextOutcome stage).follow stage now := by
  unfold serve take nextOutcome
  cases hscript : e.scripts.get stage with
  | nil => exact ⟨⟨rfl, rfl, by rw [hscript]; rfl, fun _ _ => rfl, fun _ => rfl⟩, rfl⟩
  | cons outcome rest =>
    refine ⟨⟨rfl, rfl, ?_, fun other hother => ?_, fun _ => rfl⟩, rfl⟩
    · rw [PerStage.get_set_self, hscript, List.tail_cons]
    · exact PerStage.get_set_of_ne _ _ hother

/-- What becomes of a call for a stage that may go on: it is served, or it waits at the gate. -/
inductive Comes (stage : Stage) (now : Nat) (e e' : ScriptedExecutor) : Call.Progress → Prop
  | served (h : Served stage e e') : Comes stage now e e' ((e.nextOutcome stage).follow stage now)
  | held (ticket : Nat) (hgate : (e.gates.get stage).isSome = true) (h : e.Alike e') :
      Comes stage now e e' (.waiting (.gated stage ticket))

/-- Calls are noted before they come to the gate. -/
theorem Comes.calls_eq {progress : Call.Progress} (h : Comes stage now e e' progress) :
    e'.calls = e.calls := by
  cases h with
  | served hserved => exact hserved.calls
  | held ticket hgate halike => exact halike.calls

/-- A call that is served behind a change at a gate. -/
theorem Comes.of_alike (h : e.Alike e') (stage : Stage) (now : Nat) :
    Comes stage now e (e'.serve stage now).1 (e'.serve stage now).2 := by
  obtain ⟨hserved, hfollow⟩ := served_serve e' stage now
  rw [hfollow, h.nextOutcome_eq]
  exact .served (.of_alike h hserved)

/-- A call that comes to a gate is served or waits there. -/
theorem comes_enter (e : ScriptedExecutor) (stage : Stage) (ticket now : Nat) :
    Comes stage now e (e.enter stage ticket now).1 (e.enter stage ticket now).2 := by
  unfold enter
  split
  · exact .of_alike (.refl e) stage now
  · rename_i gate hgate
    dsimp only
    split
    · exact .of_alike (e.alike_onGate stage _) stage now
    · exact .held ticket (Option.isSome_of_eq_some hgate) (e.alike_onGate stage _)

/-- A call that waits at a gate is served once it is polled, or it goes on waiting. -/
theorem comes_poll_gated (e : ScriptedExecutor) (stage : Stage) (ticket now : Nat)
    (hgate : (e.gates.get stage).isSome = true) :
    Comes stage now e (e.poll now (.gated stage ticket)).1
      (e.poll now (.gated stage ticket)).2 := by
  unfold poll
  split
  · exact .of_alike (e.alike_onGate stage _) stage now
  · exact .held ticket hgate (.refl e)

/-- A call that sleeps leaves the executor alone, and goes on once it is time. -/
theorem poll_asleep (e : ScriptedExecutor) (stage : Stage) (wake now : Nat) (next : Outcome) :
    e.poll now (.asleep stage wake next) =
      (e, if wake ≤ now then next.follow stage now else .waiting (.asleep stage wake next)) := by
  simp only [poll, isReady, decide_eq_true_eq]
  split <;> rfl

/-- Where there is no gate a call is served at once. -/
theorem enter_of_ungated (h : e.gates.get stage = none) (ticket now : Nat) :
    e.enter stage ticket now = e.serve stage now := by
  rw [enter, h]

/-- A call that is given up takes nothing. -/
theorem alike_abandon (e : ScriptedExecutor) (c : Call) : e.Alike (e.abandon c) := by
  cases c with
  | gated stage ticket => exact e.alike_onGate stage _
  | asleep stage wake next => exact .refl e

end ScriptedExecutor

end StagedPipeline.Simulation
