import Mathlib.Data.List.Induction
import StagedPipeline.Proofs.Simulation.Serving

/-!
# Traffic of a scripted executor

Calls come to a scripted executor one after the other, for any stages. Each of them is polled from
time to time, late or not at all, and may be given up where it waits; the gates are opened and
watched in between. `Traffic` is an executor with all calls so far, and `Traffic.run` takes it
through any events. A call that gets past its gate, or has none, makes a `Passage`; the passages are
noted in their order. What a call takes is decided by the place of its passage among those of its
stage (`Visit.Fits`). Every event keeps this (`Traffic.Orderly.react`), and so it holds after any
events (`Traffic.orderly_run`).
-/

namespace StagedPipeline.Simulation

/-! ### Calls in traffic -/

/-- Whether a call waits at a gate. -/
def Call.isHeld : Call → Bool
  | gated _ _ => true
  | asleep _ _ _ => false

/-- For how long a call has slept after it could have gone on. -/
def Call.lateness (now : Nat) : Call → Nat
  | gated _ _ => 0
  | asleep _ wake _ => now - wake

/-- How a call stands. -/
inductive Standing where
  | waiting (call : Call)
  | answered (answer : Except ExecutorError String) (time : Nat)
  /-- It was given up where it waited. -/
  | dropped (call : Call)

namespace Standing

/-- How a call stands that has come so far just now. -/
def ofProgress (now : Nat) : Call.Progress → Standing
  | .waiting call => waiting call
  | .answered answer => answered answer now

/-- Whether a call waits at a gate, or was given up there. -/
def isHeld : Standing → Bool
  | waiting call => call.isHeld
  | answered _ _ => false
  | dropped call => call.isHeld

/-- A call has taken an outcome that it has the answer of since it was due, or will have, or would
have had. -/
def Leads (stage : Stage) (outcome : Outcome) (due : Nat) : Standing → Prop
  | waiting call => call.Leads stage outcome due
  | answered answer time => answer = outcome.answer stage ∧ time = due
  | dropped call => call.Leads stage outcome due

end Standing

/-- A call in traffic. -/
structure Visit where
  prompt : String
  standing : Standing
  /-- For how long it slept when it could have gone on. -/
  overslept : Nat

/-- The stage a call is for, if its prompt names a role. -/
def Visit.stage? (visit : Visit) : Option Stage :=
  stageOf? visit.prompt

/-- The moment in which a call gets past its gate, or does not find one. -/
structure Passage where
  /-- The number of the call. -/
  number : Nat
  stage : Stage
  time : Nat

/-- The passages of one stage. -/
def passagesFor (passages : List Passage) (stage : Stage) : List Passage :=
  passages.filter (·.stage = stage)

/-- An executor, the time, all calls and all passages so far. -/
structure Traffic where
  executor : ScriptedExecutor
  now : Nat
  visits : List Visit
  passages : List Passage

namespace Traffic

/-- What happens in traffic. -/
inductive Event where
  /-- A call is made. -/
  | call (prompt : String)
  /-- A call goes on if it can. -/
  | poll (number : Nat)
  /-- A call is given up. -/
  | drop (number : Nat)
  /-- Somebody opens a gate, or watches it. -/
  | atGate (stage : Stage) (change : Gate → Gate)
  /-- Time passes. -/
  | pass (time : Nat)

/-- The prompt of a new call. -/
def Event.prompt? : Event → Option String
  | call prompt => some prompt
  | _ => none

/-- Traffic without any calls. -/
def start (e : ScriptedExecutor) (now : Nat) : Traffic := ⟨e, now, [], []⟩

variable (t : Traffic)

/-- The passage of a call that is past its gate now. -/
def passing (number : Nat) (stage : Stage) (standing : Standing) : List Passage :=
  if standing.isHeld then [] else [⟨number, stage, t.now⟩]

/-- A call is made. -/
def enter (prompt : String) : Traffic :=
  let (executor, progress) := t.executor.call prompt t.visits.length t.now
  let standing := Standing.ofProgress t.now progress
  { t with
    executor
    visits := t.visits ++ [⟨prompt, standing, 0⟩]
    passages := t.passages ++
      (stageOf? prompt).toList.flatMap (t.passing t.visits.length · standing) }

/-- A call that waits goes on if it can. -/
def proceed (number : Nat) (visit : Visit) (c : Call) : Traffic :=
  let (executor, progress) := t.executor.poll t.now c
  let standing := Standing.ofProgress t.now progress
  { t with
    executor
    visits := t.visits.set number ⟨visit.prompt, standing, visit.overslept + c.lateness t.now⟩
    passages := t.passages ++ if c.isHeld then t.passing number c.stage standing else [] }

/-- A call that waits is given up. -/
def abandon (number : Nat) (visit : Visit) (c : Call) : Traffic :=
  { t with
    executor := t.executor.abandon c
    visits := t.visits.set number { visit with standing := .dropped c } }

/-- Does something with a call, if it waits. -/
def onWaiting (number : Nat) (f : Visit → Call → Traffic) : Traffic :=
  match t.visits[number]? with
  | none => t
  | some visit =>
    match visit.standing with
    | .waiting c => f visit c
    | _ => t

/-- Traffic after a further event. -/
def react : Event → Traffic
  | .call prompt => t.enter prompt
  | .poll number => t.onWaiting number (t.proceed number)
  | .drop number => t.onWaiting number (t.abandon number)
  | .atGate stage change => { t with executor := t.executor.onGate stage change }
  | .pass time => { t with now := t.now + time }

/-- Traffic after some events. -/
def run (events : List Event) : Traffic :=
  events.foldl react t

end Traffic

/-! ### Passages -/

theorem passagesFor_append (passages new : List Passage) (stage : Stage) :
    passagesFor (passages ++ new) stage = passagesFor passages stage ++ passagesFor new stage :=
  List.filter_append ..

theorem passagesFor_concat_self (passages : List Passage) (number : Nat) (stage : Stage)
    (time : Nat) :
    passagesFor (passages ++ [⟨number, stage, time⟩]) stage =
      passagesFor passages stage ++ [⟨number, stage, time⟩] := by
  simp [passagesFor]

theorem passagesFor_concat_of_ne (passages : List Passage) {passage : Passage} {stage : Stage}
    (h : stage ≠ passage.stage) :
    passagesFor (passages ++ [passage]) stage = passagesFor passages stage := by
  simp [passagesFor, h.symm]

/-! ### What an executor holds after some passages -/

namespace ScriptedExecutor

variable {e b b' : ScriptedExecutor} {passages : List Passage} {stage : Stage}

/-- What the calls of a stage that get past its gate are to take, counted from zero. -/
def outcomeAt (e : ScriptedExecutor) (stage : Stage) (k : Nat) : Outcome :=
  (e.scripts.get stage)[k]?.getD (e.fallback.getD .canned)

/-- An executor `b` that was `e` before some passages: each of them took an outcome from the script
of its own stage. -/
structure Supplied (e : ScriptedExecutor) (passages : List Passage) (b : ScriptedExecutor) :
    Prop where
  fallback : b.fallback = e.fallback
  scripts : ∀ stage,
    b.scripts.get stage = (e.scripts.get stage).drop (passagesFor passages stage).length
  gates : ∀ stage, (b.gates.get stage).isSome = (e.gates.get stage).isSome

theorem Supplied.refl (e : ScriptedExecutor) : e.Supplied [] e := ⟨rfl, fun _ => rfl, fun _ => rfl⟩

theorem Supplied.of_alike (h : e.Supplied passages b) (h' : b.Alike b') : e.Supplied passages b' :=
  ⟨h'.fallback.trans h.fallback, h'.scripts ▸ h.scripts,
    fun stage => (h'.gates stage).trans (h.gates stage)⟩

/-- The next outcome of a stage is the one at the place of the next passage. -/
theorem Supplied.nextOutcome_eq (h : e.Supplied passages b) (stage : Stage) :
    b.nextOutcome stage = e.outcomeAt stage (passagesFor passages stage).length := by
  rw [nextOutcome, h.scripts, h.fallback, List.head?_drop, outcomeAt]

theorem Supplied.of_served (h : e.Supplied passages b) (h' : Served stage b b') (number now : Nat) :
    e.Supplied (passages ++ [⟨number, stage, now⟩]) b' where
  fallback := h'.fallback.trans h.fallback
  gates other := (h'.gates other).trans (h.gates other)
  scripts other := by
    by_cases hother : other = stage
    · subst hother
      rw [passagesFor_concat_self, h'.script, h.scripts, List.tail_drop, List.length_append,
        List.length_singleton]
    · rw [passagesFor_concat_of_ne passages hother, h'.others other hother, h.scripts]

end ScriptedExecutor

/-! ### What a call has come to -/

/-- What a call has come to, in the traffic of an executor that was `e` before: it was refused, or
is held at a gate, or has made one of the passages. Then it has taken the outcome at the place of
its passage among those of its stage, and has its answer when the sum of the delays is over and it
has not overslept. -/
inductive Visit.Fits (e : ScriptedExecutor) (passages : List Passage) (number : Nat)
    (visit : Visit) : Prop
  | refused (time : Nat) (hstage : visit.stage? = none)
      (hstanding : visit.standing = .answered (.error ScriptedExecutor.unrecognised) time)
      (hnone : ∀ passage ∈ passages, passage.number ≠ number)
  | held (stage : Stage) (ticket : Nat) (hstage : visit.stage? = some stage)
      (hstanding : visit.standing = .waiting (.gated stage ticket) ∨
        visit.standing = .dropped (.gated stage ticket))
      (hslept : visit.overslept = 0) (hgate : (e.gates.get stage).isSome = true)
      (hnone : ∀ passage ∈ passages, passage.number ≠ number)
  | passed (stage : Stage) (k time : Nat) (hstage : visit.stage? = some stage)
      (hpassage : (passagesFor passages stage)[k]? = some ⟨number, stage, time⟩)
      (hleads : visit.standing.Leads stage (e.outcomeAt stage k)
        (time + (e.outcomeAt stage k).totalDelay + visit.overslept))

section Fits

variable {e : ScriptedExecutor} {passages new : List Passage} {number now : Nat} {visit : Visit}

/-- Passages of other calls do not matter to a call. -/
theorem Visit.Fits.grow (h : visit.Fits e passages number)
    (hnew : ∀ passage ∈ new, passage.number ≠ number) : visit.Fits e (passages ++ new) number := by
  have hnone (hnone : ∀ passage ∈ passages, passage.number ≠ number) :
      ∀ passage ∈ passages ++ new, passage.number ≠ number := by
    intro passage hmem
    exact (List.mem_append.mp hmem).elim (hnone passage) (hnew passage)
  cases h with
  | refused time hstage hstanding hbefore => exact .refused time hstage hstanding (hnone hbefore)
  | held stage ticket hstage hstanding hslept hgate hbefore =>
    exact .held stage ticket hstage hstanding hslept hgate (hnone hbefore)
  | passed stage k time hstage hpassage hleads =>
    refine .passed stage k time hstage ?_ hleads
    obtain ⟨hk, -⟩ := List.getElem?_eq_some_iff.mp hpassage
    rw [passagesFor_append, List.getElem?_append_left hk, hpassage]

/-- A call that waits at a gate is for the stage of the gate, and has not made a passage. -/
theorem Visit.Fits.of_gated {stage : Stage} {ticket : Nat} (h : visit.Fits e passages number)
    (hstanding : visit.standing = .waiting (.gated stage ticket)) :
    visit.stage? = some stage ∧ visit.overslept = 0 ∧ (e.gates.get stage).isSome = true ∧
      ∀ passage ∈ passages, passage.number ≠ number := by
  cases h with
  | refused time hstage hrefused hnone => simp [hstanding] at hrefused
  | held stage' ticket' hstage hheld hslept hgate hnone =>
    rcases hheld with hheld | hheld
    · rw [hstanding] at hheld
      cases hheld
      exact ⟨hstage, hslept, hgate, hnone⟩
    · simp [hstanding] at hheld
  | passed stage' k time hstage hpassage hleads =>
    rw [hstanding] at hleads
    exact hleads.elim

/-- A call that sleeps has made a passage, and will come to the answer of its outcome. -/
theorem Visit.Fits.of_asleep {stage : Stage} {wake : Nat} {next : Outcome}
    (h : visit.Fits e passages number)
    (hstanding : visit.standing = .waiting (.asleep stage wake next)) :
    visit.stage? = some stage ∧ ∃ k time,
      (passagesFor passages stage)[k]? = some ⟨number, stage, time⟩ ∧
      next.answer stage = (e.outcomeAt stage k).answer stage ∧
      wake + next.totalDelay = time + (e.outcomeAt stage k).totalDelay + visit.overslept := by
  cases h with
  | refused time hstage hrefused hnone => simp [hstanding] at hrefused
  | held stage' ticket' hstage hheld hslept hgate hnone => simp [hstanding] at hheld
  | passed stage' k time hstage hpassage hleads =>
    rw [hstanding] at hleads
    obtain ⟨rfl, hanswer, hdue⟩ := hleads
    exact ⟨hstage, k, time, hpassage, hanswer, hdue⟩

theorem Call.Leads.isHeld_eq_false {stage : Stage} {outcome : Outcome} {due : Nat} {c : Call}
    (h : c.Leads stage outcome due) : c.isHeld = false := by
  cases c with
  | gated stage' ticket => exact h.elim
  | asleep stage' wake next => rfl

/-- Whoever has taken an outcome is past the gate. -/
theorem Standing.Leads.isHeld_eq_false {stage : Stage} {outcome : Outcome} {due : Nat}
    {standing : Standing} (h : standing.Leads stage outcome due) : standing.isHeld = false := by
  cases standing with
  | answered answer time => rfl
  | waiting c => exact Call.Leads.isHeld_eq_false h
  | dropped c => exact Call.Leads.isHeld_eq_false h

/-- A call for a stage is held at the gate, or has made a passage. -/
theorem Visit.Fits.held_or_passed {stage : Stage} (h : visit.Fits e passages number)
    (hstage : visit.stage? = some stage) :
    (visit.standing.isHeld = true ∧ (e.gates.get stage).isSome = true ∧
        ∀ passage ∈ passages, passage.number ≠ number) ∨
      (visit.standing.isHeld = false ∧ ∃ k time,
        (passagesFor passages stage)[k]? = some ⟨number, stage, time⟩ ∧
        visit.standing.Leads stage (e.outcomeAt stage k)
          (time + (e.outcomeAt stage k).totalDelay + visit.overslept)) := by
  cases h with
  | refused time hnone => simp [hstage] at hnone
  | held stage' ticket hstage' hstanding hslept hgate hnone =>
    obtain rfl := Option.some.inj (hstage.symm.trans hstage')
    refine .inl ⟨?_, hgate, hnone⟩
    rcases hstanding with hstanding | hstanding
    · exact hstanding ▸ rfl
    · exact hstanding ▸ rfl
  | passed stage' k time hstage' hpassage hleads =>
    obtain rfl := Option.some.inj (hstage.symm.trans hstage')
    exact .inr ⟨hleads.isHeld_eq_false, k, time, hpassage, hleads⟩

theorem Standing.leads_ofProgress {stage : Stage} {outcome : Outcome} {due : Nat}
    {progress : Call.Progress} (h : progress.Leads stage outcome now due) :
    (Standing.ofProgress now progress).Leads stage outcome due := by
  cases progress with
  | waiting call => exact h
  | answered answer => exact h

/-- Whoever follows an outcome is not held at a gate. -/
theorem Standing.isHeld_follow (stage : Stage) (now : Nat) (outcome : Outcome) :
    (Standing.ofProgress now (outcome.follow stage now)).isHeld = false := by
  induction outcome with
  | succeed text => rfl
  | canned => rfl
  | fail error => rfl
  | delay time inner ih =>
    rw [Outcome.follow]
    split
    · exact ih
    · rfl

end Fits

/-! ### What every event keeps -/

namespace Traffic

open ScriptedExecutor

/-- Traffic of an executor that was `e` at the start. -/
structure Orderly (e : ScriptedExecutor) (t : Traffic) : Prop where
  supplied : e.Supplied t.passages t.executor
  calls : t.executor.calls = e.calls ++ (t.visits.map (·.prompt)).filterMap stageOf?
  fits : ∀ number visit, t.visits[number]? = some visit → Visit.Fits e t.passages number visit
  made : ∀ passage ∈ t.passages,
    ∃ visit, t.visits[passage.number]? = some visit ∧ visit.stage? = some passage.stage
  once : (t.passages.map (·.number)).Nodup

/-- One call is new or stands anew: `after` differs from `before` in the call of a number, which is
for the same stage if it was there before. -/
structure Replaces (number : Nat) (visit : Visit) (before after : List Visit) : Prop where
  self : after[number]? = some visit
  others : ∀ other, other ≠ number → after[other]? = before[other]?
  stage : ∀ visit', before[number]? = some visit' → visit'.stage? = visit.stage?

theorem Replaces.concat (visits : List Visit) (visit : Visit) :
    Replaces visits.length visit visits (visits ++ [visit]) where
  self := List.getElem?_concat_length
  others other hother := by
    rcases Nat.lt_or_gt_of_ne hother with hlt | hgt
    · exact List.getElem?_append_left hlt
    · rw [List.getElem?_eq_none_iff.mpr (by simp; omega), List.getElem?_eq_none_iff.mpr (by omega)]
  stage visit' h := by simp at h

theorem Replaces.set {visits : List Visit} {number : Nat} {visit : Visit}
    (h : visits[number]? = some visit) (standing : Standing) (overslept : Nat) :
    Replaces number ⟨visit.prompt, standing, overslept⟩ visits
      (visits.set number ⟨visit.prompt, standing, overslept⟩) where
  self := List.getElem?_set_self (List.getElem?_eq_some_iff.mp h).1
  others other hother := List.getElem?_set_ne hother.symm
  stage visit' h' := by
    obtain rfl := Option.some.inj (h.symm.trans h')
    rfl

/-- A call keeps its prompt. -/
theorem map_prompt_set {visits : List Visit} {number : Nat} {visit : Visit}
    (h : visits[number]? = some visit) (standing : Standing) (overslept : Nat) :
    (visits.set number ⟨visit.prompt, standing, overslept⟩).map (·.prompt) =
      visits.map (·.prompt) := by
  obtain ⟨hlt, rfl⟩ := List.getElem?_eq_some_iff.mp h
  apply List.ext_getElem?
  intro k
  rw [List.map_set, List.getElem?_set]
  split
  · subst_vars
    simp [hlt]
  · rfl

variable {e b b' : ScriptedExecutor} {t : Traffic} {number : Nat} {visit : Visit}
  {visits : List Visit}

theorem orderly_start (e : ScriptedExecutor) (now : Nat) : Orderly e (start e now) where
  supplied := .refl e
  calls := (List.append_nil _).symm
  fits := nofun
  made := nofun
  once := List.nodup_nil

/-- What goes on at the gates, and that time passes, makes no difference. -/
theorem Orderly.of_alike (h : t.Orderly e) (hb : t.executor.Alike b) (now : Nat) :
    Orderly e { t with executor := b, now := now } :=
  ⟨h.supplied.of_alike hb, hb.calls.trans h.calls, h.fits, h.made, h.once⟩

/-- A call is new or stands anew, without having made a passage. -/
theorem Orderly.replace (h : t.Orderly e) (hb : e.Supplied t.passages b)
    (hcalls : b.calls = e.calls ++ (visits.map (·.prompt)).filterMap stageOf?)
    (hvisits : Replaces number visit t.visits visits) (hfits : visit.Fits e t.passages number) :
    Orderly e { t with executor := b, visits := visits } where
  supplied := hb
  calls := hcalls
  once := h.once
  fits other visit' hvisit' := by
    by_cases hother : other = number
    · subst hother
      obtain rfl := Option.some.inj (hvisits.self.symm.trans hvisit')
      exact hfits
    · exact h.fits other visit' (hvisits.others other hother ▸ hvisit')
  made passage hpassage := by
    obtain ⟨visit', hvisit', hstage⟩ := h.made passage hpassage
    by_cases hother : passage.number = number
    · exact ⟨visit, hother ▸ hvisits.self, (hvisits.stage visit' (hother ▸ hvisit')) ▸ hstage⟩
    · exact ⟨visit', (hvisits.others _ hother).trans hvisit', hstage⟩

/-- A call is new or stands anew, and makes a passage. -/
theorem Orderly.pass (h : t.Orderly e) {stage : Stage}
    (hb : e.Supplied (t.passages ++ [⟨number, stage, t.now⟩]) b)
    (hcalls : b.calls = e.calls ++ (visits.map (·.prompt)).filterMap stageOf?)
    (hvisits : Replaces number visit t.visits visits)
    (hnone : ∀ passage ∈ t.passages, passage.number ≠ number) (hstage : visit.stage? = some stage)
    (hleads : visit.standing.Leads stage
      (e.outcomeAt stage (passagesFor t.passages stage).length)
      (t.now + (e.outcomeAt stage (passagesFor t.passages stage).length).totalDelay +
        visit.overslept)) :
    Orderly e ⟨b, t.now, visits, t.passages ++ [⟨number, stage, t.now⟩]⟩ where
  supplied := hb
  calls := hcalls
  once := by
    rw [List.map_append, List.map_singleton, List.nodup_append]
    refine ⟨h.once, by simp, fun number' hmem other hother => ?_⟩
    obtain ⟨passage, hpassage, rfl⟩ := List.mem_map.mp hmem
    exact List.mem_singleton.mp hother ▸ hnone passage hpassage
  fits other visit' hvisit' := by
    by_cases hother : other = number
    · subst hother
      obtain rfl := Option.some.inj (hvisits.self.symm.trans hvisit')
      refine .passed stage _ t.now hstage ?_ hleads
      rw [passagesFor_concat_self, List.getElem?_concat_length]
    · refine (h.fits other visit' (hvisits.others other hother ▸ hvisit')).grow ?_
      rintro passage hpassage
      rw [List.mem_singleton.mp hpassage]
      exact fun heq => hother heq.symm
  made passage hpassage := by
    rcases List.mem_append.mp hpassage with hbefore | hnew
    · obtain ⟨visit', hvisit', hstage'⟩ := h.made passage hbefore
      exact ⟨visit', (hvisits.others _ (hnone passage hbefore)).trans hvisit', hstage'⟩
    · rw [List.mem_singleton.mp hnew]
      exact ⟨visit, hvisits.self, hstage⟩

/-- A call for a stage is made, or goes on at a gate: it makes a passage, or is held there. -/
theorem Orderly.come (h : t.Orderly e) {stage : Stage} {progress : Call.Progress}
    (hb : e.Supplied t.passages b) (hcomes : Comes stage t.now b b' progress)
    (hcalls : b'.calls = e.calls ++ (visits.map (·.prompt)).filterMap stageOf?)
    (hvisits : Replaces number visit t.visits visits)
    (hnone : ∀ passage ∈ t.passages, passage.number ≠ number) (hstage : visit.stage? = some stage)
    (hstanding : visit.standing = .ofProgress t.now progress) (hslept : visit.overslept = 0) :
    Orderly e ⟨b', t.now, visits, t.passages ++ t.passing number stage visit.standing⟩ := by
  cases hcomes with
  | served hserved =>
    have hpassing : t.passing number stage visit.standing = [⟨number, stage, t.now⟩] := by
      rw [hstanding, passing, Standing.isHeld_follow]
      rfl
    rw [hpassing]
    refine h.pass (hb.of_served hserved number t.now) hcalls hvisits hnone hstage ?_
    rw [hstanding, hslept, hb.nextOutcome_eq]
    exact Standing.leads_ofProgress (Outcome.leads_follow ..)
  | held ticket hgate halike =>
    have hpassing : t.passing number stage visit.standing = [] := by
      rw [hstanding]
      rfl
    rw [hpassing, List.append_nil]
    refine h.replace (hb.of_alike halike) hcalls hvisits ?_
    exact .held stage ticket hstage (.inl hstanding) hslept (hb.gates stage ▸ hgate) hnone

/-! ### The events -/

/-- A passage is made by a call that is there already. -/
theorem Orderly.number_ne_length (h : t.Orderly e) (passage : Passage)
    (hpassage : passage ∈ t.passages) : passage.number ≠ t.visits.length := by
  obtain ⟨visit, hvisit, -⟩ := h.made passage hpassage
  exact Nat.ne_of_lt (List.getElem?_eq_some_iff.mp hvisit).1

/-- A call whose prompt names no role is refused, and nothing else happens. -/
theorem enter_of_none {prompt : String} (h : stageOf? prompt = none) :
    t.enter prompt =
      { t with visits := t.visits ++ [⟨prompt, .answered (.error unrecognised) t.now, 0⟩] } := by
  unfold Traffic.enter ScriptedExecutor.call
  rw [h]
  exact congrArg _ (List.append_nil _)

theorem enter_of_some {prompt : String} {stage : Stage} (h : stageOf? prompt = some stage) :
    t.enter prompt =
      let (executor, progress) :=
        (t.executor.note stage).enter stage t.visits.length t.now
      let standing := Standing.ofProgress t.now progress
      ⟨executor, t.now, t.visits ++ [⟨prompt, standing, 0⟩],
        t.passages ++ t.passing t.visits.length stage standing⟩ := by
  unfold Traffic.enter ScriptedExecutor.call
  rw [h]
  simp only [Option.toList_some, List.flatMap_singleton]

theorem Orderly.enter (h : t.Orderly e) (prompt : String) : (t.enter prompt).Orderly e := by
  cases hstage : stageOf? prompt with
  | none =>
    rw [enter_of_none hstage]
    refine h.replace h.supplied ?_ (.concat _ _) (.refused t.now hstage rfl h.number_ne_length)
    rw [h.calls, List.map_append, List.filterMap_append]
    simp [hstage]
  | some stage =>
    rw [enter_of_some hstage]
    have hcomes := comes_enter (t.executor.note stage) stage t.visits.length t.now
    refine h.come (b := t.executor.note stage) ?_ hcomes ?_ (.concat _ _) h.number_ne_length hstage
      rfl rfl
    · exact ⟨h.supplied.fallback, h.supplied.scripts, h.supplied.gates⟩
    · rw [hcomes.calls_eq, List.map_append, List.filterMap_append, ← List.append_assoc, ← h.calls]
      simp [note, hstage]

/-- A call that sleeps changes nothing but how it stands. -/
theorem proceed_asleep (t : Traffic) (number : Nat) (visit : Visit) (stage : Stage) (wake : Nat)
    (next : Outcome) :
    t.proceed number visit (.asleep stage wake next) =
      let progress :=
        if wake ≤ t.now then next.follow stage t.now else .waiting (.asleep stage wake next)
      { t with
        visits := t.visits.set number
          ⟨visit.prompt, .ofProgress t.now progress, visit.overslept + (t.now - wake)⟩ } := by
  rw [proceed, poll_asleep]
  exact congrArg _ (List.append_nil _)

theorem Orderly.proceed (h : t.Orderly e) {c : Call} (hvisit : t.visits[number]? = some visit)
    (hstanding : visit.standing = .waiting c) : (t.proceed number visit c).Orderly e := by
  have hfits := h.fits number visit hvisit
  cases c with
  | gated stage ticket =>
    -- What waits at a gate has not slept yet: the time of its passage is all that counts.
    obtain ⟨hstage, hslept, hgate, hnone⟩ := hfits.of_gated hstanding
    have hcomes := comes_poll_gated t.executor stage ticket t.now (h.supplied.gates stage ▸ hgate)
    refine h.come h.supplied hcomes ?_ (.set hvisit _ _) hnone hstage rfl hslept
    rw [hcomes.calls_eq, map_prompt_set hvisit, h.calls]
  | asleep stage wake next =>
    obtain ⟨hstage, k, time, hpassage, hanswer, hdue⟩ := hfits.of_asleep hstanding
    rw [proceed_asleep]
    refine h.replace h.supplied (by rw [map_prompt_set hvisit, h.calls]) (.set hvisit _ _)
      (.passed stage k time hstage hpassage ?_)
    -- Either it was due at `wake` and is late by what it has overslept, or it sleeps on.
    split
    · exact Standing.leads_ofProgress
        ((Outcome.leads_follow stage t.now next).of_next hanswer (by dsimp only; omega))
    · exact ⟨rfl, hanswer, by dsimp only; omega⟩

theorem Orderly.abandon (h : t.Orderly e) {c : Call} (hvisit : t.visits[number]? = some visit)
    (hstanding : visit.standing = .waiting c) : (t.abandon number visit c).Orderly e := by
  have hfits := h.fits number visit hvisit
  have halike := alike_abandon t.executor c
  have hprompts := map_prompt_set hvisit (.dropped c) visit.overslept
  refine h.replace (h.supplied.of_alike halike) (hprompts ▸ halike.calls.trans h.calls)
    (.set hvisit _ _) ?_
  cases c with
  | gated stage ticket =>
    obtain ⟨hstage, hslept, hgate, hnone⟩ := hfits.of_gated hstanding
    exact .held stage ticket hstage (.inr rfl) hslept hgate hnone
  | asleep stage wake next =>
    obtain ⟨hstage, k, time, hpassage, hanswer, hdue⟩ := hfits.of_asleep hstanding
    exact .passed stage k time hstage hpassage ⟨rfl, hanswer, hdue⟩

theorem Orderly.onWaiting (h : t.Orderly e) {f : Visit → Call → Traffic}
    (hf : ∀ visit c, t.visits[number]? = some visit → visit.standing = .waiting c →
      (f visit c).Orderly e) : (t.onWaiting number f).Orderly e := by
  unfold Traffic.onWaiting
  split
  · exact h
  · rename_i visit hvisit
    split
    · rename_i c hstanding
      exact hf visit c hvisit hstanding
    · exact h

/-- Every event keeps the traffic in order. -/
theorem Orderly.react (h : t.Orderly e) (event : Event) : (t.react event).Orderly e := by
  cases event with
  | call prompt => exact h.enter prompt
  | poll number => exact h.onWaiting fun _ _ hvisit hstanding => h.proceed hvisit hstanding
  | drop number => exact h.onWaiting fun _ _ hvisit hstanding => h.abandon hvisit hstanding
  | atGate stage change => exact h.of_alike (alike_onGate _ stage change) t.now
  | pass time => exact h.of_alike (.refl _) (t.now + time)

theorem run_concat (t : Traffic) (events : List Event) (event : Event) :
    t.run (events ++ [event]) = (t.run events).react event := by
  rw [run, List.foldl_append, List.foldl_cons, List.foldl_nil, run]

/-- The induction is on the events from the last one backwards. -/
theorem orderly_run (e : ScriptedExecutor) (now : Nat) (events : List Event) :
    ((start e now).run events).Orderly e := by
  induction events using List.reverseRecOn with
  | nil => exact orderly_start e now
  | append_singleton events event ih =>
    rw [run_concat]
    exact ih.react event

/-- A call adds its prompt, and no other event does anything to the prompts. -/
theorem map_prompt_react (t : Traffic) (event : Event) :
    (t.react event).visits.map (·.prompt) = t.visits.map (·.prompt) ++ event.prompt?.toList := by
  have hwaiting : ∀ number (f : Visit → Call → Traffic),
      (∀ visit c, t.visits[number]? = some visit →
        (f visit c).visits.map (·.prompt) = t.visits.map (·.prompt)) →
      (t.onWaiting number f).visits.map (·.prompt) = t.visits.map (·.prompt) := by
    intro number f hf
    unfold onWaiting
    split
    · rfl
    · rename_i visit hvisit
      split
      · exact hf visit _ hvisit
      · rfl
  cases event with
  | call prompt => exact List.map_append
  | poll number =>
    exact (hwaiting number _ fun _ _ hvisit => map_prompt_set hvisit _ _).trans
      (List.append_nil _).symm
  | drop number =>
    exact (hwaiting number _ fun _ _ hvisit => map_prompt_set hvisit _ _).trans
      (List.append_nil _).symm
  | atGate stage change => exact (List.append_nil _).symm
  | pass time => exact (List.append_nil _).symm

/-- The calls of a run are those that were made in it, in their order. -/
theorem map_prompt_run (e : ScriptedExecutor) (now : Nat) (events : List Event) :
    ((start e now).run events).visits.map (·.prompt) = events.filterMap Event.prompt? := by
  induction events using List.reverseRecOn with
  | nil => rfl
  | append_singleton events event ih =>
    rw [run_concat, map_prompt_react, ih, List.filterMap_append]
    cases event <;> rfl

end Traffic

end StagedPipeline.Simulation
