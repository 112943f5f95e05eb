import Mathlib.Data.Nat.Find
import Mathlib.Order.Monotone.Basic
import StagedPipeline.Proofs.CommandLine.Hearing

/-!
# The course of a session

A session hears one thing after another. If what its drive waits for always comes in the end, the
session comes to its end, whatever it hears in between, and leaves a pipeline that is completed or
failed (`Session.Mirrors.exists_conclusion`). An interrupt before that makes it fail. Without one
the session is a run of its engine that nobody disturbs, and what it hears of the attempts is what
some executor answers.
-/

namespace StagedPipeline

namespace CommandLine

namespace Session

/-- A session after it has heard `n` things. -/
def after (s : Session) (heard : Nat → Happening × Moment) : Nat → Session
  | 0 => s
  | n + 1 => ((s.after heard n).next (heard n).1 (heard n).2).1

/-- What the drive waits for always comes in the end. -/
def Fair (s : Session) (heard : Nat → Happening × Moment) : Prop :=
  ∀ n, (s.after heard n).result? = none → ∃ m, n ≤ m ∧ (s.after heard m).Awaits (heard m).1

/-- What the drive hears of its attempts is what an executor answers. -/
def Follows (s : Session) (heard : Nat → Happening × Moment) (b : Behaviour) : Prop :=
  ∀ n drive wait signal, (s.after heard n).progress = some (.waiting drive wait) →
    (heard n).1 = .ended signal → signal.isRested = false → drive.trial.resting = false →
    signal = (b drive.trial.attempt.stage drive.trial.count.toNat).signal

section After

variable {config : PipelineConfig} {s : Session} {heard : Nat → Happening × Moment} {n m : Nat}
  {f : Fleet} {b : Behaviour}

theorem after_succ (s : Session) (heard : Nat → Happening × Moment) (n : Nat) :
    s.after heard (n + 1) = ((s.after heard n).next (heard n).1 (heard n).2).1 := rfl

theorem after_add (s : Session) (heard : Nat → Happening × Moment) (n m : Nat) :
    s.after heard (n + m) = (s.after heard n).after (fun k => heard (n + k)) m := by
  induction m with
  | zero => rfl
  | succ m ih => rw [← Nat.add_assoc, after_succ, after_succ, ih]

@[simp] theorem id_after (s : Session) (heard : Nat → Happening × Moment) (n : Nat) :
    (s.after heard n).id = s.id := by
  induction n with
  | zero => rfl
  | succ n ih => rw [after_succ, id_next, ih]

@[simp] theorem engine_after (s : Session) (heard : Nat → Happening × Moment) (n : Nat) :
    (s.after heard n).engine = s.engine := by
  induction n with
  | zero => rfl
  | succ n ih => rw [after_succ, engine_next, ih]

/-- A session that has come to its end stays as it is. -/
theorem after_eq_of_result? (h : (s.after heard n).result? ≠ none) (hle : n ≤ m) :
    s.after heard m = s.after heard n := by
  induction m, hle using Nat.le_induction with
  | base => rfl
  | succ m hle ih =>
    have hm : (s.after heard m).result? ≠ none := by
      rw [ih]
      exact h
    rw [after_succ, next_of_result? hm, ih]

/-! ### The end -/

/-- Whatever a session has heard, it is still an engine with one pipeline. -/
theorem Mirrors.exists_after (h : s.Mirrors config f) (heard : Nat → Happening × Moment)
    (n : Nat) :
    ∃ es, (s.after heard n).Mirrors config (f.run s.engine es) ∧
      f.Along s.engine (Fleet.Created s.id) es := by
  induction n with
  | zero => exact ⟨[], h, trivial⟩
  | succ n ih =>
    obtain ⟨es, hmirrors, halong⟩ := ih
    obtain ⟨es', hhears, hmirrors', -⟩ := hmirrors.exists_run (heard n).1 (heard n).2
    have halong' := hhears.created (f := f.run s.engine es) (s.after heard n).engine s.id
    rw [engine_after] at hmirrors' halong'
    rw [← Fleet.run_append] at hmirrors'
    exact ⟨es ++ es', hmirrors', (Fleet.along_append _ _ _).mpr ⟨halong, halong'⟩⟩

/-- Nothing that is heard takes a session further from its end, and what its drive waits for takes
it nearer. -/
theorem Mirrors.waits_after_succ (h : s.Mirrors config f) (heard : Nat → Happening × Moment)
    (n : Nat) :
    (s.after heard (n + 1)).waits config.retryBudget ≤
        (s.after heard n).waits config.retryBudget ∧
      ((s.after heard n).Awaits (heard n).1 →
        (s.after heard (n + 1)).waits config.retryBudget <
          (s.after heard n).waits config.retryBudget) := by
  obtain ⟨es, hmirrors, -⟩ := h.exists_after heard n
  obtain ⟨-, -, -, hle, hlt⟩ := hmirrors.exists_run (heard n).1 (heard n).2
  exact ⟨hle, hlt⟩

theorem Mirrors.waits_after_le (h : s.Mirrors config f) (heard : Nat → Happening × Moment)
    (hle : n ≤ m) :
    (s.after heard m).waits config.retryBudget ≤ (s.after heard n).waits config.retryBudget := by
  have hanti : Antitone fun k => (s.after heard k).waits config.retryBudget :=
    antitone_nat_of_succ_le fun k => (h.waits_after_succ heard k).1
  exact hanti hle

/-- A session comes to its end if what its drive waits for always comes. -/
theorem Mirrors.exists_end (h : s.Mirrors config f) (hfair : s.Fair heard) :
    ∃ n, (s.after heard n).result? ≠ none := by
  have hends : ∀ k n, (s.after heard n).waits config.retryBudget ≤ k →
      ∃ n', (s.after heard n').result? ≠ none := by
    intro k
    induction k with
    | zero =>
      intro n hn
      by_contra hnever
      obtain ⟨m, hnm, hawaits⟩ := hfair n (not_not.mp (not_exists.mp hnever n))
      have hlt := (h.waits_after_succ heard m).2 hawaits
      have hle := h.waits_after_le heard hnm
      omega
    | succ k ih =>
      intro n hn
      by_cases hresult : (s.after heard n).result? = none
      · obtain ⟨m, hnm, hawaits⟩ := hfair n hresult
        have hlt := (h.waits_after_succ heard m).2 hawaits
        have hle := h.waits_after_le heard hnm
        exact ih (m + 1) (by omega)
      · exact ⟨n, hresult⟩
  exact hends _ 0 (Nat.le_refl _)

/-- A session that has come to its end leaves a pipeline that is completed or failed. -/
theorem Mirrors.exists_terminal (h : s.Mirrors config f) (hresult : s.result? ≠ none) :
    ∃ r, f.store.get? s.id = some r ∧ r.pipeline.status.isTerminal = true := by
  obtain ⟨result, hprogress⟩ := exists_of_result? hresult
  obtain ⟨r, hget, -, hpaused, hpending⟩ := h.record
  have hcalls : ∀ call ∈ f.calls, call.point.isLive = false := by
    simpa [hprogress, Stands] using h.calls
  have hidle : r.driven = false := by
    refine h.regular.sole.driven_eq_false hget ?_
    rintro n ⟨p, hp, hlive⟩
    have hcall := Fleet.points_view_eq_some_iff.mp hp
    rw [hcalls _ (List.mem_of_getElem? hcall)] at hlive
    cases hlive
  have hconsistent := h.regular.sole.consistent r hget
  exact ⟨r, hget, hconsistent.isTerminal hidle (hpending (by simp [hprogress])) hpaused⟩

/-- The pipeline of a session is the one its engine holds. -/
theorem Mirrors.pipeline?_eq (h : s.Mirrors config f) {r : PipelineRecord}
    (hget : f.store.get? s.id = some r) : s.pipeline? = some r.pipeline := by
  rw [pipeline?, ← h.store, Store.pipeline?, hget, Option.map_some]

/-- After an interrupt the pipeline has failed for good. -/
theorem Mirrors.failed_of_interrupt (h : s.Mirrors config f)
    (hresult : (s.after heard m).result? = none) (hinterrupt : (heard m).1 = .interrupt)
    (hlt : m < n) :
    ∃ p, (s.after heard n).pipeline? = some p ∧ p.status = .failed := by
  obtain ⟨es, hmirrors, -⟩ := h.exists_after heard m
  obtain ⟨r, hget, -⟩ := hmirrors.record
  have hcancelled := hmirrors.interrupt (heard m).2
  have hnext : ((s.after heard m).interrupt (heard m).2).1 = s.after heard (m + 1) := by
    rw [after_succ, hinterrupt, next_interrupt hresult]
  rw [hnext] at hcancelled
  have hfrozen := Fleet.frozen_cancelled (s.after heard m).engine (heard m).2 hget
  obtain ⟨k, rfl⟩ := Nat.exists_eq_add_of_le (Nat.succ_le_of_lt hlt)
  obtain ⟨es', hlast, halong⟩ := hcancelled.exists_after (fun k => heard (m + 1 + k)) k
  rw [← after_add] at hlast
  simp only [id_after, engine_after] at halong hlast hfrozen
  have hlater := Fleet.frozen_of_along halong hfrozen
  obtain ⟨r', hget', -⟩ := hlast.record
  have hpipeline := hlast.pipeline?_eq hget'
  rw [id_after] at hget'
  exact ⟨r'.pipeline, hpipeline, hlater.status hget'⟩

/-- A session comes to its end with a pipeline that is completed or failed, and after an interrupt
it is failed. -/
theorem Mirrors.exists_conclusion (h : s.Mirrors config f) (hfair : s.Fair heard) :
    ∃ n p, (∀ m < n, (s.after heard m).result? = none) ∧
      (∀ m, n ≤ m → (s.after heard m).result? ≠ none ∧ (s.after heard m).pipeline? = some p) ∧
      (p.status = .completed ∨ p.status = .failed) ∧
      ∀ m < n, (heard m).1 = .interrupt → p.status = .failed := by
  classical
  have hends := h.exists_end hfair
  obtain ⟨n, hn, hbefore⟩ : ∃ n, (s.after heard n).result? ≠ none ∧
      ∀ m < n, (s.after heard m).result? = none :=
    ⟨Nat.find hends, Nat.find_spec hends, fun m hm => not_not.mp (Nat.find_min hends hm)⟩
  obtain ⟨es, hmirrors, -⟩ := h.exists_after heard n
  obtain ⟨r, hget, hterminal⟩ := hmirrors.exists_terminal hn
  have hpipeline := hmirrors.pipeline?_eq hget
  refine ⟨n, r.pipeline, hbefore, ?_, ?_, ?_⟩
  · intro m hm
    rw [after_eq_of_result? hn hm]
    exact ⟨hn, hpipeline⟩
  · cases hstatus : r.pipeline.status with
    | completed => exact .inl rfl
    | failed => exact .inr rfl
    | _ => simp [hstatus, Status.isTerminal] at hterminal
  · intro m hm hinterrupt
    obtain ⟨p, hp, hfailed⟩ := h.failed_of_interrupt (hbefore m hm) hinterrupt hm
    obtain rfl := Option.some.inj (hp.symm.trans hpipeline)
    exact hfailed

/-! ### What an executor makes of it -/

theorem Mirrors.exists_drive (h : s.Mirrors config f) {id : PipelineId} {trial : Trial}
    {wait : Wait} (hcall : f.calls[0]? = some ⟨id, .waiting trial wait⟩) :
    ∃ drive, s.progress = some (.waiting drive wait) ∧ drive.trial = trial := by
  have hcalls := h.calls
  cases hprogress : s.progress with
  | none =>
    rw [hprogress] at hcalls
    rw [hcalls] at hcall
    cases hcall
  | some progress =>
    cases progress with
    | waiting drive wait' =>
      rw [hprogress] at hcalls
      obtain ⟨-, hcalls, -⟩ := hcalls
      rw [hcalls] at hcall
      cases hcall
      exact ⟨drive, rfl, rfl⟩
    | returned result =>
      rw [hprogress] at hcalls
      have hlive := hcalls _ (List.mem_of_getElem? hcall)
      cases hlive

/-- Without interrupts, and with the answers of an executor, the pipeline is not disturbed. -/
theorem Mirrors.exists_undisturbed (h : s.Mirrors config f) (hfollows : s.Follows heard b)
    (n : Nat) (hcalm : ∀ m < n, (heard m).1 ≠ .interrupt) :
    ∃ es, (s.after heard n).Mirrors config (f.run s.engine es) ∧
      f.Along s.engine (Fleet.Undisturbed b s.id config) es := by
  induction n with
  | zero => exact ⟨[], h, trivial⟩
  | succ n ih =>
    obtain ⟨es, hmirrors, halong⟩ := ih fun m hm => hcalm m (Nat.lt_succ_of_lt hm)
    obtain ⟨es', hhears, hmirrors', -⟩ := hmirrors.exists_run (heard n).1 (heard n).2
    have halong' : (f.run s.engine es).Along s.engine (Fleet.Undisturbed b s.id config) es' := by
      refine hhears.along s.engine ?_ ?_ ?_ ?_
      · exact ⟨by simp [Event.Fresh], by simp, by simp [Event.Restores], by simp [Event.Cancels],
          by simp⟩
      · intro g
        refine ⟨by simp [Event.Fresh], by simp, by simp [Event.Restores], by simp [Event.Cancels],
          ?_⟩
        rintro n move p hact - trial wait signal - rfl
        cases hact
      · intro signal hheard
        refine ⟨by simp [Event.Fresh], by simp, by simp [Event.Restores], by simp [Event.Cancels],
          ?_⟩
        rintro k move p hact hcall trial wait signal' rfl rfl hrested hresting
        cases hact
        obtain ⟨drive, hprogress, rfl⟩ := hmirrors.exists_drive hcall
        exact hfollows n drive wait signal hprogress hheard hrested hresting
      · exact fun hheard => absurd hheard (hcalm n (Nat.lt_succ_self n))
    rw [engine_after, ← Fleet.run_append] at hmirrors'
    exact ⟨es ++ es', hmirrors', (Fleet.along_append _ _ _).mpr ⟨halong, halong'⟩⟩

/-- After the `n`-th thing heard, an attempt of a stage ends, and this is how. -/
structure Concludes (s : Session) (heard : Nat → Happening × Moment) (stage : Stage) (k n : Nat)
    (signal : Signal) : Prop where
  attempt : ∃ drive wait, (s.after heard n).progress = some (.waiting drive wait) ∧
    drive.trial.resting = false ∧ drive.trial.attempt.stage = stage ∧
    drive.trial.count.toNat = k
  heard : (heard n).1 = .ended signal
  answered : signal.isRested = false

/-- An attempt ends once. -/
theorem Mirrors.concludes_unique (h : s.Mirrors config f) {stage : Stage} {k : Nat}
    {signal signal' : Signal} (hn : s.Concludes heard stage k n signal)
    (hm : s.Concludes heard stage k m signal') : signal = signal' := by
  -- the waits that are left tell how far the attempts have come
  have hwaits : ∀ {n signal}, s.Concludes heard stage k n signal →
      (s.after heard n).waits config.retryBudget =
        stage.after.length * stageWaits config.retryBudget +
          2 * (config.retryBudget.toNat - k) + 1 := by
    intro n signal hn
    obtain ⟨drive, wait, hprogress, hresting, rfl, rfl⟩ := hn.attempt
    simp [waits, hprogress, Point.ofProgress, Point.waits, hresting]
  have hlt : ∀ {n m signal signal'}, s.Concludes heard stage k n signal →
      s.Concludes heard stage k m signal' → ¬ n < m := by
    intro n m signal signal' hn hm hnm
    obtain ⟨drive, wait, hprogress, hresting, -⟩ := hn.attempt
    obtain ⟨es, hmirrors, -⟩ := h.exists_after heard n
    have hawaits : (s.after heard n).Awaits (heard n).1 := by
      rw [hn.heard]
      exact ⟨drive, wait, hprogress, by
        rw [hn.answered, hmirrors.isRest_eq hprogress, hresting]⟩
    have hless := (h.waits_after_succ heard n).2 hawaits
    have hsucc : n + 1 ≤ m := hnm
    have hle := h.waits_after_le heard hsucc
    rw [hwaits hn] at hless
    rw [hwaits hm] at hle
    omega
  obtain rfl : n = m := Nat.le_antisymm (not_lt.mp (hlt hm hn)) (not_lt.mp (hlt hn hm))
  have hheard := hn.heard.symm.trans hm.heard
  cases hheard
  rfl

/-- Whatever a session hears of its attempts, some executor answers like that. -/
theorem Mirrors.exists_follows (h : s.Mirrors config f) (heard : Nat → Happening × Moment) :
    ∃ b, s.Follows heard b := by
  have hreply : ∀ stage k, ∃ reply : Reply, ∀ n signal, s.Concludes heard stage k n signal →
      signal = reply.signal := by
    intro stage k
    by_cases hconcludes : ∃ n signal, s.Concludes heard stage k n signal
    · obtain ⟨n, signal, hn⟩ := hconcludes
      obtain ⟨reply, hreply⟩ : ∃ reply : Reply, signal = reply.signal := by
        rcases signal with (e | content) | _ | _
        · exact ⟨.error e, rfl⟩
        · exact ⟨.text content, rfl⟩
        · exact ⟨.silence, rfl⟩
        · cases hn.answered
      exact ⟨reply, fun m signal' hm => (h.concludes_unique hm hn).trans hreply⟩
    · exact ⟨.silence, fun n signal hn => absurd ⟨n, signal, hn⟩ hconcludes⟩
  choose b hb using hreply
  refine ⟨b, fun n drive wait signal hprogress hheard hanswered hresting => ?_⟩
  exact hb _ _ n signal ⟨⟨drive, wait, hprogress, hresting, rfl, rfl⟩, hheard, hanswered⟩

end After

end Session

end CommandLine

end StagedPipeline
