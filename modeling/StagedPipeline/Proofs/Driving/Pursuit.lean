import StagedPipeline.Proofs.Driving.Trial
import StagedPipeline.Proofs.Driving.View

/-!
# A call that is left to itself

A call always has a move to make until it has ended: it looks at the store, or it hears what becomes
of its request. `Point.rank` bounds how many moves that can be, whatever the executor answers, so
that a call that is left to itself returns (`Fleet.returns_of_pursuit`).
-/

namespace StagedPipeline

/-- What becomes of a request. -/
inductive Reply where
  | text (content : String)
  | error (e : ExecutorError)
  /-- There is no answer within the time limit. -/
  | silence

/-- What ends the attempt. -/
def Reply.signal : Reply → Signal
  | text content => .answered (.ok content)
  | error e => .answered (.error e)
  | silence => .timedOut

/-- An executor whose answers depend only on the stage and on the number of the attempt. -/
abbrev Behaviour := Stage → Nat → Reply

/-- What a trial hears next. -/
def Trial.due (b : Behaviour) (t : Trial) : Signal :=
  if t.resting then .rested else (b t.attempt.stage t.count.toNat).signal

theorem Trial.isRested_due (b : Behaviour) (t : Trial) : (t.due b).isRested = t.resting := by
  unfold due
  cases t.resting with
  | true => rfl
  | false => cases b t.attempt.stage t.count.toNat <;> rfl

namespace Point

/-- The move that a call makes next if it is left to itself. -/
def due (b : Behaviour) : Point → Option Move
  | walking _ => some .proceed
  | waiting trial _ => some (.hear (trial.due b))
  | settling _ => some .proceed
  | returned _ => none
  | dropped => none

/-- A call can come to the point: the stages ahead are the last ones, and the attempts are within
the retry budget. -/
def Sound : Point → Prop
  | walking ahead => ∃ k, ahead = Stage.all.drop k
  | waiting trial _ => trial.WithinBudget
  | _ => True

/-- A bound on the moves of a call at one stage. -/
def stageRank : Nat := 2 * UInt32.size + 3

/-- A bound on the moves of a call until it ends. -/
def rank : Point → Nat
  | walking ahead => ahead.length * stageRank + 1
  | waiting trial _ =>
    trial.attempt.stage.after.length * stageRank + 2 * (UInt32.size - trial.count.toNat) +
      if trial.resting then 2 else 3
  | settling result => result.stage.after.length * stageRank + 2
  | returned _ => 0
  | dropped => 0

theorem ne_drop_of_due {b : Behaviour} {p : Point} {move : Move} (h : p.due b = some move) :
    move ≠ .drop := by
  rintro rfl
  cases p <;> simp [due] at h

theorem due_of_not_live {b : Behaviour} {p : Point} (h : p.isLive = false) : p.due b = none := by
  cases p with
  | returned result => rfl
  | dropped => rfl
  | _ => contradiction

theorem rank_pos {p : Point} (h : p.isLive = true) : 0 < p.rank := by
  cases p with
  | walking ahead => exact Nat.succ_pos _
  | waiting trial wait =>
    simp only [rank]
    split <;> omega
  | settling result => exact Nat.succ_pos _
  | returned result => contradiction
  | dropped => contradiction

/-- A call that has not ended has a move to make, and can make it. -/
theorem exists_advance_due (engine : EngineConfig) (b : Behaviour) (id : PipelineId) (now : Moment)
    (store : Store) {p : Point} (h : p.isLive = true) :
    ∃ move store' p', p.due b = some move ∧
      p.advance engine id move now store = some (store', p') := by
  cases p with
  | walking ahead => cases ahead <;> exact ⟨_, _, _, rfl, rfl⟩
  | settling result => exact ⟨_, _, _, rfl, rfl⟩
  | waiting trial wait =>
    have hsome := trial.isSome_resume (.ofEngine engine) now.elapsed (trial.isRested_due b)
    obtain ⟨⟨progress, notices⟩, hresume⟩ := Option.isSome_iff_exists.mp hsome
    exact ⟨_, store, .ofTrial progress, rfl, by simp only [advance, hresume, Option.map_some]⟩
  | returned result => contradiction
  | dropped => contradiction

end Point

section Moves

variable {engine : EngineConfig} {id : PipelineId} {r r' : PipelineRecord} {p p' : Point}
  {move : Move}

theorem Moves.sound (h : Moves engine id r p move r' p') (hp : p.Sound) : p'.Sound := by
  cases h with
  | skip hpaused hfailed hdone =>
    obtain ⟨k, hahead⟩ := hp
    obtain ⟨-, hafter⟩ := Stage.drop_eq_cons_iff.mp hahead.symm
    exact ⟨_, hafter⟩
  | begin now hpaused hfailed hopen => exact ⟨by simp, by simp⟩
  | record now hfailed hsuccess => exact ⟨_, rfl⟩
  | hear hresume =>
    have hstep := Trial.Step.of_resume hresume
    rename_i progress notices
    cases progress with
    | waiting trial wait => exact Trial.WithinBudget.of_step hstep hp
    | finished result => trivial
  | _ => trivial

theorem Moves.ne_dropped (h : Moves engine id r p move r' p') (hmove : move ≠ .drop) :
    p' ≠ .dropped := by
  cases h with
  | hear hresume => exact Point.ofTrial_ne rfl _
  | drop now => contradiction
  | _ => nofun

theorem Trial.Step.rank_lt {settings : TrialSettings} {trial : Trial} {now : Duration}
    {signal : Signal} {progress : Trial.Progress} {wait : Wait}
    (h : trial.Step settings now signal progress) (ht : trial.WithinBudget) :
    (Point.ofTrial progress).rank < (Point.waiting trial wait).rank := by
  have hcount : trial.count.toNat < UInt32.size := trial.count.toNat_lt
  cases h with
  | succeed hresting =>
    simp only [Point.ofTrial, Point.rank, Trial.success, hresting, Bool.false_eq_true, if_false]
    omega
  | exhaust hresting hfailure hspent =>
    simp only [Point.ofTrial, Point.rank, Trial.failure, hresting, Bool.false_eq_true, if_false]
    omega
  | rest hresting hfailure hleft =>
    simp only [Point.ofTrial, Point.rank, hresting, Bool.false_eq_true, if_false, if_true]
    omega
  | again hresting =>
    have hnext := Trial.toNat_count_succ (ht.resting hresting)
    have hbound : (trial.count + 1).toNat < UInt32.size := (trial.count + 1).toNat_lt
    simp only [Point.ofTrial, Point.rank, hresting, hnext, Bool.false_eq_true, if_false, if_true]
    omega

/-- Every move brings the call nearer to its end. -/
theorem Moves.rank_lt (h : Moves engine id r p move r' p') (hp : p.Sound) : p'.rank < p.rank := by
  cases h with
  | skip hpaused hfailed hdone =>
    simp only [Point.rank, List.length_cons, Nat.succ_mul]
    simp only [Point.stageRank]
    omega
  | begin now hpaused hfailed hopen =>
    obtain ⟨k, hahead⟩ := hp
    obtain ⟨-, hafter⟩ := Stage.drop_eq_cons_iff.mp hahead.symm
    simp only [Point.rank, List.length_cons, Nat.succ_mul, hafter, UInt32.toNat_zero,
      Bool.false_eq_true, if_false]
    simp only [Point.stageRank]
    omega
  | record now hfailed hsuccess => exact Nat.lt_succ_self _
  | hear hresume => exact (Trial.Step.of_resume hresume).rank_lt hp
  | drop now =>
    simp only [Point.rank]
    split <;> omega
  | _ => exact Nat.succ_pos _

/-- A call is given up by nothing else than a drop. -/
theorem View.Step.dropped {v v' : View} {act : Act} {outs : List Output} {n : Nat}
    (hstep : Step engine id v act outs v') (h : v'.points n = some .dropped) :
    v.points n = some .dropped ∨ act = .advance n .drop := by
  cases hstep with
  | claim now hentry hdriven hnew =>
    rcases View.update_eq_some_iff.mp h with ⟨-, hp⟩ | ⟨-, hbefore⟩
    · contradiction
    · exact .inl hbefore
  | move hpoint hmoves =>
    rename_i move
    rcases View.update_eq_some_iff.mp h with ⟨rfl, hp⟩ | ⟨-, hbefore⟩
    · by_cases hmove : move = .drop
      · exact .inr (by rw [hmove])
      · exact absurd hp (hmoves.ne_dropped hmove)
    · exact .inl hbefore
  | _ => exact .inl h

end Moves

namespace View

variable {engine : EngineConfig} {id : PipelineId} {v v' : View} {act : Act} {outs : List Output}

/-- Every call that has claimed the pipeline stands where a call can stand. -/
structure Sound (v : View) : Prop where
  known : v.Known
  points : ∀ n p, v.points n = some p → p.Sound

theorem Sound.of_update {record : PipelineRecord} {points : Nat → Option Point} {n : Nat}
    {p : Point} (h : ∀ n p, points n = some p → p.Sound) (hp : p.Sound) :
    Sound ⟨some record, Function.update points n (some p)⟩ where
  known := by simp [Known]
  points := by
    intro m q hq
    rcases update_eq_some_iff.mp hq with ⟨-, rfl⟩ | ⟨-, hbefore⟩
    · exact hp
    · exact h m q hbefore

theorem Sound.step (hstep : Step engine id v act outs v') (h : v.Sound) : v'.Sound := by
  cases hstep with
  | claim now hentry hdriven hnew => exact .of_update h.points ⟨0, rfl⟩
  | move hpoint hmoves => exact .of_update h.points (hmoves.sound (h.points _ _ hpoint))
  | _ => exact ⟨by simp [Known], h.points⟩

end View

/-- The event is a move of a call that is not given up by it. -/
def Event.IsMove (e : Event) : Prop :=
  ∃ n move, e.act = .advance n move ∧ move ≠ .drop

namespace Fleet

variable {engine : EngineConfig} {s : Fleet} {e : Event} {id : PipelineId} {n : Nat}

theorem sound_initial (id : PipelineId) : (initial.view id).Sound where
  known := by simp [View.Known, view, initial]
  points := by simp [view, initial]

theorem sound_next (hfresh : e.Fresh s) (h : (s.view id).Sound) :
    ((s.next engine e).view id).Sound :=
  holds_next hfresh h.known h fun _ hstep => h.step hstep

/-- The run in which one call makes its moves, at some moments, until it has ended. -/
def pursuit (engine : EngineConfig) (b : Behaviour) (n : Nat) : Fleet → List Moment → List Event
  | _, [] => []
  | s, now :: nows =>
    match (s.calls[n]?).bind (·.point.due b) with
    | none => []
    | some move =>
      ⟨.advance n move, now⟩ :: pursuit engine b n (s.next engine ⟨.advance n move, now⟩) nows

theorem pursuit_cons {b : Behaviour} {call : Call} {move : Move} (now : Moment)
    (nows : List Moment) (hcall : s.calls[n]? = some call) (hdue : call.point.due b = some move) :
    s.pursuit engine b n (now :: nows) =
      ⟨.advance n move, now⟩ ::
        (s.next engine ⟨.advance n move, now⟩).pursuit engine b n nows := by
  simp only [pursuit, hcall, Option.bind_some, hdue]

theorem pursuit_of_ended {b : Behaviour} {call : Call} (nows : List Moment)
    (hcall : s.calls[n]? = some call) (hended : call.point.isLive = false) :
    s.pursuit engine b n nows = [] := by
  cases nows with
  | nil => rfl
  | cons now nows =>
    simp only [pursuit, hcall, Option.bind_some, Point.due_of_not_live hended]

/-- What a pursuit does is admitted if the moves are that the call has to make. -/
theorem along_pursuit {admits : Fleet → Event → Prop} {b : Behaviour} (nows : List Moment)
    (h : ∀ s call move now, s.calls[n]? = some call → call.point.due b = some move →
      admits s ⟨.advance n move, now⟩) :
    s.Along engine admits (s.pursuit engine b n nows) := by
  induction nows generalizing s with
  | nil => trivial
  | cons now nows ih =>
    unfold pursuit
    split
    · trivial
    · rename_i move hmove
      obtain ⟨call, hcall, hdue⟩ := Option.bind_eq_some_iff.mp hmove
      exact ⟨h s call move now hcall hdue, ih⟩

theorem along_pursuit_isMove {b : Behaviour} (nows : List Moment) :
    s.Along engine (fun _ e => e.IsMove) (s.pursuit engine b n nows) :=
  along_pursuit nows fun _ _ move _ _ hdue => ⟨n, move, rfl, Point.ne_drop_of_due hdue⟩

/-- A call that can stand where it does, and is left to itself for long enough, returns. -/
theorem returned_of_pursuit (engine : EngineConfig) (b : Behaviour) {r : PipelineRecord}
    {p : Point} {nows : List Moment} (hcall : s.calls[n]? = some ⟨id, p⟩)
    (hget : s.store.get? id = some r) (hlive : p.isLive = true) (hsound : p.Sound)
    (hlong : p.rank ≤ nows.length) :
    ∃ result, (s.run engine (s.pursuit engine b n nows)).calls[n]? =
      some ⟨id, .returned result⟩ := by
  induction nows generalizing s p r with
  | nil =>
    have hpos := Point.rank_pos hlive
    rw [List.length_nil] at hlong
    omega
  | cons now nows ih =>
    obtain ⟨move, store, p', hdue, hadvance⟩ :=
      Point.exists_advance_due engine b id now s.store hlive
    rw [pursuit_cons now nows hcall hdue, run_cons]
    obtain ⟨r', hmoves, hget'⟩ := Moves.of_advance hget hadvance
    have hrank := hmoves.rank_lt hsound
    have hcall' : (s.next engine ⟨.advance n move, now⟩).calls[n]? = some ⟨id, p'⟩ := by
      rw [next_advance hcall hadvance]
      exact List.getElem?_set_self (List.getElem?_eq_some_iff.mp hcall).1
    cases hp : p'.isLive with
    | true =>
      have hshort : p'.rank ≤ nows.length := by
        rw [List.length_cons] at hlong
        omega
      have hget'' : (s.next engine ⟨.advance n move, now⟩).store.get? id = some r' := by
        rw [next_advance hcall hadvance]
        exact hget'
      exact ih hcall' hget'' hp (hmoves.sound hsound) hshort
    | false =>
      rw [pursuit_of_ended nows hcall' hp, run_nil, hcall']
      have hne := hmoves.ne_dropped (Point.ne_drop_of_due hdue)
      cases p' with
      | returned result => exact ⟨result, rfl⟩
      | dropped => contradiction
      | _ => contradiction

/-- A call that is left to itself for long enough returns. -/
theorem returns_of_pursuit (engine : EngineConfig) (b : Behaviour) {call : Call}
    {nows : List Moment} (hcall : s.calls[n]? = some call) (hlive : call.point.isLive = true)
    (hsound : (s.view call.id).Sound) (hlong : call.point.rank ≤ nows.length) :
    ∃ result, (s.run engine (s.pursuit engine b n nows)).calls[n]? =
      some ⟨call.id, .returned result⟩ := by
  have hpoint : (s.view call.id).points n = some call.point := points_view_eq_some_iff.mpr hcall
  cases hget : s.store.get? call.id with
  | none => exact absurd hpoint (hsound.known.ne_some hget)
  | some r =>
    exact returned_of_pursuit engine b hcall hget hlive (hsound.points n _ hpoint) hlong

end Fleet

end StagedPipeline
