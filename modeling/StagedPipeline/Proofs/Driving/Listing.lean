import StagedPipeline.Proofs.Driving.Lifecycle
import StagedPipeline.Proofs.Pipeline.Reconciliation

/-!
# The list of all pipelines

The list holds every pipeline once, as it is when a caller asks for it alone, and it is in ascending
order of the identifiers (`Fleet.listed`). Nothing ties an identifier to the time of creation: a
pipeline that is restored brings both with it, and of two that are created within the same
millisecond either may get the smaller one. The list is therefore the oldest first exactly if the
two orders agree on what is held. If identifiers begin with the millisecond of creation, it is the
oldest first up to the millisecond.
-/

namespace StagedPipeline

/-! ### Times -/

namespace Instant

/-- Points in time in their order; the nanoseconds of a leap second come last in theirs. -/
instance : LE Instant :=
  ⟨fun a b => a.seconds < b.seconds ∨ a.seconds = b.seconds ∧ a.nanoseconds ≤ b.nanoseconds⟩

instance (a b : Instant) : Decidable (a ≤ b) :=
  inferInstanceAs (Decidable (_ ∨ _ ∧ _))

/-- Whole milliseconds since the start of 1970. -/
def millisecond (t : Instant) : Int :=
  t.seconds * 1000 + (t.nanoseconds / 1000000 : Nat)

end Instant

/-- The millisecond that an identifier begins with; the lower 80 bits are drawn at random. -/
def PipelineId.millisecond (id : PipelineId) : Int :=
  (id.value.val / Nat.pow 2 80 : Nat)

theorem PipelineId.millisecond_mono {a b : PipelineId} (h : a < b) :
    a.millisecond ≤ b.millisecond := by
  have hle : a.value.val ≤ b.value.val := Nat.le_of_lt h
  exact Int.ofNat_le.mpr (Nat.div_le_div_right hle)

/-- If a list is strictly ordered in one way, it is ordered in another one exactly if the first way
implies the second among its elements. -/
theorem pairwise_iff_of_pairwise {α : Type} {lt r : α → α → Prop} {l : List α}
    (hl : l.Pairwise lt) (hirrefl : ∀ a, ¬ lt a a) (hasymm : ∀ a b, lt a b → ¬ lt b a) :
    l.Pairwise r ↔ ∀ a ∈ l, ∀ b ∈ l, lt a b → r a b := by
  constructor
  · intro hr a ha b hb hab
    obtain ⟨i, hi, rfl⟩ := List.getElem_of_mem ha
    obtain ⟨j, hj, rfl⟩ := List.getElem_of_mem hb
    rcases Nat.lt_trichotomy i j with hij | rfl | hji
    · exact List.pairwise_iff_getElem.mp hr i j hi hj hij
    · exact absurd hab (hirrefl _)
    · exact absurd hab (hasymm _ _ (List.pairwise_iff_getElem.mp hl j i hj hi hji))
  · intro h
    exact hl.imp_of_mem fun ha hb hab => h _ ha _ hb hab

/-! ### What a store lists -/

namespace Store

variable {s : Store} {id : PipelineId} {r : PipelineRecord}

/-- Every record stands under the identifier of its pipeline. -/
def Keyed (s : Store) : Prop :=
  ∀ id r, s.get? id = some r → r.pipeline.id = id

theorem lookup_of_mem {entries : List (PipelineId × PipelineRecord)}
    (h : (entries.map (·.1)).Pairwise (· < ·)) (hmem : (id, r) ∈ entries) :
    entries.lookup id = some r := by
  obtain ⟨front, back, rfl⟩ := List.append_of_mem hmem
  rw [List.map_append, List.pairwise_append] at h
  refine List.lookup_eq_some_iff.mpr ⟨front, back, rfl, fun entry hentry => ?_⟩
  have hlt : entry.1 < id := h.2.2 _ (List.mem_map_of_mem hentry) _ List.mem_cons_self
  exact bne_iff_ne.mpr (PipelineId.ne_of_lt hlt).symm

theorem Ascending.mem_entries_iff (h : s.Ascending) : (id, r) ∈ s.entries ↔ s.get? id = some r := by
  constructor
  · exact lookup_of_mem h
  · intro hget
    obtain ⟨front, back, hentries, -⟩ := List.lookup_eq_some_iff.mp hget
    rw [hentries]
    exact List.mem_append_right _ List.mem_cons_self

theorem Ascending.mem_pipelines_iff (h : s.Ascending) {p : Pipeline} :
    p ∈ s.pipelines ↔ ∃ id r, s.get? id = some r ∧ r.pipeline = p := by
  simp only [pipelines, toList, List.mem_map, Prod.exists, exists_eq_right, h.mem_entries_iff]
  constructor
  · rintro ⟨r, ⟨id, hget⟩, rfl⟩
    exact ⟨id, r, hget, rfl⟩
  · rintro ⟨id, r, hget, rfl⟩
    exact ⟨r, ⟨id, hget⟩, rfl⟩

/-- The list tells of a pipeline what is told of it alone. -/
theorem Ascending.pipeline?_eq_some_iff (h : s.Ascending) (hkeyed : s.Keyed) {p : Pipeline} :
    s.pipeline? id = some p ↔ p ∈ s.pipelines ∧ p.id = id := by
  rw [h.mem_pipelines_iff]
  constructor
  · intro hp
    obtain ⟨r, hget, rfl⟩ := Option.map_eq_some_iff.mp hp
    exact ⟨⟨id, r, hget, rfl⟩, hkeyed id r hget⟩
  · rintro ⟨⟨id', r, hget, rfl⟩, hid⟩
    obtain rfl : id' = id := (hkeyed id' r hget).symm.trans hid
    exact Option.map_eq_some_iff.mpr ⟨r, hget, rfl⟩

/-- The list is in the order of the identifiers, so that no pipeline is in it twice. -/
theorem Ascending.pairwise_pipelines (h : s.Ascending) (hkeyed : s.Keyed) :
    s.pipelines.Pairwise fun p q => p.id < q.id := by
  have hids : s.pipelines.map (·.id) = s.entries.map (·.1) := by
    rw [pipelines, toList, List.map_map, List.map_map]
    exact List.map_congr_left fun entry hentry =>
      hkeyed entry.1 entry.2 (h.mem_entries_iff.mp hentry)
  rw [← List.pairwise_map, hids]
  exact h

end Store

/-! ### Where records come from -/

namespace Event

/-- The event brings a record about, for a pipeline with this identifier and time of creation. -/
inductive Bears (id : PipelineId) (t : Instant) : Event → Prop
  | create {config : PipelineConfig} {now : Moment} (ht : now.instant = t) :
      Bears id t ⟨.create id config, now⟩
  | restore {pipeline : Pipeline} {config : PipelineConfig} {now : Moment} (hid : pipeline.id = id)
      (ht : pipeline.createdAt = t) : Bears id t ⟨.restore pipeline config, now⟩

/-- A pipeline that the event creates or restores has an identifier that begins with the millisecond
of its creation. -/
def Stamped (e : Event) : Prop :=
  ∀ id t, e.Bears id t → id.millisecond = t.millisecond

end Event

namespace Fleet

variable {engine : EngineConfig} {s : Fleet} {e : Event} {es : List Event} {id : PipelineId}
  {holds : PipelineId → Instant → Prop}

/-- A pipeline without a record has no calls. -/
theorem Known.view (h : s.Known) (id : PipelineId) : (s.view id).Known := by
  intro hnone n
  by_contra hsome
  obtain ⟨p, hp⟩ := Option.ne_none_iff_exists'.mp hsome
  have hcall : s.calls[n]? = some ⟨id, p⟩ := points_view_eq_some_iff.mp hp
  obtain ⟨r, hget⟩ := h id (List.mem_map_of_mem (List.mem_of_getElem? hcall))
  have hrecord : s.store.get? id = none := hnone
  rw [hget] at hrecord
  contradiction

/-- Every record stands under the identifier of its pipeline, and the time of its creation is as it
should be for that. -/
def Holds (holds : PipelineId → Instant → Prop) (s : Fleet) : Prop :=
  ∀ id r, s.store.get? id = some r → r.pipeline.id = id ∧ holds id r.pipeline.createdAt

theorem holds_initial (holds : PipelineId → Instant → Prop) : initial.Holds holds := by
  intro id r hget
  rw [initial, Store.get?_empty] at hget
  contradiction

theorem Holds.create (h : s.Holds holds) {config : PipelineConfig} {now : Moment}
    (he : holds id now.instant) : (s.next engine ⟨.create id config, now⟩).Holds holds := by
  intro other r hget
  cases hrefusal : config.refusal? with
  | some refusal =>
    rw [next, react_create_of_refusal _ _ hrefusal] at hget
    exact h other r hget
  | none =>
    rw [next, react_create_of_accepted _ _ hrefusal] at hget
    by_cases hother : other = id
    · subst hother
      have hput := Store.get?_put_self s.store (.ofPipeline (.pending other now.instant) config)
      obtain rfl := Option.some.inj (hput.symm.trans hget)
      exact ⟨rfl, he⟩
    · have hput :=
        Store.get?_put_of_ne s.store (.ofPipeline (.pending id now.instant) config) hother
      exact h other r (hput.symm.trans hget)

end Fleet

/-- A record is brought about by the event, or it has grown from one that was there. -/
theorem View.Step.restored_or_grows {engine : EngineConfig} {id : PipelineId} {v v' : View}
    {act : Act} {outs : List Output} {r' : PipelineRecord}
    (hstep : View.Step engine id v act outs v') (hcreate : ∀ config, act ≠ .create id config)
    (hr' : v'.record = some r') :
    (∃ pipeline config now, act = .restore pipeline config ∧ pipeline.id = id ∧
      r' = .adopt pipeline config now) ∨
    ∃ r, v.record = some r ∧ r.Grows r' := by
  cases hstep with
  | create now haccepted => exact absurd rfl (hcreate _)
  | restore now hid => exact .inl ⟨_, _, now.instant, rfl, hid, (Option.some.inj hr').symm⟩
  | move hpoint hmoves =>
    obtain rfl := Option.some.inj hr'
    exact .inr ⟨_, rfl, hmoves.grows⟩
  | _ =>
    obtain rfl := Option.some.inj hr'
    exact .inr ⟨_, rfl, .of_eq rfl rfl rfl rfl rfl rfl⟩

namespace Fleet

variable {engine : EngineConfig} {s : Fleet} {e : Event} {es : List Event}
  {holds : PipelineId → Instant → Prop}

/-- An event that creates no pipeline: it restores one, or all records grow. -/
theorem Holds.next_of_ne_create (h : s.Holds holds) (hknown : s.Known)
    (hcreate : ∀ id config, e.act ≠ .create id config)
    (he : ∀ pipeline config, e.act = .restore pipeline config →
      holds pipeline.id pipeline.createdAt) : (s.next engine e).Holds holds := by
  have hfresh : e.Fresh s := fun id config hact => absurd hact (hcreate id config)
  intro id r' hget'
  rcases accounted engine hfresh (hknown.view id) with ⟨hsame, -⟩ | hstep
  · have hget : s.store.get? id = some r' := (congrArg View.record hsame).symm.trans hget'
    exact h id r' hget
  · rcases hstep.restored_or_grows (hcreate id) hget' with
      ⟨pipeline, config, now, hact, rfl, rfl⟩ | ⟨r, hget, hgrows⟩
    · obtain ⟨t, hadopt⟩ := PipelineRecord.adopt_eq pipeline config now
      rw [hadopt]
      exact ⟨rfl, he pipeline config hact⟩
    · obtain ⟨hid, hholds⟩ := h id r hget
      rw [hgrows.id, hgrows.createdAt]
      exact ⟨hid, hholds⟩

theorem Holds.next (h : s.Holds holds) (hknown : s.Known)
    (he : ∀ id t, e.Bears id t → holds id t) : (s.next engine e).Holds holds := by
  obtain ⟨act, now⟩ := e
  cases act with
  | create id config => exact h.create (he id now.instant (.create rfl))
  | restore pipeline config =>
    refine h.next_of_ne_create hknown nofun fun p c hact => ?_
    cases hact
    exact he _ _ (.restore rfl rfl)
  | _ => exact h.next_of_ne_create hknown nofun fun _ _ hact => by contradiction

/-- What holds of every pipeline that is created or restored holds of every pipeline there is. -/
theorem Holds.run (h : s.Holds holds) (hknown : s.Known)
    (hes : ∀ e ∈ es, ∀ id t, e.Bears id t → holds id t) : (s.run engine es).Holds holds := by
  induction es generalizing s with
  | nil => exact h
  | cons e es ih =>
    obtain ⟨he, hes⟩ := List.forall_mem_cons.mp hes
    exact ih (h.next hknown he) (known_next hknown) hes

theorem keyed_run (engine : EngineConfig) (es : List Event) :
    (initial.run engine es).store.Keyed := by
  have hholds : (initial.run engine es).Holds fun _ _ => True :=
    (holds_initial _).run known_initial fun _ _ _ _ _ => trivial
  exact fun id r hget => (hholds id r hget).1

/-- **The list of all pipelines.** Whatever has happened to an engine, the list tells of every
pipeline that it holds what is told of it alone, and of no other, and it is in ascending order of
the identifiers, each of them once. It is the oldest first exactly if of any two of its pipelines
the one with the smaller identifier was not created later. If the identifiers begin with the
millisecond of creation, it is the oldest first up to the millisecond. -/
theorem listed (engine : EngineConfig) (es : List Event) :
    (∀ id p, (initial.run engine es).store.pipeline? id = some p ↔
      p ∈ (initial.run engine es).store.pipelines ∧ p.id = id) ∧
    ((initial.run engine es).store.pipelines.Pairwise fun p q => p.id < q.id) ∧
    (((initial.run engine es).store.pipelines.Pairwise fun p q => p.createdAt ≤ q.createdAt) ↔
      ∀ p ∈ (initial.run engine es).store.pipelines,
        ∀ q ∈ (initial.run engine es).store.pipelines, p.id < q.id → p.createdAt ≤ q.createdAt) ∧
    ((∀ e ∈ es, e.Stamped) → (initial.run engine es).store.pipelines.Pairwise fun p q =>
      p.createdAt.millisecond ≤ q.createdAt.millisecond) := by
  have hascending : (initial.run engine es).store.Ascending :=
    ascending_run Store.ascending_empty es
  have hkeyed := keyed_run engine es
  have hordered := hascending.pairwise_pipelines hkeyed
  refine ⟨fun id p => hascending.pipeline?_eq_some_iff hkeyed, hordered, ?_, fun hstamped => ?_⟩
  · exact pairwise_iff_of_pairwise hordered (fun p h => PipelineId.ne_of_lt h rfl)
      fun p q hpq hqp => PipelineId.ne_of_lt (PipelineId.lt_trans hpq hqp) rfl
  · have hholds : (initial.run engine es).Holds fun id t => id.millisecond = t.millisecond :=
      (holds_initial _).run known_initial hstamped
    refine hordered.imp_of_mem fun {p q} hp hq hlt => ?_
    obtain ⟨id, r, hget, rfl⟩ := hascending.mem_pipelines_iff.mp hp
    obtain ⟨id', r', hget', rfl⟩ := hascending.mem_pipelines_iff.mp hq
    obtain ⟨hid, hstamp⟩ := hholds id r hget
    obtain ⟨hid', hstamp'⟩ := hholds id' r' hget'
    rw [← hstamp, ← hstamp', ← hid, ← hid']
    exact PipelineId.millisecond_mono hlt

/-- A pipeline is created, and then one is restored that is a millisecond older. -/
def stampedRun : List Event :=
  [⟨.create (.ofNat (2 * Nat.pow 2 80)) singleAttempt, ⟨.zero, ⟨0, 2000000⟩⟩⟩,
    ⟨.restore (.pending (.ofNat (Nat.pow 2 80)) ⟨0, 1000000⟩) singleAttempt, ⟨.zero, ⟨0, 3000000⟩⟩⟩]

/-- The older one comes first. -/
theorem listed_of_stampedRun :
    (∀ e ∈ stampedRun, e.Stamped) ∧
      ((initial.run .initial stampedRun).store.pipelines.Pairwise fun p q =>
        p.createdAt.millisecond ≤ q.createdAt.millisecond) ∧
      (initial.run .initial stampedRun).store.pipelines.map (·.createdAt) =
        [⟨0, 1000000⟩, ⟨0, 2000000⟩] := by
  have hstamped : ∀ e ∈ stampedRun, e.Stamped := by
    simp only [stampedRun, List.forall_mem_cons, List.not_mem_nil, false_implies, implies_true,
      and_true]
    constructor
    · rintro id t ⟨rfl⟩
      rfl
    · rintro id t (_ | ⟨rfl, rfl⟩)
      rfl
  obtain ⟨-, -, -, holdest⟩ := listed .initial stampedRun
  exact ⟨hstamped, holdest hstamped, rfl⟩

/-- Two pipelines are restored; the one with the smaller identifier was created a day later. -/
def unstampedRun : List Event :=
  [⟨.restore (.pending (.ofNat 2) ⟨0, 0⟩) singleAttempt, ⟨.zero, ⟨86400, 0⟩⟩⟩,
    ⟨.restore (.pending (.ofNat 1) ⟨86400, 0⟩) singleAttempt, ⟨.zero, ⟨86400, 0⟩⟩⟩]

/-- It comes first all the same. -/
theorem listed_not_oldest_first :
    (initial.run .initial unstampedRun).store.pipelines.map (·.createdAt) =
        [⟨86400, 0⟩, ⟨0, 0⟩] ∧
      ¬ (initial.run .initial unstampedRun).store.pipelines.Pairwise fun p q =>
        p.createdAt ≤ q.createdAt := by
  have hlist : (initial.run .initial unstampedRun).store.pipelines.map (·.createdAt) =
      [⟨86400, 0⟩, ⟨0, 0⟩] := rfl
  refine ⟨hlist, fun hpairwise => ?_⟩
  rw [← List.pairwise_map (f := fun p : Pipeline => p.createdAt), hlist] at hpairwise
  exact absurd hpairwise (by decide)

end Fleet

end StagedPipeline
