import StagedPipeline.Proofs.Driving.Fleet

/-!
# What an event writes

An event is about one pipeline, and of all records it changes that one at most: it puts a new one in
its place or makes a transition of the one that is there (`Store.Writes`). What holds of a store
after every such change is therefore checked for these two. The identifiers of a store stay in
ascending order, each of them once (`Store.Ascending`), and none that is known is forgotten, so that
every call drives a pipeline that is known (`Fleet.Known`).
-/

namespace StagedPipeline

theorem PipelineId.lt_trans {a b c : PipelineId} (hab : a < b) (hbc : b < c) : a < c :=
  Nat.lt_trans hab hbc

theorem PipelineId.ne_of_lt {a b : PipelineId} (h : a < b) : a ≠ b := by
  rintro rfl
  exact Nat.lt_irrefl _ h

theorem PipelineId.lt_of_not_lt {a b : PipelineId} (hne : a ≠ b) (h : ¬ a < b) : b < a := by
  refine Nat.lt_of_le_of_ne (Nat.le_of_not_lt h) fun heq => hne ?_
  cases a
  cases b
  exact congrArg mk (Fin.ext heq.symm)

namespace Store

variable {s t : Store} {id other : PipelineId} {r : PipelineRecord}

/-! ### The order of a store -/

/-- The identifiers are in ascending order, so that none of them occurs twice. -/
def Ascending (s : Store) : Prop :=
  (s.entries.map (·.1)).Pairwise (· < ·)

theorem ascending_empty : empty.Ascending := .nil

theorem mem_keys_insertEntry {key : PipelineId} {entries : List (PipelineId × PipelineRecord)}
    (h : key ∈ (insertEntry id r entries).map (·.1)) : key = id ∨ key ∈ entries.map (·.1) := by
  induction entries with
  | nil => exact .inl (List.mem_singleton.mp h)
  | cons entry rest ih =>
    unfold insertEntry at h
    split at h
    · rename_i heq
      rcases List.mem_cons.mp h with rfl | h
      · exact .inl rfl
      · exact .inr (List.mem_cons_of_mem _ h)
    · split at h
      · exact List.mem_cons.mp h
      · rcases List.mem_cons.mp h with rfl | h
        · exact .inr List.mem_cons_self
        · exact (ih h).imp_right (List.mem_cons_of_mem _)

/-- A record is put in its place. -/
theorem pairwise_insertEntry {entries : List (PipelineId × PipelineRecord)}
    (h : (entries.map (·.1)).Pairwise (· < ·)) :
    ((insertEntry id r entries).map (·.1)).Pairwise (· < ·) := by
  induction entries with
  | nil => exact List.pairwise_singleton _ _
  | cons entry rest ih =>
    obtain ⟨key, held⟩ := entry
    obtain ⟨hkey, hrest⟩ := List.pairwise_cons.mp h
    unfold insertEntry
    split
    · rename_i heq
      subst heq
      exact h
    · rename_i hne
      split
      · rename_i hlt
        refine List.pairwise_cons.mpr ⟨fun k hk => ?_, h⟩
        rcases List.mem_cons.mp hk with rfl | hk
        · exact hlt
        · exact PipelineId.lt_trans hlt (hkey k hk)
      · rename_i hlt
        refine List.pairwise_cons.mpr ⟨fun k hk => ?_, ih hrest⟩
        rcases mem_keys_insertEntry hk with rfl | hk
        · exact PipelineId.lt_of_not_lt hne hlt
        · exact hkey k hk

theorem keys_set (s : Store) (id : PipelineId) (r : PipelineRecord) :
    (s.set id r).entries.map (·.1) = s.entries.map (·.1) := by
  unfold set
  rw [List.map_map]
  refine List.map_congr_left fun entry _ => ?_
  simp only [Function.comp_apply]
  split
  · rename_i heq
    exact heq.symm
  · rfl

theorem Ascending.put (h : s.Ascending) (r : PipelineRecord) : (s.put r).Ascending :=
  pairwise_insertEntry h

theorem Ascending.update (h : s.Ascending) {α : Type}
    (f : PipelineRecord → PipelineRecord × Except PipelineError α) :
    (s.update id f).1.Ascending := by
  unfold Store.update
  split
  · exact h
  · rename_i r _
    exact (congrArg (List.Pairwise (· < ·)) (s.keys_set id (f r).1)).mpr h

private theorem map_eq_self_of_lookup {entries : List (PipelineId × PipelineRecord)}
    (h : (entries.map (·.1)).Pairwise (· < ·)) (hget : entries.lookup id = some r) :
    (entries.map fun entry => if entry.1 = id then (id, r) else entry) = entries := by
  induction entries with
  | nil => rfl
  | cons entry rest ih =>
    obtain ⟨key, held⟩ := entry
    obtain ⟨hkey, hrest⟩ := List.pairwise_cons.mp h
    rw [List.map_cons]
    by_cases heq : key = id
    · subst heq
      obtain rfl : held = r := by simpa using hget
      have hother : ∀ entry ∈ rest, (if entry.1 = key then (key, held) else entry) = entry := by
        intro entry hentry
        have hlt : key < entry.1 := hkey _ (List.mem_map_of_mem hentry)
        exact if_neg (PipelineId.ne_of_lt hlt).symm
      rw [List.map_congr_left hother, List.map_id']
      simp
    · have hne : (id == key) = false := by simp [Ne.symm heq]
      rw [List.lookup_cons, hne] at hget
      rw [if_neg heq, ih hrest hget]

/-- A record that is replaced by itself. -/
theorem Ascending.set_eq_self (h : s.Ascending) (hget : s.get? id = some r) : s.set id r = s :=
  congrArg mk (map_eq_self_of_lookup h hget)

/-! ### One change -/

/-- What becomes of a store if the record of one pipeline is changed at most. -/
inductive Writes (id : PipelineId) (s : Store) : Store → Prop
  | none : Writes id s s
  | put (r : PipelineRecord) (hid : r.pipeline.id = id) : Writes id s (s.put r)
  | update {α : Type} (f : PipelineRecord → PipelineRecord × Except PipelineError α) :
      Writes id s (s.update id f).1

namespace Writes

theorem get?_of_ne (h : s.Writes id t) (hne : other ≠ id) : t.get? other = s.get? other := by
  cases h with
  | none => rfl
  | put r hid => exact get?_put_of_ne s r (hid ▸ hne)
  | update f => exact get?_update_of_ne f hne

/-- A pipeline that is known stays known. -/
theorem exists_get? (h : s.Writes id t) (hget : s.get? other = some r) :
    ∃ r', t.get? other = some r' := by
  by_cases hne : other = id
  · subst hne
    cases h with
    | none => exact ⟨r, hget⟩
    | put r' hid =>
      subst hid
      exact ⟨r', get?_put_self s r'⟩
    | update f => exact ⟨_, get?_update_self f hget⟩
  · exact ⟨r, (h.get?_of_ne hne).trans hget⟩

theorem ascending (h : s.Writes id t) (hs : s.Ascending) : t.Ascending := by
  cases h with
  | none => exact hs
  | put r hid => exact hs.put r
  | update f => exact hs.update f

end Writes

end Store

/-! ### Events -/

/-- A call writes the record of its own pipeline at most. -/
theorem Point.writes_advance {engine : EngineConfig} {id : PipelineId} {move : Move} {now : Moment}
    {store store' : Store} {p p' : Point}
    (h : p.advance engine id move now store = some (store', p')) : store.Writes id store' := by
  unfold advance at h
  split at h
  · split at h
    · obtain ⟨rfl, -⟩ := Prod.mk.inj (Option.some.inj h)
      rw [Drive.store_finish]
      exact .update _
    · contradiction
  · split at h
    · obtain ⟨rfl, -⟩ := Prod.mk.inj (Option.some.inj h)
      rw [Drive.store_visit]
      exact .update _
    · contradiction
  · split at h
    · obtain ⟨rfl, -⟩ := Prod.mk.inj (Option.some.inj h)
      rw [Drive.store_handIn]
      exact .update _
    · contradiction
  · split at h
    · obtain ⟨answer, -, h⟩ := Option.map_eq_some_iff.mp h
      obtain ⟨rfl, -⟩ := Prod.mk.inj h
      exact .none
    · obtain ⟨rfl, -⟩ := Prod.mk.inj (Option.some.inj h)
      rw [Drive.store_drop]
      exact .update _
    · contradiction
  · contradiction
  · contradiction

/-- The pipeline that an output is about. -/
def Output.subject : Output → PipelineId
  | request _ id _ _ => id
  | returned _ id _ => id
  | answered id _ => id
  | acknowledged id _ => id
  | restored pipeline => pipeline.id

theorem Point.subject_of_mem_outputs {n : Nat} {id : PipelineId} {p : Point} {o : Output}
    (h : o ∈ p.outputs n id) : o.subject = id := by
  unfold Point.outputs at h
  split at h
  · rw [List.mem_singleton.mp h]
    rfl
  · rw [List.mem_singleton.mp h]
    rfl
  · contradiction

namespace Fleet

variable {engine : EngineConfig} {s : Fleet} {e : Event} {id : PipelineId}

/-- The pipeline that is concerned if something happens. A call that is not there concerns none. -/
def subject? (s : Fleet) : Act → Option PipelineId
  | .create id _ => some id
  | .drive _ id => some id
  | .pause id => some id
  | .cancel id => some id
  | .restore pipeline _ => some pipeline.id
  | .advance n _ => s.calls[n]?.map (·.id)

/-- Nothing happens if no pipeline is concerned. -/
theorem react_of_subject?_eq_none (h : s.subject? e.act = none) :
    s.react engine e = (s, []) := by
  obtain ⟨act, now⟩ := e
  cases act with
  | advance n move =>
    have hcall : s.calls[n]? = none := Option.map_eq_none_iff.mp h
    simp only [react, hcall]
  | _ => contradiction

/-- An event writes the record of the pipeline that it concerns, at most. -/
theorem writes_next (h : s.subject? e.act = some id) :
    s.store.Writes id (s.next engine e).store := by
  obtain ⟨act, now⟩ := e
  simp only [next, react]
  cases act with
  | create other config =>
    obtain rfl := Option.some.inj h
    simp only [Engine.create]
    split
    · exact .none
    · exact .put _ rfl
  | drive entry other =>
    obtain rfl := Option.some.inj h
    have hstore : s.store.Writes other (Engine.claim entry other now s.store).store := by
      rw [Engine.store_claim]
      exact .update _
    dsimp only
    split
    · exact hstore
    · exact hstore
  | pause other =>
    obtain rfl := Option.some.inj h
    dsimp only
    rw [Engine.store_pause]
    exact .update _
  | cancel other =>
    obtain rfl := Option.some.inj h
    dsimp only
    rw [Engine.store_cancel]
    exact .update _
  | restore pipeline config =>
    obtain rfl := Option.some.inj h
    exact .put _ (PipelineRecord.id_adopt ..)
  | advance n move =>
    obtain ⟨call, hcall, rfl⟩ := Option.map_eq_some_iff.mp h
    simp only [hcall]
    split
    · exact .none
    · rename_i hadvance
      exact Point.writes_advance hadvance

/-- An event leaves the records of all pipelines alone that it does not concern. -/
theorem get?_next_of_subject?_ne (h : s.subject? e.act ≠ some id) :
    (s.next engine e).store.get? id = s.store.get? id := by
  cases hsubject : s.subject? e.act with
  | none => rw [next, react_of_subject?_eq_none hsubject]
  | some other =>
    refine (writes_next hsubject).get?_of_ne ?_
    rintro rfl
    exact h hsubject

/-- What comes out in an event is about the pipeline that it concerns. -/
theorem subject_of_mem_react (h : s.subject? e.act = some id) {o : Output}
    (ho : o ∈ (s.react engine e).2) : o.subject = id := by
  obtain ⟨act, now⟩ := e
  cases act with
  | drive entry other =>
    obtain rfl := Option.some.inj h
    simp only [react] at ho
    split at ho
    · rw [List.mem_singleton.mp ho]
      rfl
    · contradiction
  | restore pipeline config =>
    obtain rfl := Option.some.inj h
    rw [List.mem_singleton.mp ho]
    exact PipelineRecord.id_adopt pipeline config now.instant
  | advance n move =>
    obtain ⟨call, hcall, rfl⟩ := Option.map_eq_some_iff.mp h
    simp only [react, hcall] at ho
    split at ho
    · contradiction
    · exact Point.subject_of_mem_outputs ho
  | _ =>
    obtain rfl := Option.some.inj h
    rw [List.mem_singleton.mp ho]
    rfl

theorem ascending_next (h : s.store.Ascending) : (s.next engine e).store.Ascending := by
  cases hsubject : s.subject? e.act with
  | none => rwa [next, react_of_subject?_eq_none hsubject]
  | some id => exact (writes_next hsubject).ascending h

/-- The identifiers of a store stay in order along a run. -/
theorem ascending_run (h : s.store.Ascending) (es : List Event) :
    (s.run engine es).store.Ascending := by
  induction es generalizing s with
  | nil => exact h
  | cons e es ih => exact ih (ascending_next h)

/-! ### Calls -/

/-- What becomes of the calls if one of those that drive a pipeline begins or moves. -/
inductive Shifts (s : Fleet) (id : PipelineId) : List Call → Prop
  | none : Shifts s id s.calls
  | begin {r : PipelineRecord} (hget : s.store.get? id = some r) :
      Shifts s id (s.calls ++ [⟨id, .walking Stage.all⟩])
  | move {n : Nat} {call : Call} (hcall : s.calls[n]? = some call) (hid : call.id = id)
      (p : Point) : Shifts s id (s.calls.set n ⟨call.id, p⟩)

/-- An event shifts the calls of the pipeline that it concerns, at most. -/
theorem shifts_next (h : s.subject? e.act = some id) :
    s.Shifts id (s.next engine e).calls := by
  obtain ⟨act, now⟩ := e
  simp only [next, react]
  cases act with
  | drive entry other =>
    obtain rfl := Option.some.inj h
    dsimp only
    split
    · exact .none
    · rename_i hclaimed
      cases hget : s.store.get? other with
      | none => simp [Engine.claim, Store.update_of_get?_eq_none _ hget] at hclaimed
      | some r => exact .begin hget
  | advance n move =>
    obtain ⟨call, hcall, hid⟩ := Option.map_eq_some_iff.mp h
    simp only [hcall]
    split
    · exact .none
    · exact .move hcall hid _
  | _ => exact .none

/-- A call keeps its pipeline, and a new one has claimed a pipeline that is known. -/
theorem ids_next (engine : EngineConfig) (s : Fleet) (e : Event) :
    (s.next engine e).calls.map (·.id) = s.calls.map (·.id) ∨
      ∃ id r, s.store.get? id = some r ∧
        (s.next engine e).calls.map (·.id) = s.calls.map (·.id) ++ [id] := by
  cases hsubject : s.subject? e.act with
  | none => exact .inl (by rw [next, react_of_subject?_eq_none hsubject])
  | some id =>
    have hshifts : s.Shifts id (s.next engine e).calls := shifts_next hsubject
    generalize (s.next engine e).calls = calls at hshifts
    cases hshifts with
    | none => exact .inl rfl
    | begin hget => exact .inr ⟨id, _, hget, by rw [List.map_append, List.map_singleton]⟩
    | move hcall hid p =>
      left
      rename_i n call
      obtain ⟨hn, rfl⟩ := List.getElem?_eq_some_iff.mp hcall
      have hids : n < (s.calls.map (·.id)).length := by simpa using hn
      rw [List.map_set]
      simpa only [List.getElem_map] using List.set_getElem_self hids

/-- Every call has claimed a pipeline that is known. -/
def Known (s : Fleet) : Prop :=
  ∀ id ∈ s.calls.map (·.id), ∃ r, s.store.get? id = some r

theorem known_next (h : s.Known) : (s.next engine e).Known := by
  have hkept : ∀ id r, s.store.get? id = some r →
      ∃ r', (s.next engine e).store.get? id = some r' := by
    intro id r hget
    cases hsubject : s.subject? e.act with
    | none => exact ⟨r, by rwa [next, react_of_subject?_eq_none hsubject]⟩
    | some other => exact (writes_next hsubject).exists_get? hget
  intro id hid
  rcases ids_next engine s e with hids | ⟨new, r, hget, hids⟩
  · obtain ⟨r, hget⟩ := h id (hids ▸ hid)
    exact hkept id r hget
  · rw [hids] at hid
    rcases List.mem_append.mp hid with hid | hid
    · obtain ⟨r, hget⟩ := h id hid
      exact hkept id r hget
    · obtain rfl := List.mem_singleton.mp hid
      exact hkept id r hget

theorem known_run (h : s.Known) (es : List Event) : (s.run engine es).Known := by
  induction es generalizing s with
  | nil => exact h
  | cons e es ih => exact ih (known_next h)

theorem known_initial : initial.Known := nofun

end Fleet

end StagedPipeline
