import StagedPipeline.Engine.Record

/-!
# Store

The records of an engine by identifier, in ascending order. `update` changes one record and leaves
all others as they are.
-/

namespace StagedPipeline

/-- Records by identifier. -/
structure Store where
  entries : List (PipelineId × PipelineRecord)
deriving DecidableEq

namespace Store

/-- The store without a record. -/
def empty : Store := ⟨[]⟩

instance : Inhabited Store := ⟨empty⟩

/-- The record of an identifier. -/
def get? (s : Store) (id : PipelineId) : Option PipelineRecord :=
  s.entries.lookup id

/-- Puts a record in its place, replacing that of the same identifier. -/
def insertEntry (id : PipelineId) (r : PipelineRecord) :
    List (PipelineId × PipelineRecord) → List (PipelineId × PipelineRecord)
  | [] => [(id, r)]
  | (other, held) :: rest =>
    if id = other then (id, r) :: rest
    else if id < other then (id, r) :: (other, held) :: rest
    else (other, held) :: insertEntry id r rest

/-- Adds a record under the identifier of its pipeline. -/
def put (s : Store) (r : PipelineRecord) : Store :=
  ⟨insertEntry r.pipeline.id r s.entries⟩

/-- Removes the record of an identifier. -/
def remove (s : Store) (id : PipelineId) : Store :=
  ⟨s.entries.filter (·.1 ≠ id)⟩

/-- Changes the record of an identifier. -/
def set (s : Store) (id : PipelineId) (r : PipelineRecord) : Store :=
  ⟨s.entries.map fun entry => if entry.1 = id then (id, r) else entry⟩

/-- Makes a transition of one record. -/
def update {α : Type} (s : Store) (id : PipelineId)
    (f : PipelineRecord → PipelineRecord × Except PipelineError α) :
    Store × Except PipelineError α :=
  match s.get? id with
  | none => (s, .error (.notFound id))
  | some r => (s.set id (f r).1, (f r).2)

/-- The records, oldest identifier first. -/
def toList (s : Store) : List PipelineRecord :=
  s.entries.map (·.2)

/-- The pipelines, as a caller is told about all of them. -/
def pipelines (s : Store) : List Pipeline :=
  s.toList.map (·.pipeline)

/-- Number of records. -/
def size (s : Store) : Nat :=
  s.entries.length

/-- The pipeline of an identifier. -/
def pipeline? (s : Store) (id : PipelineId) : Option Pipeline :=
  (s.get? id).map (·.pipeline)

private theorem lookup_map_self {id : PipelineId} {r : PipelineRecord} :
    ∀ entries : List (PipelineId × PipelineRecord), (entries.lookup id).isSome →
      (entries.map fun entry => if entry.1 = id then (id, r) else entry).lookup id = some r
  | [], h => by simp at h
  | (other, held) :: rest, h => by
    by_cases e : other = id
    · simp [e]
    · have e' : (id == other) = false := by simp [Ne.symm e]
      simp only [List.lookup_cons, e', List.map_cons, e, if_false] at h ⊢
      exact lookup_map_self rest h

private theorem lookup_map_of_ne {id other : PipelineId} {r : PipelineRecord} (h : other ≠ id) :
    ∀ entries : List (PipelineId × PipelineRecord),
      (entries.map fun entry => if entry.1 = id then (id, r) else entry).lookup other
        = entries.lookup other
  | [] => rfl
  | (key, held) :: rest => by
    by_cases e : key = id
    · have e' : (other == id) = false := by simp [h]
      simp [List.lookup_cons, e, e', lookup_map_of_ne h rest]
    · simp only [List.map_cons, e, if_false, List.lookup_cons]
      rw [lookup_map_of_ne h rest]

theorem get?_set_self {s : Store} {id : PipelineId} {r : PipelineRecord} (h : (s.get? id).isSome) :
    (s.set id r).get? id = some r :=
  lookup_map_self s.entries h

theorem get?_set_of_ne (s : Store) {id other : PipelineId} (r : PipelineRecord) (h : other ≠ id) :
    (s.set id r).get? other = s.get? other :=
  lookup_map_of_ne h s.entries

private theorem lookup_insertEntry_self (id : PipelineId) (r : PipelineRecord) :
    ∀ entries : List (PipelineId × PipelineRecord),
      (insertEntry id r entries).lookup id = some r
  | [] => by simp [insertEntry]
  | (other, held) :: rest => by
    unfold insertEntry
    split
    · simp
    · rename_i hne
      split
      · simp
      · have hne' : (id == other) = false := by simp [hne]
        rw [List.lookup_cons, hne']
        exact lookup_insertEntry_self id r rest

private theorem lookup_insertEntry_of_ne {id other : PipelineId} (r : PipelineRecord)
    (h : other ≠ id) : ∀ entries : List (PipelineId × PipelineRecord),
      (insertEntry id r entries).lookup other = entries.lookup other
  | [] => by
    have hne : (other == id) = false := by simp [h]
    simp [insertEntry, List.lookup_cons, hne]
  | (key, held) :: rest => by
    have hne : (other == id) = false := by simp [h]
    unfold insertEntry
    split
    · rename_i heq
      subst heq
      simp [List.lookup_cons, hne]
    · split
      · simp [List.lookup_cons, hne]
      · rw [List.lookup_cons, List.lookup_cons, lookup_insertEntry_of_ne r h rest]

@[simp] theorem get?_empty (id : PipelineId) : empty.get? id = none := rfl

theorem get?_put_self (s : Store) (r : PipelineRecord) :
    (s.put r).get? r.pipeline.id = some r :=
  lookup_insertEntry_self r.pipeline.id r s.entries

theorem get?_put_of_ne (s : Store) {id : PipelineId} (r : PipelineRecord)
    (h : id ≠ r.pipeline.id) : (s.put r).get? id = s.get? id :=
  lookup_insertEntry_of_ne r h s.entries

section Update

variable {α : Type} {s : Store} {id other : PipelineId} {r : PipelineRecord}
  (f : PipelineRecord → PipelineRecord × Except PipelineError α)

theorem update_of_get?_eq_some (h : s.get? id = some r) :
    s.update id f = (s.set id (f r).1, (f r).2) := by
  simp [update, h]

theorem update_of_get?_eq_none (h : s.get? id = none) :
    s.update id f = (s, .error (.notFound id)) := by
  simp [update, h]

theorem get?_update_self (h : s.get? id = some r) :
    (s.update id f).1.get? id = some (f r).1 := by
  rw [update_of_get?_eq_some f h]
  exact get?_set_self (by simp [h])

theorem get?_update_of_ne (h : other ≠ id) :
    (s.update id f).1.get? other = s.get? other := by
  cases hget : s.get? id with
  | none => rw [update_of_get?_eq_none f hget]
  | some r =>
    rw [update_of_get?_eq_some f hget]
    exact get?_set_of_ne s _ h

end Update

end Store

end StagedPipeline
