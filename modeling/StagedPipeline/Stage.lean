import StagedPipeline.Text.Blank

/-!
# Stages

A pipeline runs five stages in a fixed order. A stage has a stable lower-case name, which is how it
is written in every format, and a role that the executor is asked to play. `PerStage` holds one
value for each stage and is read and written by stage.
-/

namespace StagedPipeline

/-- A stage of a pipeline. -/
inductive Stage where
  | requirements
  | design
  | coding
  | testing
  | deployment
deriving DecidableEq, Repr, Inhabited

namespace Stage

/-- Every stage, in execution order. -/
def all : List Stage :=
  [.requirements, .design, .coding, .testing, .deployment]

theorem mem_all (s : Stage) : s ∈ all := by
  cases s <;> decide

/-- Number of stages. -/
def count : Nat :=
  all.length

/-- The name a stage is written with. -/
def name : Stage → String
  | .requirements => "requirements"
  | .design => "design"
  | .coding => "coding"
  | .testing => "testing"
  | .deployment => "deployment"

/-- The role played by the executor. -/
def role : Stage → String
  | .requirements => "Requirements Analyst"
  | .design => "Software Architect"
  | .coding => "Software Developer"
  | .testing => "QA Engineer"
  | .deployment => "DevOps Engineer"

/-- Position in execution order, from zero. -/
def index : Stage → Nat
  | .requirements => 0
  | .design => 1
  | .coding => 2
  | .testing => 3
  | .deployment => 4

theorem index_injective {s t : Stage} (h : s.index = t.index) : s = t := by
  revert h
  cases s <;> cases t <;> decide

/-- Stages are ordered as they are executed. -/
instance : LT Stage := ⟨fun s t => s.index < t.index⟩

instance (s t : Stage) : Decidable (s < t) :=
  inferInstanceAs (Decidable (s.index < t.index))

/-- The stage that follows, if any. -/
def next (s : Stage) : Option Stage :=
  all[s.index + 1]?

/-- The stages after this one, in order. -/
def after (s : Stage) : List Stage :=
  all.drop (s.index + 1)

/-- The stages before this one, in order. -/
def before (s : Stage) : List Stage :=
  all.take s.index

theorem index_lt_count (s : Stage) : s.index < count := by
  cases s <;> decide

/-- A stage stands at its position. -/
theorem getElem?_all_eq_some_iff {k : Nat} {s : Stage} : all[k]? = some s ↔ s.index = k := by
  constructor
  · intro h
    match k, h with
    | 0, h | 1, h | 2, h | 3, h | 4, h => cases h; rfl
    | _ + 5, h => cases h
  · rintro rfl
    cases s <;> rfl

theorem mem_take_iff {s : Stage} {k : Nat} : s ∈ all.take k ↔ s.index < k := by
  rw [List.mem_take_iff_getElem]
  constructor
  · rintro ⟨i, hi, hs⟩
    rw [getElem?_all_eq_some_iff.mp (List.getElem?_eq_some_iff.mpr ⟨_, hs⟩)]
    exact (Nat.lt_min.mp hi).1
  · intro h
    exact ⟨s.index, Nat.lt_min.mpr ⟨h, s.index_lt_count⟩,
      (List.getElem?_eq_some_iff.mp (getElem?_all_eq_some_iff.mpr rfl)).2⟩

/-- The first stages and the one behind them are the first stages again. -/
theorem take_index_append (s : Stage) : all.take s.index ++ [s] = all.take (s.index + 1) := by
  cases s <;> rfl

theorem drop_eq_cons_iff {k : Nat} {s : Stage} {l : List Stage} :
    all.drop k = s :: l ↔ s.index = k ∧ l = s.after := by
  constructor
  · intro h
    have hs : s.index = k := by
      rw [← getElem?_all_eq_some_iff, ← List.head?_drop, h, List.head?_cons]
    have hl := congrArg List.tail h
    rw [List.tail_drop, ← hs] at hl
    exact ⟨hs, hl.symm⟩
  · rintro ⟨rfl, rfl⟩
    cases s <;> rfl

/-- No stage stands behind the last one. -/
theorem after_eq_nil_iff {s : Stage} : s.after = [] ↔ s = .deployment := by
  cases s <;> decide

/-- The stage with exactly this name. -/
def ofName? (name : String) : Option Stage :=
  all.find? (·.name == name)

@[simp] theorem ofName?_name (s : Stage) : ofName? s.name = some s := by
  cases s <;> decide

theorem name_injective {s t : Stage} (h : s.name = t.name) : s = t :=
  Option.some.inj (by rw [← ofName?_name s, ← ofName?_name t, h])

/-- Reads a stage's name in any mix of ASCII capitals and with blanks around it. -/
def parse? (text : String) : Option Stage :=
  ofName? (String.ofList (Text.toAsciiLower (Text.trim text.toList)))

/-- What is said about a text that names no stage. -/
def unknownMessage (text : String) : String :=
  "unknown stage: " ++ text

end Stage

/-- One value for each stage. -/
structure PerStage (α : Type) where
  requirements : α
  design : α
  coding : α
  testing : α
  deployment : α
deriving DecidableEq, Repr, Inhabited

namespace PerStage

variable {α β : Type}

/-- The same value for every stage. -/
def const (a : α) : PerStage α :=
  ⟨a, a, a, a, a⟩

/-- The value of a stage. -/
def get (m : PerStage α) : Stage → α
  | .requirements => m.requirements
  | .design => m.design
  | .coding => m.coding
  | .testing => m.testing
  | .deployment => m.deployment

/-- Gives a stage a new value. -/
def set (m : PerStage α) (s : Stage) (a : α) : PerStage α :=
  match s with
  | .requirements => { m with requirements := a }
  | .design => { m with design := a }
  | .coding => { m with coding := a }
  | .testing => { m with testing := a }
  | .deployment => { m with deployment := a }

/-- Changes the value of a stage. -/
def modify (m : PerStage α) (s : Stage) (f : α → α) : PerStage α :=
  m.set s (f (m.get s))

@[simp] theorem get_const (a : α) (s : Stage) : (const a).get s = a := by
  cases s <;> rfl

@[simp] theorem get_set_self (m : PerStage α) (s : Stage) (a : α) : (m.set s a).get s = a := by
  cases s <;> rfl

theorem get_set_of_ne (m : PerStage α) {s t : Stage} (a : α) (h : t ≠ s) :
    (m.set s a).get t = m.get t := by
  revert h
  cases s <;> cases t <;> simp [get, set]

theorem ext_get {m n : PerStage α} (h : ∀ s, m.get s = n.get s) : m = n := by
  have h0 := h .requirements
  have h1 := h .design
  have h2 := h .coding
  have h3 := h .testing
  have h4 := h .deployment
  cases m; cases n
  simp_all [get]

end PerStage

end StagedPipeline
