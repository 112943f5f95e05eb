import Mathlib.Data.List.Basic
import StagedPipeline.Artifact.Extract

/-!
# Which object is found

`balance` counts the opening braces of a text minus its closing ones, leaving out those inside
quoted strings. An object that opens at one position `Closes` at another one if that is where the
balance from the opening brace on is zero for the first time. `firstClosing?_eq_some_iff` says which
object is found: that of the first opening brace, quoted or not, that closes at all, if it is among
those that are tried.

The scan itself counts the objects that are open. `countsDown?` is a scan that fails where this
number would have to fall below zero, and it never does (`countsDown?_of_opens`).
-/

namespace StagedPipeline.Artifact

/-! ### The balance of braces -/

/-- Where a character leaves the scan with respect to quoted strings. -/
def QuoteState.next : QuoteState → Char → QuoteState
  | .outside, c => if c = '"' then .inside else .outside
  | .inside, c => if c = '\\' then .escaped else if c = '"' then .outside else .inside
  | .escaped, _ => .inside

/-- What a character adds to the number of open objects. -/
def QuoteState.weight : QuoteState → Char → Int
  | .outside, c => if c = '\x7b' then 1 else if c = '\x7d' then -1 else 0
  | .inside, _ => 0
  | .escaped, _ => 0

/-- Opening braces minus closing ones in a text, as far as they are outside strings. -/
def balance : QuoteState → List Char → Int
  | _, [] => 0
  | state, c :: rest => state.weight c + balance (state.next c) rest

/-- The part of a text from one position to another one, both of them included. -/
def piece (text : List Char) (p q : Nat) : List Char :=
  (text.drop p).take (q + 1 - p)

/-- From the first position on, the balance is zero for the first time at the second one. -/
structure Closes (text : List Char) (p q : Nat) : Prop where
  le : p ≤ q
  lt : q < text.length
  balance_eq : balance .outside (piece text p q) = 0
  balance_ne : ∀ k, p ≤ k → k < q → balance .outside (piece text p k) ≠ 0

/-- The positions of all opening braces, in ascending order. -/
def openings (text : List Char) : List Nat :=
  (List.range text.length).filter fun p => text[p]? = some '\x7b'

variable {text rest object : List Char} {state : QuoteState} {c : Char} {k n p q : Nat}

/-! ### Single characters -/

namespace QuoteState

@[simp] theorem weight_inside (c : Char) : inside.weight c = 0 := rfl

@[simp] theorem weight_escaped (c : Char) : escaped.weight c = 0 := rfl

@[simp] theorem weight_open : outside.weight '\x7b' = 1 := rfl

@[simp] theorem weight_close : outside.weight '\x7d' = -1 := rfl

theorem weight_of_ne (hopen : c ≠ '\x7b') (hclose : c ≠ '\x7d') : outside.weight c = 0 := by
  rw [weight, if_neg hopen, if_neg hclose]

theorem neg_one_le_weight (state : QuoteState) (c : Char) : -1 ≤ state.weight c := by
  cases state with
  | outside =>
    by_cases hopen : c = '\x7b'
    · subst hopen
      decide
    by_cases hclose : c = '\x7d'
    · subst hclose
      decide
    · rw [weight_of_ne hopen hclose]
      decide
  | inside => rw [weight_inside]; decide
  | escaped => rw [weight_escaped]; decide

/-- Only a closing brace takes something away. -/
theorem eq_of_weight_neg (h : state.weight c < 0) : c = '\x7d' := by
  cases state with
  | outside =>
    by_contra hclose
    by_cases hopen : c = '\x7b'
    · subst hopen
      contradiction
    · rw [weight_of_ne hopen hclose] at h
      contradiction
  | inside =>
    rw [weight_inside] at h
    contradiction
  | escaped =>
    rw [weight_escaped] at h
    contradiction

end QuoteState

/-! ### The first zero -/

/-- With some objects open in front of a text, none is open for the first time behind so many of its
characters. -/
structure FirstZero (state : QuoteState) (depth : Int) (text : List Char) (k : Nat) : Prop where
  le : k ≤ text.length
  zero : depth + balance state (text.take k) = 0
  nonzero : ∀ j < k, depth + balance state (text.take j) ≠ 0

variable {depth : Int}

theorem firstZero_zero_iff : FirstZero state depth text 0 ↔ depth = 0 := by
  constructor
  · intro h
    have hzero := h.zero
    simpa [balance] using hzero
  · rintro rfl
    exact ⟨Nat.zero_le _, by simp [balance], fun j hj => absurd hj (Nat.not_lt_zero j)⟩

theorem not_firstZero_nil : ¬ FirstZero state depth [] (k + 1) :=
  fun h => absurd h.le (Nat.not_succ_le_zero k)

theorem balance_take_succ (state : QuoteState) (c : Char) (rest : List Char) (k : Nat) :
    balance state ((c :: rest).take (k + 1)) =
      state.weight c + balance (state.next c) (rest.take k) := rfl

/-- A character is taken off, and what it adds is put to the depth. -/
theorem firstZero_succ_iff : FirstZero state depth (c :: rest) (k + 1) ↔
    depth ≠ 0 ∧ FirstZero (state.next c) (depth + state.weight c) rest k := by
  constructor
  · intro h
    have hzero := h.zero
    have hfront := h.nonzero 0 (Nat.succ_pos k)
    rw [balance_take_succ] at hzero
    refine ⟨by simpa [balance] using hfront, Nat.le_of_succ_le_succ h.le, by omega, ?_⟩
    intro j hj
    have hbehind := h.nonzero (j + 1) (Nat.succ_lt_succ hj)
    rw [balance_take_succ] at hbehind
    omega
  · rintro ⟨hdepth, h⟩
    have hzero := h.zero
    refine ⟨Nat.succ_le_succ h.le, by rw [balance_take_succ]; omega, ?_⟩
    intro j hj
    cases j with
    | zero => simpa [balance] using hdepth
    | succ j =>
      have hbehind := h.nonzero j (Nat.lt_of_succ_lt_succ hj)
      rw [balance_take_succ]
      omega

/-- In front of the first zero the depth is positive, since it changes by at most one. -/
theorem FirstZero.pos (hdepth : 0 < depth) (h : FirstZero state depth text k) :
    ∀ j < k, 0 < depth + balance state (text.take j) := by
  induction text generalizing state depth k with
  | nil =>
    intro j hj
    exact absurd (Nat.lt_of_lt_of_le hj h.le) (Nat.not_lt_zero j)
  | cons c rest ih =>
    intro j hj
    cases k with
    | zero => exact absurd hj (Nat.not_lt_zero j)
    | succ k =>
      cases j with
      | zero => simpa [balance] using hdepth
      | succ j =>
        obtain ⟨-, hrest⟩ := firstZero_succ_iff.mp h
        have hweight := state.neg_one_le_weight c
        have hnonzero : depth + state.weight c ≠ 0 := by
          intro hzero
          have hk : 0 < k := Nat.lt_of_le_of_lt (Nat.zero_le j) (Nat.lt_of_succ_lt_succ hj)
          have hfront := hrest.nonzero 0 hk
          simp [balance, hzero] at hfront
        have hpos := ih (by omega) hrest j (Nat.lt_of_succ_lt_succ hj)
        rw [balance_take_succ]
        omega

/-- The character that brings the depth to zero is a closing brace. -/
theorem FirstZero.getLast?_take (hdepth : 0 < depth) (h : FirstZero state depth text k) :
    (text.take k).getLast? = some '\x7d' := by
  induction text generalizing state depth k with
  | nil =>
    cases k with
    | zero => exact absurd (firstZero_zero_iff.mp h) (by omega)
    | succ k => exact absurd h not_firstZero_nil
  | cons c rest ih =>
    cases k with
    | zero => exact absurd (firstZero_zero_iff.mp h) (by omega)
    | succ k =>
      obtain ⟨-, hrest⟩ := firstZero_succ_iff.mp h
      have hweight := state.neg_one_le_weight c
      by_cases hzero : depth + state.weight c = 0
      · have hneg : state.weight c < 0 := by omega
        have hclosing : c = '\x7d' := QuoteState.eq_of_weight_neg hneg
        have hk : k = 0 := by
          by_contra hk
          have hfront := hrest.nonzero 0 (Nat.pos_of_ne_zero hk)
          simp [balance, hzero] at hfront
        subst hk hclosing
        rfl
      · have hlast := ih (by omega) hrest
        have hne : rest.take k ≠ [] := by
          intro hnil
          rw [hnil] at hlast
          contradiction
        rw [List.take_succ_cons, List.getLast?_cons_of_ne_nil hne]
        exact hlast

/-- Only the text up to the first zero decides about it. -/
theorem FirstZero.of_take (h : FirstZero state depth text k) :
    FirstZero state depth (text.take k) k := by
  have hle : k ≤ (text.take k).length := by
    rw [List.length_take]
    exact Nat.le_min.mpr ⟨Nat.le_refl k, h.le⟩
  refine ⟨hle, ?_, ?_⟩
  · rw [List.take_take, Nat.min_self]
    exact h.zero
  · intro j hj
    rw [List.take_take, Nat.min_eq_left (Nat.le_of_lt hj)]
    exact h.nonzero j hj

/-! ### The scan -/

/-- One step of the scan while an object is open. -/
theorem closing?_cons {depth : Nat} (hdepth : 1 ≤ depth) (state : QuoteState) (seen : Nat)
    (c : Char) (rest : List Char) :
    closing? state depth seen (c :: rest) =
      if (depth : Int) + state.weight c = 0 then some (seen + 1)
      else closing? (state.next c) ((depth : Int) + state.weight c).toNat (seen + 1) rest := by
  have hpos : ¬ (depth : Int) = 0 := by omega
  cases state with
  | outside =>
    by_cases hquote : c = '"'
    · subst hquote
      have hweight : QuoteState.outside.weight '"' = 0 := rfl
      rw [closing?, if_pos rfl, hweight, Int.add_zero, if_neg hpos, Int.toNat_natCast]
      rfl
    by_cases hopen : c = '\x7b'
    · subst hopen
      have htoNat : ((depth : Int) + 1).toNat = depth + 1 := by omega
      rw [closing?, if_neg hquote, if_pos rfl, QuoteState.weight_open, if_neg (by omega), htoNat]
      rfl
    by_cases hclose : c = '\x7d'
    · subst hclose
      rw [closing?, if_neg hquote, if_neg hopen, if_pos rfl, QuoteState.weight_close]
      by_cases hone : depth ≤ 1
      · rw [if_pos hone, if_pos (by omega)]
      · have htoNat : ((depth : Int) + -1).toNat = depth - 1 := by omega
        rw [if_neg hone, if_neg (by omega), htoNat]
        rfl
    · have hnext : QuoteState.outside.next c = .outside := if_neg hquote
      rw [closing?, if_neg hquote, if_neg hopen, if_neg hclose,
        QuoteState.weight_of_ne hopen hclose, hnext, Int.add_zero, if_neg hpos,
        Int.toNat_natCast]
  | inside =>
    rw [closing?, QuoteState.weight_inside, Int.add_zero, if_neg hpos, Int.toNat_natCast]
    rfl
  | escaped =>
    rw [closing?, QuoteState.weight_escaped, Int.add_zero, if_neg hpos, Int.toNat_natCast]
    rfl

/-- The scan ends at the first zero. -/
theorem closing?_eq_some_iff {depth : Nat} (hdepth : 1 ≤ depth) {seen : Nat} :
    closing? state depth seen text = some n ↔
      ∃ k, FirstZero state depth text k ∧ n = seen + k := by
  induction text generalizing state depth seen with
  | nil =>
    constructor
    · intro h
      simp [closing?] at h
    · rintro ⟨k, h, -⟩
      cases k with
      | zero => exact absurd (firstZero_zero_iff.mp h) (by omega)
      | succ k => exact absurd h not_firstZero_nil
  | cons c rest ih =>
    have hweight := state.neg_one_le_weight c
    have hopen : (depth : Int) ≠ 0 := by omega
    rw [closing?_cons hdepth]
    by_cases hzero : (depth : Int) + state.weight c = 0
    · rw [if_pos hzero]
      constructor
      · intro h
        obtain rfl := Option.some.inj h
        exact ⟨1, firstZero_succ_iff.mpr ⟨hopen, firstZero_zero_iff.mpr hzero⟩, rfl⟩
      · rintro ⟨k, h, rfl⟩
        cases k with
        | zero => exact absurd (firstZero_zero_iff.mp h) hopen
        | succ k =>
          obtain ⟨-, hrest⟩ := firstZero_succ_iff.mp h
          cases k with
          | zero => rfl
          | succ k =>
            have hfront := hrest.nonzero 0 (Nat.succ_pos k)
            simp [balance, hzero] at hfront
    · have hdepth' : (((depth : Int) + state.weight c).toNat : Int) =
          (depth : Int) + state.weight c := by omega
      rw [if_neg hzero, ih (by omega), hdepth']
      constructor
      · rintro ⟨k, h, rfl⟩
        exact ⟨k + 1, firstZero_succ_iff.mpr ⟨hopen, h⟩, by omega⟩
      · rintro ⟨k, h, rfl⟩
        cases k with
        | zero => exact absurd (firstZero_zero_iff.mp h) hopen
        | succ k =>
          obtain ⟨-, hrest⟩ := firstZero_succ_iff.mp h
          exact ⟨k, hrest, by omega⟩

/-- The scan for a closing brace with a counter that must not fall below zero: there is no result
where it would have to. -/
def countsDown? : QuoteState → (depth seen : Nat) → List Char → Option (Option Nat)
  | _, _, _, [] => some none
  | .escaped, depth, seen, _ :: rest => countsDown? .inside depth (seen + 1) rest
  | .inside, depth, seen, c :: rest =>
    countsDown? (if c = '\\' then .escaped else if c = '"' then .outside else .inside)
      depth (seen + 1) rest
  | .outside, depth, seen, c :: rest =>
    if c = '"' then countsDown? .inside depth (seen + 1) rest
    else if c = '\x7b' then countsDown? .outside (depth + 1) (seen + 1) rest
    else if c = '\x7d' then
      if depth = 0 then none
      else if depth = 1 then some (some (seen + 1))
      else countsDown? .outside (depth - 1) (seen + 1) rest
    else countsDown? .outside depth (seen + 1) rest

theorem countsDown?_of_pos {depth : Nat} (hdepth : 1 ≤ depth) {seen : Nat} :
    countsDown? state depth seen text = some (closing? state depth seen text) := by
  induction text generalizing state depth seen with
  | nil => cases state <;> rfl
  | cons c rest ih =>
    cases state with
    | escaped => exact ih hdepth
    | inside => exact ih hdepth
    | outside =>
      rw [countsDown?, closing?]
      split
      · exact ih hdepth
      split
      · exact ih (by omega)
      split
      · have hpos : ¬ depth = 0 := by omega
        rw [if_neg hpos]
        by_cases hone : depth = 1
        · rw [if_pos hone, if_pos (Nat.le_of_eq hone)]
        · have hmany : ¬ depth ≤ 1 := by omega
          rw [if_neg hone, if_neg hmany]
          exact ih (by omega)
      · exact ih hdepth

/-- From an opening brace on, the counter does not fall below zero. -/
theorem countsDown?_of_opens (rest : List Char) :
    countsDown? .outside 0 0 ('\x7b' :: rest) = some (closing? .outside 0 0 ('\x7b' :: rest)) := by
  have hchecked : countsDown? .outside 0 0 ('\x7b' :: rest) = countsDown? .outside 1 1 rest := rfl
  have hscan : closing? .outside 0 0 ('\x7b' :: rest) = closing? .outside 1 1 rest := rfl
  rw [hchecked, hscan, countsDown?_of_pos (Nat.le_refl 1)]

/-! ### The object at an opening brace -/

/-- What the scan from a position on finds. -/
def objectAt? (text : List Char) (p : Nat) : Option (List Char) :=
  (closing? .outside 0 0 (text.drop p)).map fun length => (text.drop p).take length

theorem drop_of_getElem? (h : text[p]? = some c) : text.drop p = c :: text.drop (p + 1) := by
  obtain ⟨hp, hc⟩ := List.getElem?_eq_some_iff.mp h
  rw [List.drop_eq_getElem_cons hp, hc]

theorem piece_of_drop (h : text.drop p = c :: rest) (j : Nat) :
    piece text p (p + j) = c :: rest.take j := by
  have hlength : p + j + 1 - p = j + 1 := by omega
  rw [piece, h, hlength, List.take_succ_cons]

/-- An opening brace closes where the depth behind it is zero for the first time. -/
theorem closes_iff (h : text.drop p = '\x7b' :: rest) :
    Closes text p q ↔ ∃ k, q = p + k ∧ FirstZero .outside 1 rest k := by
  have hlength : text.length - p = rest.length + 1 := by
    rw [← List.length_drop, h, List.length_cons]
  have hpiece := piece_of_drop h
  have hbalance : ∀ j, balance .outside (piece text p (p + j)) =
      1 + balance .outside (rest.take j) := by
    intro j
    rw [hpiece]
    rfl
  constructor
  · intro hcloses
    obtain ⟨k, rfl⟩ := Nat.exists_eq_add_of_le hcloses.le
    have hlt := hcloses.lt
    have hzero := hcloses.balance_eq
    rw [hbalance] at hzero
    refine ⟨k, rfl, by omega, hzero, ?_⟩
    intro j hj
    have hne := hcloses.balance_ne (p + j) (by omega) (by omega)
    rwa [hbalance] at hne
  · rintro ⟨k, rfl, hfirst⟩
    have hle := hfirst.le
    refine ⟨by omega, by omega, by rw [hbalance]; exact hfirst.zero, ?_⟩
    intro i hi hik
    obtain ⟨j, rfl⟩ := Nat.exists_eq_add_of_le hi
    rw [hbalance]
    exact hfirst.nonzero j (by omega)

theorem objectAt?_eq_some_iff (h : text[p]? = some '\x7b') :
    objectAt? text p = some object ↔ ∃ q, Closes text p q ∧ object = piece text p q := by
  have hdrop := drop_of_getElem? h
  have hscan : closing? .outside 0 0 (text.drop p) =
      closing? .outside 1 1 (text.drop (p + 1)) := by
    rw [hdrop]
    rfl
  have hpiece := piece_of_drop hdrop
  have htake : ∀ k, (text.drop p).take (1 + k) = piece text p (p + k) := by
    intro k
    rw [hpiece, hdrop, Nat.add_comm 1 k, List.take_succ_cons]
  rw [objectAt?, hscan, Option.map_eq_some_iff]
  constructor
  · rintro ⟨n, hn, rfl⟩
    obtain ⟨k, hfirst, rfl⟩ := (closing?_eq_some_iff (Nat.le_refl 1)).mp hn
    exact ⟨p + k, (closes_iff hdrop).mpr ⟨k, rfl, hfirst⟩, htake k⟩
  · rintro ⟨q, hcloses, rfl⟩
    obtain ⟨k, rfl, hfirst⟩ := (closes_iff hdrop).mp hcloses
    exact ⟨1 + k, (closing?_eq_some_iff (Nat.le_refl 1)).mpr ⟨k, hfirst, rfl⟩, htake k⟩

theorem objectAt?_eq_none_iff (h : text[p]? = some '\x7b') :
    objectAt? text p = none ↔ ∀ q, ¬ Closes text p q := by
  constructor
  · intro hnone q hcloses
    have hsome := (objectAt?_eq_some_iff h).mpr ⟨q, hcloses, rfl⟩
    rw [hnone] at hsome
    contradiction
  · intro hnever
    by_contra hsome
    obtain ⟨object, hobject⟩ := Option.ne_none_iff_exists'.mp hsome
    obtain ⟨q, hcloses, -⟩ := (objectAt?_eq_some_iff h).mp hobject
    exact hnever q hcloses

/-! ### The first object -/

theorem openings_cons (c : Char) (rest : List Char) :
    openings (c :: rest) =
      if c = '\x7b' then 0 :: (openings rest).map (· + 1) else (openings rest).map (· + 1) := by
  rw [openings, List.length_cons, List.range_succ_eq_map, List.filter_cons, List.filter_map]
  have hrest : ((List.range rest.length).filter
      ((fun p => decide ((c :: rest)[p]? = some '\x7b')) ∘ Nat.succ)) = openings rest := rfl
  rw [hrest]
  by_cases hopen : c = '\x7b'
  · subst hopen
    rfl
  · rw [if_neg (by simpa using hopen), if_neg hopen]

theorem getElem?_of_mem_openings (h : p ∈ openings text) : text[p]? = some '\x7b' :=
  of_decide_eq_true (List.mem_filter.mp h).2

/-- The search goes through the opening braces one after the other. -/
theorem firstClosing?_eq_findSome? (starts : Nat) (text : List Char) :
    firstClosing? starts text = ((openings text).take starts).findSome? (objectAt? text) := by
  induction text generalizing starts with
  | nil => cases starts <;> rfl
  | cons c rest ih =>
    cases starts with
    | zero => rfl
    | succ starts =>
      have hshift : objectAt? (c :: rest) ∘ (· + 1) = objectAt? rest := rfl
      rw [openings_cons, firstClosing?]
      by_cases hopen : c = '\x7b'
      · have hfirst : objectAt? (c :: rest) 0 =
            (closing? .outside 0 0 (c :: rest)).map fun length => (c :: rest).take length := rfl
        rw [if_pos hopen, if_pos hopen, List.take_succ_cons, List.findSome?_cons, hfirst,
          ← List.map_take, List.findSome?_map, hshift, ← ih]
        cases closing? .outside 0 0 (c :: rest) <;> rfl
      · rw [if_neg hopen, if_neg hopen, ← List.map_take, List.findSome?_map, hshift, ih]

/-- What is found among the first elements of a list is found at the first one that has
something. -/
theorem findSome?_take_eq_some_iff {α β : Type} {l : List α} {f : α → Option β} {b : β}
    {n : Nat} :
    (l.take n).findSome? f = some b ↔
      ∃ i < n, ∃ a, l[i]? = some a ∧ f a = some b ∧
        ∀ j < i, ∀ a', l[j]? = some a' → f a' = none := by
  induction l generalizing n with
  | nil => simp
  | cons a l ih =>
    cases n with
    | zero => simp
    | succ n =>
      rw [List.take_succ_cons, List.findSome?_cons]
      cases hfirst : f a with
      | some b' =>
        constructor
        · intro h
          refine ⟨0, Nat.succ_pos n, a, rfl, hfirst.trans h, ?_⟩
          exact fun j hj => absurd hj (Nat.not_lt_zero j)
        · rintro ⟨i, -, a', ha', hb, hbefore⟩
          cases i with
          | zero =>
            obtain rfl := Option.some.inj ha'
            exact hfirst.symm.trans hb
          | succ i =>
            have hnone := hbefore 0 (Nat.succ_pos i) a rfl
            rw [hfirst] at hnone
            contradiction
      | none =>
        dsimp only
        rw [ih]
        constructor
        · rintro ⟨i, hi, a', ha', hb, hbefore⟩
          refine ⟨i + 1, Nat.succ_lt_succ hi, a', ha', hb, ?_⟩
          intro j hj d hd
          cases j with
          | zero =>
            obtain rfl := Option.some.inj hd
            exact hfirst
          | succ j => exact hbefore j (Nat.lt_of_succ_lt_succ hj) d hd
        · rintro ⟨i, hi, a', ha', hb, hbefore⟩
          cases i with
          | zero =>
            obtain rfl := Option.some.inj ha'
            rw [hfirst] at hb
            contradiction
          | succ i =>
            refine ⟨i, Nat.lt_of_succ_lt_succ hi, a', ha', hb, ?_⟩
            intro j hj d hd
            exact hbefore (j + 1) (Nat.succ_lt_succ hj) d hd

/-- The object that is found starts at one of the opening braces. -/
theorem firstClosing?_eq_some_iff {starts : Nat} :
    firstClosing? starts text = some object ↔
      ∃ i < starts, ∃ p q, (openings text)[i]? = some p ∧ Closes text p q ∧
        object = piece text p q ∧
          ∀ j < i, ∀ p', (openings text)[j]? = some p' → ∀ q', ¬ Closes text p' q' := by
  have hopens : ∀ i p, (openings text)[i]? = some p → text[p]? = some '\x7b' :=
    fun i p hp => getElem?_of_mem_openings (List.mem_of_getElem? hp)
  rw [firstClosing?_eq_findSome?, findSome?_take_eq_some_iff]
  constructor
  · rintro ⟨i, hi, p, hp, hobject, hbefore⟩
    obtain ⟨q, hcloses, rfl⟩ := (objectAt?_eq_some_iff (hopens i p hp)).mp hobject
    refine ⟨i, hi, p, q, hp, hcloses, rfl, ?_⟩
    intro j hj p' hp'
    exact (objectAt?_eq_none_iff (hopens j p' hp')).mp (hbefore j hj p' hp')
  · rintro ⟨i, hi, p, q, hp, hcloses, rfl, hbefore⟩
    refine ⟨i, hi, p, hp, (objectAt?_eq_some_iff (hopens i p hp)).mpr ⟨q, hcloses, rfl⟩, ?_⟩
    intro j hj p' hp'
    exact (objectAt?_eq_none_iff (hopens j p' hp')).mpr (hbefore j hj p' hp')

theorem firstClosing?_eq_none_iff {starts : Nat} :
    firstClosing? starts text = none ↔
      ∀ i < starts, ∀ p, (openings text)[i]? = some p → ∀ q, ¬ Closes text p q := by
  rw [firstClosing?_eq_findSome?, List.findSome?_eq_none_iff]
  constructor
  · intro h i hi p hp
    have hmem : p ∈ (openings text).take starts := by
      refine List.mem_of_getElem? (i := i) ?_
      rw [List.getElem?_take_of_lt hi, hp]
    exact (objectAt?_eq_none_iff (getElem?_of_mem_openings (List.mem_of_getElem? hp))).mp
      (h p hmem)
  · intro h p hmem
    obtain ⟨i, hi⟩ := List.getElem?_of_mem hmem
    rw [List.getElem?_take] at hi
    split at hi
    · rename_i hlt
      exact (objectAt?_eq_none_iff (getElem?_of_mem_openings (List.mem_of_getElem? hi))).mpr
        (h i hlt p hi)
    · contradiction

/-! ### The object by itself -/

/-- An object that closes is an opening brace and what follows up to the first zero. -/
theorem exists_eq_cons_of_closes (hopen : text[p]? = some '\x7b') (h : Closes text p q) :
    ∃ inner, piece text p q = '\x7b' :: inner ∧
      FirstZero .outside 1 inner inner.length := by
  have hdrop := drop_of_getElem? hopen
  obtain ⟨k, rfl, hfirst⟩ := (closes_iff hdrop).mp h
  have hlength : ((text.drop (p + 1)).take k).length = k := by
    rw [List.length_take]
    exact Nat.min_eq_left hfirst.le
  refine ⟨_, piece_of_drop hdrop k, ?_⟩
  rw [hlength]
  exact hfirst.of_take

section Inner

variable {inner : List Char}

/-- Such an object is found in itself. -/
theorem firstClosing?_self (h : FirstZero .outside 1 inner inner.length) (starts : Nat) :
    firstClosing? (starts + 1) ('\x7b' :: inner) = some ('\x7b' :: inner) := by
  have hclosing : closing? .outside 0 0 ('\x7b' :: inner) = some (1 + inner.length) :=
    (closing?_eq_some_iff (Nat.le_refl 1)).mpr ⟨_, h, rfl⟩
  have htake : ('\x7b' :: inner).take (1 + inner.length) = '\x7b' :: inner := by
    rw [Nat.add_comm, List.take_succ_cons, List.take_length]
  rw [firstClosing?, if_pos rfl, hclosing]
  exact congrArg some htake

theorem getLast?_cons_of_firstZero (h : FirstZero .outside 1 inner inner.length) :
    ('\x7b' :: inner).getLast? = some '\x7d' := by
  have hlast := h.getLast?_take (by decide)
  rw [List.take_length] at hlast
  have hne : inner ≠ [] := by
    rintro rfl
    contradiction
  rw [List.getLast?_cons_of_ne_nil hne, hlast]

/-- No part of it in front of its last character is balanced. -/
theorem balance_take_pos (h : FirstZero .outside 1 inner inner.length) (hk : 0 < k)
    (hlt : k < ('\x7b' :: inner).length) :
    0 < balance .outside (('\x7b' :: inner).take k) := by
  cases k with
  | zero => contradiction
  | succ k =>
    have hpos := h.pos (by decide) k (Nat.lt_of_succ_lt_succ hlt)
    exact hpos

end Inner

/-- **Which object is found.** Of the first sixty-four opening braces of a text, in quotes or not,
the object is found at the first one that closes, and reaches up to where it closes; nothing is
found if none of them does. What is found begins with an opening brace, ends with a closing one, has
no balanced part in front of that, and is found again in itself. At no opening brace does the scan
count below zero. -/
theorem extractObject?_finds_first (text : String) :
    (∀ object, extractObject? text = some object ↔
      ∃ i < 64, ∃ p q, (openings text.toList)[i]? = some p ∧ Closes text.toList p q ∧
        object = String.ofList (piece text.toList p q) ∧
          ∀ j < i, ∀ p', (openings text.toList)[j]? = some p' →
            ∀ q', ¬ Closes text.toList p' q') ∧
    (extractObject? text = none ↔
      ∀ i < 64, ∀ p, (openings text.toList)[i]? = some p → ∀ q, ¬ Closes text.toList p q) ∧
    (∀ object, extractObject? text = some object →
      object.toList.head? = some '\x7b' ∧ object.toList.getLast? = some '\x7d' ∧
        (∀ k, 0 < k → k < object.toList.length →
          0 < balance .outside (object.toList.take k)) ∧
        extractObject? object = some object) ∧
    ∀ p, text.toList[p]? = some '\x7b' →
      countsDown? .outside 0 0 (text.toList.drop p) =
        some (closing? .outside 0 0 (text.toList.drop p)) := by
  have hfound : ∀ object, extractObject? text = some object ↔
      ∃ i < 64, ∃ p q, (openings text.toList)[i]? = some p ∧ Closes text.toList p q ∧
        object = String.ofList (piece text.toList p q) ∧
          ∀ j < i, ∀ p', (openings text.toList)[j]? = some p' →
            ∀ q', ¬ Closes text.toList p' q' := by
    intro object
    rw [extractObject?, Option.map_eq_some_iff]
    constructor
    · rintro ⟨characters, hcharacters, rfl⟩
      obtain ⟨i, hi, p, q, hp, hcloses, rfl, hbefore⟩ :=
        firstClosing?_eq_some_iff.mp hcharacters
      exact ⟨i, hi, p, q, hp, hcloses, rfl, hbefore⟩
    · rintro ⟨i, hi, p, q, hp, hcloses, rfl, hbefore⟩
      exact ⟨_, firstClosing?_eq_some_iff.mpr ⟨i, hi, p, q, hp, hcloses, rfl, hbefore⟩, rfl⟩
  refine ⟨hfound, ?_, ?_, ?_⟩
  · rw [extractObject?, Option.map_eq_none_iff, firstClosing?_eq_none_iff]
    rfl
  · intro object hobject
    obtain ⟨i, -, p, q, hp, hcloses, rfl, -⟩ := (hfound object).mp hobject
    have hopen := getElem?_of_mem_openings (List.mem_of_getElem? hp)
    obtain ⟨inner, hinner, hfirst⟩ := exists_eq_cons_of_closes hopen hcloses
    rw [hinner, extractObject?, String.toList_ofList]
    refine ⟨rfl, getLast?_cons_of_firstZero hfirst, ?_, ?_⟩
    · intro k hk hlt
      exact balance_take_pos hfirst hk hlt
    · have hstarts : maxObjectStarts = 63 + 1 := rfl
      rw [hstarts, firstClosing?_self hfirst]
      rfl
  · intro p hopen
    rw [drop_of_getElem? hopen]
    exact countsDown?_of_opens _

end StagedPipeline.Artifact
