import Mathlib.Data.Nat.Digits.Defs
import StagedPipeline.CommandLine.Invocation
import StagedPipeline.Proofs.Json.Yields

/-!
# Arguments of a run

Arguments that are accepted are a row of options, each written in one of the ways of `Written` and
none of them twice; `Adds` is such a row with the options it adds to those met before. So the value
of an option can be read off the arguments without regard to their order: it is what stands behind
its name, as `Gives` says. Where it is a number, `Numeral` says which texts are accepted.
-/

namespace StagedPipeline.CommandLine

open Json (exists_of_bind_eq_ok)

/-- Whether some arguments give a value to the option that begins with a name: behind an equals
sign, or in the argument that follows. -/
def Gives (arguments : List String) (name value : String) : Prop :=
  name ++ "=" ++ value ∈ arguments ∨ [name, value] <:+: arguments

/-- A text that is a number: its digits to the base ten, behind a plus if one likes, or behind a
minus if it is zero. -/
def Numeral (text : String) (n : Nat) : Prop :=
  ∃ digits : List Char, digits ≠ [] ∧ (∀ d ∈ digits, d.isDigit = true) ∧
    Nat.ofDigits 10 (digits.reverse.map fun d => d.toNat - '0'.toNat) = n ∧
    (text.toList = digits ∨ text.toList = '+' :: digits ∨ text.toList = '-' :: digits ∧ n = 0)

/-- The argument an option begins with. -/
def Argument.long (a : Argument) : String := "--" ++ a.name

/-! ### Words -/

theorem Word.eq_of_ofText_eq_escape {text : String} (h : Word.ofText text = .escape) :
    text = "--" := by
  unfold ofText at h
  split at h
  case h_1 htext => exact String.toList_injective htext
  all_goals cases h

/-- A name with two dashes is what it was read from, up to the value behind it. -/
theorem Word.eq_of_ofText_eq_long {text name : String} {value : Option String}
    (h : Word.ofText text = .long name value) :
    text = "--" ++ name ++ value.elim "" ("=" ++ ·) := by
  unfold ofText at h
  split at h
  case h_2 rest _ htext =>
    obtain ⟨rfl, rfl⟩ := Word.long.inj h
    have hrest : rest.takeWhile (· ≠ '=') ++ rest.dropWhile (· ≠ '=') = rest :=
      List.takeWhile_append_dropWhile
    apply String.toList_injective
    rw [htext]
    cases hdrop : rest.dropWhile (· ≠ '=') with
    | nil =>
      rw [hdrop, List.append_nil] at hrest
      simpa using hrest.symm
    | cons c value =>
      have hc := List.head?_dropWhile_not (· ≠ '=') rest
      rw [hdrop] at hrest hc
      obtain rfl : c = '=' := by simpa using hc
      simpa using hrest.symm
  all_goals cases h

@[simp] theorem Word.ofText_long (a : Argument) : Word.ofText a.long = .long a.name none := by
  cases a <;> rfl

@[simp] theorem Word.ofText_long_append (a : Argument) (value : String) :
    Word.ofText (a.long ++ "=" ++ value) = .long a.name (some value) := by
  have hname : ∀ c ∈ a.name.toList, decide (c ≠ '=') = true :=
    List.all_eq_true.mp (by cases a <;> rfl)
  have htake : (a.name.toList ++ '=' :: value.toList).takeWhile (· ≠ '=') = a.name.toList := by
    rw [List.takeWhile_append_of_pos hname]
    simp
  have hdrop : (a.name.toList ++ '=' :: value.toList).dropWhile (· ≠ '=') =
      '=' :: value.toList := by
    rw [List.dropWhile_append_of_pos hname]
    simp
  have htext : (a.long ++ "=" ++ value).toList =
      '-' :: '-' :: (a.name.toList ++ '=' :: value.toList) := by
    simp [Argument.long]
  have hne : a.name.toList ++ '=' :: value.toList ≠ [] := by simp
  unfold ofText
  rw [htext]
  split
  case h_1 h => simp_all
  case h_2 h =>
    obtain rfl := (List.cons.inj (List.cons.inj h).2).2
    rw [htake, hdrop]
    simp
  case h_3 hnone h =>
    obtain ⟨rfl, -⟩ := List.cons.inj (List.cons.inj h).2
    exact (hnone rfl).elim
  case h_4 hnone => exact (hnone _ _ rfl).elim

theorem Argument.name_injective : Function.Injective Argument.name := by
  intro a b h
  revert h
  cases a <;> cases b <;> decide

theorem Argument.long_injective : Function.Injective Argument.long := by
  intro a b h
  have hword := congrArg Word.ofText h
  rw [Word.ofText_long, Word.ofText_long] at hword
  exact name_injective (Word.long.inj hword).1

/-! ### Rows of options -/

/-- The ways to write an option with its value: behind an equals sign, or in an argument of its own.
An option that takes no value stands alone. -/
inductive Written : Argument → String → List String → Prop
  | joined {a : Argument} {value : String} (ha : a.takesValue = true) :
      Written a value [a.long ++ "=" ++ value]
  | apart {a : Argument} {value : String} (ha : a.takesValue = true)
      (hvalue : Word.ofText value = .plain) : Written a value [a.long, value]
  | alone {a : Argument} (ha : a.takesValue = false) : Written a "" [a.long]

/-- The options that a row of arguments adds to those met before. Two dashes may stand behind. -/
inductive Adds : Matches → List String → Matches → Prop
  | done {m : Matches} : Adds m [] m
  | escape {m : Matches} : Adds m ["--"] m
  | option {m m₁ m₂ : Matches} {a : Argument} {value : String} {piece rest : List String}
      (hpiece : Written a value piece) (hadd : m.add a value = .ok m₁) (hrest : Adds m₁ rest m₂) :
      Adds m (piece ++ rest) m₂

theorem refuse_eq_ok_iff {α : Type} {x : Except ArgumentError α} {a : α} :
    refuse x = .ok a ↔ x = .ok a := by
  cases x <;> simp [refuse]

namespace Pending

/-- The arguments an option that waits was met in. -/
def words (p : Pending) : List String := p.argument.long :: p.value.toList

/-- An option that waits takes a value, and the one it has does not look like an option. -/
structure Open (p : Pending) : Prop where
  takesValue : p.argument.takesValue = true
  plain : ∀ value ∈ p.value, Word.ofText value = .plain

end Pending

section Rows

variable {m m₁ m₂ : Matches} {pending : Option Pending} {rest : List String}

/-- An option that waited is the first of the row. -/
theorem Adds.of_settle (hopen : ∀ p ∈ pending, p.Open) (hsettle : settle m pending = .ok m₁)
    (hrest : Adds m₁ rest m₂) : Adds m (pending.elim [] Pending.words ++ rest) m₂ := by
  rcases pending with _ | ⟨a, _ | value⟩
  · obtain rfl := Except.ok.inj hsettle
    exact hrest
  · cases hsettle
  · have ha := hopen _ rfl
    exact .option (.apart ha.takesValue (ha.plain value rfl)) hsettle hrest

theorem Subcommand.name_eq_of_argument?_eq_some {s : Subcommand} {name : String} {a : Argument}
    (h : s.argument? name = some a) : a.name = name := by
  simpa using List.find?_some h

theorem Adds.of_collect {s : Subcommand} {words : List String} (hopen : ∀ p ∈ pending, p.Open)
    (h : s.collect m pending words = .ok m₂) :
    Adds m (pending.elim [] Pending.words ++ words) m₂ := by
  induction words generalizing m pending with
  | nil => exact .of_settle hopen (refuse_eq_ok_iff.mp h) .done
  | cons word words ih =>
    unfold Subcommand.collect at h
    split at h
    -- a value for the option that waits
    case h_1 a hword =>
      have ha := hopen _ rfl
      simpa [Pending.words] using ih (fun p hp => by
        obtain rfl := Option.mem_some_iff.mp hp
        exact ⟨ha.takesValue, by simpa using hword⟩) h
    case h_2 => cases h
    case h_3 hword =>
      obtain rfl := Word.eq_of_ofText_eq_escape hword
      split at h
      · exact .of_settle hopen (refuse_eq_ok_iff.mp h) .escape
      · cases h
    case h_4 =>
      split at h
      · obtain ⟨_, _, h⟩ := exists_of_bind_eq_ok h
        cases h
      · cases h
    case h_5 name value hword =>
      have htext := Word.eq_of_ofText_eq_long hword
      split at h
      · split at h
        · split at h
          · cases h
          · obtain ⟨_, _, h⟩ := exists_of_bind_eq_ok h
            cases h
        · cases h
      case h_2 a value ha =>
        obtain rfl := Subcommand.name_eq_of_argument?_eq_some ha
        obtain rfl : word = a.long ++ "=" ++ value := by
          simpa [Argument.long, String.append_assoc] using htext
        split at h
        case isTrue htakes =>
          obtain ⟨m₁, hsettle, h⟩ := exists_of_bind_eq_ok h
          obtain ⟨m₃, hadd, h⟩ := exists_of_bind_eq_ok h
          exact .of_settle hopen (refuse_eq_ok_iff.mp hsettle)
            (.option (.joined htakes) (refuse_eq_ok_iff.mp hadd) (ih (by simp) h))
        case isFalse => cases h
      case h_3 a ha =>
        obtain rfl := Subcommand.name_eq_of_argument?_eq_some ha
        obtain rfl : word = a.long := by simpa [Argument.long] using htext
        obtain ⟨m₁, hsettle, h⟩ := exists_of_bind_eq_ok h
        refine .of_settle hopen (refuse_eq_ok_iff.mp hsettle) ?_
        split at h
        case isTrue htakes => exact ih (by simpa using ⟨htakes, by simp⟩) h
        case isFalse htakes =>
          obtain ⟨m₃, hadd, h⟩ := exists_of_bind_eq_ok h
          exact .option (.alone (by simpa using htakes)) (refuse_eq_ok_iff.mp hadd)
            (ih (by simp) h)

end Rows

/-! ### What a row gives -/

theorem gives_cons_iff {word name value : String} {words : List String} :
    Gives (word :: words) name value ↔
      word = name ++ "=" ++ value ∨ (word = name ∧ words.head? = some value) ∨
        Gives words name value := by
  have hpair : [name, value] <:+: word :: words ↔
      (word = name ∧ words.head? = some value) ∨ [name, value] <:+: words := by
    rw [List.infix_cons_iff, List.cons_prefix_cons]
    cases words with
    | nil => simp
    | cons next words => simp [List.cons_prefix_cons, eq_comm]
  unfold Gives
  rw [List.mem_cons, hpair]
  tauto

/-- A word that does not begin an option does not matter to its value. -/
theorem gives_cons_iff_of_ne {word value : String} {words : List String} {a : Argument}
    (hword : ∀ given, Word.ofText word ≠ .long a.name given) :
    Gives (word :: words) a.long value ↔ Gives words a.long value := by
  have hjoined : word ≠ a.long ++ "=" ++ value := by
    rintro rfl
    exact hword _ (Word.ofText_long_append a value)
  have hlong : word ≠ a.long := by
    rintro rfl
    exact hword _ (Word.ofText_long a)
  rw [gives_cons_iff]
  simp [hjoined, hlong]

theorem gives_append_iff {front words : List String} {a : Argument} {value : String}
    (hfront : ∀ word ∈ front, ∀ given, Word.ofText word ≠ .long a.name given) :
    Gives (front ++ words) a.long value ↔ Gives words a.long value := by
  induction front with
  | nil => rfl
  | cons word front ih =>
    obtain ⟨hword, hfront⟩ := List.forall_mem_cons.mp hfront
    exact (gives_cons_iff_of_ne hword).trans (ih hfront)

section Piece

variable {a b : Argument} {value given : String} {piece rest : List String}

/-- In front of a row, an option gives its value. -/
theorem Written.gives_append_iff (hpiece : Written b given piece) (ha : a.takesValue = true) :
    Gives (piece ++ rest) a.long value ↔
      (b = a ∧ given = value) ∨ Gives rest a.long value := by
  cases hpiece with
  | joined hb =>
    have hword : b.long ++ "=" ++ given = a.long ++ "=" ++ value ↔ b = a ∧ given = value := by
      constructor
      · intro h
        have hword := congrArg Word.ofText h
        rw [Word.ofText_long_append, Word.ofText_long_append] at hword
        obtain ⟨hname, hvalue⟩ := Word.long.inj hword
        exact ⟨Argument.name_injective hname, Option.some.inj hvalue⟩
      · rintro ⟨rfl, rfl⟩
        rfl
    have hlong : b.long ++ "=" ++ given ≠ a.long := by
      intro h
      have hword := congrArg Word.ofText h
      simp at hword
    rw [List.singleton_append, gives_cons_iff, hword]
    simp [hlong]
  | apart hb hplain =>
    have hjoined : b.long ≠ a.long ++ "=" ++ value := by
      intro h
      have hword := congrArg Word.ofText h
      simp at hword
    have hrest : Gives (given :: rest) a.long value ↔ Gives rest a.long value :=
      gives_cons_iff_of_ne (by simp [hplain])
    rw [List.cons_append, List.singleton_append, gives_cons_iff, hrest]
    simp [hjoined, Argument.long_injective.eq_iff]
  | alone hb =>
    have hne : b ≠ a := by
      rintro rfl
      rw [ha] at hb
      cases hb
    have hrest : Gives (b.long :: rest) a.long value ↔ Gives rest a.long value :=
      gives_cons_iff_of_ne (by simp [Argument.name_injective.ne hne])
    rw [List.singleton_append, hrest]
    simp [hne]

/-- In front of a row, an option without a value is there. -/
theorem Written.mem_append_iff (hpiece : Written b given piece) (ha : a.takesValue = false) :
    a.long ∈ piece ++ rest ↔ b = a ∨ a.long ∈ rest := by
  have hne : b.takesValue = true → b ≠ a := by
    rintro hb rfl
    rw [ha] at hb
    cases hb
  cases hpiece with
  | joined hb =>
    have hlong : a.long ≠ b.long ++ "=" ++ given := by
      intro h
      have hword := congrArg Word.ofText h
      simp at hword
    simp [hlong, hne hb]
  | apart hb hplain =>
    have hgiven : a.long ≠ given := by
      rintro rfl
      simp at hplain
    simp [hgiven, hne hb, Argument.long_injective.eq_iff, (hne hb).symm]
  | alone hb => simp [Argument.long_injective.eq_iff, eq_comm]

end Piece

/-- What has been met: every option at most once, and with a value that can be read. -/
structure Matches.Sound (m : Matches) : Prop where
  nodup : (m.map (·.1)).Nodup
  readable : ∀ a value, (a, value) ∈ m → Matches.checkValue a value = .ok ()

section Sound

variable {m m₁ m₂ : Matches} {a : Argument} {value : String} {words : List String}

theorem Matches.has_eq_false_iff : m.has a = false ↔ a ∉ m.map (·.1) := by
  unfold has value?
  rw [Option.isSome_eq_false_iff, Option.isNone_iff_eq_none, List.lookup_eq_none_iff]
  simp only [bne_iff_ne, List.mem_map, not_exists, not_and]
  exact forall₂_congr fun entry _ => ne_comm

/-- An option has the value it was met with. -/
theorem Matches.Sound.value?_eq_some_iff (h : m.Sound) :
    m.value? a = some value ↔ (a, value) ∈ m := by
  obtain ⟨hnodup, -⟩ := h
  induction m with
  | nil => simp [value?]
  | cons entry m ih =>
    obtain ⟨hentry, hnodup⟩ := List.nodup_cons.mp hnodup
    unfold value? at ih ⊢
    rw [List.lookup_cons, List.mem_cons]
    split
    case h_1 heq =>
      obtain rfl := eq_of_beq heq
      have hnone : (entry.1, value) ∉ m := fun hmem =>
        hentry (List.mem_map.mpr ⟨_, hmem, rfl⟩)
      simp [Prod.ext_iff, hnone, eq_comm]
    case h_2 hne =>
      have hne : a ≠ entry.1 := by simpa using hne
      rw [ih hnodup]
      simp [Prod.ext_iff, hne]

theorem Matches.add_eq_ok_iff :
    m.add a value = .ok m₁ ↔
      m.has a = false ∧ Matches.checkValue a value = .ok () ∧ m₁ = (a, value) :: m := by
  unfold add
  cases m.has a with
  | true => simp
  | false =>
    cases Matches.checkValue a value with
    | error e => simp
    | ok u =>
      change Except.ok ((a, value) :: m) = _ ↔ _
      simp [eq_comm]

theorem Adds.sound (h : Adds m words m₂) (hm : m.Sound) : m₂.Sound := by
  induction h with
  | done | escape => exact hm
  | option hpiece hadd hrest ih =>
    obtain ⟨hnew, hcheck, rfl⟩ := Matches.add_eq_ok_iff.mp hadd
    refine ih ⟨?_, ?_⟩
    · exact List.nodup_cons.mpr ⟨Matches.has_eq_false_iff.mp hnew, hm.nodup⟩
    · intro b given hmem
      rcases List.mem_cons.mp hmem with heq | hmem
      · obtain ⟨rfl, rfl⟩ := Prod.mk.inj heq
        exact hcheck
      · exact hm.readable b given hmem

/-- An option with a value is met with the value it is given. -/
theorem Adds.gives_iff (h : Adds m words m₂) (ha : a.takesValue = true) :
    (a, value) ∈ m₂ ↔ (a, value) ∈ m ∨ Gives words a.long value := by
  induction h with
  | done => simp [Gives]
  | escape =>
    have hescape : Gives ["--"] a.long value ↔ Gives [] a.long value :=
      gives_cons_iff_of_ne (by simp [show Word.ofText "--" = .escape from rfl])
    rw [hescape]
    simp [Gives]
  | option hpiece hadd hrest ih =>
    obtain ⟨-, -, rfl⟩ := Matches.add_eq_ok_iff.mp hadd
    rw [ih, List.mem_cons, hpiece.gives_append_iff ha, Prod.mk.injEq, @eq_comm _ a,
      @eq_comm _ value]
    tauto

/-- An option without a value is met if it is there. -/
theorem Adds.mem_iff (h : Adds m words m₂) (ha : a.takesValue = false) :
    a ∈ m₂.map (·.1) ↔ a ∈ m.map (·.1) ∨ a.long ∈ words := by
  induction h with
  | done => simp
  | escape =>
    have hne : a.long ≠ "--" := by cases a <;> decide
    simp [hne]
  | option hpiece hadd hrest ih =>
    obtain ⟨-, -, rfl⟩ := Matches.add_eq_ok_iff.mp hadd
    rw [ih, List.map_cons, List.mem_cons, hpiece.mem_append_iff ha, @eq_comm _ a]
    tauto

end Sound

/-! ### Arguments of a run -/

section Choices

variable {ε α : Type} {p : Prop} [Decidable p] {e : ε} {x : Except ε α} {a : α}

theorem error_ite_eq_ok_iff : (if p then .error e else x) = .ok a ↔ ¬p ∧ x = .ok a := by
  by_cases hp : p <;> simp [hp]

theorem ite_eq_ok_iff : (if p then x else .error e) = .ok a ↔ p ∧ x = .ok a := by
  by_cases hp : p <;> simp [hp]

end Choices

theorem Subcommand.eq_of_ofName?_eq_some {name : String} {s : Subcommand}
    (h : Subcommand.ofName? name = some s) : name = s.name := by
  have hname : (s.name == name) = true :=
    List.find?_some (p := fun s : Subcommand => s.name == name) h
  exact (eq_of_beq hname).symm

theorem Subcommand.parse_eq_ok {s : Subcommand} {logJson : Bool} {words : List String}
    {i : Invocation} {options : RunOptions} (h : s.parse logJson words = .ok i)
    (hrun : i.command = .run options) :
    s = .run ∧ ∃ m, Adds [] words m ∧ m.has .task = true ∧ options = m.toRunOptions := by
  obtain ⟨m, hcollect, h⟩ := exists_of_bind_eq_ok h
  have hadds : Adds [] words m := .of_collect (by simp) hcollect
  have hmade := refuse_eq_ok_iff.mp h
  unfold Subcommand.invocation at hmade
  cases s with
  | config =>
    obtain rfl := Except.ok.inj hmade
    cases hrun
  | run =>
    refine ⟨rfl, m, hadds, ?_⟩
    dsimp only at hmade
    split at hmade
    case isTrue htask =>
      obtain rfl := Except.ok.inj hmade
      exact ⟨htask, (Command.run.inj hrun).symm⟩
    case isFalse => cases hmade

/-- A long option that the reading passes is that of the program. -/
theorem Invocation.parseFrom_long_eq_ok {logJson : Bool} {word name : String}
    {value : Option String} {rest : List String} {i : Invocation}
    (hword : Word.ofText word = .long name value)
    (h : Invocation.parseFrom logJson (word :: rest) = .ok i) :
    word = Argument.logJson.long ∧ Invocation.parseFrom true rest = .ok i := by
  have htext := Word.eq_of_ofText_eq_long hword
  unfold Invocation.parseFrom at h
  rw [hword] at h
  cases value with
  | some value => simp [error_ite_eq_ok_iff] at h
  | none =>
    simp only [ite_eq_ok_iff, error_ite_eq_ok_iff] at h
    obtain ⟨hname, hhelp, hversion, -, hrest⟩ := h
    simp only [hhelp, hversion, decide_false, Bool.or_false, decide_eq_true_eq] at hname
    exact ⟨by simpa [Argument.long, hname] using htext, hrest⟩

/-- In front of the subcommand, only the option of the program can stand. -/
theorem Invocation.parseFrom_eq_ok {logJson : Bool} {arguments : List String} {i : Invocation}
    {options : RunOptions} (h : Invocation.parseFrom logJson arguments = .ok i)
    (hrun : i.command = .run options) :
    ∃ front words m, arguments = front ++ "run" :: words ∧
      (∀ word ∈ front, word = Argument.logJson.long) ∧
      Adds [] words m ∧ m.has .task = true ∧ options = m.toRunOptions := by
  induction arguments generalizing logJson with
  | nil => cases h
  | cons word rest ih =>
    cases hword : Word.ofText word with
    | plain =>
      unfold Invocation.parseFrom at h
      rw [hword] at h
      dsimp only at h
      split at h
      · obtain ⟨_, _, h⟩ := exists_of_bind_eq_ok (x := refuse (helpTopic rest)) h
        cases h
      · split at h
        case h_1 s hname =>
          obtain ⟨rfl, m, hm⟩ := Subcommand.parse_eq_ok h hrun
          obtain rfl : word = "run" := Subcommand.eq_of_ofName?_eq_some hname
          exact ⟨[], rest, m, rfl, by simp, hm⟩
        case h_2 => cases h
    | escape =>
      unfold Invocation.parseFrom at h
      rw [hword] at h
      cases rest <;> simp [error_ite_eq_ok_iff] at h
    | short letter =>
      unfold Invocation.parseFrom at h
      rw [hword] at h
      simp [error_ite_eq_ok_iff] at h
    | long name value =>
      obtain ⟨hlong, hrest⟩ := Invocation.parseFrom_long_eq_ok hword h
      obtain ⟨front, words, m, rfl, hfront, hm⟩ := ih hrest
      exact ⟨word :: front, words, m, rfl, List.forall_mem_cons.mpr ⟨hlong, hfront⟩, hm⟩

/-! ### Numbers -/

theorem ofDigits_eq_digitsValue (digits : List Char) :
    Nat.ofDigits 10 (digits.reverse.map fun d => d.toNat - '0'.toNat) =
      Json.digitsValue 0 digits := by
  rw [Nat.ofDigits_eq_foldr, List.foldr_map, List.foldr_reverse]
  simp [Json.digitsValue, Nat.add_comm]

theorem digitsValue?_eq_some_iff {digits : List Char} {n : Nat} :
    digitsValue? digits = some n ↔
      digits ≠ [] ∧ (∀ d ∈ digits, d.isDigit = true) ∧
        Nat.ofDigits 10 (digits.reverse.map fun d => d.toNat - '0'.toNat) = n := by
  rw [ofDigits_eq_digitsValue]
  unfold digitsValue?
  by_cases hdigits : digits ≠ [] ∧ ∀ d ∈ digits, d.isDigit = true
  · have htest : (digits.isEmpty || !digits.all Char.isDigit) = false := by simpa using hdigits
    simpa [htest, hdigits.1] using fun _ => hdigits.2
  · have htest : (digits.isEmpty || !digits.all Char.isDigit) = true := by
      simp only [Bool.or_eq_true, List.isEmpty_iff, Bool.not_eq_true', List.all_eq_false]
      grind
    simp only [htest, if_true, reduceCtorEq, false_iff]
    exact fun h => hdigits ⟨h.1, h.2.1⟩

section Numeral

variable {text : String} {digits : List Char} {n : Nat}

theorem numeral_iff :
    Numeral text n ↔
      digitsValue? text.toList = some n ∨
      (∃ digits, text.toList = '+' :: digits ∧ digitsValue? digits = some n) ∨
      ∃ digits, text.toList = '-' :: digits ∧ digitsValue? digits = some n ∧ n = 0 := by
  simp only [digitsValue?_eq_some_iff]
  unfold Numeral
  grind

/-- A sign is not a digit. -/
theorem digitsValue?_cons_eq_none {sign : Char} (h : sign.isDigit = false) :
    digitsValue? (sign :: digits) = none := by
  simp [digitsValue?, h]

theorem numeral_iff_of_plus (h : text.toList = '+' :: digits) :
    Numeral text n ↔ digitsValue? digits = some n := by
  rw [numeral_iff, h, digitsValue?_cons_eq_none (by decide)]
  simp

theorem numeral_iff_of_minus (h : text.toList = '-' :: digits) :
    Numeral text n ↔ digitsValue? digits = some n ∧ n = 0 := by
  rw [numeral_iff, h, digitsValue?_cons_eq_none (by decide)]
  simp

theorem numeral_iff_of_unsigned (hplus : ∀ digits, text.toList ≠ '+' :: digits)
    (hminus : ∀ digits, text.toList ≠ '-' :: digits) :
    Numeral text n ↔ digitsValue? text.toList = some n := by
  rw [numeral_iff]
  simp [hplus, hminus]

end Numeral

/-- What is read as a number of retries is a number of 32 bits. -/
theorem readRetries?_eq_some_iff {text : String} {n : UInt32} :
    readRetries? text = some n ↔ Numeral text n.toNat := by
  have hword : ∀ k, (k < UInt32.size ∧ UInt32.ofNat k = n) ↔ k = n.toNat := by
    intro k
    constructor
    · rintro ⟨hlt, rfl⟩
      exact (UInt32.toNat_ofNat_of_lt' hlt).symm
    · rintro rfl
      exact ⟨n.toNat_lt, UInt32.ofNat_toNat⟩
  unfold readRetries?
  rw [Option.map_eq_some_iff]
  simp only [Option.filter_eq_some_iff, decide_eq_true_eq, and_assoc, hword]
  split
  case h_1 digits htext => simp [numeral_iff_of_plus htext]
  case h_2 digits htext =>
    rw [numeral_iff_of_minus htext]
    simp [Option.filter_eq_some_iff]
  case h_3 hplus hminus => simp [numeral_iff_of_unsigned hplus hminus]

/-- What is read as a number of seconds is a positive number of 64 bits. -/
theorem readSeconds?_eq_some_iff {text : String} {d : Duration} :
    readSeconds? text = some d ↔
      ∃ n, Numeral text n ∧ 0 < n ∧ n < UInt64.size ∧ d = .ofSeconds n := by
  unfold readSeconds?
  rw [Option.map_eq_some_iff]
  simp only [Option.filter_eq_some_iff, Bool.and_eq_true, decide_eq_true_eq, and_assoc]
  refine exists_congr fun n => ?_
  rw [@eq_comm _ d, and_congr_left_iff]
  rintro ⟨hpos, -, -⟩
  split
  case h_1 digits htext => rw [numeral_iff_of_plus htext]
  case h_2 hplus =>
    by_cases hminus : ∃ digits, text.toList = '-' :: digits
    · obtain ⟨digits, htext⟩ := hminus
      rw [numeral_iff_of_minus htext, htext, digitsValue?_cons_eq_none (by decide)]
      simp [hpos.ne']
    · rw [numeral_iff_of_unsigned hplus (not_exists.mp hminus)]

/-! ### What is asked of a run -/

/-- An optional value that is read from what some arguments give to an option: if they give
something, it can be read. -/
structure ReadFrom {α : Type} (arguments : List String) (name : String)
    (read : String → Option α) (value : Option α) : Prop where
  given : ∀ text, Gives arguments name text → ∃ a, read text = some a ∧ value = some a
  absent : (∀ text, ¬ Gives arguments name text) → value = none

/-- What is given the same is read the same. -/
theorem ReadFrom.unique {α : Type} {arguments arguments' : List String} {name : String}
    {read : String → Option α} {value value' : Option α} (h : ReadFrom arguments name read value)
    (h' : ReadFrom arguments' name read value')
    (hgives : ∀ text, Gives arguments' name text ↔ Gives arguments name text) : value' = value := by
  by_cases hgiven : ∃ text, Gives arguments name text
  · obtain ⟨text, htext⟩ := hgiven
    obtain ⟨a, hread, rfl⟩ := h.given text htext
    obtain ⟨a', hread', rfl⟩ := h'.given text ((hgives text).mpr htext)
    exact hread'.symm.trans hread
  · have hnone := not_exists.mp hgiven
    rw [h.absent hnone, h'.absent fun text htext => hnone text ((hgives text).mp htext)]

theorem Matches.readFrom {α : Type} {m : Matches} {a : Argument} {arguments : List String}
    {read : String → Option α}
    (hvalue : ∀ text, m.value? a = some text ↔ Gives arguments a.long text)
    (hread : ∀ text, m.value? a = some text → (read text).isSome = true) :
    ReadFrom arguments a.long read ((m.value? a).bind read) where
  given text hgives := by
    have hsome := (hvalue text).mpr hgives
    obtain ⟨v, hv⟩ := Option.isSome_iff_exists.mp (hread text hsome)
    exact ⟨v, hv, by rw [hsome, Option.bind_some, hv]⟩
  absent hnone := by
    have hvalue' : m.value? a = none :=
      Option.eq_none_iff_forall_ne_some.mpr fun text h => hnone text ((hvalue text).mp h)
    rw [hvalue', Option.bind_none]

/-- Options that say what some arguments give. -/
structure RunOptions.GivenBy (o : RunOptions) (arguments : List String) : Prop where
  task : ∀ text, Gives arguments "--task" text ↔ o.task = text
  context : ∀ text, o.context = some text ↔ Gives arguments "--context" text
  noRetry : o.noRetry = true ↔ "--no-retry" ∈ arguments
  maxRetries : ReadFrom arguments "--max-retries" readRetries? o.maxRetries
  stageTimeout : ReadFrom arguments "--stage-timeout-secs" readSeconds? o.stageTimeout

theorem Matches.Sound.isSome_readRetries? {m : Matches} {text : String} (h : m.Sound)
    (hvalue : m.value? .maxRetries = some text) : (readRetries? text).isSome = true := by
  have hcheck := h.readable _ _ (h.value?_eq_some_iff.mp hvalue)
  by_contra hnone
  simp [Matches.checkValue, hnone] at hcheck

theorem Matches.Sound.isSome_readSeconds? {m : Matches} {text : String} (h : m.Sound)
    (hvalue : m.value? .stageTimeout = some text) : (readSeconds? text).isSome = true := by
  have hcheck := h.readable _ _ (h.value?_eq_some_iff.mp hvalue)
  by_contra hnone
  simp [Matches.checkValue, hnone] at hcheck

theorem Invocation.givenBy {arguments : List String} {i : Invocation} {options : RunOptions}
    (h : Invocation.parse arguments = .ok i) (hrun : i.command = .run options) :
    options.GivenBy arguments := by
  obtain ⟨front, words, m, rfl, hfront, hadds, htask, rfl⟩ := Invocation.parseFrom_eq_ok h hrun
  have hsound : m.Sound := hadds.sound ⟨List.nodup_nil, by simp⟩
  -- what stands in front of the options gives nothing
  have hvalue : ∀ a : Argument, a.takesValue = true → ∀ text,
      m.value? a = some text ↔ Gives (front ++ "run" :: words) a.long text := by
    intro a ha text
    have hne : Argument.logJson ≠ a := by
      rintro rfl
      cases ha
    have hwords : ∀ word ∈ front ++ ["run"], ∀ given, Word.ofText word ≠ .long a.name given := by
      intro word hword given hlong
      rcases List.mem_append.mp hword with hword | hword
      · rw [hfront word hword, Word.ofText_long] at hlong
        exact hne (Argument.name_injective (Word.long.inj hlong).1)
      · rw [List.mem_singleton.mp hword] at hlong
        cases hlong
    rw [hsound.value?_eq_some_iff, hadds.gives_iff ha, ← gives_append_iff hwords]
    simp
  have hflag : m.has .noRetry = true ↔ "--no-retry" ∈ front ++ "run" :: words := by
    have hfront' : "--no-retry" ∉ front := fun hmem => absurd (hfront _ hmem) (by decide)
    have hmem : Argument.noRetry ∈ m.map (·.1) ↔ "--no-retry" ∈ words :=
      (hadds.mem_iff rfl).trans (or_iff_right List.not_mem_nil)
    rw [← not_iff_not, Bool.not_eq_true, Matches.has_eq_false_iff, hmem]
    simp [hfront']
  have htasks : ∀ text, Gives (front ++ "run" :: words) "--task" text ↔
      m.toRunOptions.task = text := by
    intro text
    obtain ⟨task, hsome⟩ := Option.isSome_iff_exists.mp htask
    refine (hvalue .task rfl text).symm.trans ?_
    simp [Matches.toRunOptions, hsome]
  exact ⟨htasks, hvalue .context rfl, hflag,
    Matches.readFrom (hvalue .maxRetries rfl) fun _ => hsound.isSome_readRetries?,
    Matches.readFrom (hvalue .stageTimeout rfl) fun _ => hsound.isSome_readSeconds?⟩

end StagedPipeline.CommandLine
