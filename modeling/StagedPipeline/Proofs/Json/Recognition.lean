import StagedPipeline.Proofs.Json.Reading
import StagedPipeline.Proofs.Json.Yields

/-!
# What is read is JSON

The reader takes every text to a document, and the document tells whether the text is JSON: it is
exactly if the reading passes over the document without a fault and nothing follows
(`isJson_iff_read`). A text that is parsed as a value denotes it, and no other
(`parse?_eq_some_iff_denotes`).
-/

namespace StagedPipeline.Json

variable {text : List Char} {left? : Option (List Char)} {fuel : Nat}

/-! ### Passing over documents -/

namespace Document

variable {items : List Document} {members : List (Except Fault String × Document)}
  {closing : Option Break}

theorem passItems_iff : passItems items = .ok () ↔ ∀ item ∈ items, item.pass = .ok () := by
  induction items with
  | nil => simp [passItems, pure, Except.pure]
  | cons item items ih =>
    cases hitem : item.pass <;> simp [passItems, hitem, bind, Except.bind, ih]

theorem passMembers_iff :
    passMembers members = .ok () ↔ ∀ member ∈ members, member.2.pass = .ok () := by
  induction members with
  | nil => simp [passMembers, pure, Except.pure]
  | cons member members ih =>
    obtain ⟨key, value⟩ := member
    cases hvalue : value.pass <;> simp [passMembers, hvalue, bind, Except.bind, ih]

theorem pass_array_iff : (array items closing).pass = .ok () ↔
    (∀ item ∈ items, item.pass = .ok ()) ∧ closing = none := by
  rw [← passItems_iff]
  cases closing <;> cases hitems : passItems items <;>
    simp [pass, hitems, bind, Except.bind, pure, Except.pure]

theorem pass_object_iff : (object members closing).pass = .ok () ↔
    (∀ member ∈ members, member.2.pass = .ok ()) ∧ closing = none := by
  rw [← passMembers_iff]
  cases closing <;> cases hmembers : passMembers members <;>
    simp [pass, hmembers, bind, Except.bind, pure, Except.pure]

end Document

mutual

/-- Nothing stops the passing over what is JSON. -/
theorem pass_of_written : ∀ (root : Document) (text : List Char), Written root text →
    root.pass = .ok ()
  | .null, _, _ | .bool _, _, _ | .number _, _, _ | .string _, _, _ => rfl
  | .array items none, _, ⟨inside, hinside, _⟩ =>
    Document.pass_array_iff.mpr ⟨passItems_of_written items inside hinside, rfl⟩
  | .object members none, _, ⟨inside, hinside, _⟩ =>
    Document.pass_object_iff.mpr ⟨passMembers_of_written members inside hinside, rfl⟩

theorem passItems_of_written : ∀ (items : List Document) (text : List Char),
    WrittenItems items text → ∀ item ∈ items, item.pass = .ok ()
  | [], _, _ => List.forall_mem_nil _
  | [item], _, ⟨_, inside, _, _, hitem, _, _⟩ =>
    List.forall_mem_singleton.mpr (pass_of_written item inside hitem)
  | item :: other :: items, _, ⟨_, others, ⟨_, inside, _, _, hitem, _, _⟩, hothers, _⟩ =>
    List.forall_mem_cons.mpr ⟨pass_of_written item inside hitem,
      passItems_of_written (other :: items) others hothers⟩

theorem passMembers_of_written : ∀ (members : List (Except Fault String × Document))
    (text : List Char), WrittenMembers members text → ∀ member ∈ members, member.2.pass = .ok ()
  | [], _, _ => List.forall_mem_nil _
  | [(_, value)], _, ⟨_, _, _, ⟨_, inside, _, _, hvalue, _, _⟩, _⟩ =>
    List.forall_mem_singleton.mpr (pass_of_written value inside hvalue)
  | (_, value) :: other :: members, _,
      ⟨_, others, ⟨_, _, _, ⟨_, inside, _, _, hvalue, _, _⟩, _⟩, hothers, _⟩ =>
    List.forall_mem_cons.mpr ⟨pass_of_written value inside hvalue,
      passMembers_of_written (other :: members) others hothers⟩

end

/-! ### Spaces -/

theorem exists_blank (text : List Char) :
    ∃ spaces, Blank spaces ∧ text = spaces ++ skipSpace text :=
  ⟨text.takeWhile isSpace, fun _ hc => List.mem_takeWhile_imp hc,
    List.takeWhile_append_dropWhile.symm⟩

theorem exists_blank_of_skipSpace {c : Char} {behind : List Char}
    (h : skipSpace text = c :: behind) : ∃ spaces, Blank spaces ∧ text = spaces ++ c :: behind := by
  obtain ⟨spaces, hspaces, htext⟩ := exists_blank text
  exact ⟨spaces, hspaces, h ▸ htext⟩

theorem Padded.spaces {P : List Char → Prop} {spaces : List Char} (hspaces : Blank spaces)
    (h : Padded P text) : Padded P (spaces ++ text) := by
  obtain ⟨before, inside, after, hbefore, hinside, hafter, rfl⟩ := h
  exact ⟨spaces ++ before, inside, after, hspaces.append hbefore, hinside, hafter, by simp⟩

theorem WrittenMember.spaces {key : Except Fault String} {P : List Char → Prop} {spaces : List Char}
    (hspaces : Blank spaces) (h : WrittenMember key P text) :
    WrittenMember key P (spaces ++ text) := by
  obtain ⟨name, value, hname, hvalue, rfl⟩ := h
  exact ⟨spaces ++ name, value, hname.spaces hspaces, hvalue, by simp⟩

theorem WrittenMembers.spaces {members : List (Except Fault String × Document)} {spaces : List Char}
    (hspaces : Blank spaces) (hne : members ≠ []) (h : WrittenMembers members text) :
    WrittenMembers members (spaces ++ text) := by
  match members with
  | [] => contradiction
  | [(key, value)] => exact WrittenMember.spaces hspaces h
  | (key, value) :: other :: members =>
    obtain ⟨first, others, hfirst, hothers, rfl⟩ := h
    exact ⟨spaces ++ first, others, hfirst.spaces hspaces, hothers, by simp⟩

/-! ### What the reader has passed -/

/-- Behind its spaces, the text begins with a text of a kind. -/
def BeginsWith (P : List Char → Prop) (text : List Char) (left? : Option (List Char)) : Prop :=
  ∃ spaces inside left, Blank spaces ∧ P inside ∧ left? = some left ∧
    text = spaces ++ (inside ++ left)

theorem BeginsWith.of_skipSpace {P : List Char → Prop} {left : List Char} (inside : List Char)
    (hinside : P inside) (h : skipSpace text = inside ++ left) : BeginsWith P text (some left) := by
  obtain ⟨spaces, hspaces, htext⟩ := exists_blank text
  exact ⟨spaces, inside, left, hspaces, hinside, rfl, by rw [← h, ← htext]⟩

theorem BeginsWith.enclosed {P : List Char → Prop} {opening closing : Char}
    {behind inside left : List Char} (h : skipSpace text = opening :: behind)
    (hbehind : behind = inside ++ closing :: left)
    (hinside : P (opening :: (inside ++ [closing]))) : BeginsWith P text (some left) := by
  refine .of_skipSpace _ hinside ?_
  rw [h, hbehind]
  simp

/-- Spaces in front of a closing mark or a comma belong to what stands before. -/
theorem BeginsWith.padded {P : List Char → Prop} {left behind : List Char} {c : Char}
    (h : BeginsWith P text (some left)) (hskip : skipSpace left = c :: behind) :
    ∃ inside, Padded P inside ∧ text = inside ++ c :: behind := by
  obtain ⟨spaces, inside, left', hspaces, hinside, hleft, rfl⟩ := h
  obtain rfl := Option.some.inj hleft
  obtain ⟨after, hafter, hsplit⟩ := exists_blank_of_skipSpace hskip
  refine ⟨_, ⟨spaces, inside, after, hspaces, hinside, hafter, rfl⟩, ?_⟩
  rw [hsplit]
  simp

/-- What is read at the start of the text, unless it is broken, is there. -/
def RecognizesValue (fuel : Nat) : Prop :=
  ∀ text root left?, readValue fuel text = (root, left?) → root.pass = .ok () →
    BeginsWith (Written root) text left?

/-- Elements that are read up to the closing bracket are there. -/
def RecognizesItems (fuel : Nat) : Prop :=
  ∀ text items left?, readItems fuel text = (items, none, left?) →
    (∀ item ∈ items, item.pass = .ok ()) → ∃ inside left, WrittenItems items inside ∧ items ≠ [] ∧
      left? = some left ∧ text = inside ++ ']' :: left

/-- Members that are read up to the closing brace are there. -/
def RecognizesMembers (fuel : Nat) : Prop :=
  ∀ text members left?, readMembers fuel text = (members, none, left?) →
    (∀ member ∈ members, member.2.pass = .ok ()) → ∃ inside left, WrittenMembers members inside ∧
      members ≠ [] ∧ left? = some left ∧ text = inside ++ '\x7d' :: left

/-! ### Words -/

theorem eq_append_of_scanWord {word left : List Char} (h : scanWord word text = .ok left) :
    text = word ++ left := by
  fun_induction scanWord word text with
  | case1 text => exact Except.ok.inj h
  | case3 w word text ih => rw [ih h, List.cons_append]
  | _ => contradiction

/-- A word that is read is there. -/
theorem beginsWith_of_readWord {value root : Document} {onset : Onset} {c : Char}
    {word behind : List Char} (h : readWord value onset word behind = (root, left?))
    (hvalue : Written value (c :: word)) (hpass : root.pass = .ok ())
    (hskip : skipSpace text = c :: behind) : BeginsWith (Written root) text left? := by
  unfold readWord at h
  split at h
  · rename_i left hscan
    obtain ⟨rfl, rfl⟩ := Prod.mk.inj h
    refine .of_skipSpace _ hvalue ?_
    rw [hskip, eq_append_of_scanWord hscan, List.cons_append]
  · obtain ⟨rfl, rfl⟩ := Prod.mk.inj h
    contradiction

/-! ### Values -/

theorem recognizesValue_succ (hitems : RecognizesItems fuel) (hmembers : RecognizesMembers fuel) :
    RecognizesValue (fuel + 1) := by
  intro text root left? h hpass
  rw [readValue] at h
  split at h
  · obtain ⟨rfl, rfl⟩ := Prod.mk.inj h
    contradiction
  -- the three words
  iterate 3
    · rename_i behind hskip
      exact beginsWith_of_readWord h rfl hpass hskip
  -- a string
  · rename_i behind hskip
    split at h
    · rename_i value left hscan
      obtain ⟨rfl, rfl⟩ := Prod.mk.inj h
      obtain ⟨inside, hinside, hbehind⟩ := scanString_start_iff.mp hscan
      exact .enclosed hskip hbehind ⟨inside, hinside, rfl⟩
    · obtain ⟨rfl, rfl⟩ := Prod.mk.inj h
      contradiction
  -- an array
  · rename_i behind hskip
    split at h
    · obtain ⟨rfl, rfl⟩ := Prod.mk.inj h
      contradiction
    · rename_i left hclose
      obtain ⟨rfl, rfl⟩ := Prod.mk.inj h
      obtain ⟨spaces, hspaces, hbehind⟩ := exists_blank_of_skipSpace hclose
      exact .enclosed hskip hbehind ⟨spaces, hspaces, rfl⟩
    · rw [readItems_skipSpace] at h
      rcases hread : readItems fuel behind with ⟨items, closing, left?⟩
      rw [hread] at h
      obtain ⟨rfl, rfl⟩ := Prod.mk.inj h
      obtain ⟨hpassed, rfl⟩ := Document.pass_array_iff.mp hpass
      obtain ⟨inside, left, hinside, -, rfl, hbehind⟩ := hitems _ _ _ hread hpassed
      exact .enclosed hskip hbehind ⟨inside, hinside, rfl⟩
  -- an object
  · rename_i behind hskip
    split at h
    · rename_i left hclose
      obtain ⟨rfl, rfl⟩ := Prod.mk.inj h
      obtain ⟨spaces, hspaces, hbehind⟩ := exists_blank_of_skipSpace hclose
      exact .enclosed hskip hbehind ⟨spaces, hspaces, rfl⟩
    · rcases hread : readMembers fuel (skipSpace behind) with ⟨members, closing, left?⟩
      rw [hread] at h
      obtain ⟨rfl, rfl⟩ := Prod.mk.inj h
      obtain ⟨hpassed, rfl⟩ := Document.pass_object_iff.mp hpass
      obtain ⟨inside, left, hinside, hne, rfl, htext⟩ := hmembers _ _ _ hread hpassed
      obtain ⟨spaces, hspaces, hbehind⟩ := exists_blank behind
      rw [htext, ← List.append_assoc] at hbehind
      exact .enclosed hskip hbehind ⟨_, hinside.spaces hspaces hne, rfl⟩
  -- a number
  · rename_i c behind _ _ _ _ _ _ hskip
    split at h
    · split at h
      · rename_i parts left hscan
        obtain ⟨rfl, rfl⟩ := Prod.mk.inj h
        obtain ⟨inside, hinside, hsplit⟩ := numberText_of_scanNumber hscan
        exact .of_skipSpace inside ⟨parts, hinside, rfl⟩ (hskip.trans hsplit)
      · obtain ⟨rfl, rfl⟩ := Prod.mk.inj h
        contradiction
    · obtain ⟨rfl, rfl⟩ := Prod.mk.inj h
      contradiction

/-! ### Elements and members -/

theorem recognizesItems_succ (hvalue : RecognizesValue fuel) (hitems : RecognizesItems fuel) :
    RecognizesItems (fuel + 1) := by
  intro text items left? h hpass
  rw [readItems] at h
  split at h
  -- a value that breaks off is not passed over
  · rename_i value hread
    cases h
    obtain ⟨hpassed, -⟩ := List.forall_mem_cons.mp hpass
    obtain ⟨_, _, _, _, _, hleft, _⟩ := hvalue _ _ _ hread hpassed
    contradiction
  rename_i value behind hread
  split at h
  · cases h
  · rename_i left hskip
    cases h
    obtain ⟨hpassed, -⟩ := List.forall_mem_cons.mp hpass
    obtain ⟨inside, hinside, htext⟩ := (hvalue _ _ _ hread hpassed).padded hskip
    exact ⟨inside, left, hinside, List.cons_ne_nil _ _, rfl, htext⟩
  · rename_i others hskip
    split at h
    · cases h
      have hbroken := hpass (.broken .absent (.of .truncated)) (by simp)
      contradiction
    · cases h
      have hbroken := hpass (.broken .other (.of .malformed)) (by simp)
      contradiction
    · rw [readItems_skipSpace] at h
      rcases hothers : readItems fuel others with ⟨rest, closing, left?⟩
      rw [hothers] at h
      cases h
      obtain ⟨hpassed, hpass⟩ := List.forall_mem_cons.mp hpass
      obtain ⟨first, hfirst, htext⟩ := (hvalue _ _ _ hread hpassed).padded hskip
      obtain ⟨inside, left, hinside, hne, rfl, rfl⟩ := hitems _ _ _ hothers hpass
      obtain ⟨other, rest, rfl⟩ := List.exists_cons_of_ne_nil hne
      exact ⟨_, left, ⟨first, inside, hfirst, hinside, rfl⟩, List.cons_ne_nil _ _, rfl,
        by simp [htext]⟩
  · cases h

/-- A key, its colon and its value are a member. -/
theorem exists_writtenMember {key : Except Fault String} {value : Document}
    {quoted behind held left rest : List Char} {c : Char} (hquoted : StringValue key quoted)
    (hcolon : skipSpace behind = ':' :: held)
    (hvalue : BeginsWith (Written value) held (some left)) (hskip : skipSpace left = c :: rest) :
    ∃ first, WrittenMember key (Written value) first ∧
      '"' :: (quoted ++ '"' :: behind) = first ++ c :: rest := by
  obtain ⟨spaces, hspaces, rfl⟩ := exists_blank_of_skipSpace hcolon
  obtain ⟨inside, hinside, rfl⟩ := hvalue.padded hskip
  have hname : Padded (WrittenString key) ('"' :: (quoted ++ '"' :: spaces)) :=
    ⟨[], '"' :: (quoted ++ ['"']), spaces, blank_nil, ⟨quoted, hquoted, rfl⟩, hspaces, by simp⟩
  exact ⟨_, ⟨_, inside, hname, hinside, rfl⟩, by simp⟩

theorem recognizesMembers_succ (hvalue : RecognizesValue fuel)
    (hmembers : RecognizesMembers fuel) : RecognizesMembers (fuel + 1) := by
  intro text members left? h hpass
  unfold readMembers at h
  split at h
  · cases h
  · split at h
    · cases h
    rename_i key behind hscan
    obtain ⟨quoted, hquoted, rfl⟩ := scanString_start_iff.mp hscan
    split at h
    · cases h
      have hbroken := hpass (key, .broken .absent (.of .truncated)) (by simp)
      contradiction
    · rename_i hcolon
      split at h
      · rename_i value hread
        cases h
        obtain ⟨hpassed, -⟩ := List.forall_mem_cons.mp hpass
        obtain ⟨_, _, _, _, _, hleft, _⟩ := hvalue _ _ _ hread hpassed
        contradiction
      rename_i value behind hread
      have hpassed : value.pass = .ok () := by
        split at h <;>
          exact hpass (key, value) ((Prod.mk.inj h).1 ▸ List.mem_cons_self)
      have hbegins := hvalue _ _ _ hread hpassed
      split at h
      · cases h
      · rename_i left hskip
        cases h
        obtain ⟨first, hfirst, htext⟩ := exists_writtenMember hquoted hcolon hbegins hskip
        exact ⟨first, left, hfirst, List.cons_ne_nil _ _, rfl, htext⟩
      · rename_i others hskip
        rcases hothers : readMembers fuel (skipSpace others) with ⟨rest, closing, left?⟩
        rw [hothers] at h
        cases h
        obtain ⟨first, hfirst, htext⟩ := exists_writtenMember hquoted hcolon hbegins hskip
        obtain ⟨inside, left, hinside, hne, rfl, hsplit⟩ :=
          hmembers _ _ _ hothers (List.forall_mem_cons.mp hpass).2
        obtain ⟨spaces, hspaces, hspace⟩ := exists_blank others
        obtain ⟨other, rest, rfl⟩ := List.exists_cons_of_ne_nil hne
        refine ⟨_, left, ⟨first, _, hfirst, hinside.spaces hspaces hne, rfl⟩,
          List.cons_ne_nil _ _, rfl, ?_⟩
        rw [htext, hspace, hsplit]
        simp
      · cases h
    · cases h
      have hbroken := hpass (key, .broken .absent (.of .malformed)) (by simp)
      contradiction
  · cases h

theorem recognizes (fuel : Nat) :
    RecognizesValue fuel ∧ RecognizesItems fuel ∧ RecognizesMembers fuel := by
  induction fuel with
  | zero =>
    refine ⟨?_, ?_, ?_⟩
    · intro text root left? h hpass
      cases h
      contradiction
    · intro text items left? h
      cases h
    · intro text members left? h
      cases h
  | succ fuel ih =>
    obtain ⟨hvalue, hitems, hmembers⟩ := ih
    exact ⟨recognizesValue_succ hitems hmembers, recognizesItems_succ hvalue hitems,
      recognizesMembers_succ hvalue hmembers⟩

/-! ### Whole texts -/

/-- A text is JSON exactly if its document can be passed over and nothing follows it. -/
theorem isJson_iff_read {text : String} {root : Document} :
    IsJson text root ↔ Text.read text = ⟨root, false⟩ ∧ root.pass = .ok () := by
  constructor
  · intro h
    obtain ⟨_, inside, _, _, hinside, _, _⟩ := id h
    exact ⟨Text.read_of_isJson h, pass_of_written root inside hinside⟩
  · rintro ⟨hread, hpass⟩
    unfold Text.read at hread
    dsimp only at hread
    split at hread
    · rename_i root' hvalue
      obtain ⟨rfl, -⟩ := Text.mk.inj hread
      obtain ⟨_, _, _, _, _, hleft, _⟩ := (recognizes _).1 _ _ _ hvalue hpass
      contradiction
    · rename_i root' left hvalue
      obtain ⟨rfl, htrailing⟩ := Text.mk.inj hread
      obtain ⟨spaces, inside, left', hspaces, hinside, hleft, htext⟩ :=
        (recognizes _).1 _ _ _ hvalue hpass
      obtain rfl := Option.some.inj hleft
      obtain ⟨after, hafter, hsplit⟩ := exists_blank left
      have hempty : skipSpace left = [] := by simpa using htrailing
      rw [hempty, List.append_nil] at hsplit
      exact ⟨spaces, inside, left, hspaces, hinside, hsplit ▸ hafter, htext⟩

/-! ### Texts that denote values -/

namespace Document

theorem exists_of_toItems?_cons {item : Document} {items : List Document} {values : List Json}
    (h : toItems? (item :: items) = some values) :
    ∃ value rest, item.toJson? = some value ∧ toItems? items = some rest ∧
      values = value :: rest := by
  obtain ⟨value, hvalue, h⟩ := Option.bind_eq_some_iff.mp h
  obtain ⟨rest, hrest, h⟩ := Option.bind_eq_some_iff.mp h
  exact ⟨value, rest, hvalue, hrest, (Option.some.inj h).symm⟩

theorem exists_of_toMembers?_cons {key? : Except Fault String} {value : Document}
    {members : List (Except Fault String × Document)} {values : List (String × Json)}
    (h : toMembers? ((key?, value) :: members) = some values) :
    ∃ key json rest, key? = .ok key ∧ value.toJson? = some json ∧ toMembers? members = some rest ∧
      values = (key, json) :: rest := by
  cases key? with
  | error fault => contradiction
  | ok key =>
    obtain ⟨json, hjson, h⟩ := Option.bind_eq_some_iff.mp h
    obtain ⟨rest, hrest, h⟩ := Option.bind_eq_some_iff.mp h
    exact ⟨key, json, rest, rfl, hjson, hrest, (Option.some.inj h).symm⟩

end Document

theorem WrittenString.quotedText {s : String} (h : WrittenString (.ok s) text) :
    QuotedText s text := by
  obtain ⟨inside, ⟨hinside⟩, htext⟩ := h
  exact ⟨inside, hinside, htext⟩

theorem WrittenMember.memberText {key : String} {P Q : List Char → Prop} (h : ∀ t, P t → Q t)
    (ht : WrittenMember (.ok key) P text) : MemberText key Q text := by
  obtain ⟨name, value, hname, hvalue, htext⟩ := ht
  exact ⟨name, value, hname.mono fun _ => WrittenString.quotedText, hvalue.mono h, htext⟩

mutual

/-- A document of which nothing is deferred is written as its value. -/
theorem spells_of_written : ∀ (root : Document) (text : List Char) (value : Json),
    Written root text → root.toJson? = some value → Spells value text
  | .null, _, _, h, rfl => h
  | .bool true, _, _, h, rfl => h
  | .bool false, _, _, h, rfl => h
  | .number (.ok (.natural _)), _, _, h, rfl => h
  | .number (.ok (.negative _)), _, _, h, rfl => h
  | .number (.ok (.double _)), _, _, h, rfl => h
  | .string (.ok _), _, _, h, rfl => WrittenString.quotedText h
  | .array items none, _, _, ⟨inside, hinside, htext⟩, hvalue => by
    obtain ⟨values, hvalues, rfl⟩ := Option.map_eq_some_iff.mp hvalue
    exact ⟨inside, spellsItems_of_written items inside values hinside hvalues, htext⟩
  | .object members none, _, _, ⟨inside, hinside, htext⟩, hvalue => by
    obtain ⟨values, hvalues, rfl⟩ := Option.map_eq_some_iff.mp hvalue
    exact ⟨inside, spellsMembers_of_written members inside values hinside hvalues, htext⟩

theorem spellsItems_of_written : ∀ (items : List Document) (text : List Char) (values : List Json),
    WrittenItems items text → Document.toItems? items = some values → SpellsItems values text
  | [], _, _, h, rfl => h
  | [item], _, _, h, hvalues => by
    obtain ⟨value, _, hvalue, hrest, rfl⟩ := Document.exists_of_toItems?_cons hvalues
    obtain rfl := Option.some.inj hrest
    exact Padded.mono (fun t ht => spells_of_written item t value ht hvalue) h
  | item :: other :: items, _, _, ⟨first, others, hfirst, hothers, htext⟩, hvalues => by
    obtain ⟨value, _, hvalue, hrest, rfl⟩ := Document.exists_of_toItems?_cons hvalues
    have hothers := spellsItems_of_written (other :: items) others _ hothers hrest
    obtain ⟨_, _, _, _, rfl⟩ := Document.exists_of_toItems?_cons hrest
    exact ⟨first, others, hfirst.mono fun t ht => spells_of_written item t value ht hvalue,
      hothers, htext⟩

theorem spellsMembers_of_written : ∀ (members : List (Except Fault String × Document))
    (text : List Char) (values : List (String × Json)), WrittenMembers members text →
      Document.toMembers? members = some values → SpellsMembers values text
  | [], _, _, h, rfl => h
  | [(_, value)], _, _, h, hvalues => by
    obtain ⟨key, json, _, rfl, hjson, hrest, rfl⟩ := Document.exists_of_toMembers?_cons hvalues
    obtain rfl := Option.some.inj hrest
    exact WrittenMember.memberText (fun t ht => spells_of_written value t json ht hjson) h
  | (_, value) :: other :: members, _, _, ⟨first, others, hfirst, hothers, htext⟩, hvalues => by
    obtain ⟨key, json, _, rfl, hjson, hrest, rfl⟩ := Document.exists_of_toMembers?_cons hvalues
    have hothers := spellsMembers_of_written (other :: members) others _ hothers hrest
    obtain ⟨_, _, _, _, _, _, rfl⟩ := Document.exists_of_toMembers?_cons hrest
    exact ⟨first, others, hfirst.memberText fun t ht => spells_of_written value t json ht hjson,
      hothers, htext⟩

end

mutual

/-- A document with a value is complete. -/
theorem pass_of_toJson? : ∀ (root : Document) (value : Json), root.toJson? = some value →
    root.pass = .ok ()
  | .null, _, _ | .bool _, _, _ | .number _, _, _ | .string _, _, _ => rfl
  | .array items none, _, h => by
    obtain ⟨values, hvalues, rfl⟩ := Option.map_eq_some_iff.mp h
    exact Document.pass_array_iff.mpr ⟨pass_of_toItems? items values hvalues, rfl⟩
  | .object members none, _, h => by
    obtain ⟨values, hvalues, rfl⟩ := Option.map_eq_some_iff.mp h
    exact Document.pass_object_iff.mpr ⟨pass_of_toMembers? members values hvalues, rfl⟩

theorem pass_of_toItems? : ∀ (items : List Document) (values : List Json),
    Document.toItems? items = some values → ∀ item ∈ items, item.pass = .ok ()
  | [], _, _ => List.forall_mem_nil _
  | item :: items, _, h => by
    obtain ⟨value, rest, hvalue, hrest, rfl⟩ := Document.exists_of_toItems?_cons h
    exact List.forall_mem_cons.mpr
      ⟨pass_of_toJson? item value hvalue, pass_of_toItems? items rest hrest⟩

theorem pass_of_toMembers? : ∀ (members : List (Except Fault String × Document))
    (values : List (String × Json)), Document.toMembers? members = some values →
      ∀ member ∈ members, member.2.pass = .ok ()
  | [], _, _ => List.forall_mem_nil _
  | (_, value) :: members, _, h => by
    obtain ⟨_, json, rest, _, hjson, hrest, rfl⟩ := Document.exists_of_toMembers?_cons h
    exact List.forall_mem_cons.mpr
      ⟨pass_of_toJson? value json hjson, pass_of_toMembers? members rest hrest⟩

end

mutual

/-- Nothing is deferred in the document of a value that a text can stand for. -/
theorem toJson?_toDocument : ∀ (value : Json) (text : List Char), Spells value text →
    value.toDocument.toJson? = some value
  | .null, _, _ | .bool _, _, _ | .natural _, _, _ | .negative _, _, _ | .double _, _, _
  | .string _, _, _ => rfl
  | .single _, _, h => h.elim
  | .array items, _, ⟨inside, hinside, _⟩ =>
    Option.map_eq_some_iff.mpr ⟨items, toItems?_itemDocuments items inside hinside, rfl⟩
  | .object members, _, ⟨inside, hinside, _⟩ =>
    Option.map_eq_some_iff.mpr ⟨members, toMembers?_memberDocuments members inside hinside, rfl⟩

theorem toItems?_itemDocuments : ∀ (items : List Json) (text : List Char), SpellsItems items text →
    Document.toItems? (itemDocuments items) = some items
  | [], _, _ => rfl
  | [value], _, ⟨_, inside, _, _, hvalue, _, _⟩ => by
    have hvalue := toJson?_toDocument value inside hvalue
    simp [itemDocuments, Document.toItems?, hvalue]
  | value :: other :: items, _, ⟨_, others, ⟨_, inside, _, _, hvalue, _, _⟩, hothers, _⟩ => by
    have hvalue := toJson?_toDocument value inside hvalue
    have hothers := toItems?_itemDocuments (other :: items) others hothers
    rw [itemDocuments, Document.toItems?, hvalue, hothers]
    rfl

theorem toMembers?_memberDocuments : ∀ (members : List (String × Json)) (text : List Char),
    SpellsMembers members text → Document.toMembers? (memberDocuments members) = some members
  | [], _, _ => rfl
  | [(_, value)], _, ⟨_, _, _, ⟨_, inside, _, _, hvalue, _, _⟩, _⟩ => by
    have hvalue := toJson?_toDocument value inside hvalue
    simp [memberDocuments, Document.toMembers?, hvalue]
  | (_, value) :: other :: members, _,
      ⟨_, others, ⟨_, _, _, ⟨_, inside, _, _, hvalue, _, _⟩, _⟩, hothers, _⟩ => by
    have hvalue := toJson?_toDocument value inside hvalue
    have hothers := toMembers?_memberDocuments (other :: members) others hothers
    rw [memberDocuments, Document.toMembers?, hvalue, hothers]
    rfl

end

/-- A text is parsed as the value that it denotes. -/
theorem parse?_eq_some_iff_denotes {text : String} {value : Json} :
    parse? text = some value ↔ Denotes text value := by
  constructor
  · intro h
    unfold parse? at h
    dsimp only at h
    split at h
    · contradiction
    rename_i htrailing
    have hread : Text.read text = ⟨(Text.read text).root, false⟩ := by
      rw [← (Bool.not_eq_true _).mp htrailing]
    have hjson := isJson_iff_read.mpr ⟨hread, pass_of_toJson? _ value h⟩
    exact hjson.mono fun t ht => spells_of_written _ t value ht h
  · intro h
    obtain ⟨_, inside, _, _, hinside, _, _⟩ := id h
    unfold parse?
    rw [Text.read_of_denotes h]
    exact toJson?_toDocument value inside hinside

end StagedPipeline.Json
