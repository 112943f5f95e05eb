import StagedPipeline.Completion.Service
import StagedPipeline.Proofs.Json.Members
import StagedPipeline.Proofs.Json.Range

/-!
# What is asked and what is answered

The text of a request stands for the model, the two prompts and the number of tokens, character for
character, and for nothing else. An answer is read for the content of its first choice, whatever
else it says: names that are not asked for may stand anywhere, with any values, and later choices do
not matter. So a service that sends a prompt back is heard to say exactly that prompt
(`Chat.carries_text`).
-/

namespace StagedPipeline.Chat

open Json

/-! ### Requests -/

/-- What a request says to whoever reads it. -/
def spoken (model : String) (request : CompletionRequest) (temperature : Json) : Json :=
  .object [
    ("model", .string model),
    ("messages", .array [
      .object [("role", .string "system"), ("content", .string request.systemPrompt)],
      .object [("role", .string "user"), ("content", .string request.userPrompt)]]),
    ("max_tokens", .natural request.maxTokens.toNat),
    ("temperature", temperature)]

/-- The prompts that can be read off a request, in their order. -/
def prompts (value : Json) : List Json :=
  match value.field? "messages" with
  | some (.array messages) => messages.filterMap (·.field? "content")
  | _ => []

theorem prompts_spoken (model : String) (request : CompletionRequest) (temperature : Json) :
    prompts (spoken model request temperature) =
      [.string request.systemPrompt, .string request.userPrompt] :=
  rfl

/-- The text of a request stands for what it says. -/
theorem exists_denotes_body (model : String) (request : CompletionRequest) :
    ∃ temperature, (temperature = .null ∨ ∃ x, temperature = .double x) ∧
      Denotes (body model request).render (spoken model request temperature) := by
  obtain ⟨temperature, hkind, htemperature⟩ := exists_spells_single request.temperature
  refine ⟨temperature, hkind, [], (body model request).renderChars, [], blank_nil, ?_, blank_nil,
    ?_⟩
  · have hword : request.maxTokens.toNat ≤ maxWord :=
      request.maxTokens.toNat_lt.le.trans (by decide)
    refine ⟨_, spellsMembers_render ?_, rfl⟩
    refine .cons ⟨rfl, spells_renderChars trivial⟩ (.cons ⟨rfl, spells_renderChars ?_⟩
      (.cons ⟨rfl, spells_renderChars hword⟩ (.cons ⟨rfl, htemperature⟩ .nil)))
    simp [Readable, ReadableItems, ReadableMembers]
  · rw [render, String.toList_ofList, List.append_nil, List.nil_append]

theorem denotes_body_iff (model : String) (request : CompletionRequest) :
    ∃ temperature, (temperature = .null ∨ ∃ x, temperature = .double x) ∧
      ∀ value, Denotes (body model request).render value ↔
        value = spoken model request temperature := by
  obtain ⟨temperature, hkind, hdenotes⟩ := exists_denotes_body model request
  refine ⟨temperature, hkind, fun value => ⟨fun h => ?_, fun h => h ▸ hdenotes⟩⟩
  have hparse := parse?_eq_some_iff_denotes.mpr hdenotes
  rw [parse?_eq_some_iff_denotes.mpr h] at hparse
  exact Option.some.inj hparse

/-! ### Answers -/

/-- The object of a message: its content is a text, or null, or not there. Whatever else stands in
it does not matter. -/
inductive IsMessage : Option String → Document → Prop
  | absent {members : List (String × Document)} (h : documentsOf "content" members = []) :
      IsMessage none (.object (named members) none)
  | null {members : List (String × Document)} (h : documentsOf "content" members = [.null]) :
      IsMessage none (.object (named members) none)
  | text {members : List (String × Document)} {content : String}
      (h : documentsOf "content" members = [.string (.ok content)]) :
      IsMessage (some content) (.object (named members) none)

/-- The object of a choice, with one message. -/
inductive IsChoice (content : Option String) : Document → Prop
  | of {members : List (String × Document)} {message : Document}
      (h : documentsOf "message" members = [message]) (hmessage : IsMessage content message) :
      IsChoice content (.object (named members) none)

/-- An object with one list of choices. -/
inductive IsAnswer (contents : List (Option String)) : Document → Prop
  | of {members : List (String × Document)} {choices : List Document}
      (h : documentsOf "choices" members = [.array choices none])
      (hchoices : List.Forall₂ IsChoice contents choices) :
      IsAnswer contents (.object (named members) none)

/-- A text that answers nothing: it is no JSON, or it is an object that has no choices, or whose
choices are an empty list, or a list with an object that has no message. -/
inductive AnswersNothing (answer : String) : Prop
  | malformed (h : ∀ root, ¬IsJson answer root)
  | unchosen {members : List (Except Fault String × Document)}
      (hanswer : IsJson answer (.object members none))
      (h : ∀ member ∈ members, member.1 ≠ .ok "choices")
  | empty {members : List (Except Fault String × Document)}
      (hanswer : IsJson answer (.object members none))
      (h : (.ok "choices", .array [] none) ∈ members)
  | silent {members message : List (Except Fault String × Document)} {choices : List Document}
      (hanswer : IsJson answer (.object members none))
      (h : (.ok "choices", .array choices none) ∈ members)
      (hchoice : .object message none ∈ choices)
      (hmessage : ∀ member ∈ message, member.1 ≠ .ok "message")

theorem messageRecord_wraps :
    messageRecord.Wraps (.defaulted "content" (.optional .string) id fun v _ => v)
      (.optional .string) :=
  ⟨rfl, fun _ _ => rfl⟩

theorem choiceRecord_wraps :
    choiceRecord.Wraps (.required "message" messageRecord.codec id fun v _ => v)
      messageRecord.codec :=
  ⟨rfl, fun _ _ => rfl⟩

theorem answerRecord_wraps :
    answerRecord.Wraps (.defaulted "choices" (.list choiceRecord.codec) id fun v _ => v)
      (.list choiceRecord.codec) :=
  ⟨rfl, fun _ _ => rfl⟩

section Reading

variable {s : Scope} {depth : Nat} {document : Document} {content : Option String}
  {contents : List (Option String)}

/-- What stands in an object that can be passed over can be passed over. -/
theorem passes_of_pass {members : List (String × Document)} {closing : Option Break} {name : String}
    (h : (Document.object (named members) closing).pass = .ok ()) : Passes name members := by
  obtain ⟨hmembers, -⟩ := Document.pass_object_iff.mp h
  exact fun member hmember _ => hmembers _ (List.mem_map_of_mem hmember)

/-- So can the only document under a name. -/
theorem pass_of_documentsOf {members : List (String × Document)} {closing : Option Break}
    {name : String} (h : (Document.object (named members) closing).pass = .ok ())
    (hone : documentsOf name members = [document]) : document.pass = .ok () := by
  obtain ⟨hmembers, -⟩ := Document.pass_object_iff.mp h
  have hmem : document ∈ documentsOf name members := hone ▸ List.mem_cons_self
  exact hmembers _ (mem_documentsOf_iff.mp hmem)

theorem decode_of_isMessage (h : IsMessage content document) (hpass : document.pass = .ok ())
    (hs : 1 < s.depth) : messageRecord.decode s document = .ok content := by
  obtain ⟨inner, henter, -⟩ : ∃ inner, s.enter = .ok inner ∧ 0 < inner.depth :=
    Scope.enter_of_lt hs
  cases h <;> refine (messageRecord_wraps.decode_object_iff henter).mpr
    ⟨rfl, _, rfl, passes_of_pass hpass, ?_⟩
  case absent h => exact .inl ⟨h, rfl, rfl⟩
  case null h => exact .inr ⟨_, h, rfl⟩
  case text h => exact .inr ⟨_, h, rfl⟩

theorem decode_of_isChoice (h : IsChoice content document) (hpass : document.pass = .ok ())
    (hs : 2 < s.depth) : choiceRecord.decode s document = .ok content := by
  obtain ⟨inner, henter, hinner⟩ := Scope.enter_of_lt hs
  cases h with
  | of h hmessage =>
    have hread := decode_of_isMessage hmessage (pass_of_documentsOf hpass h) hinner
    exact (choiceRecord_wraps.decode_object_iff henter).mpr
      ⟨rfl, _, rfl, passes_of_pass hpass, .inr ⟨_, h, hread⟩⟩

theorem decodeItems_of_isChoice {choices : List Document}
    (h : List.Forall₂ IsChoice contents choices) (hpass : ∀ item ∈ choices, item.pass = .ok ())
    (hs : 2 < s.depth) : decodeItems (choiceRecord.codec.decode s) choices = .ok contents := by
  induction h with
  | nil => rfl
  | cons hhead _ ih =>
    obtain ⟨hitem, hrest⟩ := List.forall_mem_cons.mp hpass
    have hdecode : choiceRecord.codec.decode s _ = .ok _ := decode_of_isChoice hhead hitem hs
    simp only [decodeItems, hdecode, ih hrest, bind, Except.bind]
    rfl

theorem decode_of_isAnswer (h : IsAnswer contents document) (hpass : document.pass = .ok ()) :
    answerRecord.decode .text document = .ok contents := by
  cases h with
  | @of members choices h hchoices =>
    obtain ⟨hitems, -⟩ := Document.pass_array_iff.mp (pass_of_documentsOf hpass h)
    have hdecode := decodeItems_of_isChoice (s := ⟨126, false⟩) hchoices hitems (by decide)
    have hlist : (Codec.list choiceRecord.codec).decode ⟨127, false⟩ (.array choices none) =
        .ok contents := by
      change (decodeItems (choiceRecord.codec.decode ⟨126, false⟩) choices >>= fun values => _) = _
      rw [hdecode]
      rfl
    exact (answerRecord_wraps.decode_object_iff rfl).mpr
      ⟨rfl, _, rfl, passes_of_pass hpass, .inr ⟨_, h, hlist⟩⟩

end Reading

section Content

variable {answer text : String}

/-- Reading an answer fails in one way only. -/
theorem content_eq_ok_or_error (answer : String) :
    (∃ text, content answer = .ok text) ∨
      ∃ reason, content answer = .error (.invalidResponse reason) := by
  unfold content
  split
  · exact .inr ⟨_, rfl⟩
  · exact .inr ⟨_, rfl⟩
  · exact .inl ⟨_, rfl⟩

/-- The content of an answer is that of its first choice. -/
theorem content_of_isAnswer {root : Document} {first : Option String} {later : List (Option String)}
    (hjson : IsJson answer root) (h : IsAnswer (first :: later) root) :
    content answer = .ok (first.getD "") := by
  obtain ⟨-, hpass⟩ := isJson_iff_read.mp hjson
  have hread : answerRecord.codec.read answer = .ok (first :: later) :=
    (Codec.read_of_isJson hjson _).trans (decode_of_isAnswer h hpass)
  rw [content, hread]

theorem exists_read_of_content (h : content answer = .ok text) :
    ∃ contents, answerRecord.codec.read answer = .ok contents ∧ contents ≠ [] := by
  unfold content at h
  split at h
  · contradiction
  · contradiction
  · rename_i hread
    exact ⟨_, hread, List.cons_ne_nil _ _⟩

/-- An answer that is read is JSON. -/
theorem answerRecord_settles : answerRecord.codec.Settles := by
  have hmessage : messageRecord.codec.Settles := Record.codec_settles <|
    List.forall_mem_singleton.mpr (Field.defaulted_settles Codec.string_settles.optional)
  have hchoice : choiceRecord.codec.Settles := Record.codec_settles <|
    List.forall_mem_singleton.mpr (Field.required_settles hmessage)
  exact Record.codec_settles <|
    List.forall_mem_singleton.mpr (Field.defaulted_settles hchoice.list)

/-- An object whose content is read has one list of choices, which are read. -/
theorem exists_choices_of_content {members : List (Except Fault String × Document)}
    (hjson : IsJson answer (.object members none)) (h : content answer = .ok text) :
    ∃ texts choices contents, members = named texts ∧
      documentsOf "choices" texts = [.array choices none] ∧
        decodeItems (choiceRecord.codec.decode ⟨126, false⟩) choices = .ok contents ∧
          contents ≠ [] := by
  obtain ⟨contents, hread, hne⟩ := exists_read_of_content h
  rw [Codec.read_of_isJson hjson] at hread
  obtain ⟨-, texts, rfl, -, hheld⟩ := (answerRecord_wraps.decode_object_iff rfl).mp hread
  rcases hheld with ⟨-, -, hnil⟩ | ⟨document, hone, hdecode⟩
  · exact absurd hnil hne
  · cases document with
    | array choices closing =>
      obtain ⟨inner, henter, hdecode⟩ := exists_of_bind_eq_ok hdecode
      obtain rfl := Except.ok.inj henter
      obtain ⟨values, hvalues, hdecode⟩ := exists_of_bind_eq_ok hdecode
      obtain ⟨_, hclosing, hdecode⟩ := exists_of_bind_eq_ok hdecode
      obtain rfl := eq_none_of_conclude hclosing
      obtain rfl := Except.ok.inj hdecode
      exact ⟨texts, choices, _, rfl, hone, hvalues, hne⟩
    | _ => contradiction

/-- A choice that is read has a message. -/
theorem exists_message_of_decode {s : Scope} {members : List (Except Fault String × Document)}
    {content : Option String}
    (h : choiceRecord.codec.decode s (.object members none) = .ok content) :
    ∃ member ∈ members, member.1 = .ok "message" := by
  obtain ⟨inner, henter, -⟩ := exists_of_bind_eq_ok h
  obtain ⟨-, texts, rfl, -, hheld⟩ := (choiceRecord_wraps.decode_object_iff henter).mp h
  rcases hheld with ⟨-, hlack, -⟩ | ⟨document, hone, -⟩
  · contradiction
  · have hmessage : documentsOf "message" texts = [document] := hone
    have hmem : document ∈ documentsOf "message" texts := hmessage ▸ List.mem_cons_self
    exact ⟨_, mem_documentsOf_iff.mp hmem, rfl⟩

theorem content_of_answersNothing (h : AnswersNothing answer) :
    ∃ reason, content answer = .error (.invalidResponse reason) := by
  refine (content_eq_ok_or_error answer).resolve_left ?_
  rintro ⟨text, hcontent⟩
  cases h with
  | malformed h =>
    obtain ⟨contents, hread, -⟩ := exists_read_of_content hcontent
    exact h _ (answerRecord_settles.isJson_of_read hread)
  | unchosen hanswer h =>
    obtain ⟨texts, choices, contents, rfl, hone, -⟩ := exists_choices_of_content hanswer hcontent
    have hmem : .array choices none ∈ documentsOf "choices" texts := hone ▸ List.mem_cons_self
    exact h _ (mem_documentsOf_iff.mp hmem) rfl
  | empty hanswer h =>
    obtain ⟨texts, choices, contents, rfl, hone, hdecode, hne⟩ :=
      exists_choices_of_content hanswer hcontent
    have hmem := mem_documentsOf_iff.mpr h
    rw [hone, List.mem_singleton] at hmem
    obtain ⟨rfl, -⟩ := Document.array.inj hmem
    exact hne (Except.ok.inj hdecode).symm
  | @silent members message choices hanswer h hchoice hmessage =>
    obtain ⟨texts, choices', contents, rfl, hone, hdecode, hne⟩ :=
      exists_choices_of_content hanswer hcontent
    have hmem := mem_documentsOf_iff.mpr h
    rw [hone, List.mem_singleton] at hmem
    obtain ⟨rfl, -⟩ := Document.array.inj hmem
    obtain ⟨content, hread⟩ := exists_of_mem_decodeItems hdecode hchoice
    obtain ⟨member, hmember, hname⟩ := exists_message_of_decode hread
    exact hmessage member hmember hname

end Content

/-! ### Exchanges -/

/-- What is sent back of the prompts that a service has been sent is received as it was. -/
theorem receive_of_echo {service : Service} {request : CompletionRequest} {value : Json} {i : Nat}
    {prompt answer : String} {status : Nat} {root : Document} {later : List (Option String)}
    (hheard : Denotes (service.send request).body.render value)
    (hprompt : (prompts value)[i]? = some (.string prompt)) (hstatus : Service.isSuccess status)
    (hjson : IsJson answer root) (h : IsAnswer (some prompt :: later) root) :
    Service.receive (.answered status answer) = (.ok prompt, []) ∧
      [request.systemPrompt, request.userPrompt][i]? = some prompt := by
  constructor
  · have hcontent : content answer = .ok prompt := content_of_isAnswer hjson h
    rw [Service.receive, if_pos hstatus, hcontent]
  · obtain ⟨temperature, -, hspoken⟩ := denotes_body_iff service.model request
    obtain rfl := (hspoken value).mp hheard
    rw [prompts_spoken] at hprompt
    rcases i with _ | _ | i
    · exact congrArg some (Json.string.inj (Option.some.inj hprompt))
    · exact congrArg some (Json.string.inj (Option.some.inj hprompt))
    · contradiction

/-- A request stands for its model, its prompts and its number of tokens and for nothing else; an
answer is read as the content of its first choice, whatever else it says; a text that answers
nothing is an invalid response; and a prompt that is sent back is received as it was. -/
theorem carries_text :
    (∀ (model : String) (request : CompletionRequest),
      ∃ temperature, (temperature = .null ∨ ∃ x, temperature = .double x) ∧
        ∀ value, Denotes (body model request).render value ↔
          value = spoken model request temperature) ∧
    (∀ (answer : String) (root : Document) (first : Option String) (later : List (Option String)),
      IsJson answer root → IsAnswer (first :: later) root →
        content answer = .ok (first.getD "")) ∧
    (∀ answer : String, AnswersNothing answer →
      ∃ reason, content answer = .error (.invalidResponse reason)) ∧
    (∀ (service : Service) (request : CompletionRequest) (value : Json) (i : Nat) (prompt : String)
      (status : Nat) (answer : String) (root : Document) (later : List (Option String)),
        Denotes (service.send request).body.render value →
        (prompts value)[i]? = some (.string prompt) →
        Service.isSuccess status = true →
        IsJson answer root → IsAnswer (some prompt :: later) root →
          Service.receive (.answered status answer) = (.ok prompt, []) ∧
            [request.systemPrompt, request.userPrompt][i]? = some prompt) :=
  ⟨denotes_body_iff, fun _ _ _ _ => content_of_isAnswer, fun _ => content_of_answersNothing,
    fun _ _ _ _ _ _ _ _ _ => receive_of_echo⟩

/-- An answer with two choices and names that are not asked for. -/
def twoChoices (text : String) : Json :=
  .object [
    ("id", .string "x"),
    ("choices", .array [
      .object [
        ("index", .natural 0),
        ("message", .object [("role", .string "assistant"), ("content", .string text)])],
      .object [("message", .object [("content", .null)])]]),
    ("usage", .object [("tokens", .array [.natural 7, .bool true])])]

theorem isAnswer_twoChoices (text : String) :
    IsAnswer [some text, none] (twoChoices text).toDocument := by
  have hfirst : IsMessage (some text) (.object (named
      [("role", .string (.ok "assistant")), ("content", .string (.ok text))]) none) :=
    .text (by simp [documentsOf])
  have hsecond : IsMessage none (.object (named [("content", .null)]) none) :=
    .null (by simp [documentsOf])
  have hindexed : IsChoice (some text) (.object (named
      [("index", .number (.ok (.natural 0))), ("message", .object (named
        [("role", .string (.ok "assistant")), ("content", .string (.ok text))]) none)]) none) :=
    .of (by simp [documentsOf]) hfirst
  have hplain : IsChoice none (.object (named
      [("message", .object (named [("content", .null)]) none)]) none) :=
    .of (by simp [documentsOf]) hsecond
  have hanswer : ∀ {contents choices}, List.Forall₂ IsChoice contents choices →
      IsAnswer contents (.object (named
        [("id", .string (.ok "x")), ("choices", .array choices none),
          ("usage", (Json.object [("tokens", .array [.natural 7, .bool true])]).toDocument)])
            none) := by
    intro contents choices h
    exact .of (by simp [documentsOf]) h
  exact hanswer (.cons hindexed (.cons hplain .nil))

theorem isJson_twoChoices (text : String) (w : Spacing) :
    IsJson ((twoChoices text).spaced w) (twoChoices text).toDocument := by
  refine (denotes_spaced w ?_).isJson
  simp [twoChoices, Readable, ReadableItems, ReadableMembers, maxWord]

/-- A prompt with quotes, backslashes, a control character and braces, sent and sent back. -/
theorem carries_text_quoted :
    let prompt := "Say \"hi\",\n\\u0041 \u0001 and \x7bé\x7d."
    let request : CompletionRequest := ⟨"Be brief.", prompt, 4096, Binary.ofNat .single 1⟩
    let service : Service := ⟨"http://localhost/v1", "gpt-4o-mini", none⟩
    let answer := (twoChoices prompt).pretty
    (∃ value, Denotes (service.send request).body.render value ∧
        (prompts value)[1]? = some (.string prompt)) ∧
      Service.isSuccess 200 = true ∧
      (∃ root, IsJson answer root ∧ IsAnswer [some prompt, none] root) ∧
      AnswersNothing (Json.object [("error", .null)]).render ∧
      content answer = .ok prompt ∧
      (∃ reason, content (Json.object [("error", .null)]).render =
        .error (.invalidResponse reason)) ∧
      Service.receive (.answered 200 answer) = (.ok prompt, []) := by
  intro prompt request service answer
  obtain ⟨hrequest, hanswer, hnothing, hecho⟩ := carries_text
  obtain ⟨temperature, -, hspoken⟩ := hrequest service.model request
  have hheard := (hspoken _).mpr rfl
  have hjson : IsJson answer (twoChoices prompt).toDocument := by
    have hindented : answer = (twoChoices prompt).spaced .indented := (spaced_indented _).symm
    exact hindented ▸ isJson_twoChoices prompt .indented
  have hchoices := isAnswer_twoChoices prompt
  have hempty : AnswersNothing (Json.object [("error", .null)]).render := by
    have hreadable : (Json.object [("error", .null)]).Readable := ⟨trivial, trivial⟩
    have hdenotes := denotes_spaced .compact hreadable
    rw [spaced_compact] at hdenotes
    exact .unchosen hdenotes.isJson (by simp [memberDocuments])
  exact ⟨⟨_, hheard, rfl⟩, by decide, ⟨_, hjson, hchoices⟩, hempty,
    hanswer answer _ _ _ hjson hchoices, hnothing _ hempty,
    (hecho service request _ 1 prompt 200 answer _ _ hheard rfl (by decide) hjson hchoices).1⟩

end StagedPipeline.Chat
