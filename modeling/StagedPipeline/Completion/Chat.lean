import StagedPipeline.Completion.Request
import StagedPipeline.Error

/-!
# The chat format

How a completion service is spoken to: a request is a model and two messages, and the text of an
answer is the content of its first choice. An answer that reports an error may hold a message.
-/

namespace StagedPipeline.Chat

open Json

/-- A message with the part its sender plays. -/
def message (role content : String) : Json :=
  .object [("role", .string role), ("content", .string content)]

/-- The body of a request. -/
def body (model : String) (request : CompletionRequest) : Json :=
  .object [
    ("model", .string model),
    ("messages", .array [message "system" request.systemPrompt, message "user" request.userPrompt]),
    ("max_tokens", .natural request.maxTokens.toNat),
    ("temperature", .single request.temperature)]

/-- The content of a message; it may be missing. -/
def messageRecord : Record (Option String) where
  initial := none
  mayStop := false
  fields := [.defaulted "content" (.optional .string) id (fun v _ => v)]

/-- The message of a choice. -/
def choiceRecord : Record (Option String) where
  initial := none
  mayStop := false
  fields := [.required "message" messageRecord.codec id (fun v _ => v)]

/-- The choices of an answer. -/
def answerRecord : Record (List (Option String)) where
  initial := []
  mayStop := true
  fields := [.defaulted "choices" (.list choiceRecord.codec) id (fun v _ => v)]

/-- The text of an answer. Missing content is an empty text. -/
def content (answer : String) : Except ExecutorError String :=
  match answerRecord.codec.read answer with
  | .error _ => .error (.invalidResponse "malformed body: ")
  | .ok [] => .error (.invalidResponse "response has no choices")
  | .ok (content :: _) => .ok (content.getD "")

/-- The message of an error. -/
def errorRecord : Record String where
  initial := ""
  mayStop := false
  fields := [.required "message" .string id (fun v _ => v)]

/-- The error an answer reports. -/
def envelopeRecord : Record String where
  initial := ""
  mayStop := false
  fields := [.required "error" errorRecord.codec id (fun v _ => v)]

/-- Characters of an answer that are shown when it holds no message. -/
def shownLength : Nat := 512

/-- What an answer with an error status says: its message, or else how it begins. -/
def errorText (answer : String) : String :=
  match envelopeRecord.codec.read answer with
  | .ok text => text
  | .error _ =>
    if Text.allBlank answer then "empty response body"
    else String.ofList (answer.toList.take shownLength)

end StagedPipeline.Chat
