import StagedPipeline.Completion.Service
import StagedPipeline.Json.Number

/-!
# Transfer of requests and replies

A request and its reply as the bytes of HTTP/1.1 messages. The connection is closed behind the
reply, so the reply is read as a whole: a status, header lines, and a body that is as long as the
header says. A body that ends too early makes the exchange fail.
-/

namespace StagedPipeline.Transfer

/-- Where a request goes. -/
structure Destination where
  host : String
  port : UInt16
  path : String
deriving DecidableEq, Repr

/-- What follows a beginning. -/
def after? (start text : List Char) : Option (List Char) :=
  if start.isPrefixOf text then some (text.drop start.length) else none

/-- The number behind a colon, or else 80. -/
def portOf? : List Char → Option UInt16
  | [] => some 80
  | _ :: digits =>
    if digits.isEmpty || !digits.all Char.isDigit then none
    else
      let port := Json.digitsValue 0 digits
      if port < UInt16.size then some (.ofNat port) else none

/-- The destination of an address without encryption. -/
def Destination.ofUrl? (url : String) : Option Destination := do
  let rest ← after? "http://".toList url.toList
  let place := rest.takeWhile (· ≠ '/')
  let path := rest.dropWhile (· ≠ '/')
  let port ← portOf? (place.dropWhile (· ≠ ':'))
  pure ⟨String.ofList (place.takeWhile (· ≠ ':')), port,
    if path.isEmpty then "/" else String.ofList path⟩

/-- A header line. -/
def headerLine (name value : String) : String := name ++ ": " ++ value ++ "\r\n"

/-- A request as it is sent. -/
def requestText (d : Destination) (r : HttpRequest) : String :=
  let body := r.body.render
  "POST " ++ d.path ++ " HTTP/1.1\r\n"
    ++ headerLine "host" (d.host ++ ":" ++ decimalText d.port.toNat)
    ++ headerLine "content-type" "application/json"
    ++ (match r.bearer with
      | some key => headerLine "authorization" ("Bearer " ++ key)
      | none => "")
    ++ headerLine "accept" "*/*"
    ++ headerLine "content-length" (decimalText body.utf8ByteSize)
    ++ headerLine "connection" "close" ++ "\r\n" ++ body

/-- The bytes in front of the first empty line, and those behind it. -/
def splitHead? : List UInt8 → Option (List UInt8 × List UInt8)
  | 13 :: 10 :: 13 :: 10 :: rest => some ([], rest)
  | byte :: rest => (splitHead? rest).map fun (head, body) => (byte :: head, body)
  | [] => none

/-- The bytes of a line, and those behind its end. -/
def splitLine? : List UInt8 → Option (List UInt8 × List UInt8)
  | 13 :: 10 :: rest => some ([], rest)
  | byte :: rest => (splitLine? rest).map fun (line, behind) => (byte :: line, behind)
  | [] => none

/-- Bytes of a header as characters. -/
def asciiText (bytes : List UInt8) : List Char :=
  bytes.map fun byte => Char.ofNat byte.toNat

/-- A header line as a name in small letters and a value without blanks around it. -/
def readHeader (line : List Char) : List Char × List Char :=
  (Text.toAsciiLower (line.takeWhile (· ≠ ':')), Text.trim ((line.dropWhile (· ≠ ':')).drop 1))

/-- The header lines of a head, without the first line. -/
def readHeaders : (fuel : Nat) → List UInt8 → List (List Char × List Char)
  | 0, _ => []
  | fuel + 1, head =>
    match splitLine? head with
    | some (line, rest) => readHeader (asciiText line) :: readHeaders fuel rest
    | none => [readHeader (asciiText head)]

/-- The status in the first line of a reply. -/
def readStatus? (line : List Char) : Option Nat := do
  let rest ← after? "HTTP/1.".toList line
  let digits := ((rest.dropWhile (· ≠ ' ')).drop 1).takeWhile (· ≠ ' ')
  if digits.length = 3 && digits.all Char.isDigit then some (Json.digitsValue 0 digits) else none

/-- The value of a hexadecimal digit. -/
def hexValue? (c : Char) : Option Nat :=
  "0123456789abcdef".toList.idxOf? c.toLower

/-- The length of a chunk; what follows a semicolon does not matter. -/
def chunkLength? (line : List Char) : Option Nat := do
  let digits := Text.trim (line.takeWhile (· ≠ ';'))
  if digits.isEmpty then none
  else
    let values ← digits.mapM hexValue?
    pure (values.foldl (fun n v => n * 16 + v) 0)

/-- A body that is sent in chunks. -/
def readChunks? : (fuel : Nat) → List UInt8 → Option (List UInt8)
  | 0, _ => none
  | fuel + 1, bytes => do
    let (line, rest) ← splitLine? bytes
    let length ← chunkLength? (asciiText line)
    if length = 0 then pure []
    else if rest.length < length then none
    else
      match rest.drop length with
      | 13 :: 10 :: behind => do
        let more ← readChunks? fuel behind
        pure (rest.take length ++ more)
      | _ => none

/-- The body of a reply with some headers. -/
def readBody? (headers : List (List Char × List Char)) (bytes : List UInt8) :
    Option (List UInt8) :=
  if (headers.lookup "transfer-encoding".toList).any
      (fun value => Text.toAsciiLower value = "chunked".toList) then
    readChunks? (bytes.length + 1) bytes
  else
    match headers.lookup "content-length".toList with
    | none => some bytes
    | some digits =>
      let length := Json.digitsValue 0 digits
      if bytes.length < length then none else some (bytes.take length)

/-- Bytes as characters; one that belongs to no character is replaced. -/
def decodeChars : (fuel : Nat) → List UInt8 → List Char
  | 0, _ => []
  | _ + 1, [] => []
  | fuel + 1, byte :: rest =>
    let lengths := [1, 2, 3, 4]
    let read? (length : Nat) : Option String :=
      String.fromUTF8? ⟨((byte :: rest).take length).toArray⟩
    match lengths.find? fun length => (read? length).isSome with
    | some length =>
      ((read? length).getD "").toList ++ decodeChars fuel ((byte :: rest).drop length)
    | none => '\uFFFD' :: decodeChars fuel rest

/-- Bytes as text. -/
def decodeText (bytes : List UInt8) : String :=
  match String.fromUTF8? ⟨bytes.toArray⟩ with
  | some text => text
  | none => String.ofList (decodeChars bytes.length bytes)

/-- Reads a whole reply. -/
def readReply (bytes : List UInt8) : HttpReply :=
  match splitHead? bytes with
  | none => .failed "error reading a reply"
  | some (head, rest) =>
    let first := (splitLine? head).getD (head, [])
    match readStatus? (asciiText first.1) with
    | none => .failed "error reading a reply"
    | some status =>
      match readBody? (readHeaders head.length first.2) rest with
      | none => .failed "error decoding response body"
      | some body => .answered status (decodeText body)

/-- What comes back if nothing does. -/
def unreachable (url : String) : HttpReply :=
  .failed ("error sending request for url (" ++ url ++ ")")

end StagedPipeline.Transfer
