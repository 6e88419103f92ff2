import Mathlib.Data.List.DropRight
import NeuriploRuntime.Stream.Octets
import NeuriploRuntime.Stream.Reader
import NeuriploRuntime.Tensor.Bytes

open neuriplo.tensor stream

namespace neuriplo.http

/-- A request as the handler sees it. The last header of a name wins. -/
structure HttpRequest where
  method : List UInt8 := []
  path : List UInt8 := []
  body : List UInt8 := []
  headers : List (List UInt8 × List UInt8) := []
deriving DecidableEq, Repr

structure HttpResponse where
  status : Nat := 200
  content_type : String := "application/json"
  body : String := ""
deriving DecidableEq, Repr

/-- An error response. Its code and message have nothing to escape. -/
def jsonError (status : Nat) (code message : String) : HttpResponse where
  status := status
  body := "\x7b\"error\":\x7b\"code\":\"" ++ code ++ "\",\"message\":\"" ++ message ++ "\"\x7d\x7d"

def isBlank (byte : UInt8) : Bool := byte ∈ octets " \t\r\n"

def trim (value : List UInt8) : List UInt8 := (value.dropWhile isBlank).rdropWhile isBlank

def decimalValue (digits : List UInt8) : Nat := digits.foldl (fun value digit => value * 10 + (digit.toNat - 48)) 0

/-- Nothing but digits between blanks, of a value that a `size_t` holds. -/
def parseContentLength (value : List UInt8) : Option Nat :=
  let trimmed := trim value
  if trimmed ≠ [] ∧ trimmed.all isDigit ∧ decimalValue trimmed < 2 ^ 64 then some (decimalValue trimmed) else none

/-- `getline` until there is none. -/
def getlines (block : List UInt8) : List (List UInt8) :=
  let lines := block.splitOn 10
  if lines.getLast? = some [] then lines.dropLast else lines

def popCarriageReturn (line : List UInt8) : List UInt8 := if line.getLast? = some 13 then line.dropLast else line

/-- The two sides of a line's colon, the name trimmed. -/
def headerField (line : List UInt8) : Option (List UInt8 × List UInt8) :=
  let line := popCarriageReturn line
  if 58 ∈ line then some (trim (line.takeWhile (· ≠ 58)), (line.dropWhile (· ≠ 58)).drop 1) else none

def setHeader (headers : List (List UInt8 × List UInt8)) (name value : List UInt8) :
    List (List UInt8 × List UInt8) :=
  headers.filter (·.1 ≠ name) ++ [(name, value)]

/-- `std::isspace`. -/
def isSpace (byte : UInt8) : Bool := byte = 32 || (9 ≤ byte.toNat && byte.toNat ≤ 13)

/-- The next word of a line, with what is behind it. -/
def nextWord (line : List UInt8) : List UInt8 × List UInt8 := (line.dropWhile isSpace).span (!isSpace ·)

def parseRequestLine (line : List UInt8) : List UInt8 × List UInt8 :=
  let (method, rest) := nextWord (popCarriageReturn line)
  (method, (nextWord rest).1)

def parseHeaders (lines : List (List UInt8)) : List (List UInt8 × List UInt8) :=
  lines.foldl (fun headers line =>
    match headerField line with
    | none => headers
    | some (name, value) => setHeader headers name (trim value)) []

/-- The blank line that ends a header block. -/
def blankLine : List UInt8 := octets "\r\n\r\n"

/-- Everything behind the blank line is the body. -/
def parseRequest (raw : List UInt8) : HttpRequest :=
  let header_end := find blankLine raw
  let header_block := raw.take (header_end.getD raw.length)
  let body := match header_end with
    | some header_end => raw.drop (header_end + 4)
    | none => []
  match getlines header_block with
  | [] => { body }
  | line :: lines =>
    let (method, path) := parseRequestLine line
    { method, path, body, headers := parseHeaders lines }

/-- A server and the largest request it takes, a `size_t`. -/
structure HttpServer where
  max_request_bytes : Nat := 67108864
  bounded : max_request_bytes < 2 ^ 64 := by decide

/-- The size of the receive buffer. -/
def bufferSize : Nat := 4096

def payloadTooLarge : HttpResponse := jsonError 413 "PAYLOAD_TOO_LARGE" "request exceeds max request bytes"

def invalidContentLength : HttpResponse := jsonError 400 "INVALID_ARGUMENT" "invalid Content-Length header"

/-- The content length of a header block, none when one cannot be parsed. The
last one wins. -/
def contentLength (content_length : Nat) : List (List UInt8) → Option Nat
  | [] => some content_length
  | line :: lines =>
    match headerField line with
    | none => contentLength content_length lines
    | some (name, value) =>
      if name = octets "Content-Length" then
        match parseContentLength value with
        | none => none
        | some parsed_content_length => contentLength parsed_content_length lines
      else contentLength content_length lines

variable (server : HttpServer)

/-- Once the header block has arrived: whether to stop, and with which early
response. -/
def frame (header_end : Nat) (content_length : Option Nat) (received : Nat) : Option (Option HttpResponse) :=
  match content_length with
  | none => some (some invalidContentLength)
  | some content_length =>
    if server.max_request_bytes < wrapSize (header_end + 4 + content_length) then some (some payloadTooLarge)
    else if wrapSize (header_end + 4 + content_length) ≤ received then some none
    else none

/-- What the receive loop does once `raw` has arrived: go on, or stop with or
without an early response. -/
def inspect (raw : List UInt8) : Option (Option HttpResponse) :=
  if server.max_request_bytes < raw.length then some (some payloadTooLarge)
  else
    match find blankLine raw with
    | none => none
    | some header_end => frame server header_end (contentLength 0 (getlines (raw.take header_end))) raw.length

/-- The receive loop over the chunks that arrive. -/
def receive (raw : List UInt8) : List (List UInt8) → List UInt8 × Option HttpResponse
  | [] => (raw, none)
  | chunk :: chunks =>
    match inspect server (raw ++ chunk) with
    | some early_response => (raw ++ chunk, early_response)
    | none => receive (raw ++ chunk) chunks

/-- What a client's stream comes to: a response of the server's own, or a request
for the handler. -/
inductive Outcome where
  | early (response : HttpResponse)
  | handled (request : HttpRequest)
deriving DecidableEq, Repr

def outcome (raw : List UInt8) : Option HttpResponse → Outcome
  | some early_response => .early early_response
  | none => .handled (parseRequest raw)

def handleClient (chunks : List (List UInt8)) : Outcome :=
  let (raw, early_response) := receive server [] chunks
  outcome raw early_response

/-- The receive loop reads until what has arrived is decided. -/
theorem handleClient_eq_read (chunks : List (List UInt8)) :
    handleClient server chunks =
      read (fun raw => (inspect server raw).map (outcome raw)) (fun raw => outcome raw none) [] chunks := by
  have hreceive : ∀ raw, outcome (receive server raw chunks).1 (receive server raw chunks).2 =
      read (fun raw => (inspect server raw).map (outcome raw)) (fun raw => outcome raw none) raw chunks := by
    induction chunks with
    | nil =>
      intro raw
      rfl
    | cons chunk chunks ih =>
      intro raw
      simp only [receive, stream.read]
      cases inspect server (raw ++ chunk) with
      | none => exact ih (raw ++ chunk)
      | some early_response => rfl
  exact hreceive []

end neuriplo.http
