import NeuriploRuntime.Codec.Json
import NeuriploRuntime.Http.Messages

open neuriplo.codec neuriplo.tensor stream

namespace neuriplo.http

/-- A response with all that is written of it, unless it is streamed. -/
structure Response where
  status : Nat := 200
  content_type : List UInt8 := octets "application/json"
  body : List UInt8 := []
  headers : List (List UInt8 × List UInt8) := []
deriving DecidableEq, Repr

def reasonPhrase : Nat → List UInt8
  | 200 => octets "OK"
  | 400 => octets "Bad Request"
  | 404 => octets "Not Found"
  | 405 => octets "Method Not Allowed"
  | 409 => octets "Conflict"
  | 413 => octets "Payload Too Large"
  | 429 => octets "Too Many Requests"
  | 500 => octets "Internal Server Error"
  | 503 => octets "Service Unavailable"
  | _ => octets "OK"

def crlf : List UInt8 := octets "\r\n"

def serializeResponse (response : Response) : List UInt8 :=
  (octets "HTTP/1.1 " ++ decimal response.status ++ 32 :: reasonPhrase response.status ++ crlf) ++
    (octets "Content-Type: " ++ response.content_type ++ crlf) ++
    (octets "Content-Length: " ++ decimal response.body.length ++ crlf) ++
    (octets "Connection: close" ++ crlf) ++
    (response.headers.flatMap fun header => header.1 ++ octets ": " ++ header.2 ++ crlf) ++ crlf ++ response.body

/-- The headers of every response. -/
def fixedNames : List (List UInt8) := [octets "Content-Type", octets "Content-Length", octets "Connection"]

/-- A response that a client can read back. -/
structure Response.Legible (response : Response) : Prop where
  content_type : Value response.content_type
  headers : Fields response.headers
  others : ∀ header ∈ response.headers, header.1 ∉ fixedNames

/-- A client's reading of what it has received, with what is behind the response. Nothing is read of a
response that has not arrived. -/
def readResponse (received : List UInt8) : Option (Response × List UInt8) :=
  match find blankLine received with
  | none => none
  | some header_end =>
    match getlines (received.take header_end) with
    | [] => none
    | line :: lines =>
      let headers := parseHeaders lines
      match headers.lookup (octets "Content-Length") with
      | none => none
      | some content_length =>
        let behind := received.drop (header_end + 4)
        if behind.length < decimalValue content_length then none
        else some ({
          status := decimalValue (nextWord (nextWord (popCarriageReturn line)).2).1
          content_type := (headers.lookup (octets "Content-Type")).getD []
          body := behind.take (decimalValue content_length)
          headers := headers.filter (·.1 ∉ fixedNames) }, behind.drop (decimalValue content_length))

def statusLine (response : Response) : List UInt8 :=
  protocol ++ 32 :: (decimal response.status ++ 32 :: reasonPhrase response.status)

def responseFields (response : Response) : List (List UInt8 × List UInt8) :=
  (octets "Content-Type", response.content_type) :: (octets "Content-Length", decimal response.body.length) ::
    (octets "Connection", octets "close") :: response.headers

def responseLines (response : Response) : List (List UInt8) :=
  statusLine response :: (responseFields response).map headerLine

theorem crlf_eq : crlf = [13, 10] := by decide

/-- Lines that are all ended, with an empty one behind. -/
theorem flatMap_crlf {lines : List (List UInt8)} (hlines : lines ≠ []) :
    (lines.flatMap fun line => line ++ crlf) ++ crlf = joinLines lines ++ blankLine := by
  rw [crlf_eq, blankLine_eq]
  induction lines with
  | nil => exact absurd rfl hlines
  | cons line lines ih =>
    cases lines with
    | nil => simp [joinLines]
    | cons next lines =>
      rw [List.flatMap_cons, joinLines, List.append_assoc, ih (List.cons_ne_nil next lines)]
      simp

/-- A response is its header lines, a blank line and its body. -/
theorem serializeResponse_eq (response : Response) :
    serializeResponse response = joinLines (responseLines response) ++ (blankLine ++ response.body) := by
  have hstatus : octets "HTTP/1.1 " = protocol ++ [32] := by decide
  have htype : octets "Content-Type: " = octets "Content-Type" ++ [58, 32] := by decide
  have hlength : octets "Content-Length: " = octets "Content-Length" ++ [58, 32] := by decide
  have hconnection : octets "Connection: close" = octets "Connection" ++ 58 :: 32 :: octets "close" := by
    decide
  have hcolon : octets ": " = [58, 32] := by decide
  have hheaders : (response.headers.flatMap fun header => header.1 ++ octets ": " ++ header.2 ++ crlf) =
      (response.headers.map headerLine).flatMap fun line => line ++ crlf := by
    rw [List.flatMap_map]
    apply List.flatMap_congr
    intro header _
    rw [hcolon, headerLine]
    simp
  rw [← List.append_assoc, ← @flatMap_crlf (responseLines response) (List.cons_ne_nil _ _), responseLines,
    responseFields, serializeResponse, hheaders, hstatus, htype, hlength, hconnection]
  simp [statusLine, headerLine, List.append_assoc]

/-- The names the server writes itself are names of headers. -/
theorem fixedNames_names : ∀ name ∈ fixedNames, Name name := by
  have hall : ∀ name ∈ fixedNames, 13 ∉ name ∧ 10 ∉ name ∧ trim name = name ∧ 58 ∉ name := by decide
  intro name hname
  obtain ⟨hcarriage, hfeed, htrimmed, hcolon⟩ := hall name hname
  exact ⟨⟨hcarriage, hfeed, htrimmed⟩, hcolon⟩

section Response

variable {response : Response}

/-- The headers of a legible response can be read back. -/
theorem Response.Legible.fields (hresponse : response.Legible) : Fields (responseFields response) where
  name := by
    simp only [responseFields, List.forall_mem_cons]
    have hnames := fixedNames_names
    simp only [fixedNames, List.forall_mem_cons] at hnames
    exact ⟨hnames.1, hnames.2.1, hnames.2.2.1, hresponse.headers.name⟩
  value := by
    simp only [responseFields, List.forall_mem_cons]
    have hclose : 13 ∉ octets "close" ∧ 10 ∉ octets "close" ∧ trim (octets "close") = octets "close" := by
      decide
    exact ⟨hresponse.content_type, value_decimal _, ⟨hclose.1, hclose.2.1, hclose.2.2⟩, hresponse.headers.value⟩
  distinct := by
    have hfixed : fixedNames.Nodup := by decide
    have hnames : (responseFields response).map (·.1) = fixedNames ++ response.headers.map (·.1) := rfl
    rw [hnames, List.nodup_append]
    refine ⟨hfixed, hresponse.headers.distinct, ?_⟩
    rintro name hname other hother rfl
    obtain ⟨header, hheader, hequal⟩ := List.mem_map.mp hother
    exact hresponse.others header hheader (hequal ▸ hname)

/-- A reason phrase stays on its line. -/
theorem reasonPhrase_line (status : Nat) : 13 ∉ reasonPhrase status ∧ 10 ∉ reasonPhrase status := by
  unfold reasonPhrase
  split <;> decide

/-- What occurs in a status line. -/
theorem not_mem_statusLine {byte : UInt8} (hprotocol : byte ∉ protocol) (hspace : byte ≠ 32)
    (hdigit : byte < 48 ∨ 57 < byte) (hreason : byte ∉ reasonPhrase response.status) :
    byte ∉ statusLine response := by
  rw [statusLine, List.mem_append, List.mem_cons, List.mem_append, List.mem_cons]
  simp only [not_or]
  exact ⟨hprotocol, hspace, not_mem_decimal hdigit _, hspace, hreason⟩

/-- The headers of a legible response are lines. -/
theorem Response.Legible.lines (hresponse : response.Legible) : ∀ line ∈ responseLines response, Line line := by
  rw [responseLines, List.forall_mem_cons]
  obtain ⟨hcarriage, hfeed⟩ := reasonPhrase_line response.status
  refine ⟨⟨?_, ?_, ?_⟩, hresponse.fields.lines⟩
  · exact List.append_ne_nil_of_right_ne_nil _ (List.cons_ne_nil 32 _)
  · exact not_mem_statusLine (by rw [protocol_eq]; decide) (by decide) (.inl (by decide)) hcarriage
  · exact not_mem_statusLine (by rw [protocol_eq]; decide) (by decide) (.inl (by decide)) hfeed

theorem protocol_word : Word protocol := by
  rw [protocol_eq]
  exact word_of_all (by decide) (by decide)

theorem decimal_word (number : Nat) : ∀ byte ∈ decimal number, isSpace byte = false := by
  intro byte hbyte
  obtain ⟨hlow, -⟩ := decimal_digits number byte hbyte
  have hlow : 48 ≤ byte.toNat := hlow
  have hspace : byte ≠ 32 := by
    rintro rfl
    exact absurd hlow (by decide)
  rw [isSpace, Bool.or_eq_false_iff, decide_eq_false_iff_not, Bool.and_eq_false_iff]
  exact ⟨hspace, .inr (decide_eq_false (by omega))⟩

/-- The status of a response is read from its first line. -/
theorem statusLine_status : decimalValue (nextWord (nextWord (statusLine response)).2).1 = response.status := by
  rw [statusLine, nextWord_append protocol_word.nonempty protocol_word.spaces]
  simp only
  rw [nextWord_space, nextWord_append (decimal_ne_nil _) (decimal_word _)]
  exact decimalValue_decimal response.status

/-- The header block of a response is found, with its body and what comes behind. -/
theorem Response.Legible.blankLine (hresponse : response.Legible) (rest : List UInt8) :
    find blankLine (serializeResponse response ++ rest) = some (joinLines (responseLines response)).length ∧
      (serializeResponse response ++ rest).take (joinLines (responseLines response)).length =
        joinLines (responseLines response) ∧
      (serializeResponse response ++ rest).drop ((joinLines (responseLines response)).length + 4) =
        response.body ++ rest := by
  have hsize : http.blankLine.length = 4 := by decide
  rw [serializeResponse_eq, List.append_assoc, List.append_assoc]
  refine ⟨find_blankLine hresponse.lines _, List.take_left, ?_⟩
  rw [← List.append_assoc, ← hsize, ← List.length_append, List.drop_left]

/-- The first line of a response is its status, and the others are its headers. -/
theorem endLines_responseLines (response : Response) :
    ∃ line, endLines (responseLines response) = line :: endLines ((responseFields response).map headerLine) ∧
      popCarriageReturn line = statusLine response :=
  ⟨_, rfl, popCarriageReturn_end _⟩

/-- A response says what its body is and how long. -/
theorem lookup_responseFields :
    (responseFields response).lookup (octets "Content-Type") = some response.content_type ∧
      (responseFields response).lookup (octets "Content-Length") = some (decimal response.body.length) := by
  have hother : (octets "Content-Length" == octets "Content-Type") = false := by decide
  constructor
  · exact List.lookup_cons_self
  · rw [responseFields, List.lookup_cons, hother]
    exact List.lookup_cons_self

/-- Without the headers that every response has, those of its own are left. -/
theorem Response.Legible.filter_fields (hresponse : response.Legible) :
    (responseFields response).filter (·.1 ∉ fixedNames) = response.headers := by
  have hfixed : ∀ header ∈ (responseFields response).take 3, header.1 ∈ fixedNames := by
    intro header hheader
    simp only [responseFields, List.take_succ_cons, List.take_zero] at hheader
    simp only [fixedNames]
    revert header
    simp
  have hsplit : responseFields response = (responseFields response).take 3 ++ response.headers := rfl
  rw [hsplit, List.filter_append, List.filter_eq_nil_iff.mpr, List.filter_eq_self.mpr, List.nil_append]
  · intro header hheader
    exact decide_eq_true (hresponse.others header hheader)
  · intro header hheader
    rw [decide_eq_true_eq, not_not]
    exact hfixed header hheader

/-- A response is read back, whatever is behind it. -/
theorem readResponse_serializeResponse (hresponse : response.Legible) (rest : List UInt8) :
    readResponse (serializeResponse response ++ rest) = some (response, rest) := by
  obtain ⟨hblank, htake, hdrop⟩ := hresponse.blankLine rest
  obtain ⟨line, hlines, hline⟩ := endLines_responseLines response
  obtain ⟨htype, hlength⟩ := @lookup_responseFields response
  have harrived : ¬ (response.body ++ rest).length < response.body.length := by
    rw [List.length_append]
    omega
  unfold readResponse
  simp only [hblank, htake, hdrop, getlines_joinLines hresponse.lines, hlines, hline,
    parseHeaders_endLines hresponse.fields, htype, hlength, decimalValue_decimal, statusLine_status,
    hresponse.filter_fields, if_neg harrived, List.take_left, List.drop_left, Option.getD_some]

/-- A response that is cut short is not read as another one. -/
theorem readResponse_front (hresponse : response.Legible) {front : List UInt8}
    (hfront : front <+: serializeResponse response) (hshort : front ≠ serializeResponse response) :
    readResponse front = none := by
  obtain ⟨hblank, htake, hdrop⟩ := hresponse.blankLine []
  rw [List.append_nil] at hblank htake hdrop
  rw [List.append_nil] at hdrop
  have hlength : front.length < (serializeResponse response).length := by
    apply lt_of_le_of_ne hfront.length_le
    intro hequal
    exact hshort (hfront.eq_of_length hequal)
  obtain ⟨line, hlines, hline⟩ := endLines_responseLines response
  have hsize : http.blankLine.length = 4 := by decide
  have hfind := find_take blankLine_ne_nil hblank front.length
  rw [← List.prefix_iff_eq_take.mp hfront, hsize] at hfind
  unfold readResponse
  rw [hfind]
  split_ifs with harrived
  · have hblock : front.take (joinLines (responseLines response)).length = joinLines (responseLines response) := by
      rw [List.prefix_iff_eq_take.mp hfront, List.take_take, min_eq_left (by omega), htake]
    have hbehind : (front.drop ((joinLines (responseLines response)).length + 4)).length < response.body.length := by
      rw [← hdrop, List.length_drop, List.length_drop]
      omega
    simp only [hblock, getlines_joinLines hresponse.lines, hlines, parseHeaders_endLines hresponse.fields,
      (@lookup_responseFields response).2, decimalValue_decimal, if_pos hbehind]
  · rfl

end Response

section Exchange

variable (server : HttpServer) (lib : JsonLibrary) (handler : HttpRequest → Except String Response)

/-- An early response as it is written. -/
def HttpResponse.written (response : HttpResponse) : Response where
  status := response.status
  content_type := octets response.content_type
  body := octets response.body

/-- The answer to a request. What a handler throws is answered with status 500. -/
def answer (request : HttpRequest) : Response :=
  match handler request with
  | .ok response => response
  | .error message => { status := 500, body := lib.dump (.object [("error", .string message)]) }

/-- What a connection's thread sends before it closes the connection. -/
def serve (chunks : List (List UInt8)) : List UInt8 :=
  match handleClient server chunks with
  | .early response => serializeResponse response.written
  | .handled request => serializeResponse (answer lib handler request)

/-- What a client gets for a request: the handler's answer, or that the request is too large. -/
def expected (request : HttpRequest) : Response :=
  if (renderRequest request).length ≤ server.max_request_bytes then answer lib handler request
  else payloadTooLarge.written

variable {server lib handler} {request : HttpRequest}

/-- A response in JSON without headers of its own is legible. -/
theorem legible_of_no_headers {response : Response} (htype : response.content_type = octets "application/json")
    (hheaders : response.headers = []) : response.Legible where
  content_type := by
    have hvalue : 13 ∉ octets "application/json" ∧ 10 ∉ octets "application/json" ∧
        trim (octets "application/json") = octets "application/json" := by decide
    rw [htype]
    exact ⟨hvalue.1, hvalue.2.1, hvalue.2.2⟩
  headers := by
    rw [hheaders]
    exact ⟨by simp, by simp, List.nodup_nil⟩
  others := by
    rw [hheaders]
    simp

/-- What the server answers is legible when what its handler answers is. -/
theorem legible_answer (hhandler : ∀ response, handler request = .ok response → response.Legible) :
    (answer lib handler request).Legible := by
  unfold answer
  cases hresult : handler request with
  | ok response => exact hhandler response hresult
  | error message => exact legible_of_no_headers rfl rfl

/-- Whatever its chunks, a request that declares its length is answered as a
whole. -/
theorem serve_eq (hrequest : request.Legible) (hdeclares : request.Declares)
    (hsize : (renderRequest request).length < 2 ^ 64) {chunks : List (List UInt8)}
    (hchunks : chunks.flatten = renderRequest request) :
    serve server lib handler chunks = serializeResponse (expected server lib handler request) := by
  rw [serve, handleClient_renderRequest server hrequest hdeclares hsize hchunks, expected]
  split_ifs with hlimit
  · rfl
  · rfl

/-- However a request is cut on its way, the client reads back what the handler answers to the request that
the client wrote, or that it is too large, and reads nothing as long as a part of it is missing. -/
theorem exchange_answered (hrequest : request.Legible) (hdeclares : request.Declares)
    (hsize : (renderRequest request).length < 2 ^ 64)
    (hhandler : ∀ response, handler request = .ok response → response.Legible) {chunks : List (List UInt8)}
    (hchunks : chunks.flatten = renderRequest request) :
    readResponse (serve server lib handler chunks) = some (expected server lib handler request, []) ∧
      ∀ front, front <+: serve server lib handler chunks → front ≠ serve server lib handler chunks →
        readResponse front = none := by
  have hexpected : (expected server lib handler request).Legible := by
    unfold expected
    split_ifs with hlimit
    · exact legible_answer hhandler
    · exact legible_of_no_headers rfl rfl
  rw [serve_eq hrequest hdeclares hsize hchunks]
  constructor
  · have hread := readResponse_serializeResponse hexpected []
    rwa [List.append_nil] at hread
  · exact fun front hfront hshort => readResponse_front hexpected hfront hshort

/-- A request with a body of two octets. -/
def postedRequest : HttpRequest where
  method := octets "POST"
  path := octets "/v2/models/demo/infer"
  headers := [(octets "Host", octets "localhost"), (octets "Content-Length", octets "2")]
  body := octets "\x7b\x7d"

theorem legible_postedRequest : postedRequest.Legible where
  method := word_of_all (by decide) (by decide)
  path := word_of_all (by decide) (by decide)
  token := by decide
  absolute := by decide
  headers := by
    have hnames : ∀ header ∈ postedRequest.headers, 13 ∉ header.1 ∧ 10 ∉ header.1 ∧ trim header.1 = header.1 ∧
        58 ∉ header.1 := by decide
    have hvalues : ∀ header ∈ postedRequest.headers, 13 ∉ header.2 ∧ 10 ∉ header.2 ∧ trim header.2 = header.2 := by
      decide
    refine ⟨?_, ?_, by decide⟩
    · intro header hheader
      obtain ⟨hcarriage, hfeed, htrimmed, hcolon⟩ := hnames header hheader
      exact ⟨⟨hcarriage, hfeed, htrimmed⟩, hcolon⟩
    · intro header hheader
      obtain ⟨hcarriage, hfeed, htrimmed⟩ := hvalues header hheader
      exact ⟨hcarriage, hfeed, htrimmed⟩

/-- A request whose body arrives in two parts. -/
theorem exchange_answered_posted :
    let word := renderRequest postedRequest
    let chunks := [word.take (word.length - 1), word.drop (word.length - 1)]
    let handler : HttpRequest → Except String Response := fun request => .ok { body := request.body }
    let lib := JsonLibrary.onText "\x7b\x7d" (.object [])
    readResponse (serve {} lib handler chunks) = some (expected {} lib handler postedRequest, []) ∧
      ∀ front, front <+: serve {} lib handler chunks → front ≠ serve {} lib handler chunks →
        readResponse front = none := by
  apply exchange_answered legible_postedRequest
  · exact ⟨by decide, by decide⟩
  · decide
  · rintro response ⟨⟩
    exact legible_of_no_headers rfl rfl
  · simp only [List.flatten_cons, List.flatten_nil, List.append_nil, List.take_append_drop]

end Exchange

end neuriplo.http
