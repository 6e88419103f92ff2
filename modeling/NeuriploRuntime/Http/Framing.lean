import NeuriploRuntime.Http.Server

open neuriplo.tensor stream

namespace neuriplo.http

/-- The Content-Length headers of a block, in any letter case. -/
def contentLengthFields (lines : List (List UInt8)) : List (List UInt8 × List UInt8) :=
  (lines.filterMap headerField).filter fun header => header.1.map lowerCase = octets "content-length"

/-- A stream whose header block ends at `header_end` and carries one
Content-Length header, spelled `name`, of value `n`. -/
structure Carries (word : List UInt8) (header_end : Nat) (name : List UInt8) (n : Nat) : Prop where
  blank : find blankLine word = some header_end
  once : ∃ value, contentLengthFields (getlines (word.take header_end)) = [(name, value)] ∧
    trim value ≠ [] ∧ (trim value).all isDigit = true ∧ decimalValue (trim value) = n

/-- A line with another field, or with none, changes nothing. -/
theorem contentLength_skip {line : List UInt8}
    (hother : ∀ header, headerField line = some header → header.1.map lowerCase ≠ octets "content-length")
    (lines : List (List UInt8)) (content_length : Nat) :
    contentLengthFields (line :: lines) = contentLengthFields lines ∧
      contentLength content_length (line :: lines) = contentLength content_length lines := by
  simp only [contentLength]
  cases hfield : headerField line with
  | none => exact ⟨by rw [contentLengthFields, List.filterMap_cons_none hfield, contentLengthFields], rfl⟩
  | some header =>
    have hname := hother header hfield
    have hspelled : header.1 ≠ octets "Content-Length" := by
      intro hequal
      rw [hequal] at hname
      exact hname (by decide +kernel)
    refine ⟨?_, if_neg hspelled⟩
    rw [contentLengthFields, List.filterMap_cons_some hfield, List.filter_cons_of_neg (by simpa using hname),
      contentLengthFields]

/-- A line that carries a Content-Length header is one of them. -/
theorem contentLengthFields_cons {line : List UInt8} {header : List UInt8 × List UInt8}
    (hfield : headerField line = some header) (hname : header.1.map lowerCase = octets "content-length")
    (lines : List (List UInt8)) : contentLengthFields (line :: lines) = header :: contentLengthFields lines := by
  rw [contentLengthFields, List.filterMap_cons_some hfield, List.filter_cons_of_pos (by simpa using hname),
    contentLengthFields]

/-- Without such a header the length stays as it was. -/
theorem contentLength_of_no_field {lines : List (List UInt8)} {content_length : Nat}
    (hfields : contentLengthFields lines = []) : contentLength content_length lines = some content_length := by
  induction lines generalizing content_length with
  | nil => rfl
  | cons line lines ih =>
    have hother : ∀ header, headerField line = some header → header.1.map lowerCase ≠ octets "content-length" := by
      intro header hfield hname
      rw [contentLengthFields_cons hfield hname] at hfields
      cases hfields
    obtain ⟨hrest, hlength⟩ := contentLength_skip hother lines content_length
    rw [hlength]
    exact ih (hrest.symm.trans hfields)

/-- The receive loop knows the header in one spelling only. -/
theorem contentLength_of_one_field {lines : List (List UInt8)} {content_length : Nat} {name value : List UInt8}
    (hfields : contentLengthFields lines = [(name, value)]) :
    contentLength content_length lines =
      if name = octets "Content-Length" then parseContentLength value else some content_length := by
  induction lines generalizing content_length with
  | nil => cases hfields
  | cons line lines ih =>
    by_cases hcarries : ∃ header, headerField line = some header ∧ header.1.map lowerCase = octets "content-length"
    · obtain ⟨header, hfield, hname⟩ := hcarries
      rw [contentLengthFields_cons hfield hname, List.cons.injEq] at hfields
      obtain ⟨rfl, hrest⟩ := hfields
      simp only [contentLength, hfield]
      split_ifs with hspelled
      · cases hvalue : parseContentLength value with
        | none => rfl
        | some parsed_content_length => exact contentLength_of_no_field hrest
      · exact contentLength_of_no_field hrest
    · obtain ⟨hrest, hlength⟩ := contentLength_skip
        (fun header hfield hname => hcarries ⟨header, hfield, hname⟩) lines content_length
      rw [hlength]
      exact ih (hrest.symm.trans hfields)

/-- The server reads the header when it is spelled as the server spells it, and
else takes the body for empty. -/
theorem Carries.contentLength_eq {word name : List UInt8} {header_end n : Nat}
    (hcarries : Carries word header_end name n) :
    contentLength 0 (getlines (word.take header_end)) =
      if name = octets "Content-Length" then (if n < 2 ^ 64 then some n else none) else some 0 := by
  obtain ⟨value, hfields, hnonempty, hdigits, hvalue⟩ := hcarries.once
  rw [contentLength_of_one_field hfields]
  simp [parseContentLength, hnonempty, hdigits, hvalue]

section Framing

variable {server : HttpServer} {word : List UInt8} {header_end : Nat}

/-- What the receive loop makes of the octets that have arrived. -/
theorem inspect_take (hblank : find blankLine word = some header_end) {received : Nat}
    (hreceived : received ≤ word.length) :
    inspect server (word.take received) =
      if server.max_request_bytes < received then some (some payloadTooLarge)
      else if received < header_end + 4 then none
      else frame server header_end (contentLength 0 (getlines (word.take header_end))) received := by
  have hlength : (word.take received).length = received := by
    rw [List.length_take, Nat.min_eq_left hreceived]
  have hnonempty : blankLine ≠ [] := by decide +kernel
  have hsize : blankLine.length = 4 := by decide +kernel
  unfold inspect
  rw [hlength, find_take hnonempty hblank, hsize]
  by_cases harrived : header_end + 4 ≤ received
  · rw [if_pos harrived, if_neg (Nat.not_lt.mpr harrived)]
    simp only [List.take_take, Nat.min_eq_left (show header_end ≤ received by omega)]
  · rw [if_neg harrived, if_pos (Nat.lt_of_not_le harrived)]

/-- The body is everything behind the header block. -/
theorem parseRequest_body (hblank : find blankLine word = some header_end) :
    (parseRequest word).body = word.drop (header_end + 4) := by
  unfold parseRequest
  simp only [hblank]
  split
  · rfl
  · rfl

/-- What is handed to the handler once `received` octets have arrived ends there. -/
theorem parseRequest_take_body (hblank : find blankLine word = some header_end) {received : Nat}
    (harrived : header_end + 4 ≤ received) :
    (parseRequest (word.take received)).body = (word.take received).drop (header_end + 4) := by
  have hnonempty : blankLine ≠ [] := by decide +kernel
  have hsize : blankLine.length = 4 := by decide +kernel
  apply parseRequest_body
  rw [find_take hnonempty hblank, hsize, if_pos harrived]

/-- The decision on what has arrived, with the outcome it leads to. -/
def decision (server : HttpServer) (raw : List UInt8) : Option Outcome := (inspect server raw).map (outcome raw)

/-- Where the receive loop takes the message to end. -/
def messageEnd (header_end content_length : Nat) : Nat :=
  max (wrapSize (header_end + 4 + content_length)) (header_end + 4)

/-- Too much has arrived. -/
theorem decision_tooLarge (hblank : find blankLine word = some header_end) {received : Nat}
    (hreceived : received ≤ word.length) (hlarge : server.max_request_bytes < received) :
    decision server (word.take received) = some (.early payloadTooLarge) := by
  rw [decision, inspect_take hblank hreceived, if_pos hlarge]
  rfl

/-- The header block has not arrived yet. -/
theorem decision_waiting (hblank : find blankLine word = some header_end) {received : Nat}
    (hreceived : received ≤ word.length) (hsmall : received ≤ server.max_request_bytes)
    (hwaiting : received < header_end + 4) : decision server (word.take received) = none := by
  rw [decision, inspect_take hblank hreceived, if_neg (Nat.not_lt.mpr hsmall), if_pos hwaiting]
  rfl

/-- The header block has arrived, and says how much is to come. -/
theorem decision_framed (hblank : find blankLine word = some header_end) {received : Nat}
    (hreceived : received ≤ word.length) (hsmall : received ≤ server.max_request_bytes)
    (harrived : header_end + 4 ≤ received) :
    decision server (word.take received) =
      (frame server header_end (contentLength 0 (getlines (word.take header_end))) received).map
        (outcome (word.take received)) := by
  rw [decision, inspect_take hblank hreceived, if_neg (Nat.not_lt.mpr hsmall), if_neg (Nat.not_lt.mpr harrived)]

/-- The blank line is part of the stream. -/
theorem blankLine_arrived (hblank : find blankLine word = some header_end) : header_end + 4 ≤ word.length := by
  have hsize : blankLine.length = 4 := by decide +kernel
  have hlength := find_length hblank
  omega

/-- Where every front is undecided or decided in one way, so is every run of the
receive loop. -/
theorem handleClient_eq {chunks : List (List UInt8)} {result : Outcome} (hblank : find blankLine word = some header_end)
    (hfronts : ∀ received ≤ word.length,
      decision server (word.take received) = none ∨ decision server (word.take received) = some result)
    (hend : decision server word = none → outcome word none = result) (hchunks : chunks.flatten = word) :
    handleClient server chunks = result := by
  rw [handleClient_eq_read]
  refine @read_eq _ _ (decision server) _ word [] chunks result ?_ hend ?_ hchunks
  · intro front hfront
    rw [List.prefix_iff_eq_take.mp hfront]
    exact hfronts front.length hfront.length_le
  · intro hnil
    subst hnil
    have harrived := blankLine_arrived hblank
    rw [← hchunks] at harrived
    simp at harrived

/-- A header block over the limit is refused, however it arrives. -/
theorem early_of_large_header {chunks : List (List UInt8)} (hblank : find blankLine word = some header_end)
    (hlarge : server.max_request_bytes < header_end + 4) (hchunks : chunks.flatten = word) :
    handleClient server chunks = .early payloadTooLarge := by
  have harrived := blankLine_arrived hblank
  have hdecided : ∀ received ≤ word.length, server.max_request_bytes < received →
      decision server (word.take received) = some (.early payloadTooLarge) :=
    fun received hreceived => decision_tooLarge hblank hreceived
  apply handleClient_eq hblank _ _ hchunks
  · intro received hreceived
    by_cases hsmall : received ≤ server.max_request_bytes
    · exact .inl (decision_waiting hblank hreceived hsmall (by omega))
    · exact .inr (hdecided received hreceived (by omega))
  · intro hundecided
    have hwhole := hdecided word.length (le_refl _) (by omega)
    rw [List.take_length, hundecided] at hwhole
    cases hwhole

/-- A message that is declared to be over the limit is refused, however it
arrives. -/
theorem early_of_large_message {content_length : Nat} {chunks : List (List UInt8)}
    (hblank : find blankLine word = some header_end)
    (hcontent : contentLength 0 (getlines (word.take header_end)) = some content_length)
    (hlarge : server.max_request_bytes < wrapSize (header_end + 4 + content_length)) (hchunks : chunks.flatten = word) :
    handleClient server chunks = .early payloadTooLarge := by
  have harrived := blankLine_arrived hblank
  have hdecided : ∀ received ≤ word.length, header_end + 4 ≤ received →
      decision server (word.take received) = some (.early payloadTooLarge) := by
    intro received hreceived hblankArrived
    by_cases hsmall : received ≤ server.max_request_bytes
    · rw [decision_framed hblank hreceived hsmall hblankArrived, hcontent]
      simp only [frame, if_pos hlarge]
      rfl
    · exact decision_tooLarge hblank hreceived (by omega)
  apply handleClient_eq hblank _ _ hchunks
  · intro received hreceived
    by_cases hwaiting : received < header_end + 4
    · by_cases hsmall : received ≤ server.max_request_bytes
      · exact .inl (decision_waiting hblank hreceived hsmall hwaiting)
      · exact .inr (decision_tooLarge hblank hreceived (by omega))
    · exact .inr (hdecided received hreceived (by omega))
  · intro hundecided
    have hwhole := hdecided word.length (le_refl _) harrived
    rw [List.take_length, hundecided] at hwhole
    cases hwhole

/-- A stream with nothing behind its message. -/
theorem handled_of_nothing_behind {content_length : Nat} {chunks : List (List UInt8)}
    (hblank : find blankLine word = some header_end)
    (hcontent : contentLength 0 (getlines (word.take header_end)) = some content_length)
    (hheader : header_end + 4 ≤ server.max_request_bytes)
    (hsmall : wrapSize (header_end + 4 + content_length) ≤ server.max_request_bytes)
    (hbehind : word.length ≤ messageEnd header_end content_length) (hchunks : chunks.flatten = word) :
    handleClient server chunks = .handled (parseRequest word) := by
  unfold messageEnd at hbehind
  apply handleClient_eq hblank _ (fun _ => rfl) hchunks
  intro received hreceived
  by_cases hwaiting : received < header_end + 4
  · exact .inl (decision_waiting hblank hreceived (by omega) hwaiting)
  · rw [decision_framed hblank hreceived (by omega) (by omega), hcontent]
    simp only [frame, if_neg (Nat.not_lt.mpr hsmall)]
    split_ifs with hcomplete
    · have hwhole : received = word.length := by omega
      rw [hwhole, List.take_length]
      exact .inr rfl
    · exact .inl rfl

/-- An unreadable length is refused, unless the limit is passed first. -/
theorem early_of_invalid {chunks : List (List UInt8)} (hblank : find blankLine word = some header_end)
    (hcontent : contentLength 0 (getlines (word.take header_end)) = none)
    (hheader : header_end + 4 ≤ server.max_request_bytes)
    (hroom : word.length ≤ server.max_request_bytes ∨ header_end + 3 + bufferSize ≤ server.max_request_bytes)
    (hchunks : Chunking bufferSize word chunks) : handleClient server chunks = .early invalidContentLength := by
  have harrived := blankLine_arrived hblank
  have hdecided : ∀ received ≤ word.length, received ≤ server.max_request_bytes → header_end + 4 ≤ received →
      decision server (word.take received) = some (.early invalidContentLength) := by
    intro received hreceived hsmall hblankArrived
    rw [decision_framed hblank hreceived hsmall hblankArrived, hcontent]
    rfl
  cases hroom with
  | inl hsmall =>
    apply handleClient_eq hblank _ _ hchunks.flatten
    · intro received hreceived
      by_cases hwaiting : received < header_end + 4
      · exact .inl (decision_waiting hblank hreceived (by omega) hwaiting)
      · exact .inr (hdecided received hreceived (by omega) (by omega))
    · intro hundecided
      have hwhole := hdecided word.length (le_refl _) hsmall harrived
      rw [List.take_length, hundecided] at hwhole
      cases hwhole
  | inr hroom =>
    rw [handleClient_eq_read]
    refine @read_eq_of_window _ _ (decision server) _ (header_end + 3) bufferSize word [] chunks _ ?_ ?_ (by omega)
      hchunks.bounded (Nat.zero_le _) hchunks.flatten
    · intro received hreceived
      exact decision_waiting hblank (by omega) (by omega) (by omega)
    · intro received hreceived hstart hwindow
      exact hdecided received hreceived (by omega) (by omega)

/-- A stream that comes octet by octet, but for one chunk, is decided with that
chunk. -/
theorem jump_outcome {start count : Nat} {result : Outcome}
    (hwait : ∀ received ≤ start, decision server (word.take received) = none)
    (hdecided : decision server (word.take (start + count)) = some result) :
    handleClient server (jump start count word) = result := by
  rw [handleClient_eq_read]
  exact @read_jump _ _ (decision server) _ start count word result hwait hdecided

/-- Two ways to cut the stream that come to different outcomes. -/
def Divided (server : HttpServer) (word : List UInt8) : Prop :=
  ∃ first second, Chunking bufferSize word first ∧ Chunking bufferSize word second ∧
    handleClient server first ≠ handleClient server second

/-- An unreadable length in a stream over the limit is refused for either
reason. -/
theorem divided_of_invalid (hblank : find blankLine word = some header_end)
    (hcontent : contentLength 0 (getlines (word.take header_end)) = none)
    (hheader : header_end + 4 ≤ server.max_request_bytes) (hlong : server.max_request_bytes < word.length)
    (hroom : server.max_request_bytes < header_end + 3 + bufferSize) : Divided server word := by
  have hwait : ∀ received ≤ header_end + 3, decision server (word.take received) = none := by
    intro received hreceived
    exact decision_waiting hblank (by omega) (by omega) (by omega)
  have hinvalid : decision server (word.take (header_end + 3 + 1)) = some (.early invalidContentLength) := by
    rw [decision_framed hblank (by omega) (by omega) (by omega), hcontent]
    rfl
  have hlarge : decision server (word.take (header_end + 3 + (server.max_request_bytes - (header_end + 2)))) =
      some (.early payloadTooLarge) := decision_tooLarge hblank (by omega) (by omega)
  refine ⟨jump (header_end + 3) 1 word, jump (header_end + 3) (server.max_request_bytes - (header_end + 2)) word,
    jump_chunking (by omega) (by decide) (by omega), jump_chunking (by omega) (by omega) (by omega), ?_⟩
  rw [jump_outcome hwait hinvalid, jump_outcome hwait hlarge]
  decide

/-- Octets behind the message reach the handler or not, as they arrive. -/
theorem divided_of_trailing {content_length : Nat} (hblank : find blankLine word = some header_end)
    (hcontent : contentLength 0 (getlines (word.take header_end)) = some content_length)
    (hheader : header_end + 4 ≤ server.max_request_bytes)
    (hsmall : wrapSize (header_end + 4 + content_length) ≤ server.max_request_bytes)
    (hbehind : messageEnd header_end content_length < word.length) : Divided server word := by
  have hend : header_end + 4 ≤ messageEnd header_end content_length := by
    unfold messageEnd
    omega
  have hfits : messageEnd header_end content_length ≤ server.max_request_bytes := by
    unfold messageEnd
    omega
  have hmessage : wrapSize (header_end + 4 + content_length) ≤ messageEnd header_end content_length := by
    unfold messageEnd
    omega
  have hwait : ∀ received ≤ messageEnd header_end content_length - 1, decision server (word.take received) = none := by
    intro received hreceived
    by_cases hwaiting : received < header_end + 4
    · exact decision_waiting hblank (by omega) (by omega) hwaiting
    · have hincomplete : ¬ wrapSize (header_end + 4 + content_length) ≤ received := by
        unfold messageEnd at hreceived
        omega
      rw [decision_framed hblank (by omega) (by omega) (by omega), hcontent]
      simp only [frame, if_neg (Nat.not_lt.mpr hsmall), if_neg hincomplete]
      rfl
  have hhandled : ∀ received ≤ word.length, messageEnd header_end content_length ≤ received →
      received ≤ server.max_request_bytes →
      decision server (word.take received) = some (.handled (parseRequest (word.take received))) := by
    intro received hreceived hcomplete hroom
    rw [decision_framed hblank hreceived hroom (by omega), hcontent]
    simp only [frame, if_neg (Nat.not_lt.mpr hsmall), if_pos (hmessage.trans hcomplete)]
    rfl
  -- One cut ends with the message, the other takes one octet more.
  have hfirst : messageEnd header_end content_length - 1 + 1 = messageEnd header_end content_length := by omega
  have hsecond : messageEnd header_end content_length - 1 + 2 = messageEnd header_end content_length + 1 := by omega
  refine ⟨jump (messageEnd header_end content_length - 1) 1 word,
    jump (messageEnd header_end content_length - 1) 2 word,
    jump_chunking (by omega) (by decide) (by omega), jump_chunking (by omega) (by decide) (by omega), ?_⟩
  rw [jump_outcome hwait (by rw [hfirst]; exact hhandled _ (by omega) (le_refl _) hfits)]
  by_cases hroom : messageEnd header_end content_length + 1 ≤ server.max_request_bytes
  · rw [jump_outcome hwait (by rw [hsecond]; exact hhandled _ (by omega) (by omega) hroom)]
    intro hequal
    have hbody := congrArg (fun request => request.body.length) (Outcome.handled.inj hequal)
    simp only [parseRequest_take_body hblank hend,
      parseRequest_take_body hblank (show header_end + 4 ≤ messageEnd header_end content_length + 1 by omega),
      List.length_drop, List.length_take] at hbody
    omega
  · rw [jump_outcome hwait (by rw [hsecond]; exact decision_tooLarge hblank (by omega) (by omega))]
    exact nofun

/-- However the stream is cut, its outcome is the same, and a handler that is
called on a full message gets its `n` octets. -/
structure Framed (server : HttpServer) (word : List UInt8) (header_end n : Nat) : Prop where
  uncut : ∀ first second, Chunking bufferSize word first → Chunking bufferSize word second →
    handleClient server first = handleClient server second
  body : ∀ chunks request, Chunking bufferSize word chunks → handleClient server chunks = .handled request →
    header_end + 4 + n ≤ word.length → request.body = (word.drop (header_end + 4)).take n

/-- The header block is too large, or nothing is behind it, or the header is
spelled as the server spells it and the message is too large or has nothing
behind it. A value that no `size_t` holds is refused unless the stream runs over
the limit first. -/
def Delimited (server : HttpServer) (word : List UInt8) (header_end : Nat) (name : List UInt8) (n : Nat) : Prop :=
  server.max_request_bytes < header_end + 4 ∨ word.length ≤ header_end + 4 ∨
    (name = octets "Content-Length" ∧ n < 2 ^ 64 ∧ header_end + 4 + n < 2 ^ 64 ∧
      (server.max_request_bytes < header_end + 4 + n ∨ word.length ≤ header_end + 4 + n)) ∨
    (name = octets "Content-Length" ∧ 2 ^ 64 ≤ n ∧
      (word.length ≤ server.max_request_bytes ∨ header_end + 3 + bufferSize ≤ server.max_request_bytes))

/-- What has one outcome has no two. -/
theorem Framed.not_divided {n : Nat} (hframed : Framed server word header_end n) : ¬ Divided server word := by
  rintro ⟨first, second, hfirst, hsecond, hdiffer⟩
  exact hdiffer (hframed.uncut first second hfirst hsecond)

/-- A stream that is refused however it arrives hands nothing to the handler. -/
theorem framed_of_early {n : Nat} {response : HttpResponse}
    (hearly : ∀ chunks, Chunking bufferSize word chunks → handleClient server chunks = .early response) :
    Framed server word header_end n := by
  constructor
  · intro first second hfirst hsecond
    rw [hearly first hfirst, hearly second hsecond]
  · intro chunks request hchunks hhandled
    rw [hearly chunks hchunks] at hhandled
    cases hhandled

/-- A stream that ends with its message is handled as a whole. -/
theorem framed_of_nothing_behind {content_length n : Nat} (hblank : find blankLine word = some header_end)
    (hcontent : contentLength 0 (getlines (word.take header_end)) = some content_length)
    (hheader : header_end + 4 ≤ server.max_request_bytes)
    (hsmall : wrapSize (header_end + 4 + content_length) ≤ server.max_request_bytes)
    (hbehind : word.length ≤ messageEnd header_end content_length) (hn : content_length ≤ n) :
    Framed server word header_end n := by
  have hhandled : ∀ chunks, Chunking bufferSize word chunks →
      handleClient server chunks = .handled (parseRequest word) :=
    fun chunks hchunks => handled_of_nothing_behind hblank hcontent hheader hsmall hbehind hchunks.flatten
  constructor
  · intro first second hfirst hsecond
    rw [hhandled first hfirst, hhandled second hsecond]
  · intro chunks request hchunks hrequest _
    rw [hhandled chunks hchunks] at hrequest
    cases hrequest
    have hwrap : wrapSize (header_end + 4 + content_length) ≤ header_end + 4 + content_length := Nat.mod_le _ _
    unfold messageEnd at hbehind
    rw [parseRequest_body hblank, List.take_of_length_le]
    rw [List.length_drop]
    omega

/-- With a readable length the outcome is one exactly when the message is too
large or ends the stream. -/
theorem framed_iff_of_length {content_length n : Nat} (hblank : find blankLine word = some header_end)
    (hcontent : contentLength 0 (getlines (word.take header_end)) = some content_length)
    (hheader : header_end + 4 ≤ server.max_request_bytes) (hn : content_length ≤ n) :
    Framed server word header_end n ↔
      server.max_request_bytes < wrapSize (header_end + 4 + content_length) ∨
        word.length ≤ messageEnd header_end content_length := by
  constructor
  · intro hframed
    by_contra hneither
    rw [not_or, Nat.not_lt, Nat.not_le] at hneither
    exact hframed.not_divided (divided_of_trailing hblank hcontent hheader hneither.1 hneither.2)
  · intro hcases
    by_cases hlarge : server.max_request_bytes < wrapSize (header_end + 4 + content_length)
    · exact framed_of_early fun _ hchunks => early_of_large_message hblank hcontent hlarge hchunks.flatten
    · have hbehind := hcases.resolve_left hlarge
      exact framed_of_nothing_behind hblank hcontent hheader (Nat.not_lt.mp hlarge) hbehind hn

/-- With an unreadable length the outcome is one exactly when no chunk passes
the limit before it is refused. -/
theorem framed_iff_of_invalid {n : Nat} (hblank : find blankLine word = some header_end)
    (hcontent : contentLength 0 (getlines (word.take header_end)) = none)
    (hheader : header_end + 4 ≤ server.max_request_bytes) :
    Framed server word header_end n ↔
      word.length ≤ server.max_request_bytes ∨ header_end + 3 + bufferSize ≤ server.max_request_bytes := by
  constructor
  · intro hframed
    by_contra hneither
    rw [not_or, Nat.not_le, Nat.not_le] at hneither
    exact hframed.not_divided (divided_of_invalid hblank hcontent hheader hneither.1 hneither.2)
  · intro hroom
    exact framed_of_early fun _ hchunks => early_of_invalid hblank hcontent hheader hroom hchunks

/-- The server frames a stream with one Content-Length header exactly when the
header block or the message exceeds its limit, or nothing is behind the message;
in another spelling, nothing behind the header block. -/
theorem framed_iff_delimited {name : List UInt8} {n : Nat} (hcarries : Carries word header_end name n) :
    Framed server word header_end n ↔ Delimited server word header_end name n := by
  have hblank := hcarries.blank
  have hcontent := hcarries.contentLength_eq
  have harrived := blankLine_arrived hblank
  have hbounded := server.bounded
  by_cases hheader : server.max_request_bytes < header_end + 4
  · exact iff_of_true (framed_of_early fun _ hchunks => early_of_large_header hblank hheader hchunks.flatten)
      (.inl hheader)
  · rw [Nat.not_lt] at hheader
    by_cases hname : name = octets "Content-Length"
    · by_cases hvalue : n < 2 ^ 64
      · rw [if_pos hname, if_pos hvalue] at hcontent
        rw [framed_iff_of_length hblank hcontent hheader (le_refl n)]
        simp only [Delimited, messageEnd, wrapSize, hname, true_and]
        omega
      · rw [if_pos hname, if_neg hvalue] at hcontent
        rw [framed_iff_of_invalid hblank hcontent hheader]
        simp only [Delimited, hname, true_and]
        omega
    · rw [if_neg hname] at hcontent
      rw [framed_iff_of_length hblank hcontent hheader (Nat.zero_le n)]
      simp only [Delimited, messageEnd, wrapSize, hname, false_and, or_false]
      omega

end Framing

/-- A request with a body of two octets, its header in the given spelling. -/
def greeting (name : String) : List UInt8 := octets ("POST /v2 HTTP/1.1\r\n" ++ name ++ ": 2\r\n\r\nhi")

theorem greeting_carries (name : String) (hname : name = "Content-Length" ∨ name = "content-length") :
    Carries (greeting name) 36 (octets name) 2 := by
  obtain rfl | rfl := hname
  · exact ⟨by decide +kernel, octets " 2", by decide +kernel, by decide +kernel, by decide +kernel, by decide +kernel⟩
  · exact ⟨by decide +kernel, octets " 2", by decide +kernel, by decide +kernel, by decide +kernel, by decide +kernel⟩

theorem framed_greeting : Framed {} (greeting "Content-Length") 36 2 := by
  refine (framed_iff_delimited (greeting_carries _ (.inl rfl))).mpr (.inr (.inr (.inl ?_)))
  decide +kernel

/-- With the header in lower case, what is behind the blank line belongs to the
message as far as it arrives with it. -/
theorem lowerCase_greeting_cut :
    Carries (greeting "content-length") 36 (octets "content-length") 2 ∧
      ¬ Framed {} (greeting "content-length") 36 2 := by
  refine ⟨greeting_carries _ (.inr rfl), ?_⟩
  intro hframed
  have hwhole : Chunking bufferSize (greeting "content-length") [greeting "content-length"] :=
    ⟨by decide +kernel, by decide +kernel, by decide +kernel⟩
  have hcut : Chunking bufferSize (greeting "content-length")
      [(greeting "content-length").take 40, (greeting "content-length").drop 40] :=
    ⟨by decide +kernel, by decide +kernel, by decide +kernel⟩
  have hdiffer : handleClient {} [greeting "content-length"] ≠
      handleClient {} [(greeting "content-length").take 40, (greeting "content-length").drop 40] := by
    decide +kernel
  exact hdiffer (hframed.uncut _ _ hwhole hcut)

end neuriplo.http
