import NeuriploRuntime.Http.Framing

open neuriplo.tensor stream

namespace neuriplo.http

/-- The number that is spelled out, of any size. -/
def exactValue (value : List UInt8) : Option Nat :=
  let trimmed := trim value
  if trimmed ≠ [] ∧ trimmed.all isDigit then some (decimalValue trimmed) else none

/-- The values of the Content-Length headers that the receive loop knows, those in its own spelling. -/
def contentLengths (lines : List (List UInt8)) : List (List UInt8) :=
  ((lines.filterMap headerField).filter fun header => header.1 = octets "Content-Length").map (·.2)

/-- The length that a header block declares, in any letter case: the last one if there are several, and
nothing if there is none. -/
def declaredLength (lines : List (List UInt8)) : Option Nat :=
  match (contentLengthFields lines).getLast? with
  | none => some 0
  | some header => exactValue header.2

/-- The header block, the blank line and the declared length. -/
def declaredTotal (word : List UInt8) : Option Nat :=
  match find blankLine word with
  | none => none
  | some header_end => (declaredLength (getlines (word.take header_end))).map (header_end + 4 + ·)

/-- What the receive loop parses is the number that is spelled out. -/
theorem exactValue_of_parse {value : List UInt8} {content_length : Nat}
    (hparse : parseContentLength value = some content_length) :
    exactValue value = some content_length ∧ content_length < 2 ^ 64 := by
  simp only [parseContentLength] at hparse
  split_ifs at hparse with hdigits
  cases hparse
  simp only [exactValue]
  exact ⟨by rw [if_pos ⟨hdigits.1, hdigits.2.1⟩], hdigits.2.2⟩

/-- The receive loop reads every Content-Length header and keeps the last. -/
theorem contentLength_eq (content_length : Nat) (lines : List (List UInt8)) :
    contentLength content_length lines =
      if ∀ value ∈ contentLengths lines, (parseContentLength value).isSome then
        some (((contentLengths lines).getLast?.bind parseContentLength).getD content_length)
      else none := by
  induction lines generalizing content_length with
  | nil => rfl
  | cons line lines ih =>
    simp only [contentLength]
    cases hfield : headerField line with
    | none =>
      have hsame : contentLengths (line :: lines) = contentLengths lines := by
        rw [contentLengths, List.filterMap_cons_none hfield, contentLengths]
      rw [hsame]
      exact ih content_length
    | some header =>
      obtain ⟨name, value⟩ := header
      by_cases hname : name = octets "Content-Length"
      · have hcons : contentLengths (line :: lines) = value :: contentLengths lines := by
          rw [contentLengths, List.filterMap_cons_some hfield, List.filter_cons_of_pos (by simpa using hname)]
          rfl
        rw [hcons]
        simp only [if_pos hname, List.forall_mem_cons]
        cases hparse : parseContentLength value with
        | none => simp
        | some parsed_content_length =>
          simp only [Option.isSome_some, true_and]
          rw [ih parsed_content_length]
          cases hrest : contentLengths lines with
          | nil => simp [hparse]
          | cons other others =>
            rw [List.getLast?_cons_cons]
            refine ite_congr rfl (fun hall => ?_) fun _ => rfl
            -- the last one parses, so it does not matter what was there before
            have hlast := hall _ (List.getLast_mem (List.cons_ne_nil other others))
            obtain ⟨last, hparsed⟩ := Option.isSome_iff_exists.mp hlast
            rw [List.getLast?_eq_some_getLast (List.cons_ne_nil other others), Option.bind_some, hparsed]
            rfl
      · have hsame : contentLengths (line :: lines) = contentLengths lines := by
          rw [contentLengths, List.filterMap_cons_some hfield, List.filter_cons_of_neg (by simpa using hname),
            contentLengths]
        rw [hsame]
        simp only [if_neg hname]
        exact ih content_length

/-- The length that the headers in the receive loop's own spelling declare, if it can parse them all: the
last one, and zero without any. -/
def spelledLength (lines : List (List UInt8)) : Option Nat :=
  if ∀ value ∈ contentLengths lines, (parseContentLength value).isSome then
    some (((contentLengths lines).getLast?.bind parseContentLength).getD 0)
  else none

/-- The receive loop goes by the headers in its own spelling. -/
theorem contentLength_spelled (lines : List (List UInt8)) : contentLength 0 lines = spelledLength lines :=
  contentLength_eq 0 lines

/-- In the spelling of the receive loop, what it reads is what is declared. -/
theorem declaredLength_of_spelled {lines : List (List UInt8)} {content_length : Nat}
    (hspelled : ∀ header ∈ contentLengthFields lines, header.1 = octets "Content-Length")
    (hcontent : spelledLength lines = some content_length) :
    declaredLength lines = some content_length ∧ content_length < 2 ^ 64 := by
  have hvalues : contentLengths lines = (contentLengthFields lines).map (·.2) := by
    rw [contentLengths, contentLengthFields]
    congr 1
    apply List.filter_congr
    intro header hheader
    rw [decide_eq_decide]
    constructor
    · intro hname
      rw [hname]
      decide +kernel
    · intro hname
      exact hspelled header (List.mem_filter.mpr ⟨hheader, decide_eq_true hname⟩)
  rw [spelledLength, hvalues, List.getLast?_map] at hcontent
  split_ifs at hcontent with hall
  unfold declaredLength
  cases hlast : (contentLengthFields lines).getLast? with
  | none =>
    rw [hlast] at hcontent
    cases hcontent
    exact ⟨rfl, by decide⟩
  | some header =>
    have hmem : header.2 ∈ (contentLengthFields lines).map (·.2) :=
      List.mem_map_of_mem (List.mem_of_getLast? hlast)
    obtain ⟨parsed, hparsed⟩ := Option.isSome_iff_exists.mp (hall header.2 hmem)
    rw [hlast, Option.map_some, Option.bind_some, hparsed] at hcontent
    cases hcontent
    exact exactValue_of_parse hparsed

section Limit

variable (server : HttpServer)

/-- What has arrived when the handler is called. -/
def Handles (chunks : List (List UInt8)) (raw : List UInt8) : Prop := receive server [] chunks = (raw, none)

/-- The handler is called because of what has arrived, and not because the connection is closed. -/
def Opened (raw : List UInt8) : Prop := inspect server raw = some none

/-- The handler gets no message that declares more than the limit, and while the connection is open none
that declares more than has arrived. -/
structure WithinLimit (chunks : List (List UInt8)) : Prop where
  limit : ∀ raw total, Handles server chunks raw → declaredTotal raw = some total →
    total ≤ server.max_request_bytes
  complete : ∀ raw total, Handles server chunks raw → Opened server raw → declaredTotal raw = some total →
    total ≤ raw.length

/-- The sum of the header block and of the length in the receive loop's spelling is within the limit, and so
is what has arrived with the chunk that brings them, but the total that the header block declares is more
than the limit, or more than what has arrived. -/
structure Understated (chunks : List (List UInt8)) (header_end content_length total : Nat) : Prop where
  blank : find blankLine chunks.flatten = some header_end
  content : spelledLength (getlines (chunks.flatten.take header_end)) = some content_length
  declared : declaredTotal chunks.flatten = some total
  small : wrapSize (header_end + 4 + content_length) ≤ server.max_request_bytes
  room : arrivedWith (messageEnd header_end content_length) 0 chunks ≤ server.max_request_bytes
  beyond : server.max_request_bytes < total ∨
    wrapSize (header_end + 4 + content_length) ≤ chunks.flatten.length ∧
      arrivedWith (messageEnd header_end content_length) 0 chunks < total

/-- The header block of a stream declares more than the receive loop reads in it. -/
def Understates (chunks : List (List UInt8)) : Prop :=
  ∃ header_end content_length total, Understated server chunks header_end content_length total

variable {server} {chunks : List (List UInt8)}

theorem receive_eq_read (raw : List UInt8) (chunks : List (List UInt8)) :
    receive server raw chunks =
      read (fun raw => (inspect server raw).map (raw, ·)) (fun raw => (raw, none)) raw chunks := by
  induction chunks generalizing raw with
  | nil => rfl
  | cons chunk chunks ih =>
    simp only [receive, stream.read]
    cases inspect server (raw ++ chunk) with
    | none => exact ih (raw ++ chunk)
    | some early_response => rfl

/-- The handler is called once enough has arrived, or at the end of the stream. -/
theorem Handles.cases {raw : List UInt8} (hhandles : Handles server chunks raw) :
    (inspect server raw = some none ∧ ∃ count, raw = (chunks.take count).flatten) ∨
      (raw = chunks.flatten ∧ (raw = [] ∨ inspect server raw = none)) := by
  rw [Handles, receive_eq_read] at hhandles
  rcases @read_cases _ _ (fun raw => (inspect server raw).map (raw, ·)) (fun raw => (raw, none)) [] chunks with
    ⟨count, hdecided⟩ | ⟨hfinish, hrest⟩
  · left
    rw [hhandles, List.nil_append] at hdecided
    obtain ⟨early_response, hinspect, hpair⟩ := Option.map_eq_some_iff.mp hdecided
    rw [Prod.mk.injEq] at hpair
    obtain ⟨rfl, rfl⟩ := hpair
    exact ⟨hinspect, count, rfl⟩
  · right
    rw [hhandles, List.nil_append] at hfinish
    obtain rfl : raw = chunks.flatten := congrArg Prod.fst hfinish
    refine ⟨rfl, ?_⟩
    rw [List.nil_append] at hrest
    obtain rfl | hundecided := hrest
    · exact .inl rfl
    · exact .inr (Option.map_eq_none_iff.mp hundecided)

/-- Without an early response the header block is read and the message is within the limit, as far as the
sum goes that is compared with it. -/
theorem inspect_framed {raw : List UInt8} {header_end : Nat} (hblank : find blankLine raw = some header_end)
    (hopen : ∀ response, inspect server raw ≠ some (some response)) :
    raw.length ≤ server.max_request_bytes ∧
      ∃ content_length, contentLength 0 (getlines (raw.take header_end)) = some content_length ∧
        wrapSize (header_end + 4 + content_length) ≤ server.max_request_bytes ∧
        (inspect server raw = some none ↔ wrapSize (header_end + 4 + content_length) ≤ raw.length) := by
  unfold inspect at hopen ⊢
  rw [hblank] at hopen ⊢
  split_ifs at hopen ⊢ with hlarge
  · exact absurd rfl (hopen _)
  · refine ⟨Nat.not_lt.mp hlarge, ?_⟩
    dsimp only at hopen ⊢
    cases hcontent : contentLength 0 (getlines (raw.take header_end)) with
    | none =>
      rw [hcontent] at hopen
      exact absurd rfl (hopen _)
    | some content_length =>
      rw [hcontent] at hopen
      simp only [frame] at hopen ⊢
      split_ifs at hopen ⊢ with hexceeds hcomplete
      · exact absurd rfl (hopen _)
      · exact ⟨content_length, rfl, Nat.not_lt.mp hexceeds, iff_of_true rfl hcomplete⟩
      · exact ⟨content_length, rfl, Nat.not_lt.mp hexceeds, iff_of_false (by rintro ⟨⟩) hcomplete⟩

theorem blankLine_ne_nil : blankLine ≠ [] := by decide +kernel

/-- The declared total of the first chunks is that of the stream. -/
theorem declaredTotal_front {word rest : List UInt8} {header_end : Nat}
    (hblank : find blankLine word = some header_end) :
    find blankLine (word ++ rest) = some header_end ∧ (word ++ rest).take header_end = word.take header_end ∧
      declaredTotal (word ++ rest) = declaredTotal word := by
  have hlonger := find_append blankLine_ne_nil hblank rest
  have harrived := blankLine_arrived hblank
  have htake : (word ++ rest).take header_end = word.take header_end := List.take_append_of_le_length (by omega)
  exact ⟨hlonger, htake, by simp only [declaredTotal, hblank, hlonger, htake]⟩

/-- The loop reads less than is declared for one of two reasons: the sum wraps around, or a header is
spelled in another letter case. -/
theorem Understated.cause {header_end content_length total : Nat}
    (hunderstated : Understated server chunks header_end content_length total) :
    2 ^ 64 ≤ total ∨ ∃ header ∈ contentLengthFields (getlines (chunks.flatten.take header_end)),
      header.1 ≠ octets "Content-Length" := by
  by_contra hneither
  rw [not_or, Nat.not_le] at hneither
  obtain ⟨hfits, hspelled⟩ := hneither
  push Not at hspelled
  obtain ⟨hdeclared, -⟩ := declaredLength_of_spelled hspelled hunderstated.content
  have htotal := hunderstated.declared
  simp only [declaredTotal, hunderstated.blank, hdeclared, Option.map_some, Option.some.injEq] at htotal
  have hsum : wrapSize (header_end + 4 + content_length) = total := by
    rw [htotal, wrapSize, Nat.mod_eq_of_lt hfits]
  have hsmall := hunderstated.small
  obtain hbeyond | ⟨hlength, hbeyond⟩ := hunderstated.beyond
  · omega
  · have harrived := blankLine_arrived hunderstated.blank
    have hend : messageEnd header_end content_length ≤ 0 + chunks.flatten.length := by
      unfold messageEnd
      omega
    have hreached := le_arrivedWith 0 chunks hend
    have htotal : total ≤ messageEnd header_end content_length := hsum.symm.le.trans (Nat.le_max_left _ _)
    omega

/-- Where the sum arrives, the chunk that brings it ends the loop. -/
theorem handles_of_arrived {header_end content_length : Nat}
    (hblank : find blankLine chunks.flatten = some header_end)
    (hcontent : contentLength 0 (getlines (chunks.flatten.take header_end)) = some content_length)
    (hsmall : wrapSize (header_end + 4 + content_length) ≤ server.max_request_bytes)
    (hroom : arrivedWith (messageEnd header_end content_length) 0 chunks ≤ server.max_request_bytes)
    (hlength : wrapSize (header_end + 4 + content_length) ≤ chunks.flatten.length) :
    Handles server chunks (chunks.flatten.take (arrivedWith (messageEnd header_end content_length) 0 chunks)) ∧
      Opened server (chunks.flatten.take (arrivedWith (messageEnd header_end content_length) 0 chunks)) := by
  have harrived := blankLine_arrived hblank
  have hend : messageEnd header_end content_length ≤ chunks.flatten.length := Nat.max_le.mpr ⟨hlength, harrived⟩
  have hreached := le_arrivedWith 0 chunks (by rwa [Nat.zero_add] : messageEnd header_end content_length ≤ 0 + _)
  have hinside := arrivedWith_le_length (messageEnd header_end content_length) 0 chunks
  rw [Nat.zero_add] at hinside
  obtain ⟨hsum, hheader⟩ := Nat.max_le.mp hreached
  have hopened : Opened server
      (chunks.flatten.take (arrivedWith (messageEnd header_end content_length) 0 chunks)) := by
    rw [Opened, inspect_take hblank hinside, if_neg (by omega), if_neg (by omega), hcontent]
    simp only [frame]
    rw [if_neg (by omega), if_pos hsum]
  refine ⟨?_, hopened⟩
  have hpos : 0 < messageEnd header_end content_length :=
    (Nat.succ_pos _).trans_le (Nat.le_max_right _ (header_end + 4))
  rw [Handles, receive_eq_read]
  refine @read_arrived _ _ (fun raw => (inspect server raw).map (raw, ·)) _ (messageEnd header_end content_length)
    chunks.flatten [] chunks _ (fun count hcount => ?_) hpos hend rfl ?_
  · rw [inspect_take hblank (by omega), if_neg (by omega)]
    split_ifs with hwaiting
    · rfl
    · have hincomplete : count < wrapSize (header_end + 4 + content_length) := by
        unfold messageEnd at hcount
        omega
      rw [hcontent]
      simp only [frame]
      rw [if_neg (by omega), if_neg (by omega)]
      rfl
  · rw [List.length_nil, hopened]
    rfl

/-- Where the stream ends before the sum, it is handed on as it is. -/
theorem handles_of_ended {header_end content_length : Nat}
    (hblank : find blankLine chunks.flatten = some header_end)
    (hcontent : contentLength 0 (getlines (chunks.flatten.take header_end)) = some content_length)
    (hsmall : wrapSize (header_end + 4 + content_length) ≤ server.max_request_bytes)
    (hshort : chunks.flatten.length < wrapSize (header_end + 4 + content_length)) :
    Handles server chunks chunks.flatten := by
  have hwaiting : ∀ received ≤ chunks.flatten.length, inspect server (chunks.flatten.take received) = none := by
    intro received hreceived
    rw [inspect_take hblank hreceived, if_neg (by omega)]
    split_ifs with hheader
    · rfl
    · rw [hcontent]
      simp only [frame]
      rw [if_neg (by omega), if_neg (by omega)]
  rw [Handles, receive_eq_read]
  rcases @read_cases _ _ (fun raw => (inspect server raw).map (raw, ·)) (fun raw => (raw, none)) [] chunks with
    ⟨count, hdecided⟩ | ⟨hfinish, -⟩
  · -- no front of the stream is decided
    have hfront : (chunks.take count).flatten <+: chunks.flatten :=
      ⟨(chunks.drop count).flatten, by rw [← List.flatten_append, List.take_append_drop]⟩
    rw [List.nil_append, List.prefix_iff_eq_take.mp hfront, hwaiting _ hfront.length_le] at hdecided
    cases hdecided
  · rw [hfinish, List.nil_append]

/-- A message that is handed on although it declares too much has a header block that declares more than
the loop reads. -/
theorem Handles.understates {raw : List UInt8} {total : Nat} (hhandles : Handles server chunks raw)
    (htotal : declaredTotal raw = some total)
    (hbeyond : server.max_request_bytes < total ∨ Opened server raw ∧ raw.length < total) :
    Understates server chunks := by
  cases hblank : find blankLine raw with
  | none =>
    simp only [declaredTotal, hblank] at htotal
    cases htotal
  | some header_end =>
    obtain ⟨rest, hrest⟩ : raw <+: chunks.flatten := by
      obtain ⟨-, count, rfl⟩ | ⟨rfl, -⟩ := hhandles.cases
      · exact ⟨(chunks.drop count).flatten, by rw [← List.flatten_append, List.take_append_drop]⟩
      · exact List.prefix_refl _
    have hopen : ∀ response, inspect server raw ≠ some (some response) := by
      obtain ⟨hinspect, -⟩ | ⟨-, rfl | hinspect⟩ := hhandles.cases
      · rw [hinspect]
        rintro response ⟨⟩
      · cases hblank
      · rw [hinspect]
        rintro response ⟨⟩
    obtain ⟨hroom, content_length, hcontent, hsmall, hopened⟩ := inspect_framed hblank hopen
    obtain ⟨hword, htake, hdeclared⟩ := @declaredTotal_front raw rest _ hblank
    rw [hrest] at hword htake hdeclared
    have harrived := blankLine_arrived hblank
    have hlength : raw.length ≤ chunks.flatten.length := by
      rw [← hrest, List.length_append]
      exact Nat.le_add_right _ _
    have hreached : arrivedWith (messageEnd header_end content_length) 0 chunks ≤ raw.length := by
      obtain ⟨hinspect, count, rfl⟩ | ⟨rfl, -⟩ := hhandles.cases
      · have hend : messageEnd header_end content_length ≤ (chunks.take count).flatten.length :=
          Nat.max_le.mpr ⟨hopened.mp hinspect, harrived⟩
        have hpos : 0 < messageEnd header_end content_length :=
          (Nat.succ_pos _).trans_le (Nat.le_max_right _ (header_end + 4))
        have hfront := arrivedWith_le 0 chunks (by rwa [Nat.zero_add]) hpos
        rwa [Nat.zero_add] at hfront
      · have hinside := arrivedWith_le_length (messageEnd header_end content_length) 0 chunks
        rwa [Nat.zero_add] at hinside
    refine ⟨header_end, content_length, total, hword, by rwa [htake, ← contentLength_spelled],
      by rw [hdeclared, htotal], hsmall,
      hreached.trans hroom, ?_⟩
    obtain hlarge | ⟨hstopped, hmissing⟩ := hbeyond
    · exact .inl hlarge
    · exact .inr ⟨(hopened.mp hstopped).trans hlength, hreached.trans_lt hmissing⟩

/-- The limit is kept unless the header block declares more than the receive loop reads in it. -/
theorem withinLimit_iff (server : HttpServer) (chunks : List (List UInt8)) :
    WithinLimit server chunks ↔ ¬Understates server chunks := by
  constructor
  · rintro hlimit ⟨header_end, content_length, total, hblank, hcontent, hdeclared, hsmall, hroom, hbeyond⟩
    rw [← contentLength_spelled] at hcontent
    by_cases hlength : wrapSize (header_end + 4 + content_length) ≤ chunks.flatten.length
    · obtain ⟨hhandles, hopened⟩ := handles_of_arrived hblank hcontent hsmall hroom hlength
      have harrived := blankLine_arrived hblank
      have hend : messageEnd header_end content_length ≤ 0 + chunks.flatten.length := by
        rw [Nat.zero_add]
        exact Nat.max_le.mpr ⟨hlength, harrived⟩
      have hheader := (Nat.max_le.mp (le_arrivedWith 0 chunks hend)).2
      have hfront : find blankLine (chunks.flatten.take (arrivedWith (messageEnd header_end content_length) 0 chunks)) =
          some header_end := by
        rw [find_take blankLine_ne_nil hblank, if_pos (by rwa [show blankLine.length = 4 by decide +kernel])]
      have htotal := (@declaredTotal_front _
        (chunks.flatten.drop (arrivedWith (messageEnd header_end content_length) 0 chunks)) _ hfront).2.2
      rw [List.take_append_drop, hdeclared] at htotal
      have hwithin := hlimit.limit _ total hhandles htotal.symm
      have hcomplete := hlimit.complete _ total hhandles hopened htotal.symm
      rw [List.length_take] at hcomplete
      omega
    · have hhandles := handles_of_ended hblank hcontent hsmall (Nat.lt_of_not_le hlength)
      have hwithin := hlimit.limit _ total hhandles hdeclared
      omega
  · intro hfits
    constructor
    · intro raw total hhandles hdeclared
      by_contra hlarge
      exact hfits (hhandles.understates hdeclared (.inl (Nat.lt_of_not_le hlarge)))
    · intro raw total hhandles hopened hdeclared
      by_contra hmissing
      exact hfits (hhandles.understates hdeclared (.inr ⟨hopened, Nat.lt_of_not_le hmissing⟩))

end Limit

/-- A message that declares as much as a `size_t` holds. -/
def hugeMessage : List UInt8 := octets "POST /v2 HTTP/1.1\r\nContent-Length: 18446744073709551615\r\n\r\n"

/-- A message whose declared length wraps around is handled, against the limit. -/
theorem hugeMessage_handled : ¬WithinLimit {} [hugeMessage] := by
  intro hlimit
  have hhandles : receive {} [] [hugeMessage] = (hugeMessage, none) := by decide +kernel
  have hkept := hlimit.limit hugeMessage 18446744073709551674 hhandles (by decide +kernel)
  revert hkept
  decide

end neuriplo.http
