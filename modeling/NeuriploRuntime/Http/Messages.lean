import Mathlib.Data.List.TakeDrop
import NeuriploRuntime.Http.Blocks
import NeuriploRuntime.Numeral.Double

open neuriplo.tensor stream

namespace neuriplo.http

/-- A value that can be written behind a header's name. -/
structure Value (value : List UInt8) : Prop where
  carriage : 13 ∉ value
  feed : 10 ∉ value
  trimmed : trim value = value

/-- The name of a header. -/
structure Name (name : List UInt8) : Prop extends Value name where
  colon : 58 ∉ name

theorem blanks : octets " \t\r\n" = [32, 9, 13, 10] := by decide

/-- A leading blank is trimmed. -/
theorem trim_space (value : List UInt8) : trim (32 :: value) = trim value := by
  rw [trim, trim, List.dropWhile_cons_of_pos]
  rw [isBlank, blanks]
  rfl

theorem Value.trim_space {value : List UInt8} (hvalue : Value value) : trim (32 :: value) = value := by
  rw [http.trim_space, hvalue.trimmed]

/-- A word is read up to the blank behind it. -/
theorem nextWord_append {word : List UInt8} (hnonempty : word ≠ []) (hword : ∀ byte ∈ word, isSpace byte = false)
    (rest : List UInt8) : nextWord (word ++ 32 :: rest) = (word, 32 :: rest) := by
  have hstart : (word ++ 32 :: rest).dropWhile isSpace = word ++ 32 :: rest := by
    cases word with
    | nil => exact absurd rfl hnonempty
    | cons first word =>
      rw [List.cons_append, List.dropWhile_cons_of_neg]
      rw [hword first List.mem_cons_self]
      exact Bool.false_ne_true
  have htake : (word ++ 32 :: rest).takeWhile (!isSpace ·) = word := by
    rw [List.takeWhile_append_of_pos (by simpa using hword), List.takeWhile_cons_of_neg (by decide), List.append_nil]
  have hdrop : (word ++ 32 :: rest).dropWhile (!isSpace ·) = 32 :: rest := by
    rw [List.dropWhile_append_of_pos (by simpa using hword), List.dropWhile_cons_of_neg (by decide)]
  rw [nextWord, hstart, List.span_eq_takeWhile_dropWhile, htake, hdrop]

theorem nextWord_space (rest : List UInt8) : nextWord (32 :: rest) = nextWord rest := by
  rw [nextWord, nextWord, List.dropWhile_cons_of_pos (by decide)]

def decimal (number : Nat) : List UInt8 := (Nat.toDigits 10 number).map Char.toUInt8

/-- A decimal is written in digits. -/
theorem decimal_digits (number : Nat) : ∀ byte ∈ decimal number, 48 ≤ byte ∧ byte ≤ 57 := by
  intro byte hbyte
  obtain ⟨symbol, hsymbol, rfl⟩ := List.mem_map.mp hbyte
  apply numeral.toUInt8_digit
  exact Nat.isDigit_of_mem_toDigits (by decide) (by decide) hsymbol

theorem decimal_ne_nil (number : Nat) : decimal number ≠ [] := by
  rw [decimal, ne_eq, List.map_eq_nil_iff]
  exact Nat.toDigits_ne_nil

theorem not_mem_decimal {byte : UInt8} (hbyte : byte < 48 ∨ 57 < byte) (number : Nat) : byte ∉ decimal number := by
  intro hmem
  obtain ⟨hlow, hhigh⟩ := decimal_digits number byte hmem
  rw [UInt8.le_iff_toNat_le] at hlow hhigh
  rw [UInt8.lt_iff_toNat_lt, UInt8.lt_iff_toNat_lt] at hbyte
  omega

theorem toNat_toUInt8 {symbol : Char} (hdigit : symbol.isDigit = true) : symbol.toUInt8.toNat = symbol.toNat := by
  rw [Char.isDigit, Bool.and_eq_true, decide_eq_true_eq, decide_eq_true_eq, ge_iff_le, UInt32.le_iff_toNat_le,
    UInt32.le_iff_toNat_le] at hdigit
  have hhigh : symbol.val.toNat ≤ 57 := hdigit.2
  change symbol.val.toNat % 256 = symbol.val.toNat
  omega

/-- A number reads back from its decimal. -/
theorem decimalValue_decimal (number : Nat) : decimalValue (decimal number) = number := by
  have hfold : ∀ symbols : List Char, (∀ symbol ∈ symbols, symbol.isDigit = true) → ∀ value,
      (symbols.map Char.toUInt8).foldl (fun value digit => value * 10 + (digit.toNat - 48)) value =
        Nat.ofDigitChars 10 symbols value := by
    intro symbols hsymbols
    induction symbols with
    | nil =>
      intro value
      rw [Nat.ofDigitChars_nil]
      rfl
    | cons symbol symbols ih =>
      obtain ⟨hsymbol, hsymbols⟩ := List.forall_mem_cons.mp hsymbols
      intro value
      rw [List.map_cons, List.foldl_cons, ih hsymbols, Nat.ofDigitChars_cons, toNat_toUInt8 hsymbol, Nat.mul_comm]
      rfl
  calc decimalValue (decimal number)
      _ = Nat.ofDigitChars 10 (Nat.toDigits 10 number) 0 :=
        hfold _ (fun _ hsymbol => Nat.isDigit_of_mem_toDigits (by decide) (by decide) hsymbol) 0
      _ = number := Nat.ofDigitChars_ten_toDigits

/-- A text without blanks is not trimmed. -/
theorem trim_of_no_blank {value : List UInt8} (hvalue : ∀ byte ∈ value, isBlank byte = false) : trim value = value := by
  have hstart : value.dropWhile isBlank = value := by
    cases value with
    | nil => rfl
    | cons first value =>
      rw [List.dropWhile_cons_of_neg]
      rw [hvalue first List.mem_cons_self]
      exact Bool.false_ne_true
  rw [trim, hstart, List.rdropWhile_eq_self_iff]
  intro hne
  rw [hvalue _ (List.getLast_mem hne)]
  exact Bool.false_ne_true

/-- A decimal can be written behind a header's name. -/
theorem value_decimal (number : Nat) : Value (decimal number) where
  carriage := not_mem_decimal (.inl (by decide)) number
  feed := not_mem_decimal (.inl (by decide)) number
  trimmed := by
    apply trim_of_no_blank
    intro byte hbyte
    obtain ⟨hlow, -⟩ := decimal_digits number byte hbyte
    rw [UInt8.le_iff_toNat_le] at hlow
    rw [isBlank, blanks, decide_eq_false_iff_not]
    intro hmem
    have hblanks : ([(32 : UInt8), 9, 13, 10].all fun blank => blank.toNat ≤ 32) = true := by decide
    have hsmall := of_decide_eq_true (List.all_eq_true.mp hblanks byte hmem)
    have hlow : 48 ≤ byte.toNat := hlow
    omega

/-- A length that fits a `size_t` reads back. -/
theorem parseContentLength_decimal {number : Nat} (hnumber : number < 2 ^ 64) :
    parseContentLength (32 :: decimal number) = some number := by
  have hdigits : (decimal number).all isDigit = true := by
    rw [List.all_eq_true]
    intro byte hbyte
    obtain ⟨hlow, hhigh⟩ := decimal_digits number byte hbyte
    rw [isDigit, Bool.and_eq_true, decide_eq_true_eq, decide_eq_true_eq]
    exact ⟨hlow, hhigh⟩
  rw [parseContentLength, (value_decimal number).trim_space, decimalValue_decimal]
  exact if_pos ⟨decimal_ne_nil number, hdigits, hnumber⟩

/-- A header as a line. -/
def headerLine (header : List UInt8 × List UInt8) : List UInt8 := header.1 ++ 58 :: 32 :: header.2

/-- Headers that can be written and read back: a line each, under different names. -/
structure Fields (headers : List (List UInt8 × List UInt8)) : Prop where
  name : ∀ header ∈ headers, Name header.1
  value : ∀ header ∈ headers, Value header.2
  distinct : (headers.map (·.1)).Nodup

/-- The two sides of a line's colon. -/
def splitField (line : List UInt8) : Option (List UInt8 × List UInt8) :=
  if 58 ∈ line then some (trim (line.takeWhile (· ≠ 58)), (line.dropWhile (· ≠ 58)).drop 1) else none

theorem popCarriageReturn_end (line : List UInt8) : popCarriageReturn (line ++ [13]) = line := by
  rw [popCarriageReturn, List.getLast?_concat, if_pos rfl, List.dropLast_concat]

theorem popCarriageReturn_line {line : List UInt8} (hline : 13 ∉ line) : popCarriageReturn line = line := by
  rw [popCarriageReturn, if_neg]
  intro hlast
  exact hline (List.mem_of_getLast? hlast)

/-- Ended lines read back as the lines they were. -/
theorem popCarriageReturn_endLines {lines : List (List UInt8)} (hlines : ∀ line ∈ lines, Line line) :
    (endLines lines).map popCarriageReturn = lines := by
  induction lines with
  | nil => rfl
  | cons line lines ih =>
    obtain ⟨hline, hlines⟩ := List.forall_mem_cons.mp hlines
    cases lines with
    | nil => rw [endLines, List.map_singleton, popCarriageReturn_line hline.carriage]
    | cons next lines => rw [endLines, List.map_cons, popCarriageReturn_end, ih hlines]

/-- The fields of the lines that `getline` gives are those of the lines. -/
theorem headerFields_endLines {lines : List (List UInt8)} (hlines : ∀ line ∈ lines, Line line) :
    (endLines lines).filterMap headerField = lines.filterMap splitField := by
  conv_rhs => rw [← popCarriageReturn_endLines hlines]
  rw [List.filterMap_map]
  rfl

/-- The line of a header is split at its colon. -/
theorem splitField_headerLine {header : List UInt8 × List UInt8} (hname : Name header.1) :
    splitField (headerLine header) = some (header.1, 32 :: header.2) := by
  have hcolon : ∀ byte ∈ header.1, decide (byte ≠ 58) = true := by
    intro byte hbyte
    rw [decide_eq_true_eq]
    rintro rfl
    exact hname.colon hbyte
  rw [splitField, headerLine, if_pos (List.mem_append_right _ List.mem_cons_self),
    List.takeWhile_append_of_pos hcolon, List.dropWhile_append_of_pos hcolon,
    List.takeWhile_cons_of_neg (by decide), List.dropWhile_cons_of_neg (by decide), List.append_nil, hname.trimmed]
  rfl

/-- Header lines are split back into the headers. -/
theorem splitField_headerLines {headers : List (List UInt8 × List UInt8)} (hnames : ∀ header ∈ headers, Name header.1) :
    (headers.map headerLine).filterMap splitField = headers.map fun header => (header.1, 32 :: header.2) := by
  induction headers with
  | nil => rfl
  | cons header headers ih =>
    obtain ⟨hname, hnames⟩ := List.forall_mem_cons.mp hnames
    rw [List.map_cons, List.filterMap_cons_some (splitField_headerLine hname), ih hnames, List.map_cons]

/-- A header makes one line. -/
theorem line_headerLine {header : List UInt8 × List UInt8} (hname : Value header.1) (hvalue : Value header.2) :
    Line (headerLine header) where
  nonempty := List.append_ne_nil_of_right_ne_nil _ (List.cons_ne_nil 58 _)
  carriage := by
    rw [headerLine, List.mem_append, not_or]
    exact ⟨hname.carriage, by simpa using hvalue.carriage⟩
  feed := by
    rw [headerLine, List.mem_append, not_or]
    exact ⟨hname.feed, by simpa using hvalue.feed⟩

theorem Fields.lines {headers : List (List UInt8 × List UInt8)} (hheaders : Fields headers) :
    ∀ line ∈ headers.map headerLine, Line line := by
  intro line hline
  obtain ⟨header, hheader, rfl⟩ := List.mem_map.mp hline
  exact line_headerLine (hheaders.name header hheader).toValue (hheaders.value header hheader)

/-- Of headers under one name the last is kept. -/
theorem parseHeaders_eq (lines : List (List UInt8)) :
    parseHeaders lines = (lines.filterMap headerField).foldl
      (fun headers header => setHeader headers header.1 (trim header.2)) [] := by
  unfold parseHeaders
  generalize ([] : List (List UInt8 × List UInt8)) = headers
  induction lines generalizing headers with
  | nil => rfl
  | cons line lines ih =>
    rw [List.foldl_cons]
    cases hfield : headerField line with
    | none => rw [List.filterMap_cons_none hfield, ih]
    | some header => rw [List.filterMap_cons_some hfield, List.foldl_cons, ih]

/-- Headers under different names are kept as they come. -/
theorem foldl_setHeader {headers : List (List UInt8 × List UInt8)} (hheaders : Fields headers)
    (seen : List (List UInt8 × List UInt8)) (hseen : ∀ header ∈ headers, header.1 ∉ seen.map (·.1)) :
    (headers.map fun header => (header.1, 32 :: header.2)).foldl
      (fun headers header => setHeader headers header.1 (trim header.2)) seen = seen ++ headers := by
  induction headers generalizing seen with
  | nil => exact (List.append_nil seen).symm
  | cons header headers ih =>
    obtain ⟨-, hnames⟩ := List.forall_mem_cons.mp hheaders.name
    obtain ⟨hvalue, hvalues⟩ := List.forall_mem_cons.mp hheaders.value
    obtain ⟨hnew, hseen⟩ := List.forall_mem_cons.mp hseen
    have hdistinct := hheaders.distinct
    rw [List.map_cons, List.nodup_cons] at hdistinct
    have hset : setHeader seen header.1 (trim (32 :: header.2)) = seen ++ [header] := by
      rw [setHeader, hvalue.trim_space, List.filter_eq_self.mpr]
      intro other hother
      rw [decide_eq_true_eq]
      intro hname
      exact hnew (hname ▸ List.mem_map_of_mem hother)
    rw [List.map_cons, List.foldl_cons, hset, ih ⟨hnames, hvalues, hdistinct.2⟩, List.append_assoc]
    · rfl
    · intro other hother
      rw [List.map_append, List.mem_append, not_or]
      refine ⟨hseen other hother, ?_⟩
      rw [List.map_singleton, List.mem_singleton]
      intro hname
      exact hdistinct.1 (hname ▸ List.mem_map_of_mem hother)

/-- Headers read back from their lines. -/
theorem parseHeaders_endLines {headers : List (List UInt8 × List UInt8)} (hheaders : Fields headers) :
    parseHeaders (endLines (headers.map headerLine)) = headers := by
  rw [parseHeaders_eq, headerFields_endLines hheaders.lines, splitField_headerLines hheaders.name,
    foldl_setHeader hheaders [] (by simp), List.nil_append]

/-- A word of a request line. -/
structure Word (word : List UInt8) : Prop where
  nonempty : word ≠ []
  spaces : ∀ byte ∈ word, isSpace byte = false

/-- A text without blanks is a word. -/
theorem word_of_all {word : List UInt8} (hnonempty : word ≠ [])
    (hspaces : (word.all fun byte => !isSpace byte) = true) : Word word where
  nonempty := hnonempty
  spaces byte hbyte := by simpa using List.all_eq_true.mp hspaces byte hbyte

/-- A request as a client writes it. -/
structure HttpRequest.Legible (request : HttpRequest) : Prop where
  method : Word request.method
  path : Word request.path
  token : 58 ∉ request.method
  absolute : request.path.head? = some 47
  headers : Fields request.headers

/-- The length of the body is declared, unless there is none. -/
structure HttpRequest.Declares (request : HttpRequest) : Prop where
  length : ∀ header ∈ request.headers, header.1 = octets "Content-Length" → header.2 = decimal request.body.length
  body : request.body ≠ [] → ∃ header ∈ request.headers, header.1 = octets "Content-Length"

def protocol : List UInt8 := octets "HTTP/1.1"

def requestLine (request : HttpRequest) : List UInt8 := request.method ++ 32 :: (request.path ++ 32 :: protocol)

def requestLines (request : HttpRequest) : List (List UInt8) :=
  requestLine request :: request.headers.map headerLine

def renderRequest (request : HttpRequest) : List UInt8 :=
  joinLines (requestLines request) ++ (blankLine ++ request.body)

theorem protocol_eq : protocol = [72, 84, 84, 80, 47, 49, 46, 49] := by decide

theorem Word.carriage {word : List UInt8} (hword : Word word) : 13 ∉ word := by
  intro hmem
  have hspace := hword.spaces 13 hmem
  revert hspace
  decide

theorem Word.feed {word : List UInt8} (hword : Word word) : 10 ∉ word := by
  intro hmem
  have hspace := hword.spaces 10 hmem
  revert hspace
  decide

section Request

variable {request : HttpRequest}

/-- What occurs in a request line. -/
theorem not_mem_requestLine {byte : UInt8} (hmethod : byte ∉ request.method)
    (hpath : byte ∉ request.path) (hspace : byte ≠ 32) (hprotocol : byte ∉ protocol) : byte ∉ requestLine request := by
  rw [requestLine, List.mem_append, List.mem_cons, List.mem_append, List.mem_cons]
  simp only [not_or]
  exact ⟨hmethod, hspace, hpath, hspace, hprotocol⟩

/-- A legible request is made of lines. -/
theorem HttpRequest.Legible.lines (hrequest : request.Legible) : ∀ line ∈ requestLines request, Line line := by
  rw [requestLines, List.forall_mem_cons]
  refine ⟨⟨?_, ?_, ?_⟩, hrequest.headers.lines⟩
  · exact List.append_ne_nil_of_right_ne_nil _ (List.cons_ne_nil 32 _)
  · exact not_mem_requestLine hrequest.method.carriage hrequest.path.carriage (by decide)
      (by rw [protocol_eq]; decide)
  · exact not_mem_requestLine hrequest.method.feed hrequest.path.feed (by decide) (by rw [protocol_eq]; decide)

/-- The method and the path of a legible request read back. -/
theorem HttpRequest.Legible.parseRequestLine (hrequest : request.Legible) {line : List UInt8}
    (hline : popCarriageReturn line = requestLine request) :
    parseRequestLine line = (request.method, request.path) := by
  rw [http.parseRequestLine, hline, requestLine, nextWord_append hrequest.method.nonempty hrequest.method.spaces]
  simp only
  rw [nextWord_space, nextWord_append hrequest.path.nonempty hrequest.path.spaces]

/-- The header block of a request is found, and its body is behind it. -/
theorem HttpRequest.Legible.blankLine (hrequest : request.Legible) :
    find blankLine (renderRequest request) = some (joinLines (requestLines request)).length ∧
      (renderRequest request).take (joinLines (requestLines request)).length = joinLines (requestLines request) ∧
      (renderRequest request).length = (joinLines (requestLines request)).length + 4 + request.body.length := by
  refine ⟨find_blankLine hrequest.lines request.body, List.take_left, ?_⟩
  rw [renderRequest, List.length_append, List.length_append, blankLine_eq]
  simp only [List.length_cons, List.length_nil]
  omega

/-- The first line of a request says what it asks, and the others are its
headers. -/
theorem endLines_requestLines (hrequest : request.Legible) :
    ∃ line lines, endLines (requestLines request) = line :: lines ∧ popCarriageReturn line = requestLine request ∧
      lines = endLines (request.headers.map headerLine) := by
  rw [requestLines]
  cases hheaders : request.headers.map headerLine with
  | nil => exact ⟨_, [], rfl, popCarriageReturn_line (hrequest.lines _ List.mem_cons_self).carriage, rfl⟩
  | cons next lines => exact ⟨_, _, rfl, popCarriageReturn_end _, rfl⟩

/-- What a client writes is parsed as it was meant. -/
theorem parseRequest_renderRequest (hrequest : request.Legible) : parseRequest (renderRequest request) = request := by
  obtain ⟨hblank, htake, -⟩ := hrequest.blankLine
  obtain ⟨line, lines, hlines, hline, hheaders⟩ := endLines_requestLines hrequest
  have hdrop : (renderRequest request).drop ((joinLines (requestLines request)).length + 4) = request.body := by
    have hsize : http.blankLine.length = 4 := by decide
    rw [renderRequest, ← List.append_assoc, ← hsize, ← List.length_append, List.drop_left]
  unfold parseRequest
  simp only [hblank, Option.getD_some, htake, getlines_joinLines hrequest.lines, hlines,
    hrequest.parseRequestLine hline, hheaders, parseHeaders_endLines hrequest.headers, hdrop]

/-- Trimming stops at what is not blank. -/
theorem mem_rdropWhile {value front back : List UInt8} {first last : UInt8}
    (hvalue : value = front ++ first :: last :: back) (hlast : isBlank last = false) : first ∈ value.rdropWhile isBlank := by
  have hkept : ((last :: back).reverse.dropWhile isBlank).isEmpty = false := by
    rw [List.isEmpty_eq_false_iff, ne_eq, List.dropWhile_eq_nil_iff]
    intro hall
    have hblank := hall last (List.mem_reverse.mpr List.mem_cons_self)
    rw [hlast] at hblank
    cases hblank
  have hreverse : value.reverse = (last :: back).reverse ++ (front ++ [first]).reverse := by
    rw [hvalue, ← List.reverse_append, List.append_assoc]
    rfl
  rw [List.rdropWhile, List.mem_reverse, hreverse, List.dropWhile_append, hkept, if_neg Bool.false_ne_true]
  apply List.mem_append_right
  rw [List.mem_reverse]
  exact List.mem_append_right front (List.mem_singleton.mpr rfl)

/-- What is no space is not trimmed. -/
theorem isBlank_of_isSpace {byte : UInt8} (hspace : isSpace byte = false) : isBlank byte = false := by
  rw [isBlank, blanks, decide_eq_false_iff_not]
  intro hmem
  have hblanks : [(32 : UInt8), 9, 13, 10].all isSpace = true := by decide
  rw [List.all_eq_true.mp hblanks byte hmem] at hspace
  cases hspace

/-- The loop over the header block also looks at the request line, whose name has a blank within it. -/
theorem HttpRequest.Legible.requestLine_name (hrequest : request.Legible) {header : List UInt8 × List UInt8}
    (hfield : splitField (requestLine request) = some header) : header.1 ≠ octets "Content-Length" := by
  obtain ⟨first, method, hmethod⟩ := List.exists_cons_of_ne_nil hrequest.method.nonempty
  obtain ⟨path, hpath⟩ : ∃ path, request.path = 47 :: path := List.head?_eq_some_iff.mp hrequest.absolute
  have htoken : ∀ byte ∈ request.method, decide (byte ≠ 58) = true := by
    intro byte hbyte
    rw [decide_eq_true_eq]
    rintro rfl
    exact hrequest.token hbyte
  have htake : (requestLine request).takeWhile (· ≠ 58) =
      request.method ++ 32 :: 47 :: (path ++ 32 :: protocol).takeWhile (· ≠ 58) := by
    rw [requestLine, List.takeWhile_append_of_pos htoken, hpath, List.cons_append,
      List.takeWhile_cons_of_pos (by decide), List.takeWhile_cons_of_pos (by decide)]
  have hname : header.1 = trim ((requestLine request).takeWhile (· ≠ 58)) := by
    rw [splitField] at hfield
    split_ifs at hfield
    cases hfield
    rfl
  have hfirst : isBlank first = false :=
    isBlank_of_isSpace (hrequest.method.spaces first (hmethod ▸ List.mem_cons_self))
  have hblank : 32 ∈ header.1 := by
    rw [hname, htake, trim, hmethod, List.cons_append, List.dropWhile_cons_of_neg (by rw [hfirst]; decide)]
    refine @mem_rdropWhile _ (first :: method) _ 32 47 rfl ?_
    rw [isBlank, blanks]
    rfl
  intro hequal
  rw [hequal] at hblank
  revert hblank
  decide

/-- The receive loop finds the length that is declared. -/
theorem HttpRequest.Legible.contentLength (hrequest : request.Legible) (hdeclares : request.Declares)
    (hsize : request.body.length < 2 ^ 64) :
    contentLength 0 (endLines (requestLines request)) = some request.body.length := by
  have hlengths : contentLengths (endLines (requestLines request)) =
      ((request.headers.filter fun header => header.1 = octets "Content-Length").map fun header => 32 :: header.2) := by
    rw [contentLengths, headerFields_endLines hrequest.lines, requestLines]
    have hheaders := splitField_headerLines hrequest.headers.name
    have hrest : (((request.headers.map headerLine).filterMap splitField).filter fun header =>
        header.1 = octets "Content-Length").map (·.2) =
          (request.headers.filter fun header => header.1 = octets "Content-Length").map fun header => 32 :: header.2 := by
      rw [hheaders, List.filter_map, List.map_map]
      rfl
    cases hfield : splitField (requestLine request) with
    | none => rw [List.filterMap_cons_none hfield, hrest]
    | some header =>
      rw [List.filterMap_cons_some hfield, List.filter_cons_of_neg, hrest]
      rw [decide_eq_true_eq]
      exact hrequest.requestLine_name hfield
  have hvalues : ∀ value ∈ contentLengths (endLines (requestLines request)),
      parseContentLength value = some request.body.length := by
    rw [hlengths, List.forall_mem_map]
    intro header hheader
    obtain ⟨hmem, hname⟩ := List.mem_filter.mp hheader
    rw [hdeclares.length header hmem (of_decide_eq_true hname), parseContentLength_decimal hsize]
  rw [contentLength_eq, if_pos fun value hvalue => by rw [hvalues value hvalue]; rfl]
  cases hlast : (contentLengths (endLines (requestLines request))).getLast? with
  | some value => rw [Option.bind_some, hvalues value (List.mem_of_getLast? hlast), Option.getD_some]
  | none =>
    have hnone : request.body = [] := by
      by_contra hbody
      obtain ⟨header, hheader, hname⟩ := hdeclares.body hbody
      rw [List.getLast?_eq_none_iff, hlengths, List.map_eq_nil_iff, List.filter_eq_nil_iff] at hlast
      exact hlast header hheader (decide_eq_true hname)
    rw [hnone]
    rfl

/-- However it is cut, a request that declares its length is handed on as it was written, up to the
limit. -/
theorem handleClient_renderRequest (server : HttpServer) (hrequest : request.Legible) (hdeclares : request.Declares)
    (hsize : (renderRequest request).length < 2 ^ 64) {chunks : List (List UInt8)}
    (hchunks : chunks.flatten = renderRequest request) :
    handleClient server chunks =
      if (renderRequest request).length ≤ server.max_request_bytes then .handled request
      else .early payloadTooLarge := by
  obtain ⟨hblank, htake, hlength⟩ := hrequest.blankLine
  have hcontent : http.contentLength 0
      (getlines ((renderRequest request).take (joinLines (requestLines request)).length)) =
        some request.body.length := by
    rw [htake, getlines_joinLines hrequest.lines]
    exact hrequest.contentLength hdeclares (by omega)
  have hwrap : wrapSize ((joinLines (requestLines request)).length + 4 + request.body.length) =
      (renderRequest request).length := by
    rw [← hlength, wrapSize, Nat.mod_eq_of_lt hsize]
  split_ifs with hlimit
  · rw [handled_of_nothing_behind hblank hcontent (by omega) (by omega) _ hchunks,
      parseRequest_renderRequest hrequest]
    rw [messageEnd, hwrap]
    exact Nat.le_max_left _ _
  · exact early_of_large_message hblank hcontent (by omega) hchunks

end Request

end neuriplo.http
