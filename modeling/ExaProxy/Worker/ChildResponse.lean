import ExaProxy.Client.HttpReader
import ExaProxy.Icap.Response

namespace ExaProxy.Worker

open Data Icap

/-! How `ICAPRedirector` reads the answers of its child.  The standard output of the child
is a text that is read from its start; a read waits at the end of it, but for one that asks
for more than `largest` bytes: such a size does not fit a C long (or the memory, which is not
told apart), and raises.  No output is as long as that. -/

inductive Stopped where
  | raised (raised : Raised)
  | waiting
deriving DecidableEq

/-- `stdout.readline()`, with what is left after the line. -/
def readline (stdout : Str) : Str × Str :=
  (stdout.takeWhile (· ≠ 10) ++ (stdout.dropWhile (· ≠ 10)).take 1, (stdout.dropWhile (· ≠ 10)).drop 1)

/-- The value of digits that a `0x` may stand before. -/
def hexUnsigned (s : Str) : Option Nat :=
  let digits :=
    match s.dropWhile Str.isSpace with
    | 48 :: 120 :: digits => digits
    | 48 :: 88 :: digits => digits
    | digits => digits
  if Client.ishex digits then some (Client.hexValue digits) else none

/-- `int(s, 16)`, with `none` where it raises a `ValueError`. -/
def hexInt (s : Str) : Option Int :=
  match Str.strip s with
  | 43 :: s => (hexUnsigned s).map Int.ofNat
  | 45 :: s => (hexUnsigned s).map (-·)
  | s => (hexUnsigned s).map Int.ofNat

theorem readline_append (stdout : Str) : (readline stdout).1 ++ (readline stdout).2 = stdout := by
  rw [readline, List.append_assoc, List.take_append_drop]
  exact List.takeWhile_append_dropWhile

theorem readline_length (stdout : Str) : (readline stdout).2.length ≤ stdout.length := by
  have whole := congrArg List.length (readline_append stdout)
  rw [List.length_append] at whole
  omega

theorem readline_shorter {stdout : Str} (filled : (readline stdout).1 ≠ []) :
    (readline stdout).2.length < stdout.length := by
  have whole := congrArg List.length (readline_append stdout)
  have positive := List.length_pos_of_ne_nil filled
  rw [List.length_append] at whole
  omega

/-- The lines up to one that is blank, with `none` where the output ends before. -/
def readHeader (headerString stdout : Str) : Option Str × Str :=
  if _read : (readline stdout).1 = [] then (none, (readline stdout).2)
  else
    let headerString := headerString ++ (readline stdout).1
    if (readline stdout).1.rdropWhile Str.isSpace = [] then (some headerString, (readline stdout).2)
    else readHeader headerString (readline stdout).2
termination_by stdout.length
decreasing_by exact readline_shorter _read

/-- The line with the size of the next chunk; behind a chunk the rest of its line is ignored. -/
def readSize (chunked : Bool) (stdout : Str) : Str × Str :=
  readline (if chunked then (readline stdout).2 else stdout)

theorem readSize_length (chunked : Bool) (stdout : Str) : (readSize chunked stdout).2.length ≤ stdout.length := by
  cases chunked with
  | false => exact readline_length stdout
  | true => exact (readline_length (readline stdout).2).trans (readline_length stdout)

/-- `while bytes_to_read > 0`, with the number of bytes that it ends with. -/
def readBody (largest : Nat) (bodyComplete chunked : Bool) (bytesToRead : Int) (contentS stdout : Str) :
    Except Stopped (Int × Str × Str) :=
  if _more : bytesToRead > 0 then
    if _enough : bytesToRead.toNat ≤ stdout.length then
      let content := contentS ++ stdout.take bytesToRead.toNat
      let left := stdout.drop bytesToRead.toNat
      if bodyComplete then .ok (0, content, left)
      else
        match hexInt (readSize chunked left).1 with
        | none => .error (.raised .valueError)
        | some size => readBody largest bodyComplete true size content (readSize chunked left).2
    else if bytesToRead > largest then .error (.raised .overflowError)
    else .error .waiting
  else .ok (bytesToRead, contentS, stdout)
termination_by stdout.length
decreasing_by
  have left := readSize_length chunked (stdout.drop bytesToRead.toNat)
  rw [List.length_drop] at left
  omega

/-- `readChildResponse`, with what was written to the standard error. -/
def readChildResponse (largest : Nat) (childStderr stdout : Str) : Except Stopped (Option Response × Str) := do
  let (line, stdout) := readline stdout
  match readHeader line stdout with
  | (none, _) => .error (.raised .attributeError)
  | (some headerString, stdout) =>
      let header ← (parseResponseHeader headerString).mapError .raised
      let (bytesToRead, contentS, stdout) ←
        readBody largest header.bodyComplete false header.contentLength [] stdout
      if bytesToRead ≠ 0 ∨ header.info = none ∨ childStderr ≠ [] then return (none, stdout)
      else return (some (continueResponse header contentS), stdout)

variable {line rest content counted : Str}

theorem readline_line (single : 10 ∉ line) (ending : Ending) :
    readline (line ++ ending.bytes ++ rest) = (line ++ ending.bytes, rest) := by
  have lf : ∀ {text : Str}, 10 ∉ text → readline (text ++ 10 :: rest) = (text ++ [10], rest) := by
    intro text single
    have before : ∀ byte ∈ text, decide (byte ≠ 10) = true := fun byte member =>
      decide_eq_true fun same => single (same ▸ member)
    simp only [readline, List.takeWhile_append_of_pos before, List.dropWhile_append_of_pos before]
    simp
  cases ending with
  | lf => simpa [Ending.bytes] using lf single
  | crlf =>
      have ended : readline (line ++ [13] ++ 10 :: rest) = (line ++ [13] ++ [10], rest) :=
        lf (by simp [single])
      simpa only [Ending.bytes, List.append_assoc, List.cons_append, List.nil_append] using ended

theorem readline_ending (ending : Ending) : readline (ending.bytes ++ rest) = (ending.bytes, rest) := by
  cases ending <;> rfl

/-- A chunk, with the text of its size. -/
structure SentChunk where
  size : Str
  data : Str
  sizeEnding : Ending
  dataEnding : Ending
  hex : Client.ishex size = true
  announced : Client.hexValue size = data.length
  filled : data ≠ []

def SentChunk.bytes (chunk : SentChunk) : Str :=
  chunk.size ++ chunk.sizeEnding.bytes ++ (chunk.data ++ chunk.dataEnding.bytes)

theorem hex_not_space {byte : UInt8} (digit : Client.isHexDigit byte = true) :
    Str.isSpace byte = false ∧ byte ≠ 10 ∧ byte ≠ 43 ∧ byte ≠ 45 ∧ byte ≠ 120 ∧ byte ≠ 88 := by
  simp only [Client.isHexDigit, decide_eq_true_eq] at digit
  simp only [Str.isSpace, decide_eq_false_iff_not]
  grind

theorem hex_digits (hex : Client.ishex line = true) : line ≠ [] ∧ ∀ byte ∈ line, Client.isHexDigit byte = true := by
  simpa [Client.ishex] using hex

theorem ending_spaces (ending : Ending) : ∀ byte ∈ ending.bytes, Str.isSpace byte = true := by
  cases ending <;> decide +kernel

theorem hexUnsigned_digits (hex : Client.ishex line = true) : hexUnsigned line = some (Client.hexValue line) := by
  obtain ⟨filled, digits⟩ := hex_digits hex
  have kept : line.dropWhile Str.isSpace = line := by
    cases line with
    | nil => rfl
    | cons byte rest =>
        exact List.dropWhile_cons_of_neg (by simp [hex_not_space (digits byte List.mem_cons_self)])
  rw [hexUnsigned, kept]
  split
  · exact absurd rfl (hex_not_space (digits 120 (by simp))).2.2.2.2.1
  · exact absurd rfl (hex_not_space (digits 88 (by simp))).2.2.2.2.2
  · exact if_pos hex

theorem hexInt_line (hex : Client.ishex line = true) (ending : Ending) :
    hexInt (line ++ ending.bytes) = some (Client.hexValue line : Int) := by
  obtain ⟨filled, digits⟩ := hex_digits hex
  have kept : Str.stripOf Str.isSpace line = line :=
    Str.stripOf_eq_self fun byte member => (hex_not_space (digits byte member)).1
  have stripped := Str.stripOf_append (ending_spaces ending) line
  rw [kept] at stripped
  rw [hexInt, Str.strip, stripped]
  split
  · exact absurd rfl (hex_not_space (digits 43 List.mem_cons_self)).2.2.1
  · exact absurd rfl (hex_not_space (digits 45 List.mem_cons_self)).2.2.2.1
  · rw [hexUnsigned_digits hex]
    rfl

theorem readSize_line (single : 10 ∉ line) (chunked : Bool) (ending sizeEnding : Ending) :
    readSize chunked ((if chunked then ending.bytes else []) ++ (line ++ sizeEnding.bytes ++ rest)) =
      (line ++ sizeEnding.bytes, rest) := by
  cases chunked with
  | false => exact readline_line single sizeEnding
  | true =>
      rw [readSize, if_pos rfl, if_pos rfl]
      rw [readline_ending]
      exact readline_line single sizeEnding

theorem readBody_counted (largest : Nat) (bodyComplete chunked : Bool) (content rest : Str) (filled : counted ≠ []) :
    readBody largest bodyComplete chunked counted.length content (counted ++ rest) =
      if bodyComplete then .ok (0, content ++ counted, rest)
      else
        match hexInt (readSize chunked rest).1 with
        | none => .error (.raised .valueError)
        | some size => readBody largest bodyComplete true size (content ++ counted) (readSize chunked rest).2 := by
  have positive : (counted.length : Int) > 0 := by
    have := List.length_pos_of_ne_nil filled
    omega
  rw [readBody, dif_pos positive, dif_pos (by simp)]
  simp

/-- The rest of a body, from a counted read on, is its chunks up to a line with a zero. -/
theorem readBody_chunks (largest : Nat) (content rest : Str) (chunks : List SentChunk) (chunked : Bool)
    (ending last : Ending) (filled : counted ≠ []) :
    readBody largest false chunked counted.length content
        (counted ++ ((if chunked then ending.bytes else []) ++
          (chunks.flatMap SentChunk.bytes ++ (ascii "0" ++ last.bytes ++ rest)))) =
      .ok (0, content ++ counted ++ chunks.flatMap SentChunk.data, rest) := by
  induction chunks generalizing content counted chunked ending with
  | nil =>
      rw [List.flatMap_nil, List.nil_append, readBody_counted largest false chunked _ _ filled, if_neg (by decide),
        readSize_line (by decide), hexInt_line (by decide)]
      have zero : Client.hexValue (ascii "0") = 0 := by decide
      simp only [zero]
      rw [readBody, dif_neg (by decide)]
      simp
  | cons chunk chunks ih =>
      obtain ⟨size, chunkData, sizeEnding, dataEnding, hex, announced, chunkFilled⟩ := chunk
      have single : 10 ∉ size := fun member => (hex_not_space ((hex_digits hex).2 10 member)).2.1 rfl
      have whole : (SentChunk.bytes ⟨size, chunkData, sizeEnding, dataEnding, hex, announced, chunkFilled⟩ ++
          chunks.flatMap SentChunk.bytes) ++ (ascii "0" ++ last.bytes ++ rest) =
          size ++ sizeEnding.bytes ++ (chunkData ++ (dataEnding.bytes ++
            (chunks.flatMap SentChunk.bytes ++ (ascii "0" ++ last.bytes ++ rest)))) := by
        simp only [SentChunk.bytes, List.append_assoc]
      have next : readBody largest false true chunkData.length (content ++ counted) (chunkData ++ (dataEnding.bytes ++
          (chunks.flatMap SentChunk.bytes ++ (ascii "0" ++ last.bytes ++ rest)))) =
          .ok (0, content ++ counted ++ chunkData ++ chunks.flatMap SentChunk.data, rest) :=
        ih _ true dataEnding chunkFilled
      rw [List.flatMap_cons, whole, readBody_counted largest false chunked _ _ filled, if_neg (by decide),
        readSize_line single, hexInt_line hex, announced]
      simp only
      rw [next]
      simp only [List.flatMap_cons, List.append_assoc]

theorem readHeader_lines (lines : List HeaderLine) (blank : Ending) :
    readHeader content (lines.flatMap (·.bytes) ++ (blank.bytes ++ rest)) =
      (some (content ++ lines.flatMap (·.bytes) ++ blank.bytes), rest) := by
  induction lines generalizing content with
  | nil =>
      have filled : blank.bytes ≠ [] := by cases blank <;> decide
      have spaces : blank.bytes.rdropWhile Str.isSpace = [] :=
        List.rdropWhile_eq_nil_iff.mpr (ending_spaces blank)
      rw [List.flatMap_nil, List.nil_append, readHeader, readline_ending, dif_neg filled, if_pos spaces, List.append_nil]
  | cons line lines ih =>
      have whole : (line :: lines).flatMap (·.bytes) ++ (blank.bytes ++ rest) =
          line.text ++ line.ending.bytes ++ (lines.flatMap (·.bytes) ++ (blank.bytes ++ rest)) := by
        simp [Line.bytes]
      have colon : 58 ∈ line.text ++ line.ending.bytes := List.mem_append_left _ line.colon
      have filled : line.text ++ line.ending.bytes ≠ [] := List.ne_nil_of_mem colon
      have visible : (line.text ++ line.ending.bytes).rdropWhile Str.isSpace ≠ [] := by
        intro blank
        exact absurd (List.rdropWhile_eq_nil_iff.mp blank 58 colon) (by decide)
      rw [whole, readHeader, readline_line line.single, dif_neg filled, if_neg visible, ih]
      simp [Line.bytes]

/-- The header of a HTTP message that is encapsulated. -/
structure HttpHeader where
  bytes : Str
  filled : bytes ≠ []
  plain : ¬ ascii "CONNECT" <+: bytes

/-- What an answer encapsulates. -/
inductive Parts where
  | none
  | null (encapsulated : Encapsulated) (header : HttpHeader)
  | body (encapsulated : Encapsulated) (header : HttpHeader) (chunks : List SentChunk) (last : Ending)

namespace Parts

def bytes : Parts → Str
  | none => []
  | null _ header => header.bytes
  | body _ header chunks last => header.bytes ++ (chunks.flatMap SentChunk.bytes ++ (ascii "0" ++ last.bytes))

def header : Parts → Str
  | none => []
  | null _ header => header.bytes
  | body _ header _ _ => header.bytes

/-- The data of the chunks. -/
def data : Parts → Str
  | body _ _ chunks _ => chunks.flatMap SentChunk.data
  | _ => []

/-- What the line says that tells of the parts. -/
def Announced : Parts → Str → Prop
  | none, value => ∀ part ∈ value.splitOn 44, ∀ name digits, 61 ∉ name →
      Str.strip part = name ++ 61 :: digits → Str.isdigit digits = false
  | null encapsulated header, value => value =
      encapsulated.hdr ++ ascii "=0, " ++ ascii "null-body" ++ ascii "=" ++ Str.decimal header.bytes.length
  | body encapsulated header _ _, value => value =
      encapsulated.hdr ++ ascii "=0, " ++ encapsulated.body ++ ascii "=" ++ Str.decimal header.bytes.length

end Parts

/-- An answer of a server, with its bytes. -/
structure SentResponse where
  code : Str
  status : Str
  statusLine : Line
  headers : List HeaderLine
  encapsulated : HeaderLine
  others : List HeaderLine
  blank : Ending
  parts : Parts
  numeric : Str.isdigit code = true
  stated : statusLine.text = ascii "ICAP/1.0 " ++ code ++ ascii " " ++ status
  named : encapsulated.key = ascii "encapsulated"
  keys : ∀ line ∈ headers ++ others, line.key ≠ ascii "encapsulated"
  announced : parts.Announced encapsulated.value

namespace SentResponse

variable (sent : SentResponse)

def headerLines : List HeaderLine := sent.headers ++ sent.encapsulated :: sent.others

/-- The header, up to the empty line. -/
def headerBytes : Str :=
  sent.statusLine.bytes ++ sent.headerLines.flatMap (·.bytes) ++ sent.blank.bytes

def bytes : Str := sent.headerBytes ++ sent.parts.bytes

theorem parseResponseLine_eq : parseResponseLine sent.statusLine.text =
    some (ascii "ICAP/1.0", Str.digitsValue sent.code, sent.status) := by
  have spaceless : 32 ∉ sent.code := fun member =>
    absurd ((Str.isdigit_iff.mp sent.numeric).2 32 member) (by decide)
  have line : sent.statusLine.text = ascii "ICAP/1.0" ++ 32 :: (sent.code ++ 32 :: sent.status) := by
    rw [sent.stated]
    simp only [List.append_assoc]
    rfl
  have first : Str.splitOnce (ascii " ") (ascii "ICAP/1.0" ++ 32 :: (sent.code ++ 32 :: sent.status)) =
      some (ascii "ICAP/1.0", sent.code ++ 32 :: sent.status) := Str.splitOnce_append (by decide)
  have second : Str.splitOnce (ascii " ") (sent.code ++ 32 :: sent.status) = some (sent.code, sent.status) :=
    Str.splitOnce_append spaceless
  rw [parseResponseLine, line, Str.splitUpTo, first]
  simp only [Str.splitUpTo, second]
  exact if_pos sent.numeric

theorem linesOf_header : linesOf sent.headerBytes =
    sent.statusLine.text :: (sent.headerLines.map (·.text) ++ [] :: [[]]) := by
  have blank : linesOf sent.blank.bytes = [] :: [[]] := by
    cases sent.blank <;> decide
  have lines := linesOf_lines (sent.headerLines.map (·.toLine)) sent.blank.bytes
  rw [List.flatMap_map, List.map_map, blank] at lines
  rw [headerBytes, List.append_assoc, linesOf_line]
  exact congrArg _ lines

theorem get_server (headers : Headers) (text : Str) :
    Headers.get { headers with fields := headers.fields.insert (ascii "server") text } (ascii "encapsulated") =
      headers.get (ascii "encapsulated") := by
  simp only [Headers.get, AList.lookup_insert_ne (show ascii "encapsulated" ≠ ascii "server" by decide)]

theorem parseHeader : ∃ header, parseResponseHeader sent.headerBytes = .ok header ∧
    header.info = some (ascii "ICAP/1.0", Str.digitsValue sent.code, sent.status) ∧
    header.offsets = getOffsets sent.encapsulated.value ∧
    (header.contentLength, header.bodyComplete) = getBodyLength header.offsets := by
  have known : ascii "encapsulated" ∈ headerNames := by decide
  have read := readHeaders_lines sent.headerLines {} [[]]
  have value : (Headers.addLines {} sent.headerLines).get (ascii "encapsulated") = sent.encapsulated.value := by
    have others : ∀ line ∈ sent.others, line.key ≠ ascii "encapsulated" :=
      fun line member => sent.keys line (List.mem_append_right _ member)
    have own := add_get (Headers.addLines {} sent.headers) sent.encapsulated known
    rw [if_pos sent.named] at own
    rw [headerLines, Headers.addLines, List.foldl_append]
    exact (addLines_get known others).trans own
  have version : (some (ascii "ICAP/1.0", Str.digitsValue sent.code, sent.status)).any (·.1 ∈ versions) = true := by
    simp [versions]
  rw [parseResponseHeader, linesOf_header, List.headD_cons, parseResponseLine_eq, List.tail_cons, read]
  refine ⟨_, if_pos version, rfl, ?_, rfl⟩
  rw [← value]
  exact congrArg getOffsets (get_server _ _)

theorem offsets_none {value : Str} (announced : Parts.none.Announced value) : getOffsets value = [] := by
  simp only [getOffsets]
  rw [List.filterMap_eq_nil_iff.mpr ?_, List.mergeSort_nil]
  intro pair member
  obtain ⟨name, digits⟩ := pair
  obtain ⟨stripped, among, found⟩ := List.mem_filterMap.mp member
  obtain ⟨part, listed, rfl⟩ := List.mem_map.mp among
  have parted : Str.splitOnce [61] (Str.strip part) = some (name, digits) := found
  obtain ⟨same, absent⟩ := Str.splitOnce_byte parted
  have number := announced part (List.mem_filter.mp listed).1 name digits absent same
  simp [number]

theorem readParts (largest : Nat) (rest : Str) {parts : Parts} {header : ResponseHeader} {value : Str}
    (announced : parts.Announced value)
    (offsets : header.offsets = getOffsets value)
    (length : (header.contentLength, header.bodyComplete) = getBodyLength header.offsets) :
    ∃ contentS, readBody largest header.bodyComplete false header.contentLength [] (parts.bytes ++ rest) =
        .ok (0, contentS, rest) ∧
      (continueResponse header contentS).info = header.info ∧
      (continueResponse header contentS).httpHeaderView = parts.header ∧
      (continueResponse header contentS).httpBodyView = parts.data := by
  cases parts with
  | none =>
      rw [offsets, offsets_none announced] at length
      obtain ⟨zero, complete⟩ := Prod.mk.inj length
      refine ⟨[], ?_, continueResponse_nil ?_⟩
      · rw [zero, readBody, dif_neg (by decide)]
        rfl
      · rw [offsets, offsets_none announced, splitResponseParts_nil]
  | null encapsulated http =>
      obtain rfl := announced
      have nullPlain : Plain (ascii "null-body") := by unfold Plain; decide +kernel
      rw [getOffsets_pair encapsulated.plain.1 nullPlain] at offsets
      rw [offsets] at length
      obtain ⟨counted, complete⟩ := Prod.mk.inj length
      have whole := readBody_counted largest header.bodyComplete false [] rest http.filled
      rw [complete] at whole ⊢
      rw [counted]
      refine ⟨http.bytes, whole, continueResponse_parts encapsulated none http.filled http.plain ?_⟩
      rw [offsets, splitResponseParts_null]
      rfl
  | body encapsulated http chunks last =>
      obtain rfl := announced
      rw [getOffsets_pair encapsulated.plain.1 encapsulated.plain.2] at offsets
      rw [offsets] at length
      obtain ⟨counted, complete⟩ := Prod.mk.inj length
      have partial_body : header.bodyComplete = false := by
        rw [complete]
        exact decide_eq_false encapsulated.body_ne_null
      have whole := readBody_chunks largest [] rest chunks false .lf last http.filled
      rw [partial_body, counted]
      refine ⟨http.bytes ++ chunks.flatMap SentChunk.data, ?_,
        continueResponse_parts encapsulated (some (chunks.flatMap SentChunk.data)) http.filled http.plain ?_⟩
      · simpa [Parts.bytes] using whole
      · rw [offsets, splitResponseParts_body]
        rfl

/-- An answer is read to its end, and shown as it was sent. -/
theorem readChildResponse_sent (largest : Nat) (rest : Str) : ∃ response,
    readChildResponse largest [] (sent.bytes ++ rest) = .ok (some response, rest) ∧
      response.code = some (Str.digitsValue sent.code) ∧
      response.httpHeaderView = sent.parts.header ∧ response.httpBodyView = sent.parts.data := by
  obtain ⟨header, parsed, info, offsets, length⟩ := sent.parseHeader
  obtain ⟨contentS, read, same, shown⟩ := readParts largest rest sent.announced offsets length
  have whole : sent.bytes ++ rest = sent.statusLine.text ++ sent.statusLine.ending.bytes ++
      (sent.headerLines.flatMap (·.bytes) ++ (sent.blank.bytes ++ (sent.parts.bytes ++ rest))) := by
    simp [bytes, headerBytes, Line.bytes]
  refine ⟨continueResponse header contentS, ?_, ?_, shown⟩
  · rw [readChildResponse, whole, readline_line sent.statusLine.single]
    simp only [readHeader_lines]
    have bytes : sent.statusLine.text ++ sent.statusLine.ending.bytes ++ sent.headerLines.flatMap (·.bytes) ++
        sent.blank.bytes = sent.headerBytes := rfl
    rw [bytes, parsed]
    simp only [Except.mapError, bind, Except.bind, read, info]
    rfl
  · rw [Response.code, same, info]
    rfl

end SentResponse

/-- What a number of calls of `readChildResponse` return, one after another, with nothing
on the standard error. -/
def readChildResponses (largest : Nat) : Nat → Str → Except Stopped (List (Option Response) × Str)
  | 0, stdout => .ok ([], stdout)
  | count + 1, stdout => do
      let (response, stdout) ← readChildResponse largest [] stdout
      let (others, stdout) ← readChildResponses largest count stdout
      return (response :: others, stdout)

/-- Answers that stand one behind another are read one by one, each to its end. -/
theorem answers_framed (largest : Nat) (answers : List SentResponse) (more : Str) : ∃ responses : List Response,
    readChildResponses largest answers.length (answers.flatMap SentResponse.bytes ++ more) =
        .ok (responses.map some, more) ∧
      responses.map (fun response => (response.code, response.httpHeaderView, response.httpBodyView)) =
        answers.map fun sent => (some (Str.digitsValue sent.code), sent.parts.header, sent.parts.data) := by
  induction answers with
  | nil => exact ⟨[], rfl, rfl⟩
  | cons sent answers ih =>
      obtain ⟨responses, others, shown⟩ := ih
      obtain ⟨response, first, code, header, body⟩ :=
        sent.readChildResponse_sent largest (answers.flatMap SentResponse.bytes ++ more)
      refine ⟨response :: responses, ?_, ?_⟩
      · rw [List.flatMap_cons, List.append_assoc, List.length_cons, readChildResponses, first]
        simp only [bind, Except.bind, others]
        rfl
      · rw [List.map_cons, List.map_cons, shown, code, header, body]

end ExaProxy.Worker
