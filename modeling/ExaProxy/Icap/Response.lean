import ExaProxy.Data.Numbers
import ExaProxy.Icap.Parser

namespace ExaProxy.Icap

open ExaProxy.Data

/-- `parseResponseLine`, with `none` where there are not three parts or no code. -/
def parseResponseLine (line : Str) : Option (Str × Nat × Str) :=
  match Str.splitUpTo (ascii " ") 2 line with
  | [version, code, status] =>
      if Str.isdigit code then some (version, Str.digitsValue code, status) else none
  | _ => none

/-- `ICAPResponseHeader` -/
structure ResponseHeader where
  info : Option (Str × Nat × Str)
  headers : Headers
  headerString : Str
  offsets : List (Str × Nat)
  contentLength : Nat
  bodyComplete : Bool

/-- `parseResponseHeader`.  A header is written to the headers that were read, even if
there are none. -/
def parseResponseHeader (headerString : Str) : Except Raised ResponseHeader :=
  let info := parseResponseLine ((linesOf headerString).headD [])
  let create (headers : Headers) :=
    let offsets := getOffsets (headers.get (ascii "encapsulated"))
    let (contentLength, bodyComplete) := getBodyLength offsets
    { info, headers, headerString, offsets, contentLength, bodyComplete }
  if info.any (·.1 ∈ versions) then
    match readHeaders (linesOf headerString).tail {} with
    | some headers =>
        let fields := headers.fields.insert (ascii "server") (ascii "EXA Proxy 1.0")
        .ok (create { headers with fields })
    | none => .error .typeError
  else .ok (create {})

/-- `splitResponseParts`: each offset with what stands from there to the next one. -/
def splitResponseParts (offsets : List (Str × Nat)) (bodyString : Str) : List (Str × Str) :=
  let final := offsets.getLast?.map Prod.fst
  let offsets :=
    if final ≠ some (ascii "null-body") then offsets ++ [(ascii "null-body", bodyString.length)]
    else offsets
  let names := offsets.map Prod.fst
  let positions := offsets.map Prod.snd
  let strings := List.zipWith (fun start stop => Str.slice bodyString start stop) positions positions.tail
  names.zip strings

/-- `parts.get(name)`, for a dictionary that is made of pairs. -/
def partOf (parts : List (Str × Str)) (name : Str) : Option Str := parts.reverse.lookup name

/-- `splitResponse` -/
def splitResponse (responseString : Str) : Str × Str :=
  ((Str.splitOnce (ascii "\n\n") responseString).or
    (Str.splitOnce (ascii "\r\n\r\n") responseString)).getD (responseString, [])

/-- What kind of answer it is, with the header that asks to intercept a connection. -/
inductive Modification where
  | request (interceptHeader : Option Str)
  | response
deriving DecidableEq

/-- `ICAPResponse`, with the text of each of its views. -/
structure Response where
  info : Option (Str × Nat × Str)
  headers : Headers
  responseView : Str
  icapView : Str
  httpHeaderView : Str
  httpBodyView : Str
  modification : Modification

/-- `ICAPResponse.__init__` -/
def Response.init (info : Option (Str × Nat × Str)) (headers : Headers) (icapHeader httpHeader : Str)
    (httpBody : Option Str) (modification : Modification) : Response :=
  let icapEnd := icapHeader.length
  if httpHeader ≠ [] then
    let httpLenString :=
      match httpBody with
      | none => []
      | some [] => ascii "0\r\n"
      | some body => Str.hex body.length ++ ascii "\r\n"
    let httpString :=
      match httpBody with
      | none => httpHeader
      | some [] => httpHeader ++ httpLenString
      | some body => httpHeader ++ (httpLenString ++ body ++ ascii "\r\n0\r\n")
    let httpHeaderEnd := icapEnd + httpHeader.length
    let httpBodyOffset := httpHeaderEnd + httpLenString.length
    let httpBodyEnd := httpBodyOffset + (httpBody.getD []).length
    let responseView := icapHeader ++ httpString
    { info, headers, modification, responseView
      icapView := responseView.take icapEnd
      httpHeaderView := Str.slice responseView icapEnd httpHeaderEnd
      httpBodyView := Str.slice responseView httpBodyOffset httpBodyEnd }
  else
    let responseView := icapHeader ++ httpHeader
    { info, headers, modification, responseView
      icapView := responseView.take icapEnd
      httpHeaderView := Str.slice responseView icapEnd icapEnd
      httpBodyView := Str.slice responseView icapEnd icapEnd }

/-- `code` -/
def Response.code (response : Response) : Option Nat := response.info.map (·.2.1)

/-- `http_response` -/
def Response.httpResponse (response : Response) : Str := response.httpHeaderView ++ response.httpBodyView

/-- `ICAPResponseFactory.create` -/
def Response.create (info : Option (Str × Nat × Str)) (headers : Headers)
    (icapHeader requestHeader responseHeader : Str) (bodyString interceptHeader : Option Str) : Response :=
  if responseHeader ≠ [] then Response.init info headers icapHeader responseHeader bodyString .response
  else Response.init info headers icapHeader requestHeader bodyString (.request interceptHeader)

/-- `continueResponse` -/
def continueResponse (header : ResponseHeader) (bodyString : Str) : Response :=
  let parts := splitResponseParts header.offsets bodyString
  let responseString := (partOf parts (ascii "res-hdr")).getD []
  let requestString := (partOf parts (ascii "req-hdr")).getD []
  let (interceptString, requestString) :=
    if ascii "CONNECT" <+: requestString then
      let (interceptString, newRequestString) := splitResponse requestString
      if header.headers.get (ascii "x-intercept") ≠ ascii "active" ∧ newRequestString = [] then
        (none, requestString)
      else (some interceptString, newRequestString)
    else (none, requestString)
  let bodyString :=
    if responseString ≠ [] then partOf parts (ascii "res-body") else partOf parts (ascii "req-body")
  Response.create header.info header.headers header.headerString requestString responseString bodyString
    interceptString

/-! What these make of the lines of a header. -/

inductive Ending where
  | lf | crlf
deriving DecidableEq

def Ending.bytes : Ending → Str
  | .lf => [10]
  | .crlf => [13, 10]

/-- A text that its ending can be told from. -/
structure Line where
  text : Str
  ending : Ending
  single : 10 ∉ text
  bare : text.getLast? ≠ some 13

def Line.bytes (line : Line) : Str := line.text ++ line.ending.bytes

variable {text rest : Str} {lines : List Line}

theorem find_crlf (single : 10 ∉ text) :
    Str.find [13, 10] (text ++ 13 :: 10 :: rest) = some text.length := by
  induction text with
  | nil => simp [Str.find]
  | cons byte text ih =>
      have later : 10 ∉ text := fun member => single (List.mem_cons_of_mem _ member)
      have apart : ¬ [13, 10] <+: byte :: (text ++ 13 :: 10 :: rest) := by
        intro starts
        have second := (List.cons_prefix_cons.mp starts).2
        cases text with
        | nil => exact absurd (List.cons_prefix_cons.mp second).1 (by decide)
        | cons next text =>
            exact later (by rw [(List.cons_prefix_cons.mp second).1]; exact List.mem_cons_self)
      rw [List.cons_append, Str.find, if_neg apart, ih later]
      rfl

theorem find_crlf_lf (single : 10 ∉ text) (bare : text.getLast? ≠ some 13) :
    Str.find [13, 10] (text ++ 10 :: rest) = (Str.find [13, 10] rest).map (text.length + 1 + ·) := by
  induction text with
  | nil =>
      rw [List.nil_append, Str.find, if_neg (by simp)]
      simp [Nat.add_comm]
  | cons byte text ih =>
      have later : 10 ∉ text := fun member => single (List.mem_cons_of_mem _ member)
      have apart : ¬ [13, 10] <+: byte :: (text ++ 10 :: rest) := by
        intro starts
        obtain ⟨first, second⟩ := List.cons_prefix_cons.mp starts
        cases text with
        | nil => exact bare (by rw [← first]; rfl)
        | cons next text =>
            exact later (by rw [(List.cons_prefix_cons.mp second).1]; exact List.mem_cons_self)
      have bare_later : text.getLast? ≠ some 13 := by
        cases text with
        | nil => simp
        | cons next text => rwa [List.getLast?_cons_cons] at bare
      rw [List.cons_append, Str.find, if_neg apart, ih later bare_later, Option.map_map]
      refine Option.map_congr fun pos _ => ?_
      simp only [Function.comp_apply, List.length_cons]
      omega

theorem linesOf_line (line : Line) : linesOf (line.bytes ++ rest) = line.text :: linesOf rest := by
  obtain ⟨text, ending, single, bare⟩ := line
  have sep : ascii "\r\n" = [13, 10] := rfl
  have filled : ([13, 10] : Str) ≠ [] := by decide
  cases ending with
  | crlf =>
      have first : Str.splitOnce [13, 10] (text ++ 13 :: 10 :: rest) = some (text, rest) := by
        simp [Str.splitOnce, find_crlf single, List.drop_append]
      have whole : Line.bytes ⟨text, .crlf, single, bare⟩ ++ rest = text ++ 13 :: 10 :: rest := by
        simp [Line.bytes, Ending.bytes]
      simp only [linesOf, sep]
      rw [whole, Str.split_eq filled, first, List.flatMap_cons, List.splitOn_eq_singleton single]
      rfl
  | lf =>
      have whole : Line.bytes ⟨text, .lf, single, bare⟩ ++ rest = text ++ 10 :: rest := by
        simp [Line.bytes, Ending.bytes]
      simp only [linesOf, sep]
      rw [whole, Str.split_eq filled, Str.split_eq (s := rest) filled, Str.splitOnce, Str.splitOnce,
        find_crlf_lf single bare]
      cases Str.find [13, 10] rest with
      | none =>
          simp [List.splitOn_append_cons_self, List.splitOn_eq_singleton single]
      | some pos =>
          have before : (text ++ 10 :: rest).take (text.length + 1 + pos) = text ++ 10 :: rest.take pos := by
            rw [Nat.add_assoc, List.take_length_add_append, Nat.add_comm 1 pos, List.take_succ_cons]
          have after : (text ++ 10 :: rest).drop (text.length + 1 + pos + 2) = rest.drop (pos + 2) := by
            rw [show text.length + 1 + pos + 2 = text.length + (pos + 2 + 1) by omega,
              List.drop_length_add_append, List.drop_succ_cons]
          simp only [Option.map_some, List.length_cons, List.length_nil, Nat.zero_add, Nat.reduceAdd,
            before, after, List.flatMap_cons, List.splitOn_append_cons_self,
            List.splitOn_eq_singleton single]
          rfl

theorem linesOf_lines (lines : List Line) (rest : Str) :
    linesOf (lines.flatMap Line.bytes ++ rest) = lines.map Line.text ++ linesOf rest := by
  induction lines with
  | nil => rfl
  | cons line lines ih =>
      rw [List.flatMap_cons, List.append_assoc, linesOf_line, ih]
      rfl

/-- A line that is a header. -/
structure HeaderLine extends Line where
  colon : 58 ∈ text

namespace HeaderLine

def name (line : HeaderLine) : Str := line.text.takeWhile (· ≠ 58)

def content (line : HeaderLine) : Str := (line.text.dropWhile (· ≠ 58)).drop 1

/-- The name that the header is known by. -/
def key (line : HeaderLine) : Str := Str.strip (Str.lower line.name)

def value (line : HeaderLine) : Str := Str.strip line.content

theorem splitOnce_eq (line : HeaderLine) : Str.splitOnce (ascii ":") line.text = some (line.name, line.content) := by
  have rest : line.text.dropWhile (· ≠ 58) = 58 :: line.content := by
    cases dropped : line.text.dropWhile (· ≠ 58) with
    | nil => exact absurd (List.dropWhile_eq_nil_iff.mp dropped 58 line.colon) (by decide)
    | cons byte rest =>
        have head := List.head?_dropWhile_not (fun byte => decide (byte ≠ 58)) line.text
        rw [dropped] at head
        simp only [List.head?_cons, decide_not, Bool.not_eq_false', decide_eq_true_eq] at head
        rw [content, dropped, head]
        rfl
  have whole : line.text = line.name ++ 58 :: line.content := by
    rw [← rest]
    exact List.takeWhile_append_dropWhile.symm
  have absent : 58 ∉ line.name := fun member => by simpa using List.mem_takeWhile_imp member
  rw [whole]
  exact Str.splitOnce_append absent

end HeaderLine

variable {headers : Headers} {name value : Str}

/-- Headers with the lines added that are read before an empty one. -/
def Headers.addLines (headers : Headers) (lines : List HeaderLine) : Headers :=
  lines.foldl (fun headers line => headers.add line.name line.content) headers

theorem readHeaders_lines (lines : List HeaderLine) (headers : Headers) (rest : List Str) :
    readHeaders (lines.map (·.text) ++ [] :: rest) headers = some (headers.addLines lines) := by
  induction lines generalizing headers with
  | nil => rfl
  | cons line lines ih =>
      have filled : line.text ≠ [] := List.ne_nil_of_mem line.colon
      rw [List.map_cons, List.cons_append, readHeaders, if_neg filled, line.splitOnce_eq]
      exact ih _

theorem add_fields (line : HeaderLine) : (headers.add line.name line.content).fields =
    if line.key ∈ headerNames ∨ ascii "x-" <+: line.key then headers.fields.insert line.key line.value
    else headers.fields := by
  have unpragma : (headers.add line.name line.content).fields =
      (if line.key ∈ headerNames ∨ ascii "x-" <+: line.key then
        { headers with fields := headers.fields.insert line.key line.value }
      else headers).fields := by
    simp only [Headers.add]
    split
    · split <;> rfl
    · rfl
  rw [unpragma]
  split <;> rfl

theorem add_get (headers : Headers) (line : HeaderLine) (known : name ∈ headerNames) :
    (headers.add line.name line.content).get name = if line.key = name then line.value else headers.get name := by
  rw [Headers.get, add_fields]
  by_cases same : line.key = name
  · rw [if_pos same, if_pos (.inl (same ▸ known)), same, AList.lookup_insert]
    rfl
  · rw [if_neg same]
    split
    · rw [AList.lookup_insert_ne (Ne.symm same)]
      rfl
    · rfl

theorem addLines_get (known : name ∈ headerNames) {lines : List HeaderLine} (others : ∀ line ∈ lines, line.key ≠ name) :
    (headers.addLines lines).get name = headers.get name := by
  induction lines generalizing headers with
  | nil => rfl
  | cons line lines ih =>
      obtain ⟨first, others⟩ := List.forall_mem_cons.mp others
      rw [Headers.addLines, List.foldl_cons]
      exact (ih others).trans ((add_get headers line known).trans (if_neg first))

/-- Bytes that are not taken for anything but a part of a name or a number. -/
def Plain (s : Str) : Prop := ∀ byte ∈ s, Str.isSpace byte = false ∧ byte ≠ 44 ∧ byte ≠ 61

theorem plain_decimal (number : Nat) : Plain (Str.decimal number) := by
  intro byte member
  have digit := (Str.isdigit_iff.mp (Str.decimal_isdigit number)).2 byte member
  refine ⟨(Str.isDigit_plain digit).1, ?_, ?_⟩ <;>
  · intro same
    subst same
    exact absurd digit (by decide)

theorem Plain.pair {name digits : Str} (plain : Plain name) (plain' : Plain digits) :
    Str.strip (name ++ 61 :: digits) = name ++ 61 :: digits ∧ 44 ∉ name ++ 61 :: digits ∧
      Str.splitOnce (ascii "=") (name ++ 61 :: digits) = some (name, digits) := by
  refine ⟨Str.stripOf_eq_self ?_, ?_, Str.splitOnce_append fun member => (plain 61 member).2.2 rfl⟩
  · intro byte member
    rcases List.mem_append.mp member with first | later
    · exact (plain byte first).1
    · rcases List.mem_cons.mp later with rfl | later
      · rfl
      · exact (plain' byte later).1
  · intro member
    rcases List.mem_append.mp member with first | later
    · exact (plain 44 first).2.1 rfl
    · rcases List.mem_cons.mp later with same | later
      · exact absurd same (by decide)
      · exact (plain' 44 later).2.1 rfl

theorem getOffsets_pair {first second : Str} (plain : Plain first) (plain' : Plain second) (number : Nat) :
    getOffsets (first ++ ascii "=0, " ++ second ++ ascii "=" ++ Str.decimal number) =
      [(first, 0), (second, number)] := by
  have zero : Plain [48] := by simp [Plain]; decide
  obtain ⟨stripped, single, halves⟩ := plain.pair zero
  obtain ⟨stripped', single', halves'⟩ := plain'.pair (plain_decimal number)
  have whole : first ++ ascii "=0, " ++ second ++ ascii "=" ++ Str.decimal number =
      (first ++ 61 :: [48]) ++ 44 :: (32 :: (second ++ 61 :: Str.decimal number)) := by
    simp only [List.append_assoc]
    rfl
  have parts : (first ++ ascii "=0, " ++ second ++ ascii "=" ++ Str.decimal number).splitOn 44 =
      [first ++ 61 :: [48], 32 :: (second ++ 61 :: Str.decimal number)] := by
    rw [whole, List.splitOn_append_cons_self, List.splitOn_eq_singleton single,
      List.splitOn_eq_singleton (by simpa using single')]
    rfl
  have spaced : Str.strip (32 :: (second ++ 61 :: Str.decimal number)) = second ++ 61 :: Str.decimal number :=
    stripped'
  have paired : ([first ++ 61 :: [48], 32 :: (second ++ 61 :: Str.decimal number)].filter (61 ∈ ·)) =
      [first ++ 61 :: [48], 32 :: (second ++ 61 :: Str.decimal number)] := by simp
  have digits : Str.isdigit [48] = true ∧ Str.digitsValue [48] = 0 := by decide
  simp only [getOffsets, parts, paired, List.map_cons, List.map_nil, stripped, spaced,
    List.filterMap_cons, List.filterMap_nil, halves, halves', digits.1, digits.2, Str.decimal_isdigit,
    Str.digitsValue_decimal, if_true]
  exact List.mergeSort_of_pairwise (by simp)

/-! The parts of an answer. -/

theorem slice_append (before middle after : Str) :
    Str.slice (before ++ (middle ++ after)) before.length (before.length + middle.length) = middle := by
  rw [Str.slice, List.drop_left, Nat.add_sub_cancel_left, List.take_left]

/-- The views show what the answer was made of, however long the size of the body is. -/
theorem init_views (info : Option (Str × Nat × Str)) (headers : Headers) (icapHeader : Str) {httpHeader : Str}
    (httpBody : Option Str) (modification : Modification) (filled : httpHeader = [] → httpBody = none) :
    let response := Response.init info headers icapHeader httpHeader httpBody modification
    response.info = info ∧ response.httpHeaderView = httpHeader ∧
      response.httpBodyView = httpBody.getD [] := by
  by_cases empty : httpHeader = []
  · obtain rfl := filled empty
    simp [Response.init, empty, Str.slice]
  · simp only [Response.init, ne_eq, empty, not_false_eq_true, if_true]
    refine ⟨trivial, ?_, ?_⟩
    · cases httpBody with
      | none => simpa using slice_append icapHeader httpHeader []
      | some body => cases body <;> exact slice_append icapHeader httpHeader _
    · cases httpBody with
      | none => simp [Str.slice]
      | some body =>
          cases body with
          | nil => simp [Str.slice]
          | cons byte body =>
              have shown := slice_append (icapHeader ++ (httpHeader ++ (Str.hex (byte :: body).length ++
                ascii "\r\n"))) (byte :: body) (ascii "\r\n0\r\n")
              simpa [Nat.add_assoc] using shown

/-- Whether a request or a response was encapsulated. -/
inductive Encapsulated where
  | req | res
deriving DecidableEq

namespace Encapsulated

def hdr : Encapsulated → Str
  | req => ascii "req-hdr"
  | res => ascii "res-hdr"

def body : Encapsulated → Str
  | req => ascii "req-body"
  | res => ascii "res-body"

theorem plain (encapsulated : Encapsulated) : Plain encapsulated.hdr ∧ Plain encapsulated.body := by
  cases encapsulated <;> (unfold Plain; decide +kernel)

theorem body_ne_null (encapsulated : Encapsulated) : encapsulated.body ≠ ascii "null-body" := by
  cases encapsulated <;> decide

end Encapsulated

variable {header : ResponseHeader} {bodyString httpHeader httpBody : Str} {encapsulated : Encapsulated}

theorem splitResponseParts_nil : splitResponseParts [] [] = [] := rfl

theorem splitResponseParts_null :
    splitResponseParts [(encapsulated.hdr, 0), (ascii "null-body", httpHeader.length)] httpHeader =
      [(encapsulated.hdr, httpHeader)] := by
  simp [splitResponseParts, Str.slice]

theorem splitResponseParts_body :
    splitResponseParts [(encapsulated.hdr, 0), (encapsulated.body, httpHeader.length)] (httpHeader ++ httpBody) =
      [(encapsulated.hdr, httpHeader), (encapsulated.body, httpBody)] := by
  simp [splitResponseParts, Str.slice, encapsulated.body_ne_null]

theorem continueResponse_nil (parts : splitResponseParts header.offsets bodyString = []) :
    (continueResponse header bodyString).info = header.info ∧
      (continueResponse header bodyString).httpHeaderView = [] ∧
      (continueResponse header bodyString).httpBodyView = [] := by
  have none : ∀ name, partOf (splitResponseParts header.offsets bodyString) name = Option.none := by
    rw [parts]
    exact fun _ => rfl
  have absent : ¬ ascii "CONNECT" <+: [] := by decide
  simp only [continueResponse, none, Option.getD_none, if_neg absent, ne_eq, not_true_eq_false, if_false,
    Response.create]
  exact init_views header.info header.headers header.headerString Option.none _ fun _ => rfl

theorem continueResponse_parts (encapsulated : Encapsulated) (httpBody : Option Str) (filled : httpHeader ≠ [])
    (plain : ¬ ascii "CONNECT" <+: httpHeader)
    (parts : splitResponseParts header.offsets bodyString =
      (encapsulated.hdr, httpHeader) :: (httpBody.elim [] fun body => [(encapsulated.body, body)])) :
    (continueResponse header bodyString).info = header.info ∧
      (continueResponse header bodyString).httpHeaderView = httpHeader ∧
      (continueResponse header bodyString).httpBodyView = httpBody.getD [] := by
  have view := fun modification => init_views header.info header.headers header.headerString httpBody modification
    fun empty => absurd empty filled
  cases encapsulated with
  | req =>
      have found : partOf (splitResponseParts header.offsets bodyString) (ascii "res-hdr") = none ∧
          partOf (splitResponseParts header.offsets bodyString) (ascii "req-hdr") = some httpHeader ∧
          partOf (splitResponseParts header.offsets bodyString) (ascii "req-body") = httpBody := by
        rw [parts]
        cases httpBody <;> exact ⟨rfl, rfl, rfl⟩
      simp only [continueResponse, found.1, found.2.1, found.2.2, Option.getD_none, Option.getD_some,
        if_neg plain, ne_eq, not_true_eq_false, if_false, Response.create]
      exact view _
  | res =>
      have found : partOf (splitResponseParts header.offsets bodyString) (ascii "res-hdr") = some httpHeader ∧
          partOf (splitResponseParts header.offsets bodyString) (ascii "req-hdr") = none ∧
          partOf (splitResponseParts header.offsets bodyString) (ascii "res-body") = httpBody := by
        rw [parts]
        cases httpBody <;> exact ⟨rfl, rfl, rfl⟩
      have absent : ¬ ascii "CONNECT" <+: [] := by decide
      simp only [continueResponse, found.1, found.2.1, found.2.2, Option.getD_none, Option.getD_some,
        if_neg absent, ne_eq, filled, not_false_eq_true, if_true, Response.create]
      exact view _

end ExaProxy.Icap
