import ExaProxy.Http.Printed
import ExaProxy.Http.Response

namespace ExaProxy.Http

open ExaProxy.Data

/-- A status code as the callers have it: `_HTTP_NAMES` has the names of texts only. -/
inductive StatusCode where
  | text (code : Nat)
  | number (code : Nat)
deriving DecidableEq, Repr

namespace StatusCode

/-- `str(code)` -/
def str : StatusCode → Str
  | .text code | .number code => Str.decimal code

/-- `_HTTP_NAMES.get(code, '-')` -/
def name : StatusCode → Str
  | .text code => nameOf code
  | .number _ => ascii "-"

/-- The line that a response starts with. -/
def line (code : StatusCode) (protocol : Str) : Str :=
  ascii "HTTP/" ++ protocol ++ ascii " " ++ code.str ++ ascii " " ++ code.name

/-- `http(code, message, protocol)` -/
def http (banner : Banner) (code : StatusCode) (message protocol : Str) : Str :=
  let encoding := if ascii "<html" <+: Str.lower (message.take 5) then ascii "html" else ascii "plain"
  Str.join (ascii "\r\n") [
    code.line protocol,
    ascii "Date: " ++ banner.date,
    ascii "Server: exaproxy/" ++ banner.version ++ ascii " (" ++ banner.platform ++ ascii ")",
    ascii "Content-Length: " ++ Str.decimal message.length,
    ascii "Content-Type: text/" ++ encoding,
    ascii "Cache-Control: no-store",
    ascii "Pragma: no-cache",
    [],
    message]

/-- `file_header(code, size, protocol)` -/
def fileHeader (banner : Banner) (code : StatusCode) (size : Nat) (protocol : Str) : Str :=
  Str.join (ascii "\r\n") [
    code.line protocol,
    ascii "Date: " ++ banner.date,
    ascii "Server: exaproxy/" ++ banner.version ++ ascii " (" ++ banner.platform ++ ascii ")",
    ascii "Content-Length: " ++ Str.decimal size,
    ascii "Connection: close",
    ascii "Content-Type: text/html",
    ascii "Cache-Control: no-store",
    ascii "Pragma: no-cache",
    []]

end StatusCode

variable {lines : List Str} {line text body : Str} {pos : Nat}

theorem not_prefix_line (nonempty : line ≠ []) (plain : 10 ∉ line) : ¬ [13, 10] <+: line ++ 13 :: text := by
  intro start
  cases line with
  | nil => exact nonempty rfl
  | cons byte rest =>
      obtain ⟨_, start⟩ := List.cons_prefix_cons.mp start
      cases rest with
      | nil => exact absurd (List.cons_prefix_cons.mp start).1 (by decide)
      | cons next rest =>
          obtain ⟨same, _⟩ := List.cons_prefix_cons.mp start
          exact plain (same ▸ List.mem_cons_of_mem _ List.mem_cons_self)

theorem occurs_line (plain : 10 ∉ line)
    (occurs : Str.Occurs [13, 10, 13, 10] (line ++ 13 :: 10 :: text) pos) :
    (pos = line.length ∧ [13, 10] <+: text) ∨
      ∃ later, pos = line.length + 2 + later ∧ Str.Occurs [13, 10, 13, 10] text later := by
  induction line generalizing pos with
  | nil =>
      match pos with
      | 0 => exact .inl ⟨rfl, (List.cons_prefix_cons.mp (List.cons_prefix_cons.mp occurs).2).2⟩
      | 1 => exact absurd (List.cons_prefix_cons.mp occurs).1 (by decide)
      | later + 2 => exact .inr ⟨later, by simp [Nat.add_comm], occurs⟩
  | cons byte line ih =>
      cases pos with
      | zero =>
          have start : [13, 10, 13, 10] <+: (byte :: line) ++ 13 :: (10 :: text) := occurs
          have shorter : ([13, 10] : Str) <+: [13, 10, 13, 10] := by decide
          exact absurd (shorter.trans start) (not_prefix_line (by simp) plain)
      | succ pos =>
          rw [List.mem_cons, not_or] at plain
          rcases ih plain.2 occurs with ⟨rfl, start⟩ | ⟨later, rfl, found⟩
          · exact .inl ⟨rfl, start⟩
          · exact .inr ⟨later, by rw [List.length_cons]; omega, found⟩

theorem occurs_terminated (clean : ∀ line ∈ lines, line ≠ [] ∧ 10 ∉ line)
    (occurs : Str.Occurs [13, 10, 13, 10] (terminated [13, 10] lines ++ 13 :: 10 :: body) pos) :
    (terminated [13, 10] lines).length ≤ pos + 2 := by
  induction lines generalizing pos with
  | nil => simp [terminated]
  | cons line rest ih =>
      obtain ⟨⟨_, plain⟩, others⟩ := List.forall_mem_cons.mp clean
      have size : (terminated [13, 10] (line :: rest)).length =
          line.length + 2 + (terminated [13, 10] rest).length := by
        rw [terminated, List.flatMap_cons, List.length_append, List.length_append]
        rfl
      have whole : terminated [13, 10] (line :: rest) ++ 13 :: 10 :: body =
          line ++ 13 :: 10 :: (terminated [13, 10] rest ++ 13 :: 10 :: body) := by
        simp [terminated]
      rw [whole] at occurs
      rcases occurs_line plain occurs with ⟨rfl, start⟩ | ⟨later, rfl, found⟩
      · cases rest with
        | nil => simp [terminated]
        | cons next rest =>
            obtain ⟨⟨nonempty, plain⟩, _⟩ := List.forall_mem_cons.mp others
            have whole : terminated [13, 10] (next :: rest) ++ 13 :: 10 :: body =
                next ++ 13 :: (10 :: (terminated [13, 10] rest ++ 13 :: 10 :: body)) := by
              simp [terminated]
            exact absurd (whole ▸ start) (not_prefix_line nonempty plain)
      · have bound := ih others found
        rw [size]
        omega

theorem splitOnce_lines (nonempty : lines ≠ []) (clean : ∀ line ∈ lines, line ≠ [] ∧ 10 ∉ line) :
    Str.splitOnce (ascii "\r\n\r\n") (terminated (ascii "\r\n") lines ++ (ascii "\r\n" ++ body)) =
      some (Str.join (ascii "\r\n") lines, body) := by
  have joined := join_terminated (ascii "\r\n") nonempty
  have size := congrArg List.length joined
  have crlf : (ascii "\r\n").length = 2 := rfl
  rw [List.length_append, crlf] at size
  have whole : terminated (ascii "\r\n") lines ++ (ascii "\r\n" ++ body) =
      Str.join (ascii "\r\n") lines ++ (ascii "\r\n\r\n" ++ body) := by
    rw [← joined, List.append_assoc]
    rfl
  have found : Str.find (ascii "\r\n\r\n") (terminated (ascii "\r\n") lines ++ (ascii "\r\n" ++ body)) =
      some (Str.join (ascii "\r\n") lines).length := by
    refine Str.find_eq_some_iff.mpr ⟨?_, fun earlier below occurs => ?_⟩
    · rw [whole, Str.Occurs, List.drop_left]
      exact List.prefix_append _ _
    · have bound := occurs_terminated clean occurs
      have same : (terminated (ascii "\r\n") lines).length = (terminated [13, 10] lines).length := rfl
      omega
  rw [Str.splitOnce, found, Option.map_some, whole, List.take_left, ← List.append_assoc]
  congr 2
  exact List.drop_left' List.length_append

/-- The text is a header with this one length of the content, an empty line, and the
content. -/
def Framed (text content : Str) : Prop :=
  ∃ header, Str.splitOnce (ascii "\r\n\r\n") text = some (header, content) ∧
    (Headers.linesOf header).filter (ascii "Content-Length:" <+: ·) =
      [ascii "Content-Length: " ++ Str.decimal content.length]

/-- A text without line ends. -/
def Unbroken (text : Str) : Prop := 10 ∉ text ∧ 13 ∉ text

/-- What the server says of itself has no line ends. -/
structure Banner.Unbroken (banner : Banner) : Prop where
  date : Http.Unbroken banner.date
  version : Http.Unbroken banner.version
  platform : Http.Unbroken banner.platform

theorem unbroken_append {first second : Str} : Unbroken (first ++ second) ↔ Unbroken first ∧ Unbroken second := by
  simp only [Unbroken, List.mem_append, not_or]
  tauto

theorem Unbroken.trimmed (unbroken : Unbroken text) : Headers.Trimmed text := by
  refine ⟨unbroken.1, Str.stripOf_eq_self fun byte member => ?_⟩
  have other : byte ≠ 13 := fun same => unbroken.2 (same ▸ member)
  simpa [ascii] using other

theorem unbroken_decimal (number : Nat) : Unbroken (Str.decimal number) := by
  have digits := (Str.isdigit_iff.mp (Str.decimal_isdigit number)).2
  exact ⟨fun member => absurd (digits 10 member) (by decide), fun member => absurd (digits 13 member) (by decide)⟩

instance (text : Str) : Decidable (Unbroken text) := inferInstanceAs (Decidable (_ ∧ _))

theorem unbroken_nameOf (code : Nat) : Unbroken (nameOf code) := by
  have names : ∀ entry ∈ httpNames, Unbroken (ascii entry.2) := by decide +kernel
  unfold nameOf
  cases found : httpNames.lookup code with
  | none => decide
  | some name =>
      obtain ⟨before, after, split, _⟩ := List.lookup_eq_some_iff.mp found
      exact names (code, name) (by rw [split]; simp)

namespace StatusCode

variable {banner : Banner} {code : StatusCode} {message protocol file : Str} {size : Nat}

def pageLines (banner : Banner) (code : StatusCode) (message protocol : Str) : List Str := [
  code.line protocol,
  ascii "Date: " ++ banner.date,
  ascii "Server: exaproxy/" ++ banner.version ++ ascii " (" ++ banner.platform ++ ascii ")",
  ascii "Content-Length: " ++ Str.decimal message.length,
  ascii "Content-Type: text/" ++
    (if ascii "<html" <+: Str.lower (message.take 5) then ascii "html" else ascii "plain"),
  ascii "Cache-Control: no-store",
  ascii "Pragma: no-cache"]

theorem http_eq (banner : Banner) (code : StatusCode) (message protocol : Str) :
    code.http banner message protocol =
      terminated (ascii "\r\n") (pageLines banner code message protocol) ++ (ascii "\r\n" ++ message) := by
  simp [http, pageLines, Str.join, terminated, List.intercalate]

theorem unbroken_line (code : StatusCode) (version : Unbroken protocol) : Unbroken (code.line protocol) := by
  have name : Unbroken code.name := by
    cases code with
    | text code => exact unbroken_nameOf code
    | number => exact (by decide : Unbroken (ascii "-"))
  have str : Unbroken code.str := by
    cases code with
    | text code | number code => exact unbroken_decimal code
  simp only [line, unbroken_append]
  exact ⟨⟨⟨⟨⟨by decide, version⟩, by decide⟩, str⟩, by decide⟩, name⟩

theorem pageLines_clean (plain : banner.Unbroken) (version : Unbroken protocol) (code : StatusCode)
    (message : Str) : ∀ line ∈ pageLines banner code message protocol, line ≠ [] ∧ Unbroken line := by
  have texts : Unbroken (if ascii "<html" <+: Str.lower (message.take 5) then ascii "html" else ascii "plain") := by
    split <;> decide
  simp only [pageLines, List.forall_mem_cons, unbroken_append, plain.date, plain.version, plain.platform, texts,
    unbroken_decimal, unbroken_line code version, and_true]
  simp [line, ascii, Unbroken]

theorem http_framed (plain : banner.Unbroken) (version : Unbroken protocol) :
    Framed (code.http banner message protocol) message := by
  have clean := pageLines_clean plain version code message
  rw [http_eq]
  refine ⟨_, splitOnce_lines (by simp [pageLines]) fun line member => ?_, ?_⟩
  · exact ⟨(clean line member).1, (clean line member).2.1⟩
  · have read : Headers.linesOf (Str.join ([13] ++ [10]) (pageLines banner code message protocol)) = _ :=
      Headers.linesOf_join (by simp) (fun line member => (clean line member).2.trimmed) (by simp [pageLines])
    rw [show ascii "\r\n" = [13] ++ [10] from rfl, read]
    rfl

/-- The header of a file has no empty line at its end, so that the file is not what
follows the first one. -/
theorem fileHeader_unframed (banner : Banner) (code : StatusCode) (size : Nat) (protocol file : Str) :
    ¬ Framed (code.fileHeader banner size protocol ++ file) file := by
  intro given
  obtain ⟨header, found, -⟩ := given
  have whole := List.append_cancel_right (Str.splitOnce_whole found)
  obtain ⟨start, ended⟩ : ∃ start, code.fileHeader banner size protocol = start ++ [101, 13, 10] := by
    refine ⟨Str.join (ascii "\r\n") [
      code.line protocol,
      ascii "Date: " ++ banner.date,
      ascii "Server: exaproxy/" ++ banner.version ++ ascii " (" ++ banner.platform ++ ascii ")",
      ascii "Content-Length: " ++ Str.decimal size,
      ascii "Connection: close",
      ascii "Content-Type: text/html",
      ascii "Cache-Control: no-store",
      ascii "Pragma: no-cach"], ?_⟩
    simp [fileHeader, Str.join, List.intercalate, ascii]
  have double : ascii "\r\n\r\n" = [13] ++ [10, 13, 10] := rfl
  rw [ended, double, ← List.append_assoc] at whole
  have last := List.append_inj_right' whole rfl
  cases last

end StatusCode

end ExaProxy.Http
