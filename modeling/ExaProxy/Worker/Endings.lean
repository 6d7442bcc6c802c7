import ExaProxy.Data.Loop
import ExaProxy.Worker.ChildResponse

namespace ExaProxy.Worker

open Data Icap

/-! How the reading of an answer ends when the child says no more: `readline`
and `read` then give the empty string, each time they are called. -/

/-- `Redirector.readChildResponse`, one `readline` after another. -/
def lineTurn (stdout : Str) : Str ⊕ (Str × Str) :=
  if (readline stdout).1 = [] then .inl (readline stdout).2
  else .inr (Str.strip (readline stdout).1, (readline stdout).2)

/-- Where `ICAPRedirector.readChildResponse` is: in the lines of the header, or
among the bytes of a body or of one of its chunks. -/
inductive Reading where
  | header (headerString : Str)
  | body (header : ResponseHeader) (chunked : Bool) (bytesToRead : Int) (readBytes : Nat) (contentS : Str)

/-- Behind the last loop. -/
def closing (childStderr : Str) (header : ResponseHeader) (bytesToRead : Int) (contentS stdout : Str) :
    Except Raised (Option Response × Str) :=
  if bytesToRead ≠ 0 ∨ header.info = none ∨ childStderr ≠ [] then .ok (none, stdout)
  else .ok (some (continueResponse header contentS), stdout)

/-- One test of the loops, with the reads it leads to. -/
def icapTurn (largest : Nat) (childStderr : Str) :
    Reading × Str → (Reading × Str) ⊕ Except Raised (Option Response × Str)
  | (.header headerString, stdout) =>
      if (readline stdout).1 = [] then .inr (.error .attributeError)
      else if (readline stdout).1.rdropWhile Str.isSpace = [] then
        match parseResponseHeader (headerString ++ (readline stdout).1) with
        | .error raised => .inr (.error raised)
        | .ok header => .inl (.body header false header.contentLength 0 [], (readline stdout).2)
      else .inl (.header (headerString ++ (readline stdout).1), (readline stdout).2)
  | (.body header chunked bytesToRead readBytes contentS, stdout) =>
      if bytesToRead > 0 then
        if readBytes < bytesToRead then
          let wanted := (bytesToRead - readBytes).toNat
          if stdout.length < wanted ∧ largest < wanted then .inr (.error .overflowError)
          else
            let chompS := stdout.take wanted
            .inl (.body header chunked bytesToRead (readBytes + chompS.length) (contentS ++ chompS),
              stdout.drop wanted)
        else if header.bodyComplete then .inr (closing childStderr header 0 contentS stdout)
        else
          match hexInt (readSize chunked stdout).1 with
          | none => .inr (.error .valueError)
          | some size => .inl (.body header true size 0 contentS, (readSize chunked stdout).2)
      else .inr (closing childStderr header bytesToRead contentS stdout)

/-- The first `readline`. -/
def answered (stdout : Str) : Reading × Str := (.header (readline stdout).1, (readline stdout).2)

/-- A count that was announced, of the body or of a later chunk, is larger than
what is left of the output, and not so large that it cannot be asked for. -/
inductive Starved (largest : Nat) (bodyComplete : Bool) : Bool → Int → Str → Prop where
  | cut {chunked : Bool} {count : Int} {stdout : Str} (short : stdout.length < count) (asked : count ≤ largest) :
      Starved largest bodyComplete chunked count stdout
  | later {chunked : Bool} {count size : Int} {stdout : Str} (unfinished : bodyComplete = false)
      (positive : count > 0) (whole : count ≤ stdout.length)
      (announced : hexInt (readSize chunked (stdout.drop count.toNat)).1 = some size)
      (starved : Starved largest bodyComplete true size (readSize chunked (stdout.drop count.toNat)).2) :
      Starved largest bodyComplete chunked count stdout

variable {largest : Nat} {childStderr stdout line left content : Str} {header : ResponseHeader}
  {chunked bodyComplete : Bool} {count : Int}

theorem readline_eq_nil : (readline stdout).1 = [] ↔ stdout = [] := by
  constructor
  · intro none
    cases stdout with
    | nil => rfl
    | cons byte rest =>
        by_cases lf : byte = 10 <;> simp [readline, lf] at none
  · intro same
    subst same
    rfl

theorem lineTurn_halts_iff : Loop.Halts lineTurn stdout ↔ stdout ≠ [] := by
  by_cases empty : stdout = []
  · refine iff_of_false ?_ (not_not_intro empty)
    subst empty
    exact Loop.not_halts_of_cycle (.single rfl)
  · have left : lineTurn stdout = .inr (Str.strip (readline stdout).1, (readline stdout).2) :=
      if_neg (mt readline_eq_nil.mp empty)
    exact iff_of_true (Loop.halts_of_result left) empty

theorem starved_positive (starved : Starved largest bodyComplete chunked count stdout) : count > 0 := by
  cases starved with
  | cut short => omega
  | later _ positive => exact positive

theorem readBody_waiting_iff :
    readBody largest bodyComplete chunked count content stdout = .error .waiting ↔
      Starved largest bodyComplete chunked count stdout := by
  fun_induction readBody largest bodyComplete chunked count content stdout with
  | case1 chunked count content stdout more enough content' left complete =>
      refine iff_of_false (by simp) fun starved => ?_
      cases starved with
      | cut short => omega
      | later unfinished => simp [complete] at unfinished
  | case2 chunked count content stdout more enough left partly none =>
      refine iff_of_false (by simp) fun starved => ?_
      cases starved with
      | cut short => omega
      | later _ _ _ announced => cases none.symm.trans announced
  | case3 chunked count content stdout more enough content' left partly size announced ih =>
      rw [ih]
      constructor
      · exact fun starved => .later (Bool.eq_false_iff.mpr partly) more (by omega) announced starved
      · intro starved
        cases starved with
        | cut short => omega
        | later _ _ _ again starved =>
            cases announced.symm.trans again
            exact starved
  | case4 chunked count content stdout more short refused =>
      refine iff_of_false (by simp) fun starved => ?_
      cases starved with
      | cut _ asked => omega
      | later _ _ whole => omega
  | case5 chunked count content stdout more short asked => exact iff_of_true rfl (.cut (by omega) (by omega))
  | case6 chunked count content stdout done =>
      exact iff_of_false (by simp) fun starved => done (starved_positive starved)

/-- The turns from `state` on come to `outcome`, and never end where it is to wait. -/
def Gives (largest : Nat) (childStderr : Str) (state : Reading × Str) : Except Stopped (Option Response × Str) → Prop
  | .error .waiting => ¬ Loop.Halts (icapTurn largest childStderr) state
  | .error (.raised raised) => ∃ fuel, Loop.run (icapTurn largest childStderr) fuel state = some (.error raised)
  | .ok answer => ∃ fuel, Loop.run (icapTurn largest childStderr) fuel state = some (.ok answer)

variable {before after : Reading × Str} {outcome : Except Stopped (Option Response × Str)}
  {result : Except Raised (Option Response × Str)}

theorem gives_of_result (ended : icapTurn largest childStderr before = .inr result) :
    Gives largest childStderr before (result.mapError .raised) := by
  have once : Loop.run (icapTurn largest childStderr) 1 before = some result := by simp only [Loop.run, ended]
  cases result with
  | error raised => exact ⟨1, once⟩
  | ok answer => exact ⟨1, once⟩

theorem gives_of_next (next : Loop.Next (icapTurn largest childStderr) before after)
    (gives : Gives largest childStderr after outcome) : Gives largest childStderr before outcome := by
  cases outcome with
  | error stopped =>
      cases stopped with
      | waiting => exact mt next.halts_iff.mp gives
      | raised raised =>
          obtain ⟨fuel, ended⟩ := gives
          exact ⟨fuel + 1, (Loop.run_next next fuel).trans ended⟩
  | ok answer =>
      obtain ⟨fuel, ended⟩ := gives
      exact ⟨fuel + 1, (Loop.run_next next fuel).trans ended⟩

theorem gives_halts (gives : Gives largest childStderr before outcome) :
    Loop.Halts (icapTurn largest childStderr) before ↔ outcome ≠ .error .waiting := by
  cases outcome with
  | error stopped =>
      cases stopped with
      | waiting => exact iff_of_false gives (not_not_intro rfl)
      | raised raised =>
          obtain ⟨fuel, ended⟩ := gives
          exact iff_of_true ⟨fuel, _, ended⟩ (by simp)
  | ok answer =>
      obtain ⟨fuel, ended⟩ := gives
      exact iff_of_true ⟨fuel, _, ended⟩ (by simp)

theorem body_reads (largest : Nat) (childStderr : Str) (header : ResponseHeader) (chunked : Bool) (content stdout : Str)
    (more : count > 0) (asked : stdout.length < count → count ≤ largest) :
    Loop.Next (icapTurn largest childStderr) (.body header chunked count 0 content, stdout)
      (.body header chunked count (stdout.take count.toNat).length (content ++ stdout.take count.toNat),
        stdout.drop count.toNat) := by
  simpa [Loop.Next, icapTurn, more] using asked

theorem body_endless {read : Nat} (short : read < count) (asked : count ≤ largest) :
    ¬ Loop.Halts (icapTurn largest childStderr) (.body header chunked count read content, []) := by
  have more : count > 0 := by omega
  have goes : ¬ largest < (count - read).toNat := by omega
  have turn : Loop.Next (icapTurn largest childStderr) (.body header chunked count read content, [])
      (.body header chunked count read content, []) := by
    rw [Loop.Next, icapTurn, if_pos more, if_pos short, if_neg (fun refused => goes refused.2)]
    simp
  exact Loop.not_halts_of_cycle (.single turn)

theorem gives_body (largest : Nat) (childStderr : Str) (header : ResponseHeader) (chunked : Bool) (count : Int)
    (content stdout : Str) : Gives largest childStderr (.body header chunked count 0 content, stdout)
      (readBody largest header.bodyComplete chunked count content stdout >>= fun (count, content, left) =>
        (closing childStderr header count content left).mapError .raised) := by
  generalize complete : header.bodyComplete = bodyComplete
  fun_induction readBody largest bodyComplete chunked count content stdout with
  | case1 chunked count content stdout more enough content' left whole =>
      refine gives_of_next (body_reads largest childStderr header chunked content stdout more (by omega))
        (gives_of_result ?_)
      rw [List.length_take_of_le enough, icapTurn, if_pos more, if_neg (by omega), complete, if_pos whole]
  | case2 chunked count content stdout more enough left partly none =>
      refine gives_of_next (body_reads largest childStderr header chunked content stdout more (by omega))
        (gives_of_result (show icapTurn largest childStderr _ = .inr (.error .valueError) from ?_))
      rw [List.length_take_of_le enough, icapTurn, if_pos more, if_neg (by omega), complete, if_neg partly, none]
  | case3 chunked count content stdout more enough content' left partly size announced ih =>
      refine gives_of_next (body_reads largest childStderr header chunked content stdout more (by omega))
        (gives_of_next ?_ ih)
      rw [List.length_take_of_le enough, Loop.Next, icapTurn, if_pos more, if_neg (by omega), complete,
        if_neg partly, announced]
  | case4 chunked count content stdout more short refused =>
      refine gives_of_result (show icapTurn largest childStderr _ = .inr (.error .overflowError) from ?_)
      have read : stdout.length < (count - (0 : Nat)).toNat ∧ largest < (count - (0 : Nat)).toNat := by omega
      rw [icapTurn, if_pos more, if_pos (by omega)]
      exact if_pos read
  | case5 chunked count content stdout more short asked =>
      refine gives_of_next (body_reads largest childStderr header chunked content stdout more (by omega)) ?_
      rw [List.drop_eq_nil_of_le (by omega)]
      exact body_endless (by rw [List.length_take]; omega) (by omega)
  | case6 chunked count content stdout done =>
      refine gives_of_result ?_
      rw [icapTurn, if_neg done]

/-- What follows the header lines. -/
def readRest (largest : Nat) (childStderr : Str) : Option Str × Str → Except Stopped (Option Response × Str)
  | (none, _) => .error (.raised .attributeError)
  | (some headerString, stdout) => do
      let header ← (parseResponseHeader headerString).mapError .raised
      let (bytesToRead, contentS, stdout) ←
        readBody largest header.bodyComplete false header.contentLength [] stdout
      (closing childStderr header bytesToRead contentS stdout).mapError .raised

theorem readChildResponse_eq : readChildResponse largest childStderr stdout =
    readRest largest childStderr (readHeader (readline stdout).1 (readline stdout).2) := by
  simp only [readChildResponse]
  rcases readHeader (readline stdout).1 (readline stdout).2 with ⟨_ | headerString, left⟩
  · rfl
  · simp only [readRest, closing]
    congr! 5
    split <;> rfl

theorem gives_header (largest : Nat) (childStderr headerString stdout : Str) :
    Gives largest childStderr (.header headerString, stdout)
      (readRest largest childStderr (readHeader headerString stdout)) := by
  fun_induction readHeader headerString stdout with
  | case1 headerString stdout none =>
      refine gives_of_result (show icapTurn largest childStderr _ = .inr (.error .attributeError) from ?_)
      exact if_pos none
  | case2 headerString stdout line whole blank =>
      cases parsed : parseResponseHeader whole with
      | error raised =>
          have ended : icapTurn largest childStderr (.header headerString, stdout) = .inr (.error raised) := by
            simp only [icapTurn, if_neg line, if_pos blank]
            rw [parsed]
          simp only [readRest, parsed]
          exact gives_of_result ended
      | ok header =>
          have next : Loop.Next (icapTurn largest childStderr) (.header headerString, stdout)
              (.body header false header.contentLength 0 [], (readline stdout).2) := by
            simp only [Loop.Next, icapTurn, if_neg line, if_pos blank]
            rw [parsed]
          simp only [readRest, parsed]
          exact gives_of_next next (gives_body largest childStderr header false header.contentLength [] _)
  | case3 headerString stdout line whole visible ih =>
      refine gives_of_next ?_ ih
      simp only [Loop.Next, icapTurn, if_neg line, if_neg visible]
      rfl

theorem gives_answer (largest : Nat) (childStderr stdout : Str) :
    Gives largest childStderr (answered stdout) (readChildResponse largest childStderr stdout) :=
  readChildResponse_eq ▸ gives_header largest childStderr _ _

/-- The output ends before a count that its own header or a chunk of it announced,
and that `read` can be asked for. -/
def Unfinished (largest : Nat) (stdout : Str) : Prop :=
  ∃ headerString left header,
    readHeader (readline stdout).1 (readline stdout).2 = (some headerString, left) ∧
    parseResponseHeader headerString = .ok header ∧
    Starved largest header.bodyComplete false header.contentLength left

theorem readChildResponse_waiting_iff :
    readChildResponse largest childStderr stdout = .error .waiting ↔ Unfinished largest stdout := by
  rw [readChildResponse_eq, Unfinished]
  rcases readHeader (readline stdout).1 (readline stdout).2 with ⟨_ | headerString, left⟩
  · simp [readRest]
  · cases parsed : parseResponseHeader headerString with
    | error raised => simp [readRest, parsed, bind, Except.bind, Except.mapError]
    | ok header =>
        have closes : ∀ count content left,
            (closing childStderr header count content left).mapError Stopped.raised ≠
              .error .waiting := by
          intro count content left
          rw [closing]
          split <;> simp [Except.mapError]
        have waits : readRest largest childStderr (some headerString, left) = .error .waiting ↔
            readBody largest header.bodyComplete false header.contentLength [] left = .error .waiting := by
          simp only [readRest, parsed, Except.mapError, bind, Except.bind]
          cases readBody largest header.bodyComplete false header.contentLength [] left with
          | error stopped => simp
          | ok ended => exact iff_of_false (closes _ _ _) (by simp)
        rw [waits, readBody_waiting_iff]
        constructor
        · exact fun starved => ⟨headerString, left, header, rfl, parsed, starved⟩
        · intro given
          obtain ⟨_, _, again, ⟨⟩, same, starved⟩ := given
          cases parsed.symm.trans same
          exact starved

/-- A child that says no more is read to the end by `Redirector` if it said
anything, and by `ICAPRedirector` if it said all that it announced (or announced
more than can be asked for). -/
theorem answers_end_iff (largest : Nat) (childStderr stdout : Str) :
    (Loop.Halts lineTurn stdout ↔ stdout ≠ []) ∧
      (Loop.Halts (icapTurn largest childStderr) (answered stdout) ↔ ¬ Unfinished largest stdout) :=
  ⟨lineTurn_halts_iff, (gives_halts (gives_answer largest childStderr stdout)).trans
    (not_congr readChildResponse_waiting_iff)⟩

/-- The header of an answer is read, and then more bytes are awaited than follow. -/
theorem unfinished_of_sent (sent : SentResponse) {encapsulated : Encapsulated} {http : HttpHeader} {cut : Str}
    (parts : sent.parts = .null encapsulated http) (short : cut.length < http.bytes.length)
    (asked : http.bytes.length ≤ largest) :
    Unfinished largest (sent.headerBytes ++ cut) := by
  obtain ⟨header, parsed, _, offsets, length⟩ := sent.parseHeader
  have announced : sent.encapsulated.value =
      encapsulated.hdr ++ ascii "=0, " ++ ascii "null-body" ++ ascii "=" ++ Str.decimal http.bytes.length := by
    have value := sent.announced
    rwa [parts] at value
  have nullPlain : Plain (ascii "null-body") := by unfold Plain; decide +kernel
  rw [announced, getOffsets_pair encapsulated.plain.1 nullPlain] at offsets
  rw [offsets] at length
  have counted : header.contentLength = http.bytes.length := (Prod.mk.inj length).1
  have whole : sent.headerBytes ++ cut = sent.statusLine.text ++ sent.statusLine.ending.bytes ++
      (sent.headerLines.flatMap (·.bytes) ++ (sent.blank.bytes ++ cut)) := by
    simp [SentResponse.headerBytes, Line.bytes]
  refine ⟨sent.headerBytes, cut, header, ?_, parsed, .cut ?_ ?_⟩
  · rw [whole, readline_line sent.statusLine.single]
    exact readHeader_lines sent.headerLines sent.blank
  · rw [counted]
    exact_mod_cast short
  · rw [counted]
    exact_mod_cast asked

def tenBytesLine : HeaderLine :=
  ⟨⟨ascii "Encapsulated: req-hdr=0, null-body=10", .crlf, by decide, by decide⟩, by decide⟩

/-- An answer whose header says that the request to send is ten bytes long. -/
def tenBytes : SentResponse where
  code := ascii "200"
  status := ascii "OK"
  statusLine := ⟨ascii "ICAP/1.0 200 OK", .crlf, by decide, by decide⟩
  headers := []
  encapsulated := tenBytesLine
  others := []
  blank := .crlf
  parts := .null .req ⟨ascii "GET / HTTP", by decide, by decide⟩
  numeric := by decide
  stated := rfl
  named := by decide +kernel
  keys := by simp
  announced := by simp only [Parts.Announced]; decide +kernel

/-- The largest size that fits a C long of 64 bits. -/
def longMax : Nat := 9223372036854775807

/-- A child that says nothing, and one whose answer is cut. -/
theorem endless_answers :
    ¬ Loop.Halts lineTurn [] ∧
      ¬ Loop.Halts (icapTurn longMax []) (answered (tenBytes.headerBytes ++ ascii "GET")) := by
  have unfinished : Unfinished longMax (tenBytes.headerBytes ++ ascii "GET") :=
    unfinished_of_sent tenBytes rfl (by decide) (by decide)
  refine ⟨fun halts => lineTurn_halts_iff.mp halts rfl, fun halts => ?_⟩
  exact (gives_halts (gives_answer longMax [] _)).mp halts (readChildResponse_waiting_iff.mpr unfinished)

end ExaProxy.Worker
