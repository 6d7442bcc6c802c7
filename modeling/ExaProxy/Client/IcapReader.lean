import ExaProxy.Client.Requests
import ExaProxy.Data.Fuel
import ExaProxy.Data.Methods
import Mathlib.Logic.Relation

namespace ExaProxy.Client.IcapClient

open Data Http Relation

def eorLen : Nat := 4

/-- `findEOR`, with `none` for `('', -1)`.  What is searched is the `eor` that was found
last, which is empty at first, and not the `match` of the loop. -/
def findEOR (rBuffer : Str) (seek : Nat) : Option (Str × Nat) :=
  let seekPos := seek - (eorLen - 1) -- never negative
  let best := eors.foldl (fun (best : Option (Str × Nat)) terminator =>
    match Str.find (best.elim [] Prod.fst) (rBuffer.drop seekPos) with
    | none => best
    | some found =>
        if best.all (found < ·.2) then some (terminator, found + terminator.length) else best) none
  best.map fun (eor, pos) => (eor, seek + pos)

/-- A computation that has not come to its end. -/
inductive Unfinished where
  | running

/-- `checkRequest`, with `none` for a request that is too long. -/
def checkRequest (rBuffer : Str) (size seek : Nat) : Nat → Except Unfinished (Option (Str × Str × Nat))
  | 0 => .error .running
  | fuel + 1 =>
      match findEOR rBuffer seek with
      | some (_, seekPos) =>
          let buff := rBuffer.take seekPos
          if countQuotes buff % 2 = 0 then -- we have matching pairs
            .ok (some (buff, rBuffer.drop seekPos, 0))
          else checkRequest rBuffer size seekPos fuel
      | none =>
          if size ≠ 0 ∧ rBuffer.length > size then .ok none else .ok (some ([], rBuffer, seek))

inductive Mode where
  | icap | http | options | bad
deriving DecidableEq, Repr

/-- The mode in which a request is read further. -/
def requestMode (icapRequest : Str) : Mode :=
  let preview := Str.upper ((icapRequest.dropWhile Str.isSpace).take 8)
  let preview :=
    if Str.includes (ascii " ") preview then
      ((Str.splitOnce (ascii " ") icapRequest).map Prod.fst).getD icapRequest
    else []
  if preview = ascii "OPTIONS" then .options
  else if preview ∈ [ascii "REQMOD", ascii "RESPMOD"] then .http
  else .bad

/-- What `processICAPRequest` returns. -/
structure Processed where
  icapRequest : Option Str
  rBuffer : Option Str
  mode : Mode
  nbToSend : Nat
  seek : Option Nat

def processICAPRequest (rBuffer : Str) (mode : Mode) (nbToSend maxBuffer seek fuel : Nat) :
    Except Unfinished Processed := do
  -- ignore EOL
  let rBuffer := Str.lstrip crlf rBuffer
  -- check to see if we have read an entire request
  match ← checkRequest rBuffer maxBuffer seek fuel with
  | none => return ⟨none, none, mode, nbToSend, none⟩
  | some (icapRequest, rBuffer, seek) =>
      if icapRequest ≠ [] then
        return ⟨some icapRequest, some rBuffer, requestMode icapRequest, nbToSend, some 0⟩
      else
        return ⟨some icapRequest, some rBuffer, mode, nbToSend, some seek⟩

variable {text request rest : Str} {size place next pos fuel : Nat}

/-- CRLF CRLF starts among the four positions from three bytes before the place on. -/
def Window (text : Str) (place pos : Nat) : Prop :=
  place - 3 ≤ pos ∧ pos ≤ place - 3 + 3 ∧ Str.Occurs crlfcrlf text pos

/-- The next place at which a text is cut: four bytes further, but for the first CRLF CRLF
that ends before, which it goes one byte beyond.  In the first step that is the place
behind the first line end of the two. -/
def Next (text : Str) (place next : Nat) : Prop :=
  (∀ pos, ¬ Window text place pos) ∧ next = place + 4 ∨
    ∃ pos, Window text place pos ∧ (∀ earlier < pos, ¬ Window text place earlier) ∧
      next = place + (pos - (place - 3)) + 2

theorem window_iff : Window text place pos ↔
    ∃ found < 4, pos = place - 3 + found ∧ Str.Occurs crlfcrlf (text.drop (place - 3)) found := by
  simp only [Window, Str.occurs_drop]
  constructor
  · intro ⟨low, high, occurs⟩
    exact ⟨pos - (place - 3), by omega, by omega, by rwa [Nat.add_sub_cancel' low]⟩
  · intro given
    obtain ⟨found, small, rfl, occurs⟩ := given
    exact ⟨by omega, by omega, occurs⟩

theorem findEOR_eq (text : Str) (place : Nat) : findEOR text place =
    match Str.find crlfcrlf (text.drop (place - 3)) with
    | none => some (crlfcrlf, place + 4)
    | some found => if found < 4 then some (lflf, place + (found + 2)) else some (crlfcrlf, place + 4) := by
  have empty : Str.find [] (text.drop (place - 3)) = some 0 := by
    cases text.drop (place - 3) <;> simp [Str.find]
  simp only [findEOR, eors, List.foldl_cons, List.foldl_nil, Option.elim_none, eorLen, empty,
    Option.all_none, if_true, Option.elim_some]
  cases Str.find crlfcrlf (text.drop (place - 3)) with
  | none => rfl
  | some found =>
      simp only [crlfcrlf_length, lflf_length, Option.all_some, decide_eq_true_eq, Nat.zero_add]
      split <;> rfl

theorem findEOR_next (text : Str) (place : Nat) :
    ∃ eor next, findEOR text place = some (eor, next) ∧ Next text place next := by
  rw [findEOR_eq]
  cases search : Str.find crlfcrlf (text.drop (place - 3)) with
  | none =>
      refine ⟨crlfcrlf, place + 4, rfl, .inl ⟨fun pos window => ?_, rfl⟩⟩
      obtain ⟨found, _, _, occurs⟩ := window_iff.mp window
      exact Str.find_eq_none_iff.mp search found occurs
  | some found =>
      obtain ⟨occurs, first⟩ := Str.find_eq_some_iff.mp search
      simp only
      split
      · next small =>
          refine ⟨lflf, place + (found + 2), rfl, .inr ⟨place - 3 + found, ?_, fun earlier before window => ?_, ?_⟩⟩
          · exact window_iff.mpr ⟨found, small, rfl, occurs⟩
          · obtain ⟨sooner, _, rfl, occurs⟩ := window_iff.mp window
            exact first sooner (by omega) occurs
          · omega
      · next far =>
          refine ⟨crlfcrlf, place + 4, rfl, .inl ⟨fun pos window => ?_, rfl⟩⟩
          obtain ⟨sooner, small, rfl, occurs⟩ := window_iff.mp window
          exact first sooner (by omega) occurs

theorem Next.unique {other : Nat} (first : Next text place next) (second : Next text place other) :
    next = other := by
  rcases first with ⟨none, rfl⟩ | ⟨pos, window, least, rfl⟩ <;>
    rcases second with ⟨none', rfl⟩ | ⟨pos', window', least', rfl⟩
  · rfl
  · exact absurd window' (none pos')
  · exact absurd window (none' pos)
  · rcases Nat.lt_trichotomy pos pos' with before | rfl | behind
    · exact absurd window (least' pos before)
    · rfl
    · exact absurd window' (least pos' behind)

/-- A place with quotes before it that do not match is skipped. -/
def Skips (text : Str) (place next : Nat) : Prop := Next text place next ∧ Quoted text next

/-- `checkRequest` cuts at the first place with matching quotes. -/
theorem checkRequest_returns {returned : Option (Str × Str × Nat)} :
    Returns (checkRequest text size place) returned ↔
      ∃ last next, ReflTransGen (Skips text) place last ∧ Next text last next ∧ ¬ Quoted text next ∧
        returned = some (text.take next, text.drop next, 0) := by
  constructor
  · intro ⟨fuel, returned⟩
    induction fuel generalizing place with
    | zero => cases returned
    | succ fuel ih =>
        obtain ⟨eor, next, search, follows⟩ := findEOR_next text place
        simp only [checkRequest, search] at returned
        split at returned
        · next even =>
            cases returned
            exact ⟨place, next, .refl, follows, not_quoted_iff.mpr even, rfl⟩
        · next odd =>
            obtain ⟨last, cut, skips, rest⟩ := ih returned
            exact ⟨last, cut, .head ⟨follows, by rwa [← not_quoted_iff, not_not] at odd⟩ skips, rest⟩
  · intro ⟨last, next, skips, follows, bare, same⟩
    induction skips using ReflTransGen.head_induction_on with
    | refl =>
        obtain ⟨eor, cut, search, follows'⟩ := findEOR_next text last
        obtain rfl := follows.unique follows'
        exact ⟨1, by simp only [checkRequest, search, if_pos (not_quoted_iff.mp bare), same]⟩
    | head step _ ih =>
        obtain ⟨fuel, returned⟩ := ih
        obtain ⟨follows', quoted⟩ := step
        obtain ⟨eor, cut, search, follows''⟩ := findEOR_next text _
        obtain rfl := follows'.unique follows''
        have odd := mt not_quoted_iff.mpr (not_not_intro quoted)
        exact ⟨fuel + 1, by simp only [checkRequest, search, if_neg odd, returned]⟩

/-- The request is cut behind four bytes, all places before them being skipped, or behind
three bytes where the text ends. -/
def Reached (text request rest : Str) : Prop :=
  ∃ place, ReflTransGen (Skips text) 0 place ∧ (∀ pos, ¬ Window text place pos) ∧
    (request.length = place + 4 ∨ request.length = place + 3 ∧ rest = [])

theorem Next.positive (follows : Next text place next) : 0 < next := by
  rcases follows with ⟨_, rfl⟩ | ⟨pos, _, _, rfl⟩ <;> omega

/-- Each place that was reached is the start of the text or has quotes before it that do
not match. -/
theorem reached_place (stripped : Stripped text) (skips : ReflTransGen (Skips text) 0 place) :
    place = 0 ∨ 3 ≤ place ∧ Quoted text place := by
  induction skips with
  | refl => exact .inl rfl
  | tail skips step ih =>
      refine .inr ⟨?_, step.2⟩
      rcases step.1 with ⟨_, rfl⟩ | ⟨pos, ⟨_, _, occurs⟩, _, rfl⟩
      · omega
      · have positive := stripped.positive (by simp [eors]) occurs
        omega

variable {eor : Str}

/-- A request that is cut rightly ends four bytes behind the last place that is skipped. -/
theorem cut_place (stripped : Stripped text) (first : FirstEnd text eor pos) (skips : ReflTransGen (Skips text) 0 place)
    (follows : Next text place next) (cut : min next text.length = pos + eor.length) :
    (∀ pos, ¬ Window text place pos) ∧
      (pos + eor.length = place + 4 ∨ pos + eor.length = place + 3 ∧ pos + eor.length = text.length) := by
  have bound := first.occurs.bound (eor_ne_nil first.mem)
  have two : 2 ≤ eor.length := by
    obtain rfl | rfl := mem_eors.mp first.mem <;> decide
  have positive := first.positive
  rcases follows with ⟨none, rfl⟩ | ⟨blank, ⟨low, high, occurs⟩, least, rfl⟩
  · refine ⟨none, ?_⟩
    rcases reached_place stripped skips with rfl | ⟨_, quoted⟩
    · omega
    · -- the quotes that match again stand between the place and the end
      have behind : place < pos := by
        by_contra ahead
        refine first.bare ?_
        by_cases within : place ≤ pos + eor.length
        · have inside : place - pos ≤ eor.length := by omega
          refine (quoted_within first.mem first.occurs inside).mp ?_
          rwa [Nat.add_sub_cancel' (by omega)]
        · refine (quoted_within first.mem first.occurs (Nat.le_refl eor.length)).mp ?_
          rw [Quoted, List.take_of_length_le (by omega)] at quoted ⊢
          exact quoted
      omega
  · exfalso
    have ends : blank + 4 ≤ text.length := occurs.bound (eor_ne_nil (by simp [eors]))
    rcases reached_place stripped skips with rfl | ⟨far, quoted⟩
    · obtain rfl | rfl := mem_eors.mp first.mem
      · simp only [crlfcrlf_length] at cut
        exact least pos (by omega) ⟨by omega, by omega, first.occurs⟩
      · simp only [lflf_length] at cut
        have apart := uncrossed occurs first.occurs
        omega
    · have inside : Quoted text blank := by
        have within : place - blank ≤ crlfcrlf.length := by
          rw [crlfcrlf_length]
          omega
        refine (quoted_within (by simp [eors]) occurs within).mp ?_
        rwa [Nat.add_sub_cancel' (by omega)]
      have apart := apart (by simp [eors]) occurs inside first.mem first.occurs first.bare
      rw [crlfcrlf_length] at apart
      omega

theorem checkRequest_reached (stripped : Stripped text) (next : nextRequest text = some (request, rest)) :
    Returns (checkRequest text size 0) (some (request, rest, 0)) ↔ Reached text request rest := by
  obtain ⟨eor, pos, first, rfl, rfl⟩ := nextRequest_eq_some_iff.mp next
  have bound := first.occurs.bound (eor_ne_nil first.mem)
  have size : (text.take (pos + eor.length)).length = pos + eor.length := List.length_take_of_le bound
  rw [checkRequest_returns]
  constructor
  · intro ⟨place, cut, skips, follows, bare, same⟩
    simp only [Option.some.injEq, Prod.mk.injEq] at same
    have lengths := congrArg List.length same.1
    rw [size, List.length_take] at lengths
    obtain ⟨none, ends⟩ := cut_place stripped first skips follows lengths.symm
    refine ⟨place, skips, none, ?_⟩
    rw [size, List.drop_eq_nil_iff]
    omega
  · intro ⟨place, skips, unseen, ends⟩
    rw [size, List.drop_eq_nil_iff] at ends
    have whole : text.take (place + 4) = text.take (pos + eor.length) ∧
        text.drop (place + 4) = text.drop (pos + eor.length) := by
      rcases ends with same | ⟨same, past⟩
      · rw [same]
        exact ⟨rfl, rfl⟩
      · rw [List.take_of_length_le (by omega), List.take_of_length_le past,
          List.drop_of_length_le (by omega), List.drop_of_length_le past]
        exact ⟨rfl, rfl⟩
    refine ⟨place, place + 4, skips, .inl ⟨unseen, rfl⟩, ?_, by rw [whole.1, whole.2]⟩
    rw [Quoted, whole.1]
    exact mt (quoted_within first.mem first.occurs (Nat.le_refl _)).mp first.bare

theorem checkRequest_seek {seek : Nat} (returned : Returns (checkRequest text size place) (some (request, rest, seek))) :
    seek = 0 := by
  obtain ⟨_, _, _, _, _, same⟩ := checkRequest_returns.mp returned
  simp only [Option.some.injEq, Prod.mk.injEq] at same
  exact same.2.2

theorem checkRequest_keeps {seek : Nat} (returned : Returns (checkRequest text size 0) (some ([], rest, seek))) :
    text = [] := by
  obtain ⟨place, cut, _, follows, _, same⟩ := checkRequest_returns.mp returned
  simp only [Option.some.injEq, Prod.mk.injEq] at same
  have positive := follows.positive
  rcases List.take_eq_nil_iff.mp same.1.symm with zero | empty
  · omega
  · exact empty

/-- What should be cut out of the text: its shortest request, or nothing. -/
def expected (text : Str) : Str × Str := (nextRequest text).getD ([], text)

/-- As long as the client sends its first request, each call of `processICAPRequest` for
a piece of it returns the request if there is one already, keeps everything otherwise, and
takes a REQMOD request for one. -/
def Framed (size : Nat) : Str → Nat → List Str → Prop
  | _, _, [] => True
  | rBuffer, seek, piece :: pieces =>
      let (request, rest) := expected (Str.lstrip crlf (rBuffer ++ piece))
      ∃ processed, Returns (processICAPRequest (rBuffer ++ piece) .icap 0 size seek) processed ∧
        processed.icapRequest = some request ∧ processed.rBuffer = some rest ∧
        (ascii "REQMOD " <+: request → processed.mode = .http) ∧
        ∃ next, processed.seek = some next ∧ (request = [] → Framed size rest next pieces)

/-- The first text that is received, but for line ends before it. -/
def firstText (pieces : List Str) : Option Str := (pieces.map (Str.lstrip crlf)).find? (· ≠ [])

theorem includes_byte (byte : UInt8) (before after : Str) : Str.includes [byte] (before ++ byte :: after) = true := by
  refine Str.includes_iff.mpr ⟨before.length, ?_⟩
  rw [Str.Occurs, List.drop_left]
  exact List.prefix_append [byte] after

theorem requestMode_reqmod (reqmod : ascii "REQMOD " <+: request) : requestMode request = .http := by
  obtain ⟨more, rfl⟩ := reqmod
  have stripped : (ascii "REQMOD " ++ more).dropWhile Str.isSpace = ascii "REQMOD " ++ more :=
    List.dropWhile_cons_of_neg (a := 82) (l := ascii "EQMOD " ++ more) (by decide)
  have preview : Str.upper ((ascii "REQMOD " ++ more).take 8) = ascii "REQMOD" ++ 32 :: Str.upper (more.take 1) := rfl
  have spaced : Str.includes [32] (ascii "REQMOD" ++ 32 :: Str.upper (more.take 1)) = true :=
    includes_byte 32 (ascii "REQMOD") _
  have space : ascii " " = [32] := rfl
  simp only [requestMode, stripped, preview, space, spaced, if_true]
  rfl

theorem processICAPRequest_returns {rBuffer : Str} {mode : Mode} {nbToSend seek : Nat} {processed : Processed} :
    Returns (processICAPRequest rBuffer mode nbToSend size seek) processed ↔
      ∃ request rest next, Returns (checkRequest (Str.lstrip crlf rBuffer) size seek) (some (request, rest, next)) ∧
        processed = if request ≠ [] then ⟨some request, some rest, requestMode request, nbToSend, some 0⟩
          else ⟨some request, some rest, mode, nbToSend, some next⟩ := by
  constructor
  · intro ⟨fuel, returned⟩
    obtain ⟨checked, found, processed⟩ := bind_eq_ok.mp returned
    obtain ⟨_, cut, _, _, _, rfl⟩ := checkRequest_returns.mp ⟨fuel, found⟩
    refine ⟨_, _, _, ⟨fuel, found⟩, ?_⟩
    simp only at processed
    split at processed <;> cases processed
    · next filled => rw [if_pos filled]
    · next empty => rw [if_neg empty]
  · intro given
    obtain ⟨request, rest, next, ⟨fuel, returned⟩, rfl⟩ := given
    refine ⟨fuel, bind_eq_ok.mpr ⟨_, returned, ?_⟩⟩
    simp only
    split <;> rfl

theorem firstText_cons (piece : Str) (pieces : List Str) : firstText (piece :: pieces) =
    if Str.lstrip crlf piece = [] then firstText pieces else some (Str.lstrip crlf piece) := by
  simp only [firstText, List.map_cons, List.find?_cons]
  split <;> simp_all

theorem framed_cons {rBuffer piece : Str} {seek : Nat} {pieces : List Str}
    (received : Str.lstrip crlf (rBuffer ++ piece) = text) :
    Framed size rBuffer seek (piece :: pieces) ↔ ∃ next,
      Returns (checkRequest text size seek) (some ((expected text).1, (expected text).2, next)) ∧
        ((expected text).1 = [] → Framed size (expected text).2 next pieces) := by
  simp only [Framed, processICAPRequest_returns, received]
  constructor
  · intro given
    obtain ⟨_, ⟨request, rest, next, returned, rfl⟩, sameRequest, sameRest, _, seek', sameSeek, later⟩ := given
    split at sameRequest
    · next filled =>
        simp only [filled, ne_eq, not_false_eq_true, if_true, Option.some.injEq] at sameRequest sameRest
        subst sameRequest sameRest
        exact ⟨next, returned, fun empty => absurd empty filled⟩
    · next empty =>
        simp only [empty, if_false, Option.some.injEq] at sameRequest sameRest sameSeek
        subst sameRequest sameRest sameSeek
        exact ⟨next, returned, later⟩
  · intro ⟨next, returned, later⟩
    refine ⟨_, ⟨_, _, next, returned, rfl⟩, ?_⟩
    split
    · next filled =>
        exact ⟨rfl, rfl, requestMode_reqmod, 0, rfl, fun empty => absurd empty filled⟩
    · next empty =>
        rw [ne_eq, not_not] at empty
        exact ⟨rfl, rfl, fun reqmod => absurd (List.prefix_nil.mp (empty ▸ reqmod)) (by decide), next, rfl, later⟩

theorem nextRequest_filled (next : nextRequest text = some (request, rest)) : request ≠ [] := by
  intro empty
  have whole := nextRequest_append next
  have shorter := nextRequest_length next
  rw [empty, List.nil_append] at whole
  rw [whole] at shorter
  omega

/-- The first request of a client is cut rightly, however it is received, if and only if
the first text that is received reaches it. -/
theorem requests_framed (size : Nat) (pieces : List Str) :
    Framed size [] 0 pieces ↔ ∀ text, firstText pieces = some text →
      ∃ request rest, nextRequest text = some (request, rest) ∧ Reached text request rest := by
  induction pieces with
  | nil => simp [Framed, firstText]
  | cons piece pieces ih =>
      rw [framed_cons (by rw [List.nil_append]), firstText_cons]
      have stripped := stripped_lstrip piece
      by_cases empty : Str.lstrip crlf piece = []
      · -- only line ends were received, and the search starts anew
        rw [if_pos empty, ← ih, empty]
        have next : expected [] = ([], []) := by decide
        have kept : ∀ seek, Returns (checkRequest [] size 0) (some ([], [], seek)) ↔ seek = 0 := by
          intro seek
          refine ⟨checkRequest_seek, ?_⟩
          intro given
          subst given
          exact checkRequest_returns.mpr ⟨0, 4, .refl, .inl ⟨by simp [Window, Str.Occurs, crlfcrlf], rfl⟩,
            by simp [Quoted, countQuotes, Str.count, Str.countFrom], rfl⟩
        simp [next, kept]
      · rw [if_neg empty]
        cases next : nextRequest (Str.lstrip crlf piece) with
        | none =>
            simp only [expected, next, Option.getD_none]
            refine iff_of_false (fun kept => ?_) (fun reached => ?_)
            · obtain ⟨seek, returned, _⟩ := kept
              exact empty (checkRequest_keeps returned)
            · obtain ⟨request, rest, found, _⟩ := reached _ rfl
              rw [next] at found
              cases found
        | some cut =>
            obtain ⟨request, rest⟩ := cut
            have filled := nextRequest_filled next
            simp only [expected, next, Option.getD_some, filled, false_imp_iff, and_true]
            constructor
            · intro cuts text same
              obtain ⟨seek, returned⟩ := cuts
              obtain rfl := Option.some.inj same
              obtain rfl := checkRequest_seek returned
              exact ⟨request, rest, next, (checkRequest_reached stripped next).mp returned⟩
            · intro reached
              obtain ⟨request', rest', found, reached⟩ := reached _ rfl
              rw [next] at found
              cases found
              exact ⟨0, (checkRequest_reached stripped next).mpr reached⟩

theorem checkRequest_stable (text : Str) (size place : Nat) : Stable (checkRequest text size place) := by
  intro fuel value returned more enough
  induction fuel generalizing place more with
  | zero => cases returned
  | succ fuel ih =>
      obtain ⟨more, rfl⟩ := Nat.exists_eq_add_of_le enough
      rw [Nat.add_right_comm, checkRequest]
      rw [checkRequest] at returned
      split at returned
      · next found =>
          simp only at returned ⊢
          split at returned
          · next even => rw [if_pos even, returned]
          · next odd =>
              rw [if_neg odd]
              exact ih _ returned _ (Nat.le_add_right fuel more)
      · exact returned

/-- A modification request is cut behind its fourth byte, whatever follows. -/
theorem reqmod_checked (starts : ascii "REQM" <+: text) :
    Returns (checkRequest text size 0) (some (ascii "REQM", text.drop 4, 0)) := by
  obtain ⟨more, rfl⟩ := starts
  have unseen : ∀ pos, ¬ Window (ascii "REQM" ++ more) 0 pos := by
    intro pos ⟨_, high, occurs⟩
    have first := occurs.getElem? (show 0 < crlfcrlf.length by decide)
    rw [Nat.add_zero, List.getElem?_append_left (by rw [show (ascii "REQM").length = 4 from rfl]; omega)] at first
    obtain rfl | rfl | rfl | rfl : pos = 0 ∨ pos = 1 ∨ pos = 2 ∨ pos = 3 := by omega
    all_goals exact absurd first (by decide)
  refine checkRequest_returns.mpr ⟨0, 4, .refl, .inl ⟨unseen, rfl⟩, ?_, rfl⟩
  have bare : countQuotes (ascii "REQM") = 0 := by decide
  rw [Quoted, List.take_append_of_le_length (by decide), show (ascii "REQM").take 4 = ascii "REQM" from rfl, bare]
  decide

def reqmod : Str := ascii "REQMOD icap://a/ ICAP/1.0\r\n\r\n"

/-- A request that came whole is not returned, and what is left of it has no mode. -/
theorem reqmod_cut : ¬ Framed 0 [] 0 [reqmod] ∧
    Returns (processICAPRequest reqmod .icap 0 0 0)
      ⟨some (ascii "REQM"), some (reqmod.drop 4), .bad, 0, some 0⟩ := by
  have received : Str.lstrip crlf reqmod = reqmod := by decide +kernel
  have starts : ascii "REQM" <+: reqmod := by decide +kernel
  constructor
  · intro framed
    obtain ⟨seek, returned, _⟩ := (framed_cons (by rw [List.nil_append, received])).mp framed
    have same := returned.unique (checkRequest_stable reqmod 0 0) (reqmod_checked starts)
    simp only [Option.some.injEq, Prod.mk.injEq] at same
    have whole : (expected reqmod).1 = reqmod := by decide +kernel
    rw [whole] at same
    exact absurd same.1 (by decide +kernel)
  · refine processICAPRequest_returns.mpr ⟨ascii "REQM", reqmod.drop 4, 0, ?_, rfl⟩
    rw [received]
    exact reqmod_checked starts

/-! When the search for the end of a request comes to its own end. -/

theorem Next.after (follows : Next text place next) : place < next := by
  rcases follows with ⟨_, rfl⟩ | ⟨pos, _, _, rfl⟩ <;> omega

theorem exists_next (text : Str) (place : Nat) : ∃ next, Next text place next := by
  obtain ⟨_, next, _, follows⟩ := findEOR_next text place
  exact ⟨next, follows⟩

end ExaProxy.Client.IcapClient
