import ExaProxy.Client.Search
import Mathlib.Data.List.TakeWhile

namespace ExaProxy.Client

open ExaProxy.Data ExaProxy.Http

def Yielded.request? : Yielded → Option Str
  | .request text => some text
  | _ => none

def requestsOf (yielded : List Yielded) : List Str := yielded.filterMap Yielded.request?

/-- The reader while it waits for the rest of a request. -/
def waiting (rBuffer : Str) (seek : Nat) : Reader := { rBuffer, seek }

/-- The reader when it has yielded a request. -/
def answered (rBuffer : Str) : Reader := { rBuffer, awaiting := true }

/-- The requests that are yielded once everything was received. -/
def Yields (size : Nat) (connection : Connection) (texts : List Str) : Prop :=
  ∃ enough, ∀ count ≥ enough, requestsOf (connection.drive size count) = texts

def received (pieces : List Str) : List Recv := pieces.map .data

variable {stream eor request rest buffer piece : Str} {pos seek later length size : Nat}
  {connection after : Connection} {yielded : Yielded} {texts others : List Str}
  {queue : List Recv} {pieces : List Str}

theorem drive_succ (resumed : connection.resume size .newRequest 0 = (yielded, after))
    (opened : yielded.goesOn = true) (count : Nat) :
    connection.drive size (count + 1) = yielded :: after.drive size count := by
  rw [Connection.drive, resumed]
  cases yielded with
  | closed | raised => cases opened
  | request | content | nothing => rfl

theorem requestsOf_cons (yielded : Yielded) (more : List Yielded) :
    requestsOf (yielded :: more) = yielded.request?.toList ++ requestsOf more := by
  cases yielded <;> rfl

theorem Yields.before (resumed : connection.resume size .newRequest 0 = (yielded, after))
    (opened : yielded.goesOn = true) (yields : Yields size after texts) :
    Yields size connection (yielded.request?.toList ++ texts) := by
  obtain ⟨enough, settled⟩ := yields
  refine ⟨enough + 1, fun count enough' => ?_⟩
  obtain ⟨count, rfl⟩ : ∃ fewer, count = fewer + 1 := ⟨count - 1, by omega⟩
  rw [drive_succ resumed opened, requestsOf_cons, settled count (by omega)]

theorem Yields.next (resumed : connection.resume size .newRequest 0 = (yielded, after))
    (opened : yielded.goesOn = true) (yields : Yields size connection texts) :
    ∃ others, texts = yielded.request?.toList ++ others ∧ Yields size after others := by
  obtain ⟨enough, settled⟩ := yields
  have step : ∀ count ≥ enough,
      yielded.request?.toList ++ requestsOf (after.drive size count) = texts := by
    intro count more
    rw [← requestsOf_cons, ← drive_succ resumed opened]
    exact settled (count + 1) (by omega)
  refine ⟨requestsOf (after.drive size enough), (step enough (Nat.le_refl _)).symm, enough,
    fun count more => ?_⟩
  exact List.append_cancel_left ((step count more).trans (step enough (Nat.le_refl _)).symm)

theorem Yields.unique (yields : Yields size connection texts)
    (yields' : Yields size connection others) : texts = others := by
  obtain ⟨enough, settled⟩ := yields
  obtain ⟨enough', settled'⟩ := yields'
  exact (settled _ (Nat.le_max_left enough enough')).symm.trans
    (settled' _ (Nat.le_max_right enough enough'))

theorem resume_waiting (size : Nat) (buffer : Str) (seek : Nat) (queue : List Recv)
    (nonempty : piece ≠ []) :
    Connection.resume size .newRequest 0 ⟨waiting buffer seek, .data piece :: queue⟩ =
      (((waiting (buffer ++ piece) seek).readHttp size).1,
        ⟨((waiting (buffer ++ piece) seek).readHttp size).2, queue⟩) := by
  cases piece with
  | nil => exact absurd rfl nonempty
  | cons byte piece => rfl

theorem resume_answered :
    Connection.resume size .newRequest 0 ⟨answered buffer, queue⟩ =
      (((waiting buffer 0).readHttp size).1, ⟨((waiting buffer 0).readHttp size).2, queue⟩) := rfl

theorem idle_yields (buffer : Str) (seek : Nat) : Yields size ⟨waiting buffer seek, []⟩ [] := by
  have quiet : ∀ count, requestsOf (Connection.drive size count ⟨waiting buffer seek, []⟩) = [] := by
    intro count
    induction count with
    | zero => rfl
    | succ count ih => exact ih
  exact ⟨0, fun count _ => quiet count⟩

theorem readHttp_nothing
    (cut : checkRequest (Str.lstrip crlf buffer) size seek = some ([], rest, later)) :
    (waiting buffer seek).readHttp size = (.nothing, waiting rest later) := by
  simp only [Reader.readHttp, waiting, cut, ne_eq, not_true_eq_false, if_false]

theorem readHttp_request (nonempty : request ≠ [])
    (cut : checkRequest (Str.lstrip crlf buffer) size seek = some (request, rest, later)) :
    (waiting buffer seek).readHttp size = (.request request, answered rest) := by
  simp only [Reader.readHttp, waiting, cut, ne_eq, nonempty, not_false_eq_true, if_true]
  rfl

theorem checkRequest_nil (size seek : Nat) : checkRequest [] size seek = some ([], [], seek) := by
  simp [checkRequest, searchEnd, Str.find, crlfcrlf, lflf]

theorem readHttp_nil (size seek : Nat) :
    (waiting [] seek).readHttp size = (.nothing, waiting [] seek) :=
  readHttp_nothing (checkRequest_nil size seek)

theorem lstrip_take (buffer more : Str) :
    (Str.lstrip crlf (buffer ++ more)).take (Str.lstrip crlf buffer).length =
      Str.lstrip crlf buffer := by
  rw [Str.lstrip_append]
  split
  · next empty => simp [empty]
  · exact List.take_left

theorem lstrip_lstrip_append (buffer more : Str) :
    Str.lstrip crlf (Str.lstrip crlf buffer ++ more) = Str.lstrip crlf (buffer ++ more) := by
  rw [Str.lstrip_append, Str.lstrip_append, Str.lstrip_lstrip]

theorem requests_congr {other : Str} (same : Str.lstrip crlf stream = Str.lstrip crlf other) :
    requests stream = requests other := by
  cases found : nextRequest (Str.lstrip crlf stream) with
  | none => rw [requests_none found, requests_none (same ▸ found)]
  | some pair =>
      obtain ⟨request, rest⟩ := pair
      have found' : nextRequest (Str.lstrip crlf other) = some (request, rest) := same ▸ found
      rw [requests_some found, requests_some found']

section Clear

/-- The rest of a run, from where `r_buffer` is looked at. -/
structure Reads (size : Nat) (buffer : Str) (seek : Nat) (pieces : List Str) : Prop where
  opened : ((waiting buffer seek).readHttp size).1.goesOn = true
  yields : ∃ texts, Yields size ⟨((waiting buffer seek).readHttp size).2, received pieces⟩ texts ∧
    ((waiting buffer seek).readHttp size).1.request?.toList ++ texts =
      (requests (buffer ++ pieces.flatten)).map Prod.fst

theorem Reads.idle (cut : checkRequest (Str.lstrip crlf buffer) size seek =
      some ([], Str.lstrip crlf buffer, later))
    (finished : pieces = [] → requests buffer = [])
    (nonempty : ∀ piece ∈ pieces, piece ≠ [])
    (reads : ∀ piece more, pieces = piece :: more →
      Reads size (Str.lstrip crlf buffer ++ piece) later more) : Reads size buffer seek pieces := by
  have turned := readHttp_nothing cut
  have opened : ((waiting buffer seek).readHttp size).1.goesOn = true := by
    simp only [turned, Yielded.goesOn]
  refine ⟨opened, ?_⟩
  rw [turned]
  cases pieces with
  | nil =>
      refine ⟨[], idle_yields _ _, ?_⟩
      simp only [List.flatten_nil, List.append_nil, finished rfl]
      rfl
  | cons piece pieces =>
      obtain ⟨opened, texts, yields, ends⟩ := reads piece pieces rfl
      refine ⟨_, yields.before (resume_waiting _ _ _ _ (nonempty piece List.mem_cons_self)) opened, ?_⟩
      rw [ends, List.append_assoc, requests_congr (lstrip_lstrip_append buffer _)]
      rfl

theorem Reads.cut (nonempty : request ≠ []) (cut : checkRequest (Str.lstrip crlf buffer) size
      seek = some (request, rest, later))
    (step : requests (buffer ++ pieces.flatten) =
      (request, rest ++ pieces.flatten) :: requests (rest ++ pieces.flatten))
    (reads : Reads size rest 0 pieces) : Reads size buffer seek pieces := by
  have turned := readHttp_request nonempty cut
  have opened : ((waiting buffer seek).readHttp size).1.goesOn = true := by
    simp only [turned, Yielded.goesOn]
  refine ⟨opened, ?_⟩
  obtain ⟨opened, texts, yields, ends⟩ := reads
  rw [turned, step]
  refine ⟨_, yields.before resume_answered opened, ?_⟩
  rw [ends]
  rfl

theorem reads_of_clear (bound : Nat) (buffer : Str) (seek : Nat) (pieces : List Str)
    (small : (buffer ++ pieces.flatten).length + pieces.length ≤ bound)
    (nonempty : ∀ piece ∈ pieces, piece ≠ []) (fits : Fits (buffer ++ pieces.flatten) size)
    (clear : ∀ step ∈ requests (buffer ++ pieces.flatten), Clear step.1 step.2)
    (aligned : ∀ eor pos, FirstEnd (Str.lstrip crlf (buffer ++ pieces.flatten)) eor pos →
      Aligned (Str.lstrip crlf (buffer ++ pieces.flatten)) eor pos seek) :
    Reads size buffer seek pieces := by
  induction bound using Nat.strong_induction_on generalizing buffer seek pieces with
  | _ bound ih =>
      have stripped := stripped_lstrip (buffer ++ pieces.flatten)
      have seen := lstrip_take buffer pieces.flatten
      have shorter := lstrip_length (buffer ++ pieces.flatten)
      have fits' : Fits (Str.lstrip crlf (buffer ++ pieces.flatten)) size :=
        fits.imp_right (Nat.le_trans shorter)
      -- while nothing is cut out, the reader goes on with the next piece
      have next : ∀ later, (∀ eor pos,
            FirstEnd (Str.lstrip crlf (buffer ++ pieces.flatten)) eor pos →
              Aligned (Str.lstrip crlf (buffer ++ pieces.flatten)) eor pos later) →
          ∀ piece more, pieces = piece :: more →
            Reads size (Str.lstrip crlf buffer ++ piece) later more := by
        rintro later aligned' piece more rfl
        have joined : Str.lstrip crlf buffer ++ piece ++ more.flatten =
            Str.lstrip crlf buffer ++ (piece :: more).flatten := by
          rw [List.append_assoc, List.flatten_cons]
        have kept := lstrip_lstrip_append buffer (piece :: more).flatten
        have fewer : (Str.lstrip crlf buffer ++ piece ++ more.flatten).length ≤
            (buffer ++ (piece :: more).flatten).length := by
          have shorter' := lstrip_length buffer
          rw [joined, List.length_append, List.length_append]
          omega
        rw [List.length_cons] at small
        refine ih (bound - 1) (by omega) _ later more (by omega)
          (fun piece member => nonempty piece (List.mem_cons_of_mem _ member))
          (fits.imp_right (Nat.le_trans fewer)) ?_ ?_
        · rw [joined, requests_congr kept]
          exact clear
        · rw [joined, kept]
          exact aligned'
      cases found : nextRequest (Str.lstrip crlf (buffer ++ pieces.flatten)) with
      | none =>
          have none := nextRequest_eq_none_iff.mp found
          obtain ⟨later, cut⟩ | ⟨eor, pos, _, closes, _⟩ := checkRequest_cases stripped fits'
            (Str.lstrip crlf buffer).length seek
          · rw [seen] at cut
            refine .idle cut (fun last => ?_) nonempty
              (next later fun eor pos first => absurd first.toCloses (none eor pos))
            rw [last, List.flatten_nil, List.append_nil] at found
            exact requests_none found
          · exact absurd closes (none eor pos)
      | some pair =>
          obtain ⟨request, rest⟩ := pair
          obtain ⟨eor, pos, first, rfl, rfl⟩ := nextRequest_eq_some_iff.mp found
          have steps := requests_some found
          rw [steps] at clear
          have clear_here := (clear_iff first stripped).mp (clear _ List.mem_cons_self)
          obtain ⟨unseen, later, aligned', cut⟩ | ⟨whole, later, cut⟩ := checkRequest_clear first
            stripped clear_here (aligned eor pos first) fits' (Str.lstrip crlf buffer).length
          · rw [seen] at cut
            refine .idle cut (fun last => ?_) nonempty (next later fun other earlier first' => ?_)
            · rw [last, List.flatten_nil, List.append_nil] at first
              have bound := first.occurs.bound (eor_ne_nil first.mem)
              omega
            · obtain ⟨rfl, rfl⟩ := first.unique first'
              exact aligned'
          · rw [seen] at cut
            have positive := first.positive
            have split : Str.lstrip crlf (buffer ++ pieces.flatten) =
                Str.lstrip crlf buffer ++ pieces.flatten := by
              have full : Str.lstrip crlf buffer ≠ [] := List.ne_nil_of_length_pos (by omega)
              rw [Str.lstrip_append, if_neg full]
            have rest : (Str.lstrip crlf (buffer ++ pieces.flatten)).drop (pos + eor.length) =
                (Str.lstrip crlf buffer).drop (pos + eor.length) ++ pieces.flatten := by
              rw [split, List.drop_append_of_le_length whole]
            rw [rest] at steps
            have fewer : ((Str.lstrip crlf buffer).drop (pos + eor.length) ++
                pieces.flatten).length < (buffer ++ pieces.flatten).length := by
              have bound := first.occurs.bound (eor_ne_nil first.mem)
              rw [← rest, List.length_drop]
              omega
            refine .cut (take_ne_nil first.toCloses) cut steps ?_
            refine ih (bound - 1) (by omega) _ 0 pieces (by omega) nonempty
              (fits.imp_right (Nat.le_trans (Nat.le_of_lt fewer))) (fun step member => ?_)
              (fun eor pos _ => aligned_zero _ eor pos)
            rw [← rest] at member
            exact clear step (List.mem_cons_of_mem _ member)

end Clear

section Cuts

theorem Stripped.lstrip_take (stripped : Stripped stream) (length : Nat) :
    Str.lstrip crlf (stream.take length) = stream.take length := by
  cases stream with
  | nil => simp [Str.lstrip]
  | cons byte rest =>
      have head : byte ∉ crlf := stripped byte rfl
      cases length with
      | zero => rfl
      | succ length => rw [List.take_succ_cons, Str.lstrip, List.dropWhile_cons_of_neg (by simpa)]

/-- The bytes one by one. -/
def singles (bytes : Str) : List Str := bytes.map fun byte => [byte]

theorem singles_flatten (bytes : Str) : (singles bytes).flatten = bytes := by
  induction bytes with
  | nil => rfl
  | cons byte bytes ih => exact congrArg (byte :: ·) ih

theorem received_append (before : List Str) : received (before ++ pieces) =
    received before ++ received pieces := List.map_append

theorem Yields.skip {ends : Str} (blank : ∀ byte ∈ ends, byte ∈ crlf)
    (yields : Yields size ⟨waiting [] 0, received (singles ends) ++ queue⟩ texts) :
    Yields size ⟨waiting [] 0, queue⟩ texts := by
  induction ends with
  | nil => exact yields
  | cons byte ends ih =>
      have gone : Str.lstrip crlf ([] ++ [byte]) = [] := by
        rw [List.nil_append, Str.lstrip,
          List.dropWhile_cons_of_pos (by simpa using blank byte List.mem_cons_self)]
        rfl
      have cut : checkRequest (Str.lstrip crlf ([] ++ [byte])) size 0 = some ([], [], 0) := by
        rw [gone]
        exact checkRequest_nil size 0
      have resumed := resume_waiting size [] 0 (received (singles ends) ++ queue)
        (List.cons_ne_nil byte [])
      rw [readHttp_nothing cut] at resumed
      obtain ⟨others, rfl, later⟩ := yields.next resumed rfl
      exact ih (fun byte member => blank byte (List.mem_cons_of_mem _ member)) later

theorem Yields.bytes (stripped : Stripped stream) (fits : Fits stream size) (count : Nat)
    (fresh : Fresh stream length seek) (within : length + count ≤ stream.length)
    (early : ∀ eor pos, Closes stream eor pos → length + count < pos + eor.length)
    (yields : Yields size ⟨waiting (stream.take length) seek,
      received (singles ((stream.drop length).take count)) ++ queue⟩ texts) :
    ∃ later, Fresh stream (length + count) later ∧
      Yields size ⟨waiting (stream.take (length + count)) later, queue⟩ texts := by
  induction count generalizing length seek with
  | zero => exact ⟨seek, fresh, by simpa [singles, received] using yields⟩
  | succ count ih =>
      have bound : length < stream.length := by omega
      have grown : stream.take length ++ [stream[length]] = stream.take (length + 1) :=
        List.take_append_getElem bound
      rw [List.drop_eq_getElem_cons bound, List.take_succ_cons] at yields
      have resumed := resume_waiting size (stream.take length) seek
        (received (singles ((stream.drop (length + 1)).take count)) ++ queue)
        (List.cons_ne_nil stream[length] [])
      obtain ⟨later, cut, fresh', _⟩ | ⟨eor, pos, _, closes, ends, _⟩ :=
        checkRequest_byte fresh stripped fits
      · rw [← stripped.lstrip_take (length + 1), ← grown] at cut
        rw [readHttp_nothing cut, grown, stripped.lstrip_take] at resumed
        obtain ⟨others, rfl, yields'⟩ := yields.next resumed rfl
        obtain ⟨last, fresh'', ends⟩ := ih fresh' (by omega)
          (fun eor pos closes => by
            have later := early eor pos closes
            omega) yields'
        refine ⟨last, ?_, ?_⟩
        · rw [Nat.add_right_comm, Nat.add_assoc] at fresh''
          exact fresh''
        · rw [Nat.add_right_comm, Nat.add_assoc] at ends
          exact ends
      · have never := early eor pos closes
        omega

theorem Yields.byteByByte (first : FirstEnd stream eor pos) (stripped : Stripped stream)
    (fits : Fits stream size) (yields : Yields size ⟨waiting [] 0,
      received (singles (stream.take (pos + eor.length))) ++ queue⟩ texts) :
    ∃ others, texts = stream.take (pos + eor.length) :: others ∧
      Yields size ⟨waiting [] 0, queue⟩ others := by
  have bound := first.occurs.bound (eor_ne_nil first.mem)
  obtain ⟨count, ends⟩ : ∃ count, pos + eor.length = count + 1 :=
    ⟨pos + eor.length - 1, by have positive := first.positive; omega⟩
  have last : count < stream.length := by omega
  have split : stream.take (pos + eor.length) = (stream.drop 0).take count ++ [stream[count]] := by
    rw [ends, List.drop_zero, List.take_append_getElem last]
  have cut : received (singles (stream.take (pos + eor.length))) ++ queue =
      received (singles ((stream.drop 0).take count)) ++ (.data [stream[count]] :: queue) := by
    rw [split]
    simp only [singles, received, List.map_append, List.map_cons, List.map_nil, List.append_assoc,
      List.cons_append, List.nil_append]
  rw [cut] at yields
  obtain ⟨later, fresh, yields⟩ := Yields.bytes stripped fits count (fresh_zero stream) (by omega)
    (fun other earlier closes => by
      have least := first.least other earlier closes
      omega) yields
  rw [Nat.zero_add] at fresh yields
  have resumed := resume_waiting size (stream.take count) later queue
    (List.cons_ne_nil stream[count] [])
  obtain ⟨_, _, _, none⟩ | ⟨_, _, next, _, _, cut⟩ := checkRequest_byte fresh stripped fits
  · exact absurd ends (none eor pos first.toCloses)
  · rw [← ends] at cut
    have whole : Str.lstrip crlf (stream.take count ++ [stream[count]]) =
        stream.take (pos + eor.length) := by
      rw [List.take_append_getElem last, stripped.lstrip_take, ends]
    have cut' : checkRequest (Str.lstrip crlf (stream.take count ++ [stream[count]])) size later =
        some (stream.take (pos + eor.length), [], next) := by
      rw [whole]
      exact cut
    rw [readHttp_request (take_ne_nil first.toCloses) cut'] at resumed
    obtain ⟨others, rfl, yields'⟩ := yields.next resumed rfl
    have idle : Connection.resume size .newRequest 0 ⟨answered [], queue⟩ =
        (.nothing, ⟨waiting [] 0, queue⟩) := by rw [resume_answered, readHttp_nil]
    obtain ⟨others', rfl, yields''⟩ := yields'.next idle rfl
    exact ⟨_, rfl, yields''⟩

theorem Yields.not_missed (nonempty : piece ≠ []) (filled : request ≠ [])
    (fits : Fits (Str.lstrip crlf (buffer ++ piece)) size)
    (missed : ∀ rest later, checkRequest (Str.lstrip crlf (buffer ++ piece)) size seek ≠
      some (request, rest, later)) :
    ¬ Yields size ⟨waiting buffer seek, received [piece]⟩ (request :: texts) := by
  intro yields
  have stripped := stripped_lstrip (buffer ++ piece)
  have resumed := resume_waiting size buffer seek [] nonempty
  have cases := checkRequest_cases stripped fits (Str.lstrip crlf (buffer ++ piece)).length seek
  rw [List.take_length] at cases
  obtain ⟨later, cut⟩ | ⟨eor, pos, later, closes, _, cut⟩ := cases
  · rw [readHttp_nothing cut] at resumed
    obtain ⟨others, same, yields'⟩ := yields.next resumed rfl
    rw [yields'.unique (idle_yields _ _)] at same
    cases same
  · rw [readHttp_request (take_ne_nil closes) cut] at resumed
    obtain ⟨others, same, yields⟩ := yields.next resumed rfl
    cases same
    exact missed _ _ cut

/-- Every cut gives the requests, from a reader that has just started. -/
def Uniform (size : Nat) (stream : Str) : Prop :=
  ∀ pieces, (∀ piece ∈ pieces, piece ≠ []) → pieces.flatten = stream →
    Yields size ⟨waiting [] 0, received pieces⟩ ((requests stream).map Prod.fst)

theorem singles_nonempty (bytes : Str) : ∀ piece ∈ singles bytes, piece ≠ [] := by
  intro piece member
  obtain ⟨byte, _, rfl⟩ := List.mem_map.mp member
  exact List.cons_ne_nil byte []

theorem takeWhile_append_lstrip (stream : Str) :
    stream.takeWhile (· ∈ crlf) ++ Str.lstrip crlf stream = stream :=
  List.takeWhile_append_dropWhile

theorem blank_takeWhile (stream : Str) : ∀ byte ∈ stream.takeWhile (· ∈ crlf), byte ∈ crlf := by
  intro byte member
  simpa using List.mem_takeWhile_imp member

theorem Uniform.tail (uniform : Uniform size stream) (fits : Fits stream size)
    (found : nextRequest (Str.lstrip crlf stream) = some (request, rest)) : Uniform size rest := by
  intro pieces nonempty whole
  have steps := requests_some found
  obtain ⟨eor, pos, first, rfl, rfl⟩ := nextRequest_eq_some_iff.mp found
  have cut : (singles (stream.takeWhile (· ∈ crlf)) ++
      (singles ((Str.lstrip crlf stream).take (pos + eor.length)) ++ pieces)).flatten = stream := by
    rw [List.flatten_append, List.flatten_append, singles_flatten, singles_flatten, whole,
      List.take_append_drop, takeWhile_append_lstrip]
  have yields := uniform _ (by
    intro piece member
    rcases List.mem_append.mp member with ends | member
    · exact singles_nonempty _ piece ends
    · rcases List.mem_append.mp member with bytes | member
      · exact singles_nonempty _ piece bytes
      · exact nonempty piece member) cut
  rw [received_append, received_append, steps] at yields
  obtain ⟨others, same, yields⟩ := (yields.skip (blank_takeWhile stream)).byteByByte first
    (stripped_lstrip stream) (fits.imp_right (Nat.le_trans (lstrip_length stream)))
  cases same
  exact yields

theorem Uniform.clear_head (uniform : Uniform size stream) (fits : Fits stream size)
    (found : nextRequest (Str.lstrip crlf stream) = some (request, rest)) : Clear request rest := by
  have steps := requests_some found
  obtain ⟨eor, pos, first, rfl, rfl⟩ := nextRequest_eq_some_iff.mp found
  have stripped := stripped_lstrip stream
  have fits' : Fits (Str.lstrip crlf stream) size :=
    fits.imp_right (Nat.le_trans (lstrip_length stream))
  have filled := take_ne_nil first.toCloses
  have nonempty : stream ≠ [] := by
    intro same
    subst same
    simp [Str.lstrip] at filled
  -- when everything comes at once, the first call must cut the request out
  have once : ∃ rest later, checkRequest (Str.lstrip crlf stream) size 0 =
      some ((Str.lstrip crlf stream).take (pos + eor.length), rest, later) := by
    by_contra missed
    have yields := uniform [stream] (by simpa using nonempty) (by simp)
    rw [steps, List.map_cons] at yields
    refine absurd yields ?_
    exact Yields.not_missed nonempty filled fits' fun rest later cut => missed ⟨rest, later, cut⟩
  obtain ⟨_, _, once⟩ := once
  refine (clear_iff first stripped).mpr ⟨?_, ?_, ?_⟩
  · rintro rfl earlier before occurs
    exact carriage_missed first stripped before occurs once
  · rintro rfl later after occurs
    have bound := first.occurs.bound (by decide)
    rw [lflf_length] at bound
    have last : (Str.lstrip crlf stream).drop (pos + 1) ≠ [] := by
      refine List.ne_nil_of_length_pos ?_
      rw [List.length_drop]
      omega
    have cut : (singles (stream.takeWhile (· ∈ crlf)) ++
        (singles ((Str.lstrip crlf stream).take (pos + 1)) ++
          [(Str.lstrip crlf stream).drop (pos + 1)])).flatten = stream := by
      rw [List.flatten_append, List.flatten_append, singles_flatten, singles_flatten,
        List.flatten_singleton, List.take_append_drop, takeWhile_append_lstrip]
    have yields := uniform _ (by
      intro piece member
      rcases List.mem_append.mp member with ends | member
      · exact singles_nonempty _ piece ends
      · rcases List.mem_append.mp member with bytes | member
        · exact singles_nonempty _ piece bytes
        · exact List.mem_singleton.mp member ▸ last) cut
    rw [received_append, received_append, steps] at yields
    obtain ⟨seek, fresh, yields⟩ := Yields.bytes stripped fits' (pos + 1)
      (fresh_zero (Str.lstrip crlf stream)) (by omega) (fun eor earlier closes => by
        have least := first.least eor earlier closes
        rw [lflf_length] at least
        omega) (yields.skip (blank_takeWhile stream))
    rw [Nat.zero_add] at fresh yields
    have whole : Str.lstrip crlf ((Str.lstrip crlf stream).take (pos + 1) ++
        (Str.lstrip crlf stream).drop (pos + 1)) = Str.lstrip crlf stream := by
      rw [List.take_append_drop, Str.lstrip_lstrip]
    refine Yields.not_missed last filled (by rw [whole]; exact fits') (fun rest next missed => ?_)
      yields
    rw [whole] at missed
    exact lineFeeds_missed_before first stripped fresh after occurs missed
  · rintro rfl earlier past before occurs
    exact lineFeeds_missed_behind first stripped past before occurs once

theorem clear_of_uniform (bound : Nat) (small : stream.length ≤ bound) (fits : Fits stream size)
    (uniform : Uniform size stream) : ∀ step ∈ requests stream, Clear step.1 step.2 := by
  induction bound generalizing stream with
  | zero =>
      intro step member
      have empty : stream = [] := List.eq_nil_of_length_eq_zero (by omega)
      subst empty
      rw [requests_none (by decide)] at member
      cases member
  | succ bound ih =>
      intro step member
      cases found : nextRequest (Str.lstrip crlf stream) with
      | none =>
          rw [requests_none found] at member
          cases member
      | some pair =>
          obtain ⟨request, rest⟩ := pair
          have shorter := nextRequest_length found
          have stripped := lstrip_length stream
          rw [requests_some found] at member
          rcases List.mem_cons.mp member with rfl | later
          · exact uniform.clear_head fits found
          · exact ih (by omega) (fits.imp_right fun short => by omega) (uniform.tail fits found)
              step later

end Cuts

/-- The reader yields the requests of a stream, each the shortest prefix of what
is left that ends outside quotes, for every cut of the stream into pieces, just
where each of them is clear of what precedes and follows its end. -/
theorem framing_uniform_iff (size : Nat) (stream : Str) (fits : size = 0 ∨ stream.length < size) :
    (∀ pieces, (∀ piece ∈ pieces, piece ≠ []) → pieces.flatten = stream →
      Yields size ⟨{}, received pieces⟩ ((requests stream).map Prod.fst)) ↔
    ∀ step ∈ requests stream, Clear step.1 step.2 := by
  have fits' : Fits stream size := fits.imp_right Nat.le_of_lt
  refine ⟨clear_of_uniform _ (Nat.le_refl _) fits', fun clear pieces nonempty whole => ?_⟩
  subst whole
  obtain ⟨opened, texts, yields, same⟩ := reads_of_clear _ [] 0 pieces (Nat.le_refl _) nonempty
    fits' clear (fun eor pos _ => aligned_zero _ eor pos)
  rw [readHttp_nil] at yields same
  exact same ▸ yields

theorem framing_uniform_quoted :
    Yields 0 ⟨{}, received [ascii "GET / HTTP/1.0\nA: \"\r", ascii "\n\r\n\"\n", ascii "\n"]⟩
      [ascii "GET / HTTP/1.0\nA: \"\r\n\r\n\"\n\n"] := by
  have framed := (framing_uniform_iff 0 (ascii "GET / HTTP/1.0\nA: \"\r\n\r\n\"\n\n")
    (.inl rfl)).mpr (by decide +kernel)
    [ascii "GET / HTTP/1.0\nA: \"\r", ascii "\n\r\n\"\n", ascii "\n"] (by decide) (by decide)
  have texts : (requests (ascii "GET / HTTP/1.0\nA: \"\r\n\r\n\"\n\n")).map Prod.fst =
      [ascii "GET / HTTP/1.0\nA: \"\r\n\r\n\"\n\n"] := by decide +kernel
  rw [texts] at framed
  exact framed

/-- Two requests, one that ends in line feeds before one that ends in CRLF CRLF:
when both come at once, they are taken for one. -/
def mixedEnds : Str := ascii "GET http://a/ HTTP/1.0\n\nGET http://b/ HTTP/1.0\r\n\r\n"

theorem framing_merged : ¬ ∀ size stream, (size = 0 ∨ stream.length < size) →
    ((requests stream).map Prod.fst).flatten = stream →
    ∀ pieces, (∀ piece ∈ pieces, piece ≠ []) → pieces.flatten = stream →
      Yields size ⟨{}, received pieces⟩ ((requests stream).map Prod.fst) := by
  intro uniform
  have yields := uniform 0 mixedEnds (.inl rfl) (by decide +kernel) [mixedEnds] (by decide) (by simp)
  have resumed : Connection.resume 0 .newRequest 0 ⟨{}, received [mixedEnds]⟩ =
      (.request mixedEnds, ⟨answered [], []⟩) := by decide +kernel
  obtain ⟨others, same, _⟩ := yields.next resumed rfl
  have two : (requests mixedEnds).map Prod.fst =
      [ascii "GET http://a/ HTTP/1.0\n\n", ascii "GET http://b/ HTTP/1.0\r\n\r\n"] := by
    decide +kernel
  rw [two] at same
  exact absurd (List.cons.inj same).1 (by decide)

end ExaProxy.Client
