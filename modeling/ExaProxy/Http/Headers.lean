import ExaProxy.Data.Dictionary
import ExaProxy.Http.Quotes
import ExaProxy.Http.Request

namespace ExaProxy.Http

open ExaProxy.Data

/-- Why a request is refused: `problem` stands for an exception that was not meant
for the client. -/
inductive Failure where
  | expectationFailed
  | invalidRequest (reason : Str)
  | problem
deriving DecidableEq, Repr

/-- A request is refused where a condition holds. -/
def refuse (refused : Prop) [Decidable refused] (failure : Failure) : Except Failure Unit :=
  if refused then .error failure else .ok ()

theorem refuse_ok {refused : Prop} [Decidable refused] {failure : Failure} {done : Unit}
    (ok : refuse refused failure = .ok done) : ¬ refused := by
  unfold refuse at ok
  split at ok
  · cases ok
  · assumption

theorem known_nil : ∀ key ∈ ([] : List Str), key ∈ (∅ : AList fun _ : Str => List Str) := by
  simp

/-- The lines of the headers by their names, where `order` are the names that are
printed.  Every one of these has its lines. -/
structure Headers where
  order : List Str := []
  data : AList (fun _ : Str => List Str) := ∅
  nodup : order.Nodup := by exact List.nodup_nil
  known : ∀ key ∈ order, key ∈ data := by exact known_nil

namespace Headers

variable (headers : Headers)

/-- `get(key, [])` -/
def get (key : Str) : List Str := (headers.data.lookup key).getD []

/-- A name has other lines, and is not printed for that. -/
def store (key : Str) (lines : List Str) : Headers where
  order := headers.order
  data := headers.data.insert key lines
  nodup := headers.nodup
  known other member := (AList.mem_insert _).mpr (.inr (headers.known other member))

/-- `replace` -/
def replace (key value : Str) : Headers := headers.store key [value]

/-- A name is printed, with these lines. -/
def enter (key : Str) (lines : List Str) : Headers :=
  if listed : key ∈ headers.order then headers.store key lines
  else
    { order := headers.order ++ [key]
      data := headers.data.insert key lines
      nodup := List.nodup_append.mpr ⟨headers.nodup, List.nodup_singleton key,
        fun other member last single => by
          intro same
          subst same
          exact listed (List.mem_singleton.mp single ▸ member)⟩
      known := fun other member => by
        rw [AList.mem_insert]
        rcases List.mem_append.mp member with member | last
        · exact .inr (headers.known other member)
        · exact .inl (List.mem_singleton.mp last) }

def set (key value : Str) : Headers := headers.enter key [value]

def extend (key value : Str) : Headers :=
  headers.enter key (if key ∈ headers.order then headers.get key ++ [value] else [value])

/-- `pop`: a name that has lines has to be printed. -/
def pop (key : Str) : Except Failure Headers :=
  if key ∈ headers.data then
    if key ∈ headers.order then
      .ok {
        order := headers.order.erase key
        data := headers.data.erase key
        nodup := headers.nodup.erase key
        known := fun other member => AList.mem_erase.mpr
          ⟨fun same => headers.nodup.not_mem_erase (same ▸ member), headers.known other (List.mem_of_mem_erase member)⟩ }
    else .error .problem
  else .ok headers

/-- `pop`, where a condition says so. -/
def popWhen (gone : Prop) [Decidable gone] (key : Str) : Except Failure Headers :=
  if gone then headers.pop key else .ok headers

/-- The loop of `parse`: a line is added to the header `key` if it is in quotes that
are still open, or if it starts with a space. -/
def parseLines : List Str → Str → Bool → Headers → Except Failure (Bool × Headers)
  | [], _, quoted, headers => .ok (quoted, headers)
  | line :: rest, key, quoted, headers =>
      let line := Str.stripChars (ascii "\r") line
      let odd : Bool := countQuotes line % 2 = 1
      if quoted then parseLines rest key (!odd) (headers.extend key line)
      else if line = [] then .ok (false, headers)
      else if Str.isSpace (line.headD 0) then parseLines rest key odd (headers.extend key line)
      else
        match Str.splitOnce (ascii ":") line with
        | some (key, _) =>
            let key := Str.lower (Str.strip key)
            parseLines rest key odd (headers.extend key line)
        | none => .error .problem

/-- What follows the first colon of a line. -/
def afterColon (line : Str) : Except Failure Str :=
  (Str.splitOnce (ascii ":") line).elim (.error .problem) fun (_, value) => .ok (Str.strip value)

/-- The upgrades that are passed on. -/
def passedOn (upgrade : Str) : Bool := upgrade = ascii "websocket" ∨ ascii "tls/" <+: upgrade

/-- The lines of a name are what a list holds that is a part of the dictionary,
unless the name was taken out. -/
def share (key : Str) (lines : List Str) : Headers :=
  if key ∈ headers.data then headers.store key lines else headers

/-- The other upgrades go, and with one of them the headers that have its name. -/
def dropUpgrades : List Str → List Str → Headers → Except Failure (List Str × Headers)
  | [], upgrades, headers => .ok (upgrades, headers)
  | upgrade :: rest, upgrades, headers => do
      let value := Str.lower (← afterColon upgrade)
      if passedOn value then dropUpgrades rest upgrades headers
      else
        let upgrades := upgrades.erase upgrade
        dropUpgrades rest upgrades (← (headers.share (ascii "upgrade") upgrades).pop value)

/-- The connection tokens that are passed on: `close`, and `upgrade` if there is one. -/
def dropConnections (upgrades : List Str) : List Str → List Str → Except Failure (List Str)
  | [], connections => .ok connections
  | connection :: rest, connections => do
      let value := Str.lower (← afterColon connection)
      if value = ascii "close" ∨ value = ascii "upgrade" ∧ upgrades ≠ [] then
        dropConnections upgrades rest connections
      else dropConnections upgrades rest (connections.erase connection)

/-- A list that is a part of the dictionary is taken out if it is empty. -/
def settle (key : Str) (lines : List Str) : Except Failure Headers :=
  (headers.share key lines).popWhen (lines = []) key

/-- The headers for the connection alone are removed. -/
def removeHopByHop : Except Failure Headers := do
  let (upgrades, headers) ←
    dropUpgrades (headers.get (ascii "upgrade")) (headers.get (ascii "upgrade")) headers
  let headers ← headers.popWhen (upgrades = []) (ascii "upgrade")
  let connections := headers.get (ascii "connection")
  headers.settle (ascii "connection") (← dropConnections upgrades connections connections)

/-- What is done to the headers by a proxy that is not transparent. -/
def restrict (httpVersion : Str) (expect : Bool) : Except Failure Headers := do
  let headers ← (if httpVersion = ascii "1.1" then headers.removeHopByHop else .ok headers)
  let headers ← headers.popWhen (httpVersion = ascii "1.0") (ascii "keep-alive")
  refuse (headers.get (ascii "expect") ≠ [] ∧ expect) .expectationFailed
  return headers

/-- `parse`; the other exceptions that it turns into refusals are never raised. -/
def parse (httpVersion : Str) (expect transparent : Bool) (lines : Str) : Except Failure Headers := do
  refuse (Str.strip lines ≠ [] ∧ Str.isSpace (lines.headD 0))
    (.invalidRequest (ascii "malformed headers, headers starts with a white space"))
  let (quoted, headers) ← parseLines (lines.splitOn 10) [] false {}
  refuse (quoted = true)
    (.invalidRequest (ascii "end of headers reached while in quoted content"))
  let headers ← (if transparent then .ok headers else headers.restrict httpVersion expect)
  refuse ([] ∈ headers.data)
    (.invalidRequest (ascii "malformed headers, line starts with colon (:)"))
  return headers

/-- `str(headers)`, with the separator of the lines. -/
def toStr (separator : Str) : Str :=
  Str.join separator (headers.order.map fun key => Str.join separator (headers.get key))

end Headers

end ExaProxy.Http
