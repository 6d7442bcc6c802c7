import ExaProxy.Http.Request

namespace ExaProxy.Http

open ExaProxy.Data

/-- A word of the first line. -/
structure Word where
  text : Str
  filled : text ≠ []
  plain : ∀ byte ∈ text, Str.isSpace byte = false

/-- A name or an IPv4 address, or an IPv6 address that is written in brackets. -/
inductive Host where
  | name (text : Str) (filled : text ≠ [])
      (plain : ∀ byte ∈ text, Str.isSpace byte = false ∧ byte ≠ 47 ∧ byte ≠ 58 ∧ byte ≠ 91)
  | ipv6 (address : Str) (plain : ∀ byte ∈ address, Str.isSpace byte = false ∧ byte ≠ 47 ∧ byte ≠ 93)

structure Port where
  digits : Str
  number : Str.isdigit digits = true

/-- A path, by what follows its first slash. -/
structure Path where
  rest : Str
  plain : ∀ byte ∈ rest, Str.isSpace byte = false

/-- `http://host[:port]path`, or the `host:port` of a tunnel. -/
inductive Target where
  | absolute (host : Host) (port : Option Port) (path : Path)
  | authority (host : Host) (port : Port)

def Host.text : Host → Str
  | name text _ _ => text
  | ipv6 address _ => 91 :: (address ++ [93])

/-- The host without brackets. -/
def Host.bare : Host → Str
  | name text _ _ => text
  | ipv6 address _ => address

def Path.text (path : Path) : Str := 47 :: path.rest

def portText : Option Port → Str
  | some port => 58 :: port.digits
  | none => []

def portNumber : Option Port → Nat
  | some port => Str.digitsValue port.digits
  | none => 80

namespace Target

def text : Target → Str
  | absolute host port path => ascii "http://" ++ (host.text ++ (portText port ++ path.text))
  | authority host port => host.text ++ portText (some port)

/-- The method of a request for a target: a tunnel is asked for with `CONNECT`. -/
def method (word : Word) : Target → Str
  | absolute .. => word.text
  | authority .. => ascii "CONNECT"

/-- A text that starts with the request for a target. -/
def data (word : Word) (target : Target) (rest : Str) : Str :=
  target.method word ++ 32 :: (target.text ++ 32 :: (ascii "HTTP/1.1" ++ 13 :: 10 :: rest))

/-- What was asked for is what was read. -/
def Split (target : Target) (request : Request) : Prop :=
  match target with
  | absolute host port path =>
      request.host = host.bare ∧ request.port = portNumber port ∧ request.path = path.text
  | authority host port => request.host = host.bare ∧ request.port = portNumber (some port)

/-- The host is not in brackets, or only one slash follows it. -/
def Readable : Target → Prop
  | absolute (.ipv6 ..) _ path => 47 ∉ path.rest
  | authority (.ipv6 ..) _ => False
  | _ => True

end Target

variable {first second third : Str}

theorem words_cons {word rest : Str} (filled : word ≠ []) (plain : ∀ byte ∈ word, Str.isSpace byte = false)
    {space : UInt8} (blank : Str.isSpace space = true) :
    Str.words (word ++ space :: rest) = word :: Str.words rest := by
  rw [Str.words, List.splitOnP_append_cons_of_forall_mem plain space blank,
    List.filter_cons_of_pos (by simpa using filled), Str.words]

theorem digits_plain {digits : Str} (number : Str.isdigit digits = true) :
    ∀ byte ∈ digits, Str.isSpace byte = false ∧ byte ≠ 47 := by
  intro byte member
  have digit := (Str.isdigit_iff.mp number).2 byte member
  refine ⟨(Str.isDigit_plain digit).1, ?_⟩
  intro same
  subst same
  exact absurd digit (by decide)

theorem portText_plain (port : Option Port) : ∀ byte ∈ portText port, Str.isSpace byte = false ∧ byte ≠ 47 := by
  cases port with
  | none => simp [portText]
  | some port =>
      intro byte member
      rcases List.mem_cons.mp member with rfl | member
      · decide
      · exact digits_plain port.number byte member

theorem Host.text_plain (host : Host) : host.text ≠ [] ∧
    ∀ byte ∈ host.text, Str.isSpace byte = false ∧ byte ≠ 47 := by
  cases host with
  | name text filled plain => exact ⟨filled, fun byte member => ⟨(plain byte member).1, (plain byte member).2.1⟩⟩
  | ipv6 address plain =>
      refine ⟨by simp [Host.text], fun byte member => ?_⟩
      simp only [Host.text, List.mem_cons, List.mem_append, List.not_mem_nil, or_false] at member
      rcases member with rfl | member | rfl
      · decide
      · exact ⟨(plain byte member).1, (plain byte member).2.1⟩
      · decide

theorem Target.text_plain (target : Target) : target.text ≠ [] ∧
    ∀ byte ∈ target.text, Str.isSpace byte = false := by
  cases target with
  | absolute host port path =>
      refine ⟨by simp [Target.text, ascii], fun byte member => ?_⟩
      simp only [Target.text, Path.text, List.mem_append, List.mem_cons] at member
      rcases member with scheme | named | numbered | rfl | member
      · revert byte
        decide +kernel
      · exact (host.text_plain.2 byte named).1
      · exact (portText_plain port byte numbered).1
      · decide
      · exact path.plain byte member
  | authority host port =>
      refine ⟨by simp [Target.text, host.text_plain.1], fun byte member => ?_⟩
      rcases List.mem_append.mp member with named | numbered
      · exact (host.text_plain.2 byte named).1
      · exact (portText_plain (some port) byte numbered).1

theorem init_words {method uri : Str} (named : method ≠ []) (methodPlain : ∀ byte ∈ method, Str.isSpace byte = false)
    (filled : uri ≠ []) (uriPlain : ∀ byte ∈ uri, Str.isSpace byte = false) (rest : Str) :
    ∃ line, RequestLine.init (method ++ 32 :: (uri ++ 32 :: (ascii "HTTP/1.1" ++ 13 :: 10 :: rest))) = .ok line ∧
      line.uri = uri := by
  have version : ∀ byte ∈ ascii "HTTP/1.1", Str.isSpace byte = false := by decide +kernel
  have whole : method ++ 32 :: (uri ++ 32 :: (ascii "HTTP/1.1" ++ 13 :: 10 :: rest)) =
      (method ++ 32 :: (uri ++ 32 :: (ascii "HTTP/1.1" ++ [13]))) ++ 10 :: rest := by simp
  have single : 10 ∉ method ++ 32 :: (uri ++ 32 :: (ascii "HTTP/1.1" ++ [13])) := by
    have other : ∀ {text : Str}, (∀ byte ∈ text, Str.isSpace byte = false) → 10 ∉ text :=
      fun plain member => absurd (plain 10 member) (by decide)
    simp [other methodPlain, other uriPlain, ascii]
  have split : splitTwo (ascii "\n") ((method ++ 32 :: (uri ++ 32 :: (ascii "HTTP/1.1" ++ [13]))) ++ 10 :: rest) =
      .ok (method ++ 32 :: (uri ++ 32 :: (ascii "HTTP/1.1" ++ [13])), rest) := by
    rw [splitTwo, show ascii "\n" = [10] from rfl, Str.splitOnce_append single]
    rfl
  have words : Str.words (method ++ 32 :: (uri ++ 32 :: (ascii "HTTP/1.1" ++ [13]))) =
      [method, uri, ascii "HTTP/1.1"] := by
    rw [words_cons named methodPlain (by decide), words_cons filled uriPlain (by decide),
      words_cons (by decide) version (by decide)]
    rfl
  rw [whole, RequestLine.init, split]
  simp only [bind, Except.bind, words]
  exact ⟨_, rfl, rfl⟩

theorem splitProtocol_http (rest : Str) : splitProtocol (ascii "http://" ++ rest) = (ascii "http", rest) := by
  have found : Str.splitOnce (ascii "://") (ascii "http://" ++ rest) = some (ascii "http", rest) := by
    have first : Str.find (ascii "://") (ascii "http://" ++ rest) = some 4 := by
      simp [Str.find, ascii]
    rw [Str.splitOnce, first]
    rfl
  rw [splitProtocol, found]
  rfl

theorem splitProtocol_none {uri : Str} (slashless : 47 ∉ uri) : splitProtocol uri = (ascii "http", uri) := by
  have missing : Str.splitOnce (ascii "://") uri = none := by
    rw [Str.splitOnce, Str.find_eq_none_iff.mpr, Option.map_none]
    intro pos occurs
    have slash := occurs.getElem? (show 1 < (ascii "://").length by decide)
    exact slashless (List.mem_of_getElem? (slash.trans rfl))
  rw [splitProtocol, missing]

theorem splitPort_name {name : Str} (colonless : 58 ∉ name) (port : Option Port) :
    splitPort (name ++ portText port) = .ok (name, portNumber port) := by
  cases port with
  | none =>
      have missing : Str.splitOnce [58] name = none := by
        by_contra found
        exact colonless (Str.splitOnce_returns.mp (Option.ne_none_iff_exists'.mp found))
      rw [portText, List.append_nil, splitPort, show ascii ":" = [58] from rfl, missing]
      rfl
  | some port =>
      rw [portText, splitPort, show ascii ":" = [58] from rfl, Str.splitOnce_append colonless]
      simp only [checkPort, if_pos port.number]
      rfl

/-- Behind a host in brackets the text has to have one slash. -/
theorem splitBracketed_path (port : Option Port) (path : Path) : splitBracketed (portText port ++ path.text) =
    if 47 ∈ path.rest then .error .valueError else .ok (portNumber port, path.text) := by
  have slash : 47 ∈ portText port ++ path.text := by simp [Path.text]
  have parts : (portText port ++ path.text).splitOn 47 = portText port :: path.rest.splitOn 47 := by
    rw [Path.text, List.splitOn_append_cons_self, List.splitOn_eq_singleton fun member =>
      (portText_plain port 47 member).2 rfl, List.singleton_append]
  rw [splitBracketed, if_pos slash, parts]
  by_cases further : 47 ∈ path.rest
  · rw [if_pos further]
    obtain ⟨before, after, same⟩ := List.append_of_mem further
    rw [same, List.splitOn_append_cons_self]
    cases first : before.splitOn 47 with
    | nil => exact absurd first (List.splitOn_ne_nil 47 before)
    | cons part others =>
        cases second : after.splitOn 47 with
        | nil => exact absurd second (List.splitOn_ne_nil 47 after)
        | cons next later => cases others <;> rfl
  · rw [if_neg further, List.splitOn_eq_singleton further]
    cases port with
    | none => rfl
    | some port =>
        simp only [portText, checkPort, if_pos port.number]
        rfl

theorem splitBracketed_port (port : Port) : splitBracketed (portText (some port)) = .error .valueError := by
  have slashless : 47 ∉ portText (some port) := fun member => (portText_plain (some port) 47 member).2 rfl
  have colon : Str.isdigit (portText (some port)) = false := by
    rw [Bool.eq_false_iff]
    intro number
    exact absurd ((Str.isdigit_iff.mp number).2 58 List.mem_cons_self) (by decide)
  rw [splitBracketed, if_neg slashless, checkPort, if_neg (by simp [colon])]
  rfl

theorem splitUri_name {name rest : Str} (filled : name ≠ []) (other : ∀ byte ∈ name, byte ≠ 91) :
    splitUri (name ++ rest) =
      match Str.splitOnce (ascii "/") (name ++ rest) with
      | some (host, path) => (splitPort host).map fun (host, port) => (host, port, ascii "/" ++ path)
      | none => (splitPort (name ++ rest)).map fun (host, port) => (host, port, ascii "/") := by
  have unbracketed : (name ++ rest).head? ≠ some 91 := by
    cases name with
    | nil => exact absurd rfl filled
    | cons first more => exact fun same => other first List.mem_cons_self (Option.some.inj same)
  cases found : Str.splitOnce (ascii "/") (name ++ rest) with
  | none => simp only [splitUri, if_neg unbracketed, found]
  | some parts => simp only [splitUri, if_neg unbracketed, found]

theorem splitUri_ipv6 {address rest : Str} (closed : 93 ∉ address) :
    splitUri (91 :: (address ++ 93 :: rest)) =
      (splitBracketed rest).map fun (port, path) => (address, port, path) := by
  have parts : Str.splitOnce (ascii "]") (address ++ 93 :: rest) = some (address, rest) :=
    Str.splitOnce_append closed
  rw [splitUri, if_pos (show (91 :: (address ++ 93 :: rest)).head? = some 91 from rfl), List.tail_cons, parts]

/-- What `parse` takes from a target, where it does not raise. -/
def Target.parts : Target → Str × Nat × Str
  | absolute host port path => (host.bare, portNumber port, path.text)
  | authority host port => (host.bare, portNumber (some port), ascii "/")

theorem splitUri_target (target : Target) : ∃ uri, splitProtocol target.text = (ascii "http", uri) ∧
    (target.Readable → splitUri uri = .ok target.parts) ∧
    (¬ target.Readable → splitUri uri = .error .valueError) := by
  cases target with
  | absolute host port path =>
      refine ⟨_, splitProtocol_http _, ?_⟩
      cases host with
      | name text filled plain =>
          refine ⟨fun _ => ?_, fun unreadable => absurd trivial unreadable⟩
          have slashless : 47 ∉ text ++ portText port := by
            rw [List.mem_append, not_or]
            exact ⟨fun member => (plain 47 member).2.1 rfl, fun member => (portText_plain port 47 member).2 rfl⟩
          have colonless : 58 ∉ text := fun member => (plain 58 member).2.2.1 rfl
          have whole : text ++ (portText port ++ path.text) = (text ++ portText port) ++ 47 :: path.rest := by
            rw [List.append_assoc, Path.text]
          rw [Host.text, splitUri_name filled fun byte member => (plain byte member).2.2.2, whole,
            show ascii "/" = [47] from rfl, Str.splitOnce_append slashless]
          simp only [splitPort_name colonless]
          rfl
      | ipv6 address plain =>
          have closed : 93 ∉ address := fun member => (plain 93 member).2.2 rfl
          have whole : Host.text (.ipv6 address plain) ++ (portText port ++ path.text) =
              91 :: (address ++ 93 :: (portText port ++ path.text)) := by simp [Host.text]
          rw [whole, splitUri_ipv6 closed, splitBracketed_path]
          refine ⟨fun readable => ?_, fun unreadable => ?_⟩
          · rw [if_neg readable]
            rfl
          · rw [if_pos (not_not.mp unreadable)]
            rfl
  | authority host port =>
      rw [Target.text]
      have slashless : 47 ∉ host.text ++ portText (some port) := by
        rw [List.mem_append, not_or]
        exact ⟨fun member => (host.text_plain.2 47 member).2 rfl,
          fun member => (portText_plain (some port) 47 member).2 rfl⟩
      refine ⟨_, splitProtocol_none slashless, ?_⟩
      cases host with
      | name text filled plain =>
          refine ⟨fun _ => ?_, fun unreadable => absurd trivial unreadable⟩
          have colonless : 58 ∉ text := fun member => (plain 58 member).2.2.1 rfl
          have missing : Str.splitOnce [47] (text ++ portText (some port)) = none := by
            by_contra found
            exact slashless (Str.splitOnce_returns.mp (Option.ne_none_iff_exists'.mp found))
          rw [Host.text, splitUri_name filled fun byte member => (plain byte member).2.2.2,
            show ascii "/" = [47] from rfl, missing]
          simp only [splitPort_name colonless]
          rfl
      | ipv6 address plain =>
          have closed : 93 ∉ address := fun member => (plain 93 member).2.2 rfl
          have whole : Host.text (.ipv6 address plain) ++ portText (some port) =
              91 :: (address ++ 93 :: portText (some port)) := by simp [Host.text]
          refine ⟨False.elim, fun _ => ?_⟩
          rw [whole, splitUri_ipv6 closed, splitBracketed_port]
          rfl

theorem Target.method_plain (word : Word) (target : Target) : target.method word ≠ [] ∧
    ∀ byte ∈ target.method word, Str.isSpace byte = false := by
  cases target with
  | absolute => exact ⟨word.filled, word.plain⟩
  | authority =>
      rw [Target.method]
      decide +kernel

/-- A request is split as it was written, if its host is not in brackets, or in
brackets before a path of one slash. -/
theorem target_split_iff (word : Word) (target : Target) (rest : Str) :
    (∃ request, Request.parse (target.data word rest) = .ok request ∧ target.Split request) ↔
      target.Readable := by
  obtain ⟨line, init, named⟩ := init_words (target.method_plain word).1 (target.method_plain word).2
    target.text_plain.1 target.text_plain.2 rest
  obtain ⟨uri, protocol, read, unread⟩ := splitUri_target target
  have parsed : Request.parse (target.data word rest) = line.parse := by
    rw [Request.parse, Target.data, init]
    rfl
  rw [parsed, RequestLine.parse, named, protocol]
  dsimp only
  constructor
  · intro given
    obtain ⟨request, splits, -⟩ := given
    by_contra unreadable
    rw [unread unreadable] at splits
    cases splits
  · intro readable
    rw [read readable]
    refine ⟨_, rfl, ?_⟩
    cases target with
    | absolute host port path => exact ⟨rfl, rfl, rfl⟩
    | authority host port => exact ⟨rfl, rfl⟩

theorem target_split_iff_bracketed : ∃ request,
    Request.parse (ascii "GET http://[::1]:8080/a HTTP/1.1\r\n\r\n") = .ok request ∧
      request.host = ascii "::1" ∧ request.port = 8080 ∧ request.path = ascii "/a" := by
  let word : Word := ⟨ascii "GET", by decide, by decide +kernel⟩
  let target : Target := .absolute (.ipv6 (ascii "::1") (by decide +kernel)) (some ⟨ascii "8080", by decide +kernel⟩)
    ⟨ascii "a", by decide +kernel⟩
  have written : target.data word (ascii "\r\n") = ascii "GET http://[::1]:8080/a HTTP/1.1\r\n\r\n" := by
    decide +kernel
  have readable : target.Readable := show (47 : UInt8) ∉ ascii "a" by decide +kernel
  obtain ⟨request, parsed, host, port, path⟩ := (target_split_iff word target (ascii "\r\n")).mpr readable
  rw [written] at parsed
  exact ⟨request, parsed, host, port, path⟩

/-- A tunnel to port 443 of `::1`, and a page in a directory of that host. -/
theorem bracketed_unread :
    Request.parse (ascii "CONNECT [::1]:443 HTTP/1.1\r\n\r\n") = .error .valueError ∧
      Request.parse (ascii "GET http://[::1]:8080/a/b HTTP/1.1\r\n\r\n") = .error .valueError := by
  decide +kernel

end ExaProxy.Http
