import ExaProxy.Tls.Whole

namespace ExaProxy.Tls

open ExaProxy.Data

/-- A vector whose length comes before it in one byte. -/
def vector8 (bytes : Str) : Str := UInt8.ofNat bytes.length :: bytes

/-- A vector whose length comes before it in two bytes. -/
def vector16 (bytes : Str) : Str :=
  UInt8.ofNat (bytes.length / 2 ^ 8) :: UInt8.ofNat (bytes.length % 2 ^ 8) :: bytes

/-- An entry of a list of names; the kind 0 is for the name of a host. -/
structure ServerName where
  kind : UInt8
  name : Str
  short : name.length < 2 ^ 16

def ServerName.encode (entry : ServerName) : Str := entry.kind :: vector16 entry.name

def encodeNames (names : List ServerName) : Str := names.flatMap ServerName.encode

inductive Extension where
  | serverName (names : List ServerName) (short : (vector16 (encodeNames names)).length < 2 ^ 16)
  | other (first second : UInt8) (different : ¬ (first = 0 ∧ second = 0)) (data : Str) (short : data.length < 2 ^ 16)

namespace Extension

def encode : Extension → Str
  | serverName names _ => 0 :: 0 :: vector16 (vector16 (encodeNames names))
  | other first second _ data _ => first :: second :: vector16 data

def names? : Extension → Option (List ServerName)
  | serverName names _ => some names
  | other .. => none

end Extension

def encodeExtensions (extensions : List Extension) : Str := extensions.flatMap Extension.encode

/-- A hello as it is, in the order of its fields; `major` and `minor` are of the record. -/
structure Hello where
  major : UInt8
  minor : UInt8
  version : UInt8 × UInt8
  random : Str
  session : Str
  cipherSuites : Str
  compressions : Str
  extensions : Option (List Extension)

namespace Hello

variable (hello : Hello)

/-- What comes behind the fields whose lengths are fixed. -/
def fields : Str :=
  vector8 hello.session ++ vector16 hello.cipherSuites ++ vector8 hello.compressions ++
    hello.extensions.elim [] fun extensions => vector16 (encodeExtensions extensions)

def body : Str := hello.version.1 :: hello.version.2 :: (hello.random ++ hello.fields)

def handshake : Str := 1 :: UInt8.ofNat (hello.body.length / 2 ^ 16) :: vector16 hello.body

def record : Str := 0x16 :: hello.major :: hello.minor :: vector16 hello.handshake

/-- The name of the first host in the first list of names. -/
def hostName : Option Str :=
  (hello.extensions.bind (List.findSome? Extension.names?)).bind fun names =>
    (names.find? (·.kind = 0)).map ServerName.name

end Hello

/-- A hello that is well formed: its lengths are those that it may have, and that its record
can say. -/
structure ClientHello extends Hello where
  recent : 3 ≤ major
  random_length : random.length = 32
  session_length : session.length ≤ 32
  cipherSuites_length : cipherSuites.length < 2 ^ 16
  compressions_length : compressions.length < 2 ^ 8
  extensions_length : ∀ list ∈ extensions, (encodeExtensions list).length < 2 ^ 16
  handshake_length : toHello.handshake.length < 2 ^ 16

variable {bytes rest : Str} {fuel : Nat}

theorem lengthOf_length (short : bytes.length < 2 ^ 16) :
    lengthOf (UInt8.ofNat (bytes.length / 2 ^ 8)) (UInt8.ofNat (bytes.length % 2 ^ 8)) = bytes.length := by
  rw [lengthOf, UInt8.toNat_ofNat_of_lt' (by change _ < 256; omega), UInt8.toNat_ofNat_of_lt' (by change _ < 256; omega)]
  omega

theorem findName_encode (names : List ServerName) (enough : (encodeNames names).length ≤ fuel) :
    findName fuel (encodeNames names) = .ok ((names.find? (·.kind = 0)).map ServerName.name) := by
  induction names generalizing fuel with
  | nil => cases fuel <;> rfl
  | cons entry names ih =>
      have split : encodeNames (entry :: names) = entry.kind :: UInt8.ofNat (entry.name.length / 2 ^ 8) ::
          UInt8.ofNat (entry.name.length % 2 ^ 8) :: (entry.name ++ encodeNames names) := by
        simp [encodeNames, ServerName.encode, vector16]
      rw [split] at enough ⊢
      obtain ⟨fuel, rfl⟩ : ∃ fewer, fuel = fewer + 1 := ⟨fuel - 1, by simp only [List.length_cons] at enough; omega⟩
      simp only [List.length_cons, List.length_append] at enough
      rw [findName_cons, lengthOf_length entry.short, List.take_left, List.drop_left]
      by_cases host : entry.kind = 0
      · simp [host]
      · rw [if_neg host, ih (by omega)]
        simp [host]

theorem findExtension_encode (extensions : List Extension) (enough : (encodeExtensions extensions).length ≤ fuel) :
    findExtension fuel (encodeExtensions extensions) =
      .ok ((extensions.findSome? Extension.names?).elim [] encodeNames) := by
  induction extensions generalizing fuel with
  | nil => cases fuel <;> rfl
  | cons extension extensions ih =>
      obtain ⟨fuel, rfl⟩ : ∃ fewer, fuel = fewer + 1 := by
        have positive : 0 < extension.encode.length := by cases extension <;> exact Nat.succ_pos _
        rw [encodeExtensions, List.flatMap_cons, List.length_append] at enough
        exact ⟨fuel - 1, by omega⟩
      cases extension with
      | serverName names short =>
          have split : encodeExtensions (.serverName names short :: extensions) = 0 :: 0 ::
              UInt8.ofNat ((vector16 (encodeNames names)).length / 2 ^ 8) ::
              UInt8.ofNat ((vector16 (encodeNames names)).length % 2 ^ 8) ::
              (vector16 (encodeNames names) ++ encodeExtensions extensions) := by
            simp only [encodeExtensions, List.flatMap_cons, Extension.encode, vector16, List.cons_append]
          have first : List.findSome? Extension.names? (.serverName names short :: extensions) = some names := rfl
          rw [split, findExtension_cons, if_pos ⟨rfl, rfl⟩, lengthOf_length short, first]
          simp [Str.slice, vector16]
      | other first second different data short =>
          have split : encodeExtensions (.other first second different data short :: extensions) = first :: second ::
              UInt8.ofNat (data.length / 2 ^ 8) :: UInt8.ofNat (data.length % 2 ^ 8) ::
              (data ++ encodeExtensions extensions) := by
            simp only [encodeExtensions, List.flatMap_cons, Extension.encode, vector16, List.cons_append]
          rw [split] at enough ⊢
          simp only [List.length_cons, List.length_append] at enough
          rw [findExtension_cons, if_neg different, lengthOf_length short, List.drop_left, ih (by omega)]
          rfl

theorem skipField_vector8 (short : bytes.length < 2 ^ 8) : skipField (vector8 bytes ++ rest) = some rest := by
  simp only [vector8, List.cons_append, skipField]
  rw [UInt8.toNat_ofNat_of_lt' (by change _ < 256; omega), List.drop_left]

theorem parseExtensions_encode {extensions : List Extension} (fits : (encodeExtensions extensions).length < 2 ^ 16) :
    parseExtensions (vector16 (encodeExtensions extensions)) =
      .ok ((extensions.findSome? Extension.names?).bind fun names =>
        (names.find? (·.kind = 0)).map ServerName.name) := by
  have length : short (List.take 2 (vector16 (encodeExtensions extensions))) =
      .ok (encodeExtensions extensions).length := by
    rw [← lengthOf_length fits]
    rfl
  have block : (vector16 (encodeExtensions extensions)).drop 2 = encodeExtensions extensions := rfl
  have found := findExtension_encode extensions (Nat.le_refl _)
  simp only [parseExtensions, length, block, bind, Except.bind, List.take_length, found]
  cases extensions.findSome? Extension.names? with
  | none => rfl
  | some names => exact findName_encode names (Nat.le_refl _)

theorem parseFields_encode (hello : ClientHello) : parseFields hello.fields = .ok hello.hostName := by
  have session := hello.session_length
  have compressions := hello.compressions_length
  have behind : skipField hello.fields = some (vector16 hello.cipherSuites ++ (vector8 hello.compressions ++
      hello.extensions.elim [] fun extensions => vector16 (encodeExtensions extensions))) := by
    rw [Hello.fields, List.append_assoc, List.append_assoc]
    exact skipField_vector8 (by omega)
  have length : short ((vector16 hello.cipherSuites ++ (vector8 hello.compressions ++
      hello.extensions.elim [] fun extensions => vector16 (encodeExtensions extensions))).take 2) =
      .ok hello.cipherSuites.length := by
    rw [← lengthOf_length hello.cipherSuites_length]
    rfl
  have suites : ∀ rest : Str, (vector16 hello.cipherSuites ++ rest).drop (hello.cipherSuites.length + 2) = rest := by
    intro rest
    simp [vector16]
  simp only [parseFields, behind, length, bind, Except.bind, suites, skipField_vector8 compressions]
  have fits := hello.extensions_length
  cases listed : hello.extensions with
  | none =>
      simp [Hello.hostName, listed, pure, Except.pure]
  | some extensions =>
      have filled : vector16 (encodeExtensions extensions) ≠ [] := List.cons_ne_nil _ _
      have parsed := parseExtensions_encode (fits extensions listed)
      simp only [Option.elim_some, Hello.hostName, listed, Option.bind_some]
      exact parsed

/-- The name of the server is found in each hello that is well formed. -/
theorem parseHello_record (hello : ClientHello) : parseHello hello.record = .ok hello.hostName := by
  have fields : fieldsOf hello.record = some hello.fields := by
    have within : hello.handshake.length ≤ hello.handshake.length + 5 := Nat.le_add_right _ _
    have behind : hello.handshake.drop 38 = hello.fields := by
      have front : hello.handshake.drop 6 = hello.random ++ hello.fields := rfl
      have both : hello.handshake.drop 38 = (hello.handshake.drop 6).drop 32 := by rw [List.drop_drop]
      rw [both, front, ← hello.random_length, List.drop_left]
    have read : fieldsOf hello.record = if (0x16 : UInt8) = 0x16 ∧ 3 ≤ hello.major ∧ (1 : UInt8) = 1 then
        some ((hello.handshake.take (lengthOf (UInt8.ofNat (hello.handshake.length / 2 ^ 8))
          (UInt8.ofNat (hello.handshake.length % 2 ^ 8)) + 5)).drop 38) else none := rfl
    rw [read, if_pos ⟨rfl, hello.recent, rfl⟩, lengthOf_length hello.handshake_length, List.take_of_length_le within,
      behind]
  rw [parseHello_eq, fields]
  exact parseFields_encode hello

/-- A hello with a list of protocols before the name of its server. -/
theorem parseHello_record_named : ∃ hello : ClientHello, hello.cipherSuites = [0, 47] ∧
    parseHello hello.record = .ok (some (ascii "exa.org")) := by
  let names : List ServerName := [⟨1, ascii "other", by decide⟩, ⟨0, ascii "exa.org", by decide⟩]
  let extensions : List Extension :=
    [.other 0 16 (by decide) [0, 3, 2, 104, 50] (by decide), .serverName names (by decide)]
  let greeting : Hello := {
    major := 3
    minor := 1
    version := (3, 3)
    random := List.replicate 32 7
    session := []
    cipherSuites := [0, 47]
    compressions := [0]
    extensions := some extensions }
  have fits : ∀ list ∈ some extensions, (encodeExtensions list).length < 2 ^ 16 := by
    intro list listed
    cases listed
    decide
  let hello : ClientHello := ⟨greeting, by decide, by decide, by decide, by decide, by decide, fits, by decide⟩
  exact ⟨hello, rfl, parseHello_record hello⟩

end ExaProxy.Tls
