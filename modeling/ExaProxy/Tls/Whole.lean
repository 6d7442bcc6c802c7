import ExaProxy.Tls.Hello

namespace ExaProxy.Tls

open ExaProxy.Data

variable {data : Str} {fuel : Nat}

/-- The length that two bytes stand for. -/
def lengthOf (high low : UInt8) : Nat := 256 * high.toNat + low.toNat

/-- The names of a list are whole up to the first one of a host. -/
inductive WholeNames : Str → Prop
  | done : WholeNames []
  | host (high low : UInt8) (rest : Str) : WholeNames (0 :: high :: low :: rest)
  | other (kind high low : UInt8) (rest : Str) (different : kind ≠ 0)
      (later : WholeNames (rest.drop (lengthOf high low))) : WholeNames (kind :: high :: low :: rest)

/-- The extensions are whole up to the first one for names, and those are. -/
inductive WholeExtensions : Str → Prop
  | done : WholeExtensions []
  | names (high low : UInt8) (rest : Str)
      (whole : WholeNames (rest.slice 2 (lengthOf high low))) :
      WholeExtensions (0 :: 0 :: high :: low :: rest)
  | other (first second high low : UInt8) (rest : Str) (different : ¬ (first = 0 ∧ second = 0))
      (later : WholeExtensions (rest.drop (lengthOf high low))) :
      WholeExtensions (first :: second :: high :: low :: rest)

theorem lengthOf_eq_zero {high low : UInt8} : lengthOf high low = 0 ↔ high = 0 ∧ low = 0 := by
  have zero : ∀ byte : UInt8, byte.toNat = 0 ↔ byte = 0 := fun byte => by
    rw [← UInt8.toNat_inj]
    rfl
  rw [lengthOf, ← zero high, ← zero low]
  omega

theorem findName_cons (kind high low : UInt8) (rest : Str) :
    findName (fuel + 1) (kind :: high :: low :: rest) =
      if kind = 0 then .ok (some (rest.take (lengthOf high low)))
      else findName fuel (rest.drop (lengthOf high low)) := by
  have length : short (Str.slice (kind :: high :: low :: rest) 1 3) = .ok (lengthOf high low) := rfl
  have more : ∀ count, (kind :: high :: low :: rest).drop (count + 3) = rest.drop count := fun _ => rfl
  simp only [findName, length, bind, Except.bind, pure, Except.pure, reduceCtorEq, if_false,
    List.head?_cons, Option.some.injEq, more]
  simp [Str.slice]

theorem findName_returns (enough : data.length ≤ fuel) :
    (∃ name, findName fuel data = .ok name) ↔ WholeNames data := by
  induction fuel generalizing data with
  | zero =>
      rw [List.eq_nil_of_length_eq_zero (Nat.le_zero.mp enough)]
      exact iff_of_true ⟨none, rfl⟩ .done
  | succ fuel ih =>
      match data with
      | [] => exact iff_of_true ⟨none, rfl⟩ .done
      | [kind] => exact iff_of_false (fun ⟨_, ok⟩ => by cases ok) nofun
      | [kind, high] => exact iff_of_false (fun ⟨_, ok⟩ => by cases ok) nofun
      | kind :: high :: low :: rest =>
          have shorter : (rest.drop (lengthOf high low)).length ≤ fuel := by
            simp only [List.length_cons] at enough
            rw [List.length_drop]
            omega
          rw [findName_cons]
          by_cases host : kind = 0
          · rw [if_pos host, host]
            exact iff_of_true ⟨_, rfl⟩ (.host high low rest)
          · rw [if_neg host, ih shorter]
            constructor
            · exact .other kind high low rest host
            · intro whole
              cases whole with
              | host => exact absurd rfl host
              | other _ _ _ _ _ later => exact later

theorem findExtension_cons (first second high low : UInt8) (rest : Str) :
    findExtension (fuel + 1) (first :: second :: high :: low :: rest) =
      if first = 0 ∧ second = 0 then .ok (rest.slice 2 (lengthOf high low))
      else findExtension fuel (rest.drop (lengthOf high low)) := by
  have length : short (Str.slice (first :: second :: high :: low :: rest) 2 4) = .ok (lengthOf high low) := rfl
  have kind : short (Str.slice (first :: second :: high :: low :: rest) 0 2) =
      .ok (lengthOf first second) := rfl
  simp only [findExtension, length, kind, bind, Except.bind, pure, Except.pure, reduceCtorEq, if_false,
    lengthOf_eq_zero]
  have more : ∀ count, (first :: second :: high :: low :: rest).drop (count + 4) = rest.drop count :=
    fun _ => rfl
  have names : Str.slice (first :: second :: high :: low :: rest) 6 (lengthOf high low + 4) =
      rest.slice 2 (lengthOf high low) := by
    rw [Str.slice, Str.slice, more 2]
    congr 1
  rw [more, names]

theorem findExtension_returns (enough : data.length ≤ fuel) :
    (∃ names, findExtension fuel data = .ok names ∧ WholeNames names) ↔ WholeExtensions data := by
  induction fuel generalizing data with
  | zero =>
      rw [List.eq_nil_of_length_eq_zero (Nat.le_zero.mp enough)]
      exact iff_of_true ⟨[], rfl, .done⟩ .done
  | succ fuel ih =>
      match data with
      | [] => exact iff_of_true ⟨[], rfl, .done⟩ .done
      | [first] => exact iff_of_false (fun ⟨_, ok, _⟩ => by cases ok) nofun
      | [first, second] => exact iff_of_false (fun ⟨_, ok, _⟩ => by cases ok) nofun
      | [first, second, high] => exact iff_of_false (fun ⟨_, ok, _⟩ => by cases ok) nofun
      | first :: second :: high :: low :: rest =>
          have shorter : (rest.drop (lengthOf high low)).length ≤ fuel := by
            simp only [List.length_cons] at enough
            rw [List.length_drop]
            omega
          rw [findExtension_cons]
          by_cases named : first = 0 ∧ second = 0
          · rw [if_pos named, named.1, named.2]
            constructor
            · intro given
              obtain ⟨names, same, whole⟩ := given
              cases same
              exact .names high low rest whole
            · intro whole
              cases whole with
              | names _ _ _ whole => exact ⟨_, rfl, whole⟩
              | other _ _ _ _ _ different => exact absurd ⟨rfl, rfl⟩ different
          · rw [if_neg named, ih shorter]
            constructor
            · exact .other first second high low rest named
            · intro whole
              cases whole with
              | names => exact absurd ⟨rfl, rfl⟩ named
              | other _ _ _ _ _ _ later => exact later

/-- The block of extensions has its length, and they are whole. -/
inductive WholeBlock : Str → Prop
  | whole (high low : UInt8) (rest : Str) (extensions : WholeExtensions (rest.take (lengthOf high low))) :
      WholeBlock (high :: low :: rest)

theorem parseExtensions_returns : (∃ name, parseExtensions data = .ok name) ↔ WholeBlock data := by
  match data with
  | [] => exact iff_of_false (fun ⟨_, ok⟩ => by cases ok) nofun
  | [high] => exact iff_of_false (fun ⟨_, ok⟩ => by cases ok) nofun
  | high :: low :: rest =>
      have extensions := findExtension_returns (Nat.le_refl (rest.take (lengthOf high low)).length)
      have reads : parseExtensions (high :: low :: rest) =
          (findExtension (rest.take (lengthOf high low)).length (rest.take (lengthOf high low))).bind
            fun names => findName names.length names := rfl
      rw [reads]
      constructor
      · intro given
        obtain ⟨name, ok⟩ := given
        obtain ⟨names, found, ok⟩ := bind_ok ok
        exact .whole high low rest (extensions.mp ⟨names, found,
          (findName_returns (Nat.le_refl names.length)).mp ⟨name, ok⟩⟩)
      · intro whole
        cases whole with
        | whole _ _ _ whole =>
            obtain ⟨names, found, whole⟩ := extensions.mpr whole
            rw [found]
            exact (findName_returns (Nat.le_refl names.length)).mpr whole

/-- Behind the session ID, the cipher suites have their length, and the extensions that
follow the compression methods are whole, if there are any. -/
inductive WholeFields : Str → Prop
  | whole (high low : UInt8) (rest : Str)
      (extensions : ∀ block, skipField (rest.drop (lengthOf high low)) = some block →
        block = [] ∨ WholeBlock block) : WholeFields (high :: low :: rest)

theorem parseFields_returns : (∃ name, parseFields data = .ok name) ↔
    ∀ rest, skipField data = some rest → WholeFields rest := by
  unfold parseFields
  cases skipField data with
  | none => exact iff_of_true ⟨none, rfl⟩ nofun
  | some rest =>
      simp only [Option.some.injEq, forall_eq']
      match rest with
      | [] => exact iff_of_false (fun ⟨_, ok⟩ => by cases ok) nofun
      | [high] => exact iff_of_false (fun ⟨_, ok⟩ => by cases ok) nofun
      | high :: low :: rest =>
          have length : short ((high :: low :: rest).take 2) = .ok (lengthOf high low) := rfl
          have more : (high :: low :: rest).drop (lengthOf high low + 2) =
              rest.drop (lengthOf high low) := rfl
          have whole : WholeFields (high :: low :: rest) ↔ ∀ block,
              skipField (rest.drop (lengthOf high low)) = some block → block = [] ∨ WholeBlock block :=
            ⟨fun whole => by cases whole with | whole _ _ _ extensions => exact extensions,
              .whole high low rest⟩
          simp only [length, more, bind, Except.bind, pure, Except.pure, whole]
          cases skipField (rest.drop (lengthOf high low)) with
          | none => simp
          | some block =>
              cases block with
              | nil => simp
              | cons first block =>
                  simp only [Option.some.injEq, forall_eq', reduceCtorEq, false_or]
                  exact parseExtensions_returns

/-- What a record that is a hello holds behind the fields whose lengths are fixed. -/
def fieldsOf : Str → Option Str
  | contentType :: major :: _minor :: high :: low :: handshake :: data =>
      if contentType = 0x16 ∧ 3 ≤ major ∧ handshake = 1 then
        some (((handshake :: data).take (lengthOf high low + 5)).drop 38)
      else none
  | _ => none

theorem parseHello_eq (header : Str) :
    parseHello header = (fieldsOf header).elim (.ok none) parseFields := by
  match header with
  | [] | [_] | [_, _] | [_, _, _] | [_, _, _, _] | [_, _, _, _, _] => rfl
  | contentType :: major :: minor :: high :: low :: handshake :: data =>
      simp only [parseHello, fieldsOf]
      by_cases record : contentType = 0x16
      · subst record
        have plain : ¬ ((0x16 : UInt8) &&& 0x80 ≠ 0 ∧ minor = 1) := fun old => old.1 (by decide)
        by_cases old : major < 3
        · have wrong : ¬ 3 ≤ major := by simpa using old
          simp [plain, old, wrong]
        · have right : 3 ≤ major := by simpa using old
          by_cases hello : handshake = 1
          · simp [plain, old, right, hello, lengthOf]
          · simp [plain, old, right, hello]
      · simp [record]

/-- A record in which no length that the decoder comes to is cut. -/
def WholeHello (header : Str) : Prop :=
  ∀ fields, fieldsOf header = some fields → ∀ rest, skipField fields = some rest → WholeFields rest

theorem parseClientHello_returns (header : Str) :
    (∃ name, parseClientHello header = .ok name) ↔ WholeHello header := by
  have hello : (∃ name, parseClientHello header = .ok name) ↔ ∃ name, parseHello header = .ok name := by
    unfold parseClientHello
    cases parseHello header <;> simp [Except.map]
  rw [hello, parseHello_eq, WholeHello]
  cases fieldsOf header with
  | none => simp
  | some fields =>
      simp only [Option.elim_some, Option.some.injEq, forall_eq']
      exact parseFields_returns

end ExaProxy.Tls
