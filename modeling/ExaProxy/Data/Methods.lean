import ExaProxy.Data.Text
import Mathlib.Data.List.DropRight

namespace ExaProxy.Data

/-- The exceptions of Python that the code can raise and does not catch where it
raises them. -/
inductive Raised where
  | attributeError | indexError | overflowError | structError | typeError
  | unboundLocalError | valueError
deriving DecidableEq, Repr

theorem map_ok {ε α β : Type*} {call : Except ε α} {change : α → β} {result : β}
    (ok : call.map change = .ok result) : ∃ value, call = .ok value ∧ change value = result := by
  cases call with
  | error raised => cases ok
  | ok value => exact ⟨value, rfl, Except.ok.inj ok⟩

theorem bind_ok {ε α β : Type*} {call : Except ε α} {next : α → Except ε β} {result : β}
    (ok : call.bind next = .ok result) : ∃ value, call = .ok value ∧ next value = .ok result := by
  cases call with
  | error raised => cases ok
  | ok value => exact ⟨value, rfl, ok⟩

namespace Str

/-! The methods of Python byte strings that take texts apart, in the C locale. -/

def isSpace (byte : UInt8) : Bool := byte = 32 ∨ 9 ≤ byte ∧ byte ≤ 13

def isDigit (byte : UInt8) : Bool := 48 ≤ byte ∧ byte ≤ 57

/-- `s.isdigit()` -/
def isdigit (s : Str) : Bool := s ≠ [] && s.all isDigit

def stripOf (drops : UInt8 → Bool) (s : Str) : Str := (s.dropWhile drops).rdropWhile drops

/-- `s.strip()` -/
def strip (s : Str) : Str := stripOf isSpace s

/-- `s.strip(chars)` -/
def stripChars (chars s : Str) : Str := stripOf (· ∈ chars) s

/-- `s.rstrip(chars)` -/
def rstrip (chars s : Str) : Str := s.rdropWhile (· ∈ chars)

def lowerByte (byte : UInt8) : UInt8 := if 65 ≤ byte ∧ byte ≤ 90 then byte + 32 else byte

def upperByte (byte : UInt8) : UInt8 := if 97 ≤ byte ∧ byte ≤ 122 then byte - 32 else byte

def lower (s : Str) : Str := s.map lowerByte

def upper (s : Str) : Str := s.map upperByte

/-- `sub in s` -/
def includes (sub s : Str) : Bool := (find sub s).isSome

/-- `s.split(sep, 1)`, with `none` when there is nothing to split at. -/
def splitOnce (sep s : Str) : Option (Str × Str) :=
  (find sep s).map fun pos => (s.take pos, s.drop (pos + sep.length))

/-- `s.split(sep)`, with a bound on the number of parts. -/
def splitUpTo (sep : Str) : Nat → Str → List Str
  | 0, s => [s]
  | count + 1, s =>
      match splitOnce sep s with
      | some (part, rest) => part :: splitUpTo sep count rest
      | none => [s]

/-- `s.split(sep)`, which has no more parts than `s` has bytes, but for the last. -/
def split (sep s : Str) : List Str := splitUpTo sep s.length s

/-- `s.split()` -/
def words (s : Str) : List Str := (s.splitOnP isSpace).filter (· ≠ [])

def digitsValue (s : Str) : Nat := s.foldl (fun value byte => 10 * value + (byte.toNat - 48)) 0

def digitsInt (digits : Str) : Option Int :=
  if isdigit digits then some (digitsValue digits) else none

/-- `int(s)`, with `none` where it raises a `ValueError`; spaces may follow the sign. -/
def int (s : Str) : Option Int :=
  match strip s with
  | 43 :: digits => digitsInt (digits.dropWhile isSpace)
  | 45 :: digits => (digitsInt (digits.dropWhile isSpace)).map (-·)
  | digits => digitsInt digits

/-- `str(number)` -/
def ofInt : Int → Str
  | .ofNat number => decimal number
  | .negSucc number => 45 :: decimal (number + 1)

variable {s : Str} {byte : UInt8} {drops : UInt8 → Bool}

theorem splitOnP_part {part : Str} (member : part ∈ s.splitOnP drops) :
    ∀ byte ∈ part, byte ∈ s ∧ drops byte = false := by
  induction s generalizing part with
  | nil =>
      rw [List.splitOnP_nil, List.mem_singleton] at member
      subst part
      simp
  | cons first rest ih =>
      rw [List.splitOnP_cons_eq_if_modifyHead] at member
      split at member
      · rcases List.mem_cons.mp member with rfl | member
        · simp
        · exact fun byte inside => (ih member byte inside).imp_left (List.mem_cons_of_mem _)
      · next kept =>
          cases parts : rest.splitOnP drops with
          | nil => exact absurd parts (List.splitOnP_ne_nil drops rest)
          | cons head tail =>
              rw [parts, List.modifyHead_cons] at member
              rw [parts] at ih
              rcases List.mem_cons.mp member with rfl | member
              · intro byte inside
                rcases List.mem_cons.mp inside with rfl | inside
                · exact ⟨List.mem_cons_self, by simpa using kept⟩
                · exact (ih List.mem_cons_self byte inside).imp_left (List.mem_cons_of_mem _)
              · exact fun byte inside =>
                  (ih (List.mem_cons_of_mem _ member) byte inside).imp_left (List.mem_cons_of_mem _)

theorem splitOn_part {part : Str} (member : part ∈ s.splitOn byte) : byte ∉ part := by
  rw [List.splitOn_eq_splitOnP] at member
  intro inside
  simpa using (splitOnP_part member byte inside).2

theorem stripOf_mem {kept : UInt8} (member : kept ∈ stripOf drops s) : kept ∈ s :=
  (List.dropWhile_sublist _).subset ((List.rdropWhile_prefix drops _).subset member)

theorem stripOf_eq_self (kept : ∀ byte ∈ s, drops byte = false) : stripOf drops s = s := by
  have started : s.dropWhile drops = s := by
    cases s with
    | nil => rfl
    | cons byte rest => exact List.dropWhile_cons_of_neg (by simp [kept byte List.mem_cons_self])
  rw [stripOf, started, List.rdropWhile_eq_self_iff]
  intro nonempty
  simp [kept _ (List.getLast_mem nonempty)]

theorem stripOf_starts (drops : UInt8 → Bool) (s : Str) :
    ∀ byte rest, stripOf drops s = byte :: rest → drops byte = false := by
  intro byte rest starts
  obtain ⟨tail, whole⟩ := List.rdropWhile_prefix drops (s.dropWhile drops)
  have head := List.head?_dropWhile_not drops s
  change stripOf drops s ++ tail = _ at whole
  rw [← whole, starts] at head
  simpa using head

theorem stripOf_append {more : Str} (dropped : ∀ byte ∈ more, drops byte = true) (s : Str) :
    stripOf drops (stripOf drops s ++ more) = stripOf drops s := by
  have started : (stripOf drops s ++ more).dropWhile drops =
      if stripOf drops s = [] then [] else stripOf drops s ++ more := by
    cases starts : stripOf drops s with
    | nil => simpa [List.dropWhile_eq_nil_iff] using dropped
    | cons byte rest =>
        rw [if_neg (by simp), List.cons_append]
        exact List.dropWhile_cons_of_neg (by simp [stripOf_starts drops s byte rest starts])
  have ended : (stripOf drops s ++ more).rdropWhile drops = stripOf drops s := by
    rw [List.rdropWhile, List.reverse_append, List.dropWhile_append_of_pos (by simpa using dropped)]
    exact List.rdropWhile_idempotent drops _
  rw [stripOf, started]
  split
  · next empty => rw [empty, List.rdropWhile_nil]
  · exact ended

theorem splitOnce_whole {sep before after : Str} (found : splitOnce sep s = some (before, after)) :
    s = before ++ sep ++ after := by
  obtain ⟨pos, finds, same⟩ := Option.map_eq_some_iff.mp found
  obtain ⟨rfl, rfl⟩ := Prod.mk.inj same
  rw [(find_eq_some_iff.mp finds).1.take_append, List.take_append_drop]

theorem splitOnce_byte {before after : Str} (found : splitOnce [byte] s = some (before, after)) :
    s = before ++ byte :: after ∧ byte ∉ before := by
  constructor
  · simpa using splitOnce_whole found
  · intro member
    obtain ⟨pos, finds, same⟩ := Option.map_eq_some_iff.mp found
    obtain ⟨_, first⟩ := find_eq_some_iff.mp finds
    obtain ⟨rfl, rfl⟩ := Prod.mk.inj same
    obtain ⟨i, inside, same⟩ := List.getElem_of_mem member
    rw [List.length_take] at inside
    apply first i (by omega)
    rw [List.getElem_take] at same
    have suffix : s.drop i = s[i] :: s.drop (i + 1) := List.drop_eq_getElem_cons (by omega)
    rw [Occurs, suffix, same]
    exact List.cons_prefix_cons.mpr ⟨rfl, List.nil_prefix⟩

theorem splitOnce_returns : (∃ parts, splitOnce [byte] s = some parts) ↔ byte ∈ s := by
  constructor
  · intro given
    obtain ⟨⟨before, after⟩, found⟩ := given
    rw [(splitOnce_byte found).1]
    simp
  · intro member
    obtain ⟨before, after, rfl⟩ := List.append_of_mem member
    cases found : splitOnce [byte] (before ++ byte :: after) with
    | some parts => exact ⟨parts, rfl⟩
    | none =>
        exfalso
        apply find_eq_none_iff.mp (Option.map_eq_none_iff.mp found) before.length
        rw [Occurs, List.drop_left]
        exact List.cons_prefix_cons.mpr ⟨rfl, List.nil_prefix⟩

theorem splitOnce_append {before after : Str} (absent : byte ∉ before) :
    splitOnce [byte] (before ++ byte :: after) = some (before, after) := by
  obtain ⟨⟨first, rest⟩, found⟩ := splitOnce_returns.mpr (show byte ∈ before ++ byte :: after by simp)
  obtain ⟨same, none⟩ := splitOnce_byte found
  rcases List.append_eq_append_iff.mp same with ⟨more, firsts, rests⟩ | ⟨more, befores, rests⟩
  · cases more with
    | nil => rw [found, firsts, List.append_nil, (List.cons.inj rests).2]
    | cons symbol more =>
        rw [(List.cons.inj rests).1] at none
        exact absurd (by simp [firsts]) none
  · cases more with
    | nil => rw [found, befores, List.append_nil, (List.cons.inj rests).2]
    | cons symbol more =>
        rw [(List.cons.inj rests).1] at absent
        exact absurd (by simp [befores]) absent

theorem splitOnce_length {sep before after : Str} (filled : sep ≠ [])
    (found : splitOnce sep s = some (before, after)) : after.length < s.length := by
  obtain ⟨pos, finds, same⟩ := Option.map_eq_some_iff.mp found
  have bound := (find_eq_some_iff.mp finds).1.bound filled
  have positive := List.length_pos_of_ne_nil filled
  obtain ⟨_, rfl⟩ := Prod.mk.inj same
  rw [List.length_drop]
  omega

theorem splitUpTo_enough {sep : Str} (filled : sep ≠ []) {count : Nat} (enough : s.length ≤ count) :
    splitUpTo sep count s = split sep s := by
  have same : ∀ count more (s : Str), s.length ≤ count → s.length ≤ more →
      splitUpTo sep count s = splitUpTo sep more s := by
    intro count
    induction count with
    | zero =>
        intro more s enough _
        obtain rfl := List.eq_nil_of_length_eq_zero (Nat.le_zero.mp enough)
        cases more with
        | zero => rfl
        | succ more => simp [splitUpTo, splitOnce, find, filled]
    | succ count ih =>
        intro more s enough within
        cases more with
        | zero =>
            obtain rfl := List.eq_nil_of_length_eq_zero (Nat.le_zero.mp within)
            simp [splitUpTo, splitOnce, find, filled]
        | succ more =>
            rw [splitUpTo, splitUpTo]
            cases found : splitOnce sep s with
            | none => rfl
            | some parts =>
                have shorter := splitOnce_length filled found
                simp only
                rw [ih more parts.2 (by omega) (by omega)]
  exact same count s.length s enough (Nat.le_refl _)

theorem split_eq {sep : Str} (filled : sep ≠ []) : split sep s =
    match splitOnce sep s with
    | some (part, rest) => part :: split sep rest
    | none => [s] := by
  rw [← splitUpTo_enough filled (Nat.le_succ s.length), splitUpTo]
  cases found : splitOnce sep s with
  | none => rfl
  | some parts =>
      have shorter := splitOnce_length filled found
      simp only [List.cons.injEq, true_and]
      exact splitUpTo_enough filled (Nat.le_of_lt shorter)

theorem includes_iff {sub : Str} : includes sub s = true ↔ ∃ pos, Occurs sub s pos := by
  rw [includes, ← Option.ne_none_iff_isSome, Ne, find_eq_none_iff]
  simp

theorem isDigit_plain (digit : isDigit byte = true) :
    isSpace byte = false ∧ byte ≠ 43 ∧ byte ≠ 45 := by
  simp only [isDigit, decide_eq_true_eq] at digit
  simp only [isSpace, decide_eq_false_iff_not]
  grind

theorem isdigit_iff : isdigit s = true ↔ s ≠ [] ∧ ∀ byte ∈ s, isDigit byte = true := by
  simp [isdigit]

theorem int_isdigit (digits : isdigit s = true) : int s = some (digitsValue s : Int) := by
  have all := (isdigit_iff.mp digits).2
  have stripped : strip s = s := stripOf_eq_self fun byte member => (isDigit_plain (all byte member)).1
  unfold int
  rw [stripped]
  split
  · next rest => exact absurd rfl (isDigit_plain (all 43 List.mem_cons_self)).2.1
  · next rest => exact absurd rfl (isDigit_plain (all 45 List.mem_cons_self)).2.2
  · exact if_pos digits

theorem decimal_isdigit (number : Nat) : isdigit (decimal number) = true := by
  rw [isdigit_iff]
  simp only [decimal, ascii, String.toList_ofList, ne_eq, List.map_eq_nil_iff, Nat.toDigits_ne_nil,
    not_false_eq_true, List.forall_mem_map, true_and]
  intro char member
  have digit := Nat.isDigit_of_mem_toDigits (by decide) (by decide) member
  simp only [Char.isDigit, Bool.and_eq_true, decide_eq_true_eq] at digit
  simp only [isDigit, decide_eq_true_eq, UInt8.le_iff_toNat_le, UInt8.toNat_ofNat']
  have bounds : 48 ≤ char.toNat ∧ char.toNat ≤ 57 := digit
  rw [Nat.mod_eq_of_lt (by omega)]
  exact bounds

end Str

end ExaProxy.Data
