import ExaProxy.Network.Texts
import Mathlib.Data.Nat.Log

namespace ExaProxy.Configuration

open Data Network

def width (family : Family) : Nat := 8 * family.size

/-- The exceptions of `value.ranges`, and `inexact`, which is none of the code's. -/
inductive Invalid where
  | typeError | socketError | inexact
deriving DecidableEq, Repr

structure Range where
  proto : Family
  start : Nat
  stop : Nat
deriving DecidableEq, Repr

/-- `struct.unpack`, of one number for IPv4 and of two for IPv6. -/
def unpack : Family → Str → Nat
  | .inet, packed => Str.bigEndian packed
  | .inet6, packed => (Str.bigEndian (packed.take 8) <<< 64) + Str.bigEndian (packed.drop 8)

/-- The family of an address, which the code tells by a colon. -/
def familyOf (address : Str) : Family := if 58 ∈ address then .inet6 else .inet

/-- `pow(2, width - netmask)` as far as it is an integer. -/
def blockSize (family : Family) (netmask : Int) : Nat := 2 ^ (width family - netmask).toNat

/-- The body of the loop in `value.ranges`.  A netmask that is longer than the address is the
error `inexact`, where the code goes on with an end that is a floating point number. -/
def value.range (service : Str) : Except Invalid Range :=
  match service.splitOn 47 with
  | [network, netmask] =>
      let proto := familyOf network
      if 0 ∈ network then .error .typeError
      else
        match inetPton proto network with
        | none => .error .socketError
        | some packed =>
            match Str.int netmask with
            | none => .error .typeError
            | some netmask =>
                if netmask > width proto then .error .inexact
                else
                  let start := unpack proto packed
                  .ok { proto, start, stop := start + blockSize proto netmask - 1 }
  | _ => .error .typeError

/-- `_.strip().strip('\'"')` -/
def value.unquote (text : Str) : Str := Str.stripChars [39, 34] (Str.strip text)

def value.ranges (text : Str) : Except Invalid (List Range) :=
  (Str.words (value.unquote text)).mapM value.range

/-- `struct.pack` of a number in `size` bytes, which raises for one that is too large. -/
def pack (size number : Nat) : Option Str :=
  if number < 256 ^ size then some (Str.bytes size number) else none

/-- The network address of a range as `string.ranges` packs it. -/
def Range.packed (range : Range) : Option Str :=
  match range.proto with
  | .inet => pack 4 range.start
  | .inet6 => do
      let high ← pack 8 (range.start >>> 64)
      let low ← pack 8 (range.start &&& 0xFFFFFFFF)
      return high ++ low

/-- One text of `convert`, with a logarithm that is exact. -/
def string.range (range : Range) : Option Str := do
  let bits := Nat.log 2 (range.stop - range.start + 1)
  let network ← inetNtop range.proto (← range.packed)
  return network ++ 47 :: Str.ofInt (width range.proto - bits)

def string.quote (text : Str) : Str := 39 :: text ++ [39]

def string.ranges (ranges : List Range) : Option Str :=
  (ranges.mapM string.range).map fun texts => string.quote (Str.join [32] texts)

variable {service text network netmask : Str} {range : Range} {ranges : List Range} {family : Family}

theorem width_pow (family : Family) : 2 ^ width family = 256 ^ family.size := by
  rw [width, Nat.pow_mul]

theorem unpack_eq {packed : Str} (size : packed.length = family.size) : unpack family packed = Str.bigEndian packed := by
  cases family with
  | inet => rfl
  | inet6 =>
      have low : (packed.drop 8).length = 8 := by rw [List.length_drop, size, Family.size]
      have half : 2 ^ 64 = 256 ^ 8 := by norm_num
      conv_rhs => rw [← List.take_append_drop 8 packed, Str.bigEndian_append, low]
      rw [unpack, Nat.shiftLeft_eq, half]

theorem range_inv (accepted : value.range service = .ok range) : ∃ network netmask packed mask,
    service.splitOn 47 = [network, netmask] ∧ inetPton (familyOf network) network = some packed ∧
      Str.int netmask = some mask ∧ mask ≤ width (familyOf network) ∧
      range = { proto := familyOf network, start := Str.bigEndian packed,
                stop := Str.bigEndian packed + blockSize (familyOf network) mask - 1 } := by
  rw [value.range] at accepted
  split at accepted
  · rename_i network netmask parts
    simp only at accepted
    split_ifs at accepted with null
    cases read : inetPton (familyOf network) network with
    | none => simp [read] at accepted
    | some packed =>
        cases number : Str.int netmask with
        | none => simp [read, number] at accepted
        | some mask =>
            simp only [read, number] at accepted
            split_ifs at accepted with long
            cases accepted
            rw [unpack_eq (inetPton_length read)]
            exact ⟨network, netmask, packed, mask, parts, read, number, not_lt.mp long, rfl⟩
  · cases accepted

/-- A range that starts at an address and has a power of two of them. -/
structure Range.Block (range : Range) (exponent : Nat) : Prop where
  start_lt : range.start < 2 ^ width range.proto
  stop_eq : range.stop = range.start + 2 ^ exponent - 1

theorem range_block (accepted : value.range service = .ok range) : ∃ exponent, range.Block exponent := by
  obtain ⟨network, netmask, packed, mask, -, read, -, -, rfl⟩ := range_inv accepted
  refine ⟨_, ?_, rfl⟩
  have bound := Str.bigEndian_lt packed
  rw [inetPton_length read, ← width_pow] at bound
  exact bound

/-! What the texts of ranges are made of. -/

/-- A text that neither `split` nor `strip` takes anything from. -/
def Plain (text : Str) : Prop := ∀ byte ∈ text, Str.isSpace byte = false ∧ byte ≠ 39 ∧ byte ≠ 34 ∧ byte ≠ 0

theorem plain_append {more : Str} (first : Plain text) (second : Plain more) : Plain (text ++ more) := by
  intro byte member
  exact (List.mem_append.mp member).elim (first byte) (second byte)

theorem plain_spelled (spelled : Spelled text) : Plain text ∧ 47 ∉ text := by
  have each : ∀ byte ∈ text, (Str.isSpace byte = false ∧ byte ≠ 39 ∧ byte ≠ 34 ∧ byte ≠ 0) ∧ byte ≠ 47 := by
    intro byte member
    have spelled := spelled byte member
    simp only [isHexDigit, Str.isDigit, decide_eq_true_eq] at spelled
    simp only [Str.isSpace, decide_eq_false_iff_not]
    grind
  exact ⟨fun byte member => (each byte member).1, fun member => (each 47 member).2 rfl⟩

theorem plain_decimal (number : Nat) : Plain (Str.decimal number) ∧ 47 ∉ Str.decimal number := by
  refine plain_spelled fun byte member => .inl ?_
  have digit := (Str.isdigit_iff.mp (Str.decimal_isdigit number)).2 byte member
  simp [isHexDigit, digit]

theorem plain_ofInt (number : Int) : Plain (Str.ofInt number) ∧ 47 ∉ Str.ofInt number := by
  cases number with
  | ofNat number => exact plain_decimal number
  | negSucc number =>
      obtain ⟨plain, slash⟩ := plain_decimal (number + 1)
      refine ⟨?_, by simp [Str.ofInt, slash]⟩
      intro byte member
      obtain rfl | member := List.mem_cons.mp member
      · decide
      · exact plain byte member

theorem int_ofInt (number : Int) : Str.int (Str.ofInt number) = some number := by
  cases number with
  | ofNat number =>
      rw [Str.ofInt, Str.int_isdigit (Str.decimal_isdigit number), Str.digitsValue_decimal]
      rfl
  | negSucc number =>
      have plain : Str.strip (Str.ofInt (.negSucc number)) = Str.ofInt (.negSucc number) :=
        Str.stripOf_eq_self fun byte member => ((plain_ofInt _).1 byte member).1
      have digits : (Str.decimal (number + 1)).dropWhile Str.isSpace = Str.decimal (number + 1) := by
        rw [List.dropWhile_eq_self_iff]
        intro filled
        simpa using ((plain_decimal (number + 1)).1 _ (List.getElem_mem filled)).1
      rw [Str.int, plain, Str.ofInt]
      simp only [digits, Str.digitsInt, Str.decimal_isdigit, if_true, Str.digitsValue_decimal, Option.map_some]
      rfl

theorem unquote_quote (plain : ∀ byte ∈ text, byte ≠ 39 ∧ byte ≠ 34) :
    value.unquote (string.quote text) = text := by
  have stripped : Str.strip (string.quote text) = string.quote text := by
    have front : (string.quote text).dropWhile Str.isSpace = string.quote text := rfl
    have back : (39 :: text ++ [39]).rdropWhile Str.isSpace = 39 :: text ++ [39] :=
      List.rdropWhile_concat_neg _ _ _ (by decide)
    rw [Str.strip, Str.stripOf, front, string.quote, back]
  have inside : Str.stripOf (· ∈ [39, 34]) text = text := by
    refine Str.stripOf_eq_self fun byte member => ?_
    simp [plain byte member]
  have outside : Str.stripOf (· ∈ [39, 34]) (39 :: (text ++ [39])) = Str.stripOf (· ∈ [39, 34]) (text ++ [39]) := by
    rw [Str.stripOf, List.dropWhile_cons_of_pos (by decide), Str.stripOf]
  have whole : Str.stripOf (· ∈ [39, 34]) (Str.stripOf (· ∈ [39, 34]) text ++ [39]) = _ :=
    Str.stripOf_append (by simp) text
  rw [inside] at whole
  rw [value.unquote, stripped, Str.stripChars, string.quote, List.cons_append, outside, whole]

theorem words_join {list : List Str} (plain : ∀ word ∈ list, word ≠ [] ∧ Plain word) :
    Str.words (Str.join [32] list) = list := by
  induction list with
  | nil => rfl
  | cons word list ih =>
      obtain ⟨⟨filled, first⟩, rest⟩ := List.forall_mem_cons.mp plain
      have spaceless : ∀ byte ∈ word, Str.isSpace byte = false := fun byte member => (first byte member).1
      by_cases last : list = []
      · subst last
        simp [Str.words, Str.join, List.splitOnP_eq_singleton spaceless, filled]
      · have split : (word ++ 32 :: Str.join [32] list).splitOnP Str.isSpace =
            word :: (Str.join [32] list).splitOnP Str.isSpace :=
          List.splitOnP_append_cons_of_forall_mem spaceless 32 rfl _
        have joined : Str.join [32] (word :: list) = word ++ 32 :: Str.join [32] list := by
          rw [Str.join, List.intercalate_cons_of_ne_nil last, List.append_assoc]
          rfl
        rw [joined, Str.words, split, List.filter_cons_of_pos (by simpa using filled)]
        exact congrArg _ (ih rest)

/-! A range that is written and read again. -/

/-- What is left of the start of a range when it is written. -/
def Range.kept (range : Range) : Nat :=
  match range.proto with
  | .inet => range.start
  | .inet6 => range.start / 2 ^ 64 * 2 ^ 64 + range.start % 2 ^ 32

/-- The range that is read from its text. -/
def Range.rewritten (range : Range) : Range :=
  { range with start := range.kept, stop := range.kept + (range.stop - range.start) }

theorem packed_kept (bound : range.start < 2 ^ width range.proto) : ∃ packed, range.packed = some packed ∧
    packed.length = range.proto.size ∧ Str.bigEndian packed = range.kept := by
  obtain ⟨proto, start, stop⟩ := range
  cases proto with
  | inet =>
      have small : start < 256 ^ 4 := bound
      refine ⟨Str.bytes 4 start, if_pos small, Str.bytes_length 4 start, ?_⟩
      rw [Str.bigEndian_bytes, Nat.mod_eq_of_lt small]
      rfl
  | inet6 =>
      have bound : start < 2 ^ 128 := bound
      have high : start >>> 64 = start / 2 ^ 64 := Nat.shiftRight_eq_div_pow start 64
      have low : start &&& 0xFFFFFFFF = start % 2 ^ 32 := Nat.and_two_pow_sub_one_eq_mod start 32
      have half : 256 ^ 8 = 2 ^ 64 := by norm_num
      have fits : start / 2 ^ 64 < 256 ^ 8 ∧ start % 2 ^ 32 < 256 ^ 8 := by omega
      refine ⟨Str.bytes 8 (start >>> 64) ++ Str.bytes 8 (start &&& 0xFFFFFFFF), ?_, by simp [Family.size], ?_⟩
      · simp only [Range.packed, pack, high, low, fits, if_true]
        rfl
      · rw [Str.bigEndian_append, Str.bigEndian_bytes, Str.bigEndian_bytes, Str.bytes_length, high, low,
          Nat.mod_eq_of_lt fits.1, Nat.mod_eq_of_lt fits.2, half]
        rfl

theorem log_block {exponent : Nat} (block : range.Block exponent) :
    Nat.log 2 (range.stop - range.start + 1) = exponent := by
  have positive := Nat.two_pow_pos exponent
  have count : range.stop - range.start + 1 = 2 ^ exponent := by
    rw [block.stop_eq]
    omega
  rw [count, Nat.log_pow (by decide)]

theorem string_range {exponent : Nat} (block : range.Block exponent) : ∃ text, string.range range = some text ∧
    (text ≠ [] ∧ Plain text) ∧ value.range text = .ok range.rewritten := by
  obtain ⟨packed, packs, size, number⟩ := packed_kept block.start_lt
  obtain ⟨network, written, read⟩ := inetPton_inetNtop size
  obtain ⟨spelled, colon⟩ := inetNtop_spelled written
  obtain ⟨plain, slash⟩ := plain_spelled spelled
  obtain ⟨maskPlain, maskSlash⟩ := plain_ofInt (width range.proto - exponent)
  have family : familyOf network = range.proto := by
    rw [familyOf]
    cases proto : range.proto with
    | inet => exact if_neg (by simp [colon, proto])
    | inet6 => exact if_pos (by simp [colon, proto])
  refine ⟨network ++ 47 :: Str.ofInt (width range.proto - exponent), ?_, ⟨by simp, ?_⟩, ?_⟩
  · rw [string.range, packs, log_block block]
    simp only [Option.bind_eq_bind, Option.bind_some, written]
    rfl
  · refine plain_append plain fun byte member => ?_
    obtain rfl | member := List.mem_cons.mp member
    · decide
    · exact maskPlain byte member
  · have parts : (network ++ 47 :: Str.ofInt (width range.proto - exponent)).splitOn 47 =
        [network, Str.ofInt (width range.proto - exponent)] := by
      rw [List.splitOn_append_cons_self_of_not_mem slash, List.splitOn_eq_singleton maskSlash]
    have null : 0 ∉ network := fun member => (plain 0 member).2.2.2 rfl
    have size : blockSize range.proto (width range.proto - exponent) = 2 ^ exponent := by
      have count : ((width range.proto : Int) - (width range.proto - exponent)).toNat = exponent := by omega
      rw [blockSize, count]
    have short : ¬ ((width range.proto : Int) - exponent > width range.proto) := by omega
    have stop : range.kept + 2 ^ exponent - 1 = range.kept + (range.stop - range.start) := by
      have positive := Nat.two_pow_pos exponent
      rw [block.stop_eq]
      omega
    simp only [value.range, parts, family, null, if_false, read, int_ofInt, short, size,
      unpack_eq (inetPton_length read), number, stop]
    rfl

theorem mapM_ok {α β γ ε : Type} {items : List α} {write : α → Option β} {read : β → Except ε γ} {again : α → γ}
    {good : β → Prop} (each : ∀ item ∈ items, ∃ text, write item = some text ∧ good text ∧ read text = .ok (again item)) :
    ∃ texts, items.mapM write = some texts ∧ (∀ text ∈ texts, good text) ∧ texts.mapM read = .ok (items.map again) := by
  induction items with
  | nil => exact ⟨[], rfl, by simp, rfl⟩
  | cons item items ih =>
      obtain ⟨⟨text, written, fine, back⟩, rest⟩ := List.forall_mem_cons.mp each
      obtain ⟨texts, others, all, backs⟩ := ih rest
      refine ⟨text :: texts, ?_, List.forall_mem_cons.mpr ⟨fine, all⟩, ?_⟩
      · rw [List.mapM_cons, written, others]
        rfl
      · rw [List.mapM_cons, back, backs]
        rfl

theorem mapM_mem {α β ε : Type} {items : List α} {read : α → Except ε β} {results : List β}
    (all : items.mapM read = .ok results) : ∀ result ∈ results, ∃ item ∈ items, read item = .ok result := by
  induction items generalizing results with
  | nil =>
      cases all
      simp
  | cons item items ih =>
      rw [List.mapM_cons] at all
      obtain ⟨first, found, rest⟩ := bind_ok all
      obtain ⟨others, founds, same⟩ := bind_ok rest
      cases same
      intro result member
      obtain rfl | member := List.mem_cons.mp member
      · exact ⟨item, List.mem_cons_self, found⟩
      · obtain ⟨source, listed, read⟩ := ih founds result member
        exact ⟨source, List.mem_cons_of_mem _ listed, read⟩

theorem rewritten_iff {exponent : Nat} (block : range.Block exponent) :
    range.rewritten = range ↔ (range.proto = .inet6 → range.start / 2 ^ 32 % 2 ^ 32 = 0) := by
  have positive := Nat.two_pow_pos exponent
  have stop := block.stop_eq
  obtain ⟨proto, start, last⟩ := range
  simp only [Range.rewritten, Range.kept, Range.mk.injEq, true_and] at stop ⊢
  cases proto with
  | inet =>
      simp only [reduceCtorEq, false_implies, iff_true, true_and]
      omega
  | inet6 =>
      simp only [true_implies]
      omega

/-- The ranges that were read are read again from what is written of them exactly where
the fifth and the sixth word of each IPv6 range are zero. -/
theorem ranges_rewritten_iff (loaded : value.ranges text = .ok ranges) :
    (∃ dumped, string.ranges ranges = some dumped ∧ value.ranges dumped = .ok ranges) ↔
      ∀ range ∈ ranges, range.proto = .inet6 → range.start / 2 ^ 32 % 2 ^ 32 = 0 := by
  have blocks : ∀ range ∈ ranges, ∃ exponent, range.Block exponent := by
    intro range member
    obtain ⟨service, -, accepted⟩ := mapM_mem loaded range member
    exact range_block accepted
  obtain ⟨texts, written, plain, read⟩ : ∃ texts, ranges.mapM string.range = some texts ∧
      (∀ text ∈ texts, text ≠ [] ∧ Plain text) ∧ texts.mapM value.range = .ok (ranges.map Range.rewritten) := by
    refine mapM_ok fun range member => ?_
    obtain ⟨exponent, block⟩ := blocks range member
    exact string_range block
  have unquoted : value.unquote (string.quote (Str.join [32] texts)) = Str.join [32] texts := by
    refine unquote_quote fun byte member => ?_
    obtain blank | ⟨text, listed, inside⟩ := mem_join member
    · rw [List.mem_singleton.mp blank]
      decide
    · exact ⟨((plain text listed).2 byte inside).2.1, ((plain text listed).2 byte inside).2.2.1⟩
  have again : value.ranges (string.quote (Str.join [32] texts)) = .ok (ranges.map Range.rewritten) := by
    rw [value.ranges, unquoted, words_join plain, read]
  have whole : string.ranges ranges = some (string.quote (Str.join [32] texts)) := by
    rw [string.ranges, written, Option.map_some]
  simp only [whole, Option.some.injEq, exists_eq_left', again, Except.ok.injEq]
  conv_lhs =>
    rhs
    rw [← List.map_id ranges]
  rw [List.map_inj_left]
  refine forall₂_congr fun range member => ?_
  obtain ⟨exponent, block⟩ := blocks range member
  exact rewritten_iff block

theorem ranges_rewritten : ∃ dumped,
    string.ranges [⟨.inet, 167772160, 184549375⟩, ⟨.inet6, 1, 1⟩] = some dumped ∧
      value.ranges dumped = .ok [⟨.inet, 167772160, 184549375⟩, ⟨.inet6, 1, 1⟩] := by
  have loaded : value.ranges (ascii "10.0.0.0/8 ::1/128") =
      .ok [⟨.inet, 167772160, 184549375⟩, ⟨.inet6, 1, 1⟩] := by decide +kernel
  exact (ranges_rewritten_iff loaded).mpr (by decide)

/-- The low half of an address is cut to 32 bits. -/
theorem ranges_cut : ∃ range, value.ranges (ascii "2001:db8::a:b:0:0/96") = .ok [range] ∧
    string.ranges [range] = some (ascii "'2001:db8::/96'") ∧
      value.ranges (ascii "'2001:db8::/96'") ≠ .ok [range] := by
  let start := 0x20010db800000000000a000b00000000
  exact ⟨⟨.inet6, start, start + 2 ^ 32 - 1⟩, by decide +kernel⟩

end ExaProxy.Configuration
