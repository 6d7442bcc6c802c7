import ExaProxy.Data.Numbers
import ExaProxy.Network.Addresses
import Mathlib.Data.List.GetD

namespace ExaProxy.Network

open Data

variable {bytes text token rest : Str} {words : List Nat} {word : Nat} {gap : Option Nat} {state : Words}

theorem isOctet_decimal (byte : UInt8) : isOctet (Str.decimal byte.toNat) = true := by
  have small := byte.toNat_lt
  simp only [isOctet, decide_eq_true_eq, Str.decimal_isdigit, Str.digitsValue_decimal, true_and]
  refine ⟨by omega, fun zero => ?_⟩
  obtain least | positive := Nat.eq_zero_or_pos byte.toNat
  · rw [least]
    rfl
  · obtain ⟨rest, starts⟩ := List.head?_eq_some_iff.mp zero
    exact absurd starts (Str.decimal_head positive rest)

theorem decimal_dotless (number : Nat) : 46 ∉ Str.decimal number := by
  intro member
  have digit := (Str.isdigit_iff.mp (Str.decimal_isdigit number)).2 46 member
  exact absurd digit (by decide)

theorem inetPton_dotted (written : inetNtoa bytes = some text) : inetPton4 text = true ∧ octets text = bytes := by
  unfold inetNtoa at written
  split at written
  · rename_i a b c d
    cases written
    have parts : (Str.join (ascii ".") ([a, b, c, d].map fun byte => Str.decimal byte.toNat)).splitOn 46 =
        [a, b, c, d].map fun byte => Str.decimal byte.toNat := by
      refine List.splitOn_intercalate 46 ?_ (by simp)
      intro part member
      obtain ⟨byte, -, rfl⟩ := List.mem_map.mp member
      exact decimal_dotless byte.toNat
    rw [inetPton4, octets, parts]
    simp [isOctet_decimal, Str.digitsValue_decimal]
  · cases written

theorem hexByte : ∀ digit < 16, isHexDigit (UInt8.ofNat (Nat.digitChar digit).toNat) = true ∧
    hexDigit (UInt8.ofNat (Nat.digitChar digit).toNat) = digit := by
  decide

theorem hex_digits (number : Nat) : (∀ byte ∈ Str.hex number, isHexDigit byte = true) ∧
    (Str.hex number).foldl (fun value byte => 16 * value + hexDigit byte) 0 = number := by
  induction number using Nat.strongRecOn with
  | ind number ih =>
      obtain ⟨digit, value⟩ := hexByte (number % 16) (Nat.mod_lt number (by decide))
      by_cases small : number < 16
      · rw [Nat.mod_eq_of_lt small] at digit value
        rw [Str.hex, Nat.toDigits_of_lt_base small]
        simp [ascii, digit, value]
      · obtain ⟨digits, front⟩ := ih (number / 16) (by omega)
        rw [Str.hex] at digits front
        rw [Str.hex, Nat.toDigits_of_base_le (by decide) (Nat.not_lt.mp small)]
        simp only [ascii, String.toList_ofList, List.map_append, List.map_cons, List.map_nil] at digits front ⊢
        refine ⟨?_, ?_⟩
        · intro byte member
          obtain member | last := List.mem_append.mp member
          · exact digits byte member
          · rw [List.mem_singleton.mp last]
            exact digit
        · rw [List.foldl_append, front, List.foldl_cons, List.foldl_nil, value]
          omega

theorem hex_length (small : word < 65536) : 0 < (Str.hex word).length ∧ (Str.hex word).length ≤ 4 := by
  simp only [Str.hex, ascii, String.toList_ofList, List.length_map]
  exact ⟨Nat.length_toDigits_pos, (Nat.length_toDigits_le_iff (by decide) (by decide)).mpr small⟩

theorem run_digits (digits : ∀ byte ∈ text, isHexDigit byte = true) (short : state.digits + text.length ≤ 4) :
    state.run (text ++ rest) =
      { state with
        value := text.foldl (fun value byte => 16 * value + hexDigit byte) state.value
        digits := state.digits + text.length }.run rest := by
  induction text generalizing state with
  | nil => rfl
  | cons byte text ih =>
      rw [List.length_cons] at short
      obtain ⟨digit, digits⟩ := List.forall_mem_cons.mp digits
      rw [List.cons_append, Words.run, if_pos digit, if_neg (by omega), ih digits (by simp only; omega)]
      simp only [List.foldl_cons, List.length_cons, Nat.add_assoc, Nat.add_comm 1]

theorem run_word (small : word < 65536) :
    ({ token, bytes, gap } : Words).run (Str.hex word ++ rest) =
      ({ token, value := word, digits := (Str.hex word).length, bytes, gap } : Words).run rest := by
  obtain ⟨digits, value⟩ := hex_digits word
  rw [run_digits digits (by simpa using (hex_length small).2), value, Nat.zero_add]

theorem run_colon (small : word < 65536) (filled : rest ≠ []) (room : bytes.length + 2 ≤ 16) :
    ({ token, bytes, gap } : Words).run (Str.hex word ++ 58 :: rest) =
      ({ token := rest, bytes := bytes ++ Str.bytes 2 word, gap } : Words).run rest := by
  have positive := (hex_length small).1
  rw [run_word small, Words.run, if_neg (by decide), if_pos rfl, if_neg positive.ne', if_neg]
  · rw [Words.written, if_pos positive]
  · simp only [not_or]
    exact ⟨filled, room.not_gt⟩

theorem run_gap :
    ({ token, bytes } : Words).run (58 :: rest) =
      ({ token := rest, bytes, gap := some bytes.length } : Words).run rest := by
  rw [Words.run, if_neg (by decide), if_pos rfl, if_pos rfl, if_neg (by simp)]

def packed (words : List Nat) : Str := words.flatMap (Str.bytes 2)

theorem packed_length (words : List Nat) : (packed words).length = 2 * words.length := by
  induction words with
  | nil => rfl
  | cons word words ih =>
      rw [packed, List.flatMap_cons, List.length_append, Str.bytes_length, List.length_cons]
      rw [packed] at ih
      omega

theorem hexWords_cons (filled : words ≠ []) : hexWords (word :: words) = Str.hex word ++ 58 :: hexWords words := by
  rw [hexWords, Str.join, List.map_cons, List.intercalate_cons_of_ne_nil (by simpa using filled)]
  exact List.append_assoc _ _ _

theorem hexWords_ne_nil (filled : words ≠ []) (small : ∀ word ∈ words, word < 65536) : hexWords words ≠ [] := by
  cases words with
  | nil => exact absurd rfl filled
  | cons word words =>
      have positive := List.ne_nil_of_length_pos (hex_length (small word List.mem_cons_self)).1
      cases words with
      | nil => simpa [hexWords, Str.join] using positive
      | cons next words => simp [hexWords_cons]

theorem run_hexWords (filled : words ≠ []) (small : ∀ word ∈ words, word < 65536)
    (room : bytes.length + 2 * words.length ≤ 16) :
    ({ token, bytes, gap } : Words).run (hexWords words) =
      ({ token, bytes := bytes ++ packed words, gap } : Words).finish := by
  induction words generalizing token bytes with
  | nil => exact absurd rfl filled
  | cons word words ih =>
      obtain ⟨first, small⟩ := List.forall_mem_cons.mp small
      rw [List.length_cons] at room
      by_cases last : words = []
      · subst last
        have single : hexWords [word] = Str.hex word ++ [] := by simp [hexWords, Str.join]
        rw [single, run_word first, Words.run, Words.finish, Words.finish, Words.written, Words.written,
          if_pos (hex_length first).1]
        simp [packed]
      · rw [hexWords_cons last, run_colon first (hexWords_ne_nil last small) (by omega),
          ih last small (by simp; omega)]
        simp [packed, Words.finish, Words.written]

theorem run_hexWords_gap (filled : words ≠ []) (small : ∀ word ∈ words, word < 65536)
    (room : bytes.length + 2 * words.length ≤ 16) :
    ({ token, bytes } : Words).run (hexWords words ++ 58 :: 58 :: rest) =
      ({ token := rest, bytes := bytes ++ packed words, gap := some (bytes ++ packed words).length } :
        Words).run rest := by
  induction words generalizing token bytes with
  | nil => exact absurd rfl filled
  | cons word words ih =>
      obtain ⟨first, small⟩ := List.forall_mem_cons.mp small
      rw [List.length_cons] at room
      by_cases last : words = []
      · subst last
        have single : hexWords [word] = Str.hex word := by simp [hexWords, Str.join]
        rw [single, run_colon first (by simp) (by omega), run_gap]
        simp [packed]
      · rw [hexWords_cons last, List.append_assoc, List.cons_append,
          run_colon first (by simp [hexWords_ne_nil last small]) (by omega), ih last small (by simp; omega)]
        simp [packed]

theorem run_dotted {address : Str} (dotted : inetNtoa address = some text) (room : bytes.length + 4 ≤ 16) :
    ({ token := text, bytes, gap } : Words).run text = ({ token := text, bytes := bytes ++ address, gap } : Words).finish := by
  obtain ⟨accepted, value⟩ := inetPton_dotted dotted
  obtain ⟨first, rest, starts⟩ : ∃ (first : UInt8) (rest : Str), text = Str.decimal first.toNat ++ 46 :: rest := by
    unfold inetNtoa at dotted
    split at dotted
    · rename_i a b c d
      cases dotted
      refine ⟨a, Str.join [46] ([b, c, d].map fun byte => Str.decimal byte.toNat), ?_⟩
      rw [List.map_cons, Str.join, List.intercalate_cons_of_ne_nil (by simp)]
      exact List.append_assoc _ _ _
    · cases dotted
  have digits : ∀ byte ∈ Str.decimal first.toNat, isHexDigit byte = true := by
    intro byte member
    have digit := (Str.isdigit_iff.mp (Str.decimal_isdigit first.toNat)).2 byte member
    simp [isHexDigit, digit]
  have short : (Str.decimal first.toNat).length ≤ 4 := by
    have small := first.toNat_lt
    simp only [Str.decimal, ascii, String.toList_ofList, List.length_map]
    exact (Nat.length_toDigits_le_iff (by decide) (by decide)).mpr (by omega)
  have whole : ({ token := text, bytes, gap } : Words).run (Str.decimal first.toNat ++ 46 :: rest) = _ :=
    run_digits digits (by simpa using short)
  rw [← starts] at whole
  rw [whole, Words.run, if_neg (by decide), if_neg (by decide), if_pos ⟨rfl, room, accepted⟩, value]
  rfl

theorem finish_gap {before after : Str} (short : before.length + after.length < 16) :
    ({ token, bytes := before ++ after, gap := some before.length } : Words).finish =
      some (before ++ List.replicate (16 - (before.length + after.length)) 0 ++ after) := by
  have written : ({ token, bytes := before ++ after, gap := some before.length } : Words).written =
      before ++ after := rfl
  simp only [Words.finish, written, List.length_append, if_pos short, List.take_left', List.drop_left']

theorem zeroRun_spec (words : List Nat) :
    zeroRun words = (0, 0) ∨ ((words.drop (zeroRun words).1).takeWhile (· == 0)).length = (zeroRun words).2 := by
  have each : ∀ runs : List (Nat × Nat), (∀ run ∈ runs, ((words.drop run.1).takeWhile (· == 0)).length = run.2) →
      ∀ best : Nat × Nat, (best = (0, 0) ∨ ((words.drop best.1).takeWhile (· == 0)).length = best.2) →
        let found := runs.foldl (fun best run => if run.2 > best.2 then run else best) best
        found = (0, 0) ∨ ((words.drop found.1).takeWhile (· == 0)).length = found.2 := by
    intro runs
    induction runs with
    | nil => exact fun _ _ held => held
    | cons run runs ih =>
        intro all best held
        obtain ⟨first, all⟩ := List.forall_mem_cons.mp all
        refine ih all _ ?_
        dsimp only
        split
        · exact .inr first
        · exact held
  refine each _ (fun run member => ?_) (0, 0) (.inl rfl)
  obtain ⟨start, -, rfl⟩ := List.mem_map.mp member
  rfl

theorem zeroRun_split {start count : Nat} (found : zeroRun words = (start, count)) (some : 2 ≤ count) :
    words = words.take start ++ (List.replicate count 0 ++ words.drop (start + count)) := by
  have spec := zeroRun_spec words
  rw [found] at spec
  obtain none | length := spec
  · cases none
    omega
  · have zeros : (words.drop start).take count = List.replicate count 0 := by
      have start_run := List.prefix_iff_eq_take.mp (List.takeWhile_prefix (fun word : Nat => word == 0)
        (l := words.drop start))
      rw [length] at start_run
      rw [← start_run, List.eq_replicate_iff]
      exact ⟨length, fun word member => by simpa using List.mem_takeWhile_imp member⟩
    rw [← zeros, ← List.drop_drop, List.take_append_drop, List.take_append_drop]

/-- The words of an address, as `inet_ntop` takes them. -/
def wordsOf (address : Str) : List Nat := (List.range 8).map fun i =>
  (address.getD (2 * i) 0).toNat * 256 + (address.getD (2 * i + 1) 0).toNat

theorem wordsOf_small (address : Str) : ∀ word ∈ wordsOf address, word < 65536 := by
  intro word member
  obtain ⟨i, -, rfl⟩ := List.mem_map.mp member
  have high := (address.getD (2 * i) 0).toNat_lt
  have low := (address.getD (2 * i + 1) 0).toNat_lt
  omega

theorem bytes_word (high low : UInt8) : Str.bytes 2 (high.toNat * 256 + low.toNat) = [high, low] := by
  have whole := Str.bytes_bigEndian [high, low]
  rwa [Str.bigEndian, List.foldl_cons, List.foldl_cons, List.foldl_nil, Nat.mul_zero, Nat.zero_add, Nat.mul_comm] at whole

theorem packed_wordsOf {address : Str} (size : address.length = 16) : packed (wordsOf address) = address := by
  match address, size with
  | [a, b, c, d, e, f, g, h, i, j, k, l, m, n, o, p], _ =>
      simp [packed, wordsOf, List.range_succ, bytes_word]

theorem packed_append (words more : List Nat) : packed (words ++ more) = packed words ++ packed more :=
  List.flatMap_append

theorem packed_zeros (count : Nat) : packed (List.replicate count 0) = List.replicate (2 * count) 0 := by
  induction count with
  | zero => rfl
  | succ count ih =>
      rw [List.replicate_succ, packed, List.flatMap_cons, ← packed, ih, Nat.mul_succ, Nat.add_comm, List.replicate_add]
      rfl

theorem hexWords_nil : hexWords [] = [] := rfl

theorem read_hexWords (filled : words ≠ []) (small : ∀ word ∈ words, word < 65536) (more : Str) :
    Words.read (hexWords words ++ more) = ({ token := hexWords words ++ more } : Words).run (hexWords words ++ more) := by
  cases text : hexWords words with
  | nil => exact absurd text (hexWords_ne_nil filled small)
  | cons byte rest =>
      have digit : isHexDigit byte = true := by
        cases words with
        | nil => exact absurd rfl filled
        | cons word words =>
            have start : (Str.hex word).head? = some byte := by
              have positive := List.ne_nil_of_length_pos (hex_length (small word List.mem_cons_self)).1
              obtain ⟨first, tail, hex⟩ := List.exists_cons_of_ne_nil positive
              by_cases last : words = []
              · subst last
                have single : hexWords [word] = Str.hex word := by simp [hexWords, Str.join]
                rw [← single, text]
                rfl
              · rw [hexWords_cons last, hex, List.cons_append] at text
                rw [hex, (List.cons.inj text).1]
                rfl
            exact (hex_digits word).1 byte (List.mem_of_head? start)
      have other : byte ≠ 58 := by
        intro same
        subst same
        exact absurd digit (by decide)
      simp only [Words.read, List.cons_append]
      split
      · rename_i empty
        cases empty
      · rename_i colons
        exact absurd (List.cons.inj colons).1 other
      · rename_i colon
        exact absurd (List.cons.inj colon).1 other
      · rfl

theorem read_gap {before after : List Nat} (smallBefore : ∀ word ∈ before, word < 65536)
    (smallAfter : ∀ word ∈ after, word < 65536) (short : before.length + after.length < 8) :
    Words.read (hexWords before ++ 58 :: 58 :: hexWords after) =
      some (packed before ++ List.replicate (16 - (2 * before.length + 2 * after.length)) 0 ++ packed after) := by
  have behind : ∀ token : Str,
      ({ token, bytes := packed before, gap := some (packed before).length } : Words).run (hexWords after) =
        some (packed before ++ List.replicate (16 - (2 * before.length + 2 * after.length)) 0 ++ packed after) := by
    intro token
    have filled : ({ token, bytes := packed before ++ packed after, gap := some (packed before).length } :
        Words).finish = _ := finish_gap (by rw [packed_length, packed_length]; omega)
    rw [packed_length before, packed_length after] at filled
    by_cases last : after = []
    · subst last
      rw [hexWords_nil, Words.run, packed_length]
      simpa [packed] using filled
    · rw [run_hexWords last smallAfter (by rw [packed_length]; omega), packed_length before]
      exact filled
  by_cases first : before = []
  · subst first
    rw [hexWords_nil, List.nil_append, Words.read, run_gap]
    exact behind _
  · rw [read_hexWords first smallBefore, run_hexWords_gap first smallBefore (by simp; omega), List.nil_append]
    exact behind _

/-- Words in front of a dotted address, behind a gap at the start. -/
theorem read_dotted {address : Str} (dotted : inetNtoa address = some text) (size : address.length = 4) :
    Words.read (58 :: 58 :: text) = some (List.replicate 12 0 ++ address) ∧
      Words.read (58 :: 58 :: (Str.hex 65535 ++ 58 :: text)) =
        some (List.replicate 10 0 ++ ([255, 255] ++ address)) := by
  have filled : text ≠ [] := by
    intro same
    subst same
    have accepted := (inetPton_dotted dotted).1
    cases accepted
  have plain : ({ token := text, bytes := [] ++ address, gap := some ([] : Str).length } : Words).finish = _ :=
    finish_gap (by simp [size])
  have mapped : ({ token := text, bytes := [] ++ ([255, 255] ++ address), gap := some ([] : Str).length } :
      Words).finish = _ := finish_gap (by simp [size])
  have word : Str.bytes 2 65535 = [255, 255] := by decide
  constructor
  · rw [Words.read, run_gap, run_dotted dotted (by simp)]
    simpa [size] using plain
  · rw [Words.read, run_gap, run_colon (by decide) filled (by simp), run_dotted dotted (by simp), word]
    simpa [size] using mapped

theorem inetNtoa_four {address : Str} (size : address.length = 4) : ∃ text, inetNtoa address = some text := by
  match address, size with
  | [a, b, c, d], _ => exact ⟨_, rfl⟩

theorem inetPton_inetNtop6 {address : Str} (size : address.length = 16) :
    ∃ text, inetNtop6 address = some text ∧ Words.read text = some address := by
  have small := wordsOf_small address
  have whole := packed_wordsOf size
  have eight : (wordsOf address).length = 8 := by simp [wordsOf]
  rw [inetNtop6, if_neg (by omega), ← wordsOf]
  generalize wordsOf address = words at small whole eight ⊢
  cases found : zeroRun words with
  | mk start count =>
      simp only [found]
      by_cases few : count < 2
      · rw [if_pos few]
        have filled : words ≠ [] := List.ne_nil_of_length_pos (by omega)
        have plain := read_hexWords filled small []
        rw [List.append_nil] at plain
        refine ⟨_, rfl, ?_⟩
        rw [plain, run_hexWords filled small (by simp; omega), List.nil_append, whole, Words.finish]
        exact if_pos size
      · have split := zeroRun_split found (Nat.not_lt.mp few)
        rw [if_neg few]
        by_cases embedded : start = 0 ∧ (count = 6 ∨ count = 5 ∧ words.getD 5 0 = 0xffff)
        · rw [if_pos embedded]
          obtain ⟨rfl, either⟩ := embedded
          have last : (address.drop 12).length = 4 := by rw [List.length_drop, size]
          obtain ⟨dotted, written⟩ := inetNtoa_four last
          obtain ⟨plain, mapped⟩ := read_dotted written last
          rw [written]
          rw [List.take_zero, List.nil_append, Nat.zero_add] at split
          refine ⟨_, rfl, ?_⟩
          obtain rfl | ⟨rfl, ffff⟩ := either
          · have address_eq : address = List.replicate 12 0 ++ packed (words.drop 6) := by
              rw [← whole]
              conv_lhs => rw [split, packed_append, packed_zeros]
            have tail : address.drop 12 = packed (words.drop 6) := by
              rw [address_eq, List.drop_left' List.length_replicate]
            rw [tail, ← address_eq] at plain
            exact plain
          · have next : words.drop 5 = 65535 :: words.drop 6 := by
              rw [List.drop_eq_getElem_cons (by omega), ← ffff, List.getD_eq_getElem _ _ (by omega)]
            have address_eq : address = List.replicate 10 0 ++ ([255, 255] ++ packed (words.drop 6)) := by
              rw [← whole]
              conv_lhs => rw [split, packed_append, packed_zeros, next]
              rfl
            have tail : address.drop 12 = packed (words.drop 6) := by
              have front : (List.replicate 10 (0 : UInt8) ++ [255, 255]).length = 12 := rfl
              rw [address_eq, ← List.append_assoc, List.drop_left' front]
            rw [tail, ← address_eq] at mapped
            exact mapped
        · rw [if_neg embedded]
          have lengths := congrArg List.length split
          simp only [List.length_append, List.length_replicate] at lengths
          have smallBefore : ∀ word ∈ words.take start, word < 65536 :=
            fun word member => small word (List.mem_of_mem_take member)
          have smallAfter : ∀ word ∈ words.drop (start + count), word < 65536 :=
            fun word member => small word (List.mem_of_mem_drop member)
          have gap := read_gap smallBefore smallAfter (by omega)
          have zeros : 16 - (2 * (words.take start).length + 2 * (words.drop (start + count)).length) = 2 * count := by
            omega
          rw [zeros, ← packed_zeros, ← packed_append, ← packed_append, List.append_assoc, ← split, whole] at gap
          refine ⟨_, rfl, ?_⟩
          rw [List.append_assoc]
          exact gap

theorem inetPton_inetNtop {family : Family} (size : bytes.length = family.size) :
    ∃ text, inetNtop family bytes = some text ∧ inetPton family text = some bytes := by
  cases family with
  | inet =>
      obtain ⟨text, written⟩ := inetNtoa_four size
      obtain ⟨accepted, value⟩ := inetPton_dotted written
      exact ⟨text, written, by rw [inetPton, if_pos accepted, value]⟩
  | inet6 => exact inetPton_inetNtop6 size

/-! What an address is written with. -/

def Spelled (text : Str) : Prop := ∀ byte ∈ text, isHexDigit byte = true ∨ byte = 58 ∨ byte = 46

theorem spelled_append {more : Str} (first : Spelled text) (second : Spelled more) : Spelled (text ++ more) := by
  intro byte member
  exact (List.mem_append.mp member).elim (first byte) (second byte)

theorem mem_join {sep : Str} {parts : List Str} {byte : UInt8} (member : byte ∈ Str.join sep parts) :
    byte ∈ sep ∨ ∃ part ∈ parts, byte ∈ part := by
  induction parts with
  | nil => cases member
  | cons part parts ih =>
      by_cases last : parts = []
      · subst last
        exact .inr ⟨part, List.mem_cons_self, by simpa [Str.join] using member⟩
      · rw [Str.join, List.intercalate_cons_of_ne_nil last, List.append_assoc, List.mem_append,
          List.mem_append] at member
        obtain first | inSep | rest := member
        · exact .inr ⟨part, List.mem_cons_self, first⟩
        · exact .inl inSep
        · exact (ih rest).imp_right fun ⟨other, listed, inside⟩ => ⟨other, List.mem_cons_of_mem _ listed, inside⟩

theorem inetNtoa_spelled (written : inetNtoa bytes = some text) : Spelled text ∧ 58 ∉ text := by
  unfold inetNtoa at written
  split at written
  · rename_i a b c d
    cases written
    have each : ∀ byte ∈ Str.join (ascii ".") ([a, b, c, d].map fun byte => Str.decimal byte.toNat),
        Str.isDigit byte = true ∨ byte = 46 := by
      intro byte member
      obtain dot | ⟨part, listed, inside⟩ := mem_join member
      · exact .inr (List.mem_singleton.mp dot)
      · obtain ⟨number, -, rfl⟩ := List.mem_map.mp listed
        exact .inl ((Str.isdigit_iff.mp (Str.decimal_isdigit number.toNat)).2 byte inside)
    refine ⟨fun byte member => ?_, fun member => ?_⟩
    · obtain digit | dot := each byte member
      · exact .inl (by simp [isHexDigit, digit])
      · exact .inr (.inr dot)
    · exact absurd (each 58 member) (by decide)
  · cases written

theorem hexWords_spelled (words : List Nat) : Spelled (hexWords words) := by
  induction words with
  | nil => exact fun byte member => absurd member List.not_mem_nil
  | cons word words ih =>
      have hex : Spelled (Str.hex word) := fun byte member => .inl ((hex_digits word).1 byte member)
      by_cases last : words = []
      · subst last
        simpa [hexWords, Str.join] using hex
      · rw [hexWords_cons last]
        refine spelled_append hex fun byte member => ?_
        obtain rfl | member := List.mem_cons.mp member
        · exact .inr (.inl rfl)
        · exact ih byte member

theorem hexWords_colon {words : List Nat} (several : 2 ≤ words.length) : 58 ∈ hexWords words := by
  match words, several with
  | word :: next :: words, _ => simp [hexWords_cons]

theorem inetNtop6_spelled {address : Str} (written : inetNtop6 address = some text) : Spelled text ∧ 58 ∈ text := by
  rw [inetNtop6] at written
  split_ifs at written with other
  rw [← wordsOf] at written
  have eight : (wordsOf address).length = 8 := by simp [wordsOf]
  have colons : Spelled (ascii "::") := by unfold Spelled; decide +kernel
  have ffff : Spelled (ascii "::ffff:") := by unfold Spelled; decide +kernel
  simp only at written
  split_ifs at written with few embedded plain
  · cases written
    exact ⟨hexWords_spelled _, hexWords_colon (by omega)⟩
  · obtain ⟨dotted, tail, rfl⟩ := Option.map_eq_some_iff.mp written
    exact ⟨spelled_append colons (inetNtoa_spelled tail).1, by simp [ascii]⟩
  · obtain ⟨dotted, tail, rfl⟩ := Option.map_eq_some_iff.mp written
    exact ⟨spelled_append ffff (inetNtoa_spelled tail).1, by simp [ascii]⟩
  · cases written
    exact ⟨spelled_append (spelled_append (hexWords_spelled _) colons) (hexWords_spelled _), by simp [ascii]⟩

/-- A colon tells an IPv6 address from an IPv4 one. -/
theorem inetNtop_spelled {family : Family} (written : inetNtop family bytes = some text) :
    Spelled text ∧ (58 ∈ text ↔ family = .inet6) := by
  cases family with
  | inet =>
      obtain ⟨spelled, plain⟩ := inetNtoa_spelled written
      exact ⟨spelled, iff_of_false plain (by decide)⟩
  | inet6 =>
      obtain ⟨spelled, colon⟩ := inetNtop6_spelled written
      exact ⟨spelled, iff_of_true colon rfl⟩

theorem dotted_spelled (accepted : inetPton4 text = true) : ∀ byte ∈ text, Str.isDigit byte = true ∨ byte = 46 := by
  simp only [inetPton4, decide_eq_true_eq, List.all_eq_true] at accepted
  intro byte member
  have whole : Str.join [46] (text.splitOn 46) = text := List.intercalate_splitOn 46
  rw [← whole] at member
  obtain dot | ⟨part, listed, inside⟩ := mem_join member
  · exact .inr (List.mem_singleton.mp dot)
  · have octet := accepted.2 part listed
    simp only [isOctet, decide_eq_true_eq] at octet
    exact .inl ((Str.isdigit_iff.mp octet.1).2 byte inside)

theorem run_spelled (before : Str) (token : state.token = before ++ text) (read : state.run text = some bytes) :
    Spelled text := by
  induction text generalizing state before with
  | nil => exact fun byte member => absurd member List.not_mem_nil
  | cons char rest ih =>
      rw [Words.run] at read
      split_ifs at read with hex full colon first gapped last dotted
      · exact List.forall_mem_cons.mpr ⟨.inl hex, ih (before ++ [char]) (by simp [token]) read⟩
      · exact List.forall_mem_cons.mpr ⟨.inr (.inl colon), ih [] rfl read⟩
      · exact List.forall_mem_cons.mpr ⟨.inr (.inl colon), ih [] rfl read⟩
      · -- the rest is part of the dotted address
        rw [token] at dotted
        intro byte member
        obtain digit | dot := dotted_spelled dotted.2.2 byte (List.mem_append_right before member)
        · exact .inl (by simp [isHexDigit, digit])
        · exact .inr (.inr dot)

theorem finish_short (gap : state.gap = none) (short : state.written.length < 16) : state.finish = none := by
  simp only [Words.finish, gap, if_neg short.ne]

/-- Without a colon there is one word, or the four bytes of a dotted address. -/
theorem run_colonless (colonless : 58 ∉ text) (gap : state.gap = none) (empty : state.bytes = []) :
    state.run text = none := by
  induction text generalizing state with
  | nil =>
      refine finish_short gap ?_
      rw [written_length, empty]
      split <;> simp
  | cons char rest ih =>
      rw [List.mem_cons, not_or] at colonless
      rw [Words.run]
      split_ifs with hex full colon first gapped last dotted
      · rfl
      · exact ih colonless.2 gap empty
      · exact absurd colon.symm colonless.1
      · exact absurd colon.symm colonless.1
      · exact absurd colon.symm colonless.1
      · exact absurd colon.symm colonless.1
      · refine finish_short gap ?_
        rw [written_length, if_neg (by simp), List.length_append, empty, octets_length dotted.2.2]
        decide
      · rfl

theorem inetPton_spelled {family : Family} (read : inetPton family text = some bytes) :
    Spelled text ∧ (58 ∈ text ↔ family = .inet6) := by
  cases family with
  | inet =>
      simp only [inetPton] at read
      split_ifs at read with accepted
      have each := dotted_spelled accepted
      refine ⟨fun byte member => ?_, iff_of_false (fun member => ?_) (by decide)⟩
      · obtain digit | dot := each byte member
        · exact .inl (by simp [isHexDigit, digit])
        · exact .inr (.inr dot)
      · exact absurd (each 58 member) (by decide)
  | inet6 =>
      simp only [inetPton, Words.read] at read
      split at read
      · cases read
      · rename_i rest
        have spelled := run_spelled [] rfl read
        exact ⟨List.forall_mem_cons.mpr ⟨.inr (.inl rfl), spelled⟩, iff_of_true List.mem_cons_self rfl⟩
      · cases read
      · refine ⟨run_spelled [] rfl read, iff_of_true ?_ rfl⟩
        by_contra colonless
        cases (run_colonless colonless rfl rfl).symm.trans read

end ExaProxy.Network
