import ExaProxy.Dns.Convert
import Mathlib.Data.Fintype.Prod
import Mathlib.Algebra.Order.BigOperators.Group.List

namespace ExaProxy.Dns

open ExaProxy.Data

/-! The pointer graph of a packet, and when following it ends.  The loop of
`dns_to_string_info` is bounded by the label characters it has collected, so it
runs for ever exactly when it comes to a circle of pointers without labels. -/

/-- The two bytes at `ptr` are a compression pointer to `target`. -/
def PointsTo (packet : Str) (ptr target : Nat) : Prop :=
  ∃ high low, packet[ptr]? = some high ∧ packet[ptr + 1]? = some low ∧ 0xc0 ≤ u8 high ∧
    target = ((u8 high - 0xc0) <<< 8) + u8 low

/-- A pointer that leads back to itself through pointers only. -/
def Circular (packet : Str) (ptr : Nat) : Prop := Relation.TransGen (PointsTo packet) ptr ptr

/-- Pointers lead from `ptr` to another place, past names of so many
characters. -/
inductive Chain (packet : Str) (ptr : Nat) : Nat → Nat → Prop where
  | here : Chain packet ptr 0 ptr
  | hop {characters middle target : Nat} {bytesRead : Option Nat} {name : Str}
      (earlier : Chain packet ptr characters middle)
      (read : dnsString (packet.drop middle) = .ok (bytesRead, some name, some target)) :
      Chain packet ptr (characters + name.length) target

variable {packet s : Str} {parts more : List Str} {ptr target last characters fuel : Nat}

theorem joinDots_eq_nil (labels : ∀ label ∈ parts, label ≠ []) : joinDots parts = [] ↔ parts = [] := by
  cases parts with
  | nil => simp [joinDots, Str.join]
  | cons label rest =>
      have nonempty : label ≠ [] := labels label (by simp)
      cases rest with
      | nil => simp [joinDots, Str.join, nonempty]
      | cons next rest => simp [joinDots, Str.join, List.intercalate, nonempty]

/-- A name that ends in a pointer: the labels before it are not empty, and
without labels the data starts with the pointer. -/
theorem dnsStringLoop_pointer {remaining : Int} {bytesRead : Nat} {readBytes : Option Nat}
    {labels : List Str} (counted : remaining = s.length)
    (read : dnsStringLoop remaining bytesRead parts s = .ok (readBytes, labels, some target)) :
    ∃ added, labels = parts ++ added ∧ (∀ label ∈ added, label ≠ []) ∧ target < 2 ^ 14 ∧
      (added = [] → PointsTo s 0 target) := by
  induction remaining, bytesRead, parts, s using dnsStringLoop.induct with
  | case1 remaining bytesRead parts => simp [dnsStringLoop] at read
  | case2 remaining bytesRead parts char length pointer =>
      simp only [dnsStringLoop, pointer, length, if_true] at read
      cases read
  | case3 remaining bytesRead parts char length pointer low tail =>
      simp only [dnsStringLoop, pointer, length, if_true, Except.ok.injEq, Prod.mk.injEq,
        Option.some.injEq] at read
      obtain ⟨_, rfl, rfl⟩ := read
      refine ⟨[], by simp, by simp, ?_, fun _ => ⟨char, low, rfl, rfl, pointer, rfl⟩⟩
      have high := char.toNat_lt
      have small := low.toNat_lt
      simp only [Nat.shiftLeft_eq, u8, length] at *
      omega
  | case4 remaining bytesRead parts char rest length short zero =>
      rw [dnsStringLoop_zero zero] at read
      cases read
  | case5 remaining bytesRead parts char rest length left short nonzero ended =>
      rw [dnsStringLoop_cut short nonzero ended] at read
      cases read
  | case6 remaining bytesRead parts char rest length left short nonzero enough ih =>
      rw [dnsStringLoop_label short nonzero enough] at read
      simp only [length, left, List.length_cons] at *
      have room : u8 char < rest.length := by omega
      obtain ⟨added, rfl, labels, small, _⟩ := ih (by rw [List.length_drop]; omega) read
      refine ⟨rest.take (u8 char) :: added, by simp, ?_, small, by simp⟩
      intro label member
      rcases List.mem_cons.mp member with rfl | later
      · simp only [ne_eq, List.take_eq_nil_iff, not_or]
        exact ⟨nonzero, fun empty => by simp [empty] at room⟩
      · exact labels label later

theorem dnsString_pointer {bytesRead : Option Nat} {name : Str}
    (read : dnsString s = .ok (bytesRead, some name, some target)) :
    target < 2 ^ 14 ∧ (name = [] → PointsTo s 0 target) := by
  cases loop : dnsStringLoop s.length 0 [] s with
  | error fault => simp [dnsString, loop, bind, Except.bind] at read
  | ok result =>
      obtain ⟨count, labels, ptr⟩ := result
      simp only [dnsString, loop, bind, Except.bind, pure, Except.pure, Except.ok.injEq,
        Prod.mk.injEq, Option.some.injEq] at read
      obtain ⟨rfl, rfl, rfl⟩ := read
      obtain ⟨added, rfl, nonempty, small, points⟩ := dnsStringLoop_pointer rfl loop
      refine ⟨small, fun unnamed => points ?_⟩
      exact (joinDots_eq_nil (by simpa using nonempty)).mp (by simpa using unnamed)

theorem dnsString_named {bytesRead : Option Nat} {value : Option Str} {next : Option Nat}
    (read : dnsString s = .ok (bytesRead, value, next)) : ∃ name, value = some name := by
  cases loop : dnsStringLoop s.length 0 [] s with
  | error fault => simp [dnsString, loop, bind, Except.bind] at read
  | ok result =>
      simp only [dnsString, loop, bind, Except.bind, pure, Except.pure, Except.ok.injEq,
        Prod.mk.injEq] at read
      exact ⟨_, read.2.1.symm⟩

theorem dnsString_of_pointsTo (points : PointsTo packet ptr target) :
    ∃ bytesRead, dnsString (packet.drop ptr) = .ok (bytesRead, some [], some target) := by
  obtain ⟨high, low, first, second, pointer, rfl⟩ := points
  have data : packet.drop ptr = high :: low :: packet.drop (ptr + 2) := by
    rw [List.drop_eq_getElem?_toList_append, first, List.drop_eq_getElem?_toList_append, second]
    rfl
  refine ⟨some 2, ?_⟩
  simp only [data, dnsString, dnsStringLoop, pointer, if_true, bind, Except.bind, pure,
    Except.pure]
  rfl

theorem pointsTo_drop (points : PointsTo (packet.drop ptr) 0 target) : PointsTo packet ptr target := by
  obtain ⟨high, low, first, second, pointer, rfl⟩ := points
  rw [List.getElem?_drop] at first second
  exact ⟨high, low, first, second, pointer, rfl⟩

/-- The label characters collected so far, `sum(map(len, parts))`. -/
def total (parts : List Str) : Nat := (parts.map List.length).sum

theorem total_append (parts more : List Str) : total (parts ++ more) = total parts + total more := by
  simp [total]

theorem append_firstParts (parts : List Str) (name : Str) :
    parts ++ firstParts (some name) = if name = [] then parts else parts ++ [name] := by
  cases name <;> simp [firstParts]

theorem total_firstParts (name : Str) : total (firstParts (some name)) = name.length := by
  cases name <;> simp [firstParts, total]

/-- An iteration that goes on has read a name that ends in a pointer, and is
still within the bound. -/
theorem next_iff : Loop.Next (followPointer packet) (parts, ptr) (more, target) ↔
    ∃ bytesRead name, dnsString (packet.drop ptr) = .ok (bytesRead, some name, some target) ∧
      more = parts ++ firstParts (some name) ∧ total more ≤ 500 := by
  simp only [Loop.Next, followPointer]
  cases read : dnsString (packet.drop ptr) with
  | error fault => simp
  | ok result =>
      obtain ⟨bytesRead, value, next⟩ := result
      cases value with
      | none => simp
      | some name =>
          simp only [← append_firstParts]
          by_cases within : total (parts ++ firstParts (some name)) ≤ 500
          · have allowed : ¬ ((parts ++ firstParts (some name)).map List.length).sum > 500 :=
              Nat.not_lt.mpr within
            cases next with
            | none => simp only [allowed, if_false]; simp
            | some next =>
                simp only [allowed, if_false, Sum.inl.injEq, Prod.mk.injEq, Except.ok.injEq,
                  Option.some.injEq]
                constructor
                · intro given
                  obtain ⟨rfl, rfl⟩ := given
                  exact ⟨bytesRead, name, ⟨rfl, rfl, rfl⟩, rfl, within⟩
                · intro given
                  obtain ⟨_, _, ⟨rfl, rfl, rfl⟩, rfl, _⟩ := given
                  exact ⟨rfl, rfl⟩
          · have longer : ((parts ++ firstParts (some name)).map List.length).sum > 500 :=
              Nat.not_le.mp within
            simp only [longer, if_true, reduceCtorEq, false_iff]
            intro given
            obtain ⟨_, _, same, rfl, bounded⟩ := given
            cases same
            exact within bounded

theorem next_of_pointsTo (points : PointsTo packet ptr target) (within : total parts ≤ 500) :
    Loop.Next (followPointer packet) (parts, ptr) (parts, target) := by
  obtain ⟨bytesRead, read⟩ := dnsString_of_pointsTo points
  exact next_iff.mpr ⟨bytesRead, [], read, (List.append_nil parts).symm, within⟩

theorem cycle_of_circular (circular : Circular packet ptr) (within : total parts ≤ 500) :
    Relation.TransGen (Loop.Next (followPointer packet)) (parts, ptr) (parts, ptr) :=
  circular.lift (fun ptr => (parts, ptr)) fun _ _ points => next_of_pointsTo points within

/-- The labels collected so far stay, and where none is added every pointer
followed is a bare one. -/
theorem transGen_grows {before after : List Str × Nat}
    (path : Relation.TransGen (Loop.Next (followPointer packet)) before after) :
    after.2 < 2 ^ 14 ∧ total after.1 ≤ 500 ∧ total before.1 ≤ total after.1 ∧
      (total after.1 = total before.1 → after.1 = before.1 ∧
        Relation.TransGen (PointsTo packet) before.2 after.2) := by
  induction path with
  | @single next step =>
      obtain ⟨bytesRead, name, read, grown, within⟩ := next_iff.mp step
      have pointer := dnsString_pointer read
      rw [grown] at within ⊢
      rw [total_append, total_firstParts] at within ⊢
      refine ⟨pointer.1, within, by omega, fun same => ?_⟩
      have unnamed : name = [] := List.length_eq_zero_iff.mp (by omega)
      subst unnamed
      exact ⟨List.append_nil _, .single (pointsTo_drop (pointer.2 rfl))⟩
  | @tail middle next earlier step ih =>
      obtain ⟨bytesRead, name, read, grown, within⟩ := next_iff.mp step
      obtain ⟨_, _, growing, still⟩ := ih
      have pointer := dnsString_pointer read
      rw [grown] at within ⊢
      rw [total_append, total_firstParts] at within ⊢
      refine ⟨pointer.1, within, by omega, fun same => ?_⟩
      have unnamed : name = [] := List.length_eq_zero_iff.mp (by omega)
      subst unnamed
      obtain ⟨kept, points⟩ := still (by simp only [List.length_nil] at same; omega)
      exact ⟨(List.append_nil _).trans kept, points.tail (pointsTo_drop (pointer.2 rfl))⟩

theorem chain_of_reaches {after : List Str × Nat}
    (path : Relation.ReflTransGen (Loop.Next (followPointer packet)) (parts, ptr) after) :
    ∃ characters, Chain packet ptr characters after.2 ∧ total after.1 = total parts + characters := by
  induction path with
  | refl => exact ⟨0, .here, rfl⟩
  | tail _ step ih =>
      obtain ⟨characters, chain, counted⟩ := ih
      obtain ⟨bytesRead, name, read, grown, _⟩ := next_iff.mp step
      refine ⟨characters + name.length, chain.hop read, ?_⟩
      rw [grown, total_append, total_firstParts, counted]
      omega

theorem reaches_of_chain (chain : Chain packet ptr characters last)
    (within : total parts + characters ≤ 500) :
    ∃ labels, total labels = total parts + characters ∧
      Relation.ReflTransGen (Loop.Next (followPointer packet)) (parts, ptr) (labels, last) := by
  induction chain with
  | here => exact ⟨parts, rfl, .refl⟩
  | @hop characters middle target bytesRead name earlier read ih =>
      obtain ⟨labels, counted, path⟩ := ih (by omega)
      have grown : total (labels ++ firstParts (some name)) =
          total parts + (characters + name.length) := by
        rw [total_append, total_firstParts, counted]
        omega
      exact ⟨labels ++ firstParts (some name), grown,
        path.tail (next_iff.mpr ⟨bytesRead, name, read, rfl, by omega⟩)⟩

theorem followPointer_halts_iff (small : ptr < 2 ^ 14) :
    Loop.Halts (followPointer packet) (parts, ptr) ↔
      ∀ characters last, Chain packet ptr characters last → total parts + characters ≤ 500 →
        ¬ Circular packet last := by
  constructor
  · intro halts characters last chain within circular
    obtain ⟨labels, counted, path⟩ := reaches_of_chain chain within
    exact Loop.not_halts_of_cycle (cycle_of_circular circular (by omega))
      ((Loop.halts_iff_of_reaches path).mp halts)
  · intro bounded
    -- the number of its label characters and its pointer tell a state of the run
    let observe : List Str × Nat → Fin 501 × Fin (2 ^ 14) := fun state =>
      (Fin.ofNat 501 (total state.1), Fin.ofNat (2 ^ 14) state.2)
    have faithful : ∀ before after,
        Relation.ReflTransGen (Loop.Next (followPointer packet)) (parts, ptr) before →
        Relation.TransGen (Loop.Next (followPointer packet)) before after →
        observe before = observe after → before = after := by
      intro before after earlier path same
      have smallBefore : before.2 < 2 ^ 14 := by
        rcases Relation.reflTransGen_iff_eq_or_transGen.mp earlier with rfl | reached
        · exact small
        · exact (transGen_grows reached).1
      obtain ⟨smallAfter, within, growing, still⟩ := transGen_grows path
      simp only [observe, Prod.mk.injEq, Fin.ext_iff, Fin.val_ofNat] at same
      have characters : total after.1 = total before.1 := by omega
      have pointers : before.2 = after.2 := by omega
      exact Prod.ext (still characters).1.symm pointers
    rcases Loop.halts_or_cycle observe faithful with halts | ⟨again, path, cycle⟩
    · exact halts
    · obtain ⟨characters, chain, counted⟩ := chain_of_reaches path
      obtain ⟨_, within, _, still⟩ := transGen_grows cycle
      exact absurd (still rfl).2 (bounded characters again.2 chain (by omega))

theorem dnsStringLoop_raises {remaining : Int} {bytesRead : Nat} {fault : Fault}
    (raised : dnsStringLoop remaining bytesRead parts s = .error fault) : fault = .indexError := by
  induction remaining, bytesRead, parts, s using dnsStringLoop.induct with
  | case1 remaining bytesRead parts => simp [dnsStringLoop] at raised
  | case2 remaining bytesRead parts char length pointer =>
      simp only [dnsStringLoop, pointer, length, if_true, Except.error.injEq] at raised
      exact raised.symm
  | case3 remaining bytesRead parts char length pointer low tail =>
      simp only [dnsStringLoop, pointer, length, if_true] at raised
      cases raised
  | case4 remaining bytesRead parts char rest length short zero =>
      rw [dnsStringLoop_zero zero] at raised
      cases raised
  | case5 remaining bytesRead parts char rest length left short nonzero ended =>
      rw [dnsStringLoop_cut short nonzero ended] at raised
      cases raised
  | case6 remaining bytesRead parts char rest length left short nonzero enough ih =>
      rw [dnsStringLoop_label short nonzero enough] at raised
      exact ih raised

theorem dnsString_raises {fault : Fault} (raised : dnsString s = .error fault) :
    fault = .indexError := by
  cases loop : dnsStringLoop s.length 0 [] s with
  | error other =>
      simp only [dnsString, loop, bind, Except.bind, Except.error.injEq] at raised
      rw [← raised]
      exact dnsStringLoop_raises loop
  | ok result => simp [dnsString, loop, bind, Except.bind, pure, Except.pure] at raised

theorem followPointer_error {fault : Fault}
    (raised : followPointer packet (parts, ptr) = .inr (.error fault)) :
    dnsString (packet.drop ptr) = .error fault := by
  cases read : dnsString (packet.drop ptr) with
  | error other =>
      simp only [followPointer, read, Sum.inr.injEq, Except.error.injEq] at raised
      rw [raised]
  | ok found =>
      obtain ⟨bytesRead, value, next⟩ := found
      cases value with
      | none => simp [followPointer, read] at raised
      | some name =>
          simp only [followPointer, read] at raised
          cases next <;> split_ifs at raised <;> simp at raised

theorem followPointer_raises {fault : Fault} {state : List Str × Nat}
    (raised : Loop.run (followPointer packet) fuel state = some (.error fault)) :
    fault = .indexError := by
  induction fuel generalizing state with
  | zero => cases raised
  | succ fuel ih =>
      obtain ⟨parts, ptr⟩ := state
      simp only [Loop.run] at raised
      cases step : followPointer packet (parts, ptr) with
      | inl next =>
          rw [step] at raised
          exact ih raised
      | inr result =>
          rw [step] at raised
          cases raised
          exact dnsString_raises (followPointer_error step)

theorem ends_iff_halts {bytesRead : Option Nat} {name : Str}
    (read : dnsString s = .ok (bytesRead, some name, some ptr)) :
    (∃ fuel, dnsToStringInfo fuel s packet ≠ .error .running) ↔
      Loop.Halts (followPointer packet) (firstParts (some name), ptr) := by
  refine exists_congr fun fuel => ?_
  cases finished : Loop.run (followPointer packet) fuel (firstParts (some name), ptr) with
  | none =>
      simp [dnsToStringInfo, read, finished, bind, Except.bind, throw, throwThe,
        MonadExceptOf.throw]
  | some result =>
      cases result with
      | error fault =>
          have other := followPointer_raises finished
          subst other
          simp [dnsToStringInfo, read, finished, bind, Except.bind, throw, throwThe,
            MonadExceptOf.throw]
      | ok parts => simp [dnsToStringInfo, read, finished, bind, Except.bind, pure, Except.pure]

/-- The loop of `dns_to_string_info` ends for exactly those packets in which
the pointers of the name do not lead, within 500 characters of labels, to a
pointer that only leads back to itself. -/
theorem dnsToStringInfo_ends_iff (s packet : Str) :
    (∃ fuel, dnsToStringInfo fuel s packet ≠ .error .running) ↔
      ∀ bytesRead name ptr, dnsString s = .ok (bytesRead, some name, some ptr) →
        ∀ characters last, Chain packet ptr characters last →
          name.length + characters ≤ 500 → ¬ Circular packet last := by
  cases read : dnsString s with
  | error fault =>
      have other := dnsString_raises read
      subst other
      refine iff_of_true ⟨0, ?_⟩ (fun _ _ _ found => by cases found)
      simp [dnsToStringInfo, read, bind, Except.bind]
  | ok found =>
      obtain ⟨bytesRead, value, next⟩ := found
      cases next with
      | none =>
          refine iff_of_true ⟨0, ?_⟩ (fun _ _ _ found => by cases found)
          simp [dnsToStringInfo, read, bind, Except.bind, pure, Except.pure]
      | some ptr =>
          obtain ⟨name, rfl⟩ : ∃ name, value = some name := dnsString_named read
          rw [ends_iff_halts read, followPointer_halts_iff (dnsString_pointer read).1, total_firstParts]
          constructor
          · intro bounded _ _ _ found
            cases found
            exact bounded
          · intro bounded
            exact bounded _ _ _ rfl

/-- A response whose one question is named by a pointer to itself. -/
def selfPointing : Str := [0, 1, 0x80, 0, 0, 1, 0, 0, 0, 0, 0, 0, 0xc0, 0x0c, 0, 1, 0, 1]

theorem dnsToStringInfo_selfPointing :
    ¬ ∃ fuel, dnsToStringInfo fuel (selfPointing.drop 12) selfPointing ≠ .error .running := by
  have points : PointsTo selfPointing 12 12 := ⟨0xc0, 0x0c, rfl, rfl, by decide, rfl⟩
  have read : dnsString (selfPointing.drop 12) = .ok (some 2, some [], some 12) := by
    decide +kernel
  rw [ends_iff_halts read]
  exact Loop.not_halts_of_cycle (cycle_of_circular (.single points) (by decide))

end ExaProxy.Dns
