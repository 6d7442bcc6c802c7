import ExaProxy.Dns.Safety

namespace ExaProxy.Dns

open ExaProxy.Data

/-- A name without the root, its text of at most 255 bytes. -/
structure DomainName where
  labels : List Str
  filled : labels ≠ []
  sized : ∀ label ∈ labels, label ≠ [] ∧ label.length ≤ 63
  dotless : ∀ label ∈ labels, 46 ∉ label
  bounded : (joinDots labels).length ≤ 255

def DomainName.text (name : DomainName) : Str := joinDots name.labels

/-- The two bytes of a compression pointer. -/
def pointerTo (target : Nat) : Str := [UInt8.ofNat (0xc0 + target / 256), UInt8.ofNat (target % 256)]

/-- The bytes at `start` stand for the labels: up to the root, or to a pointer
to an earlier place where the other labels stand. -/
inductive Spells (packet : Str) : Nat → Str → List Str → Prop where
  | root {start : Nat} : Spells packet start [0] []
  | label {start : Nat} {bytes : Str} {label : Str} {labels : List Str} (nonempty : label ≠ [])
      (short : label.length ≤ 63) (later : Spells packet (start + label.length + 1) bytes labels) :
      Spells packet start (UInt8.ofNat label.length :: (label ++ bytes)) (label :: labels)
  | pointer {start target : Nat} {bytes rest : Str} {labels : List Str} (earlier : target < start)
      (low : target < 2 ^ 14) (there : packet.drop target = bytes ++ rest)
      (spelled : Spells packet target bytes labels) :
      Spells packet start (pointerTo target) labels

variable {packet bytes rest : Str} {labels more : List Str} {start target : Nat}

theorem u8_ofNat {number : Nat} (small : number < 256) : u8 (UInt8.ofNat number) = number := by
  rw [u8, UInt8.toNat_ofNat']
  exact Nat.mod_eq_of_lt small

theorem dnsStringLoop_pointed {remaining : Int} {bytesRead : Nat} {parts : List Str} {high low : UInt8}
    (pointer : u8 high ≥ 0xc0) : dnsStringLoop remaining bytesRead parts (high :: low :: rest) =
      .ok (some (bytesRead + 2), parts, some (((u8 high - 0xc0) <<< 8) + u8 low)) := by
  rw [dnsStringLoop.eq_def]
  simp only [pointer, if_true]

section Text

theorem joinDots_singleton (label : Str) : joinDots [label] = label := by
  simp [joinDots, Str.join]

theorem joinDots_cons (label : Str) (filled : labels ≠ []) :
    joinDots (label :: labels) = label ++ 46 :: joinDots labels := by
  rw [joinDots, Str.join, List.intercalate_cons_of_ne_nil filled]
  simp [joinDots, Str.join, ascii]

theorem joinDots_append (filled : labels ≠ []) (others : more ≠ []) :
    joinDots (labels ++ more) = joinDots labels ++ 46 :: joinDots more := by
  induction labels with
  | nil => exact absurd rfl filled
  | cons label labels ih =>
      by_cases last : labels = []
      · subst last
        rw [List.singleton_append, joinDots_cons label others, joinDots_singleton]
      · rw [List.cons_append, joinDots_cons label (by simp [others]), ih last, joinDots_cons label last]
        simp

theorem joinDots_flatten {groups : List (List Str)} (filled : ∀ group ∈ groups, group ≠ []) :
    joinDots (groups.map joinDots) = joinDots groups.flatten := by
  induction groups with
  | nil => rfl
  | cons group groups ih =>
      have first := filled group List.mem_cons_self
      have others : ∀ group ∈ groups, group ≠ [] := fun group member =>
        filled group (List.mem_cons_of_mem _ member)
      by_cases last : groups = []
      · subst last
        simp [joinDots_singleton]
      · have later : groups.flatten ≠ [] := by
          obtain ⟨next, member⟩ := List.exists_mem_of_ne_nil groups last
          intro empty
          exact others next member (List.flatten_eq_nil_iff.mp empty next member)
        rw [List.map_cons, joinDots_cons _ (by simp [last]), ih others, List.flatten_cons,
          joinDots_append first later]

/-- The bytes of the labels of a name, each with its length before it. -/
def wireLength (labels : List Str) : Nat := (labels.map fun label => label.length + 1).sum

@[simp] theorem wireLength_nil : wireLength [] = 0 := rfl

@[simp] theorem wireLength_cons (label : Str) (labels : List Str) :
    wireLength (label :: labels) = label.length + 1 + wireLength labels := by
  simp [wireLength]

theorem wireLength_append (labels more : List Str) :
    wireLength (labels ++ more) = wireLength labels + wireLength more := by
  simp [wireLength]

theorem joinDots_length (filled : labels ≠ []) : (joinDots labels).length + 1 = wireLength labels := by
  induction labels with
  | nil => exact absurd rfl filled
  | cons label labels ih =>
      by_cases last : labels = []
      · subst last
        simp [joinDots_singleton]
      · rw [joinDots_cons label last, wireLength_cons, ← ih last]
        simp only [List.length_append, List.length_cons]
        omega

theorem total_joinDots (groups : List (List Str)) :
    total (groups.map joinDots) ≤ wireLength groups.flatten := by
  induction groups with
  | nil => exact Nat.le_refl 0
  | cons group groups ih =>
      have first : (joinDots group).length ≤ wireLength group := by
        by_cases empty : group = []
        · subst empty
          exact Nat.le_refl 0
        · have counted := joinDots_length empty
          omega
      rw [List.flatten_cons, wireLength_append]
      simp only [total, List.map_cons, List.sum_cons] at ih ⊢
      omega

end Text

theorem Spells.nonempty (spelled : Spells packet start bytes labels) : ∀ label ∈ labels, label ≠ [] := by
  induction spelled with
  | root => simp
  | label nonempty _ _ ih => exact List.forall_mem_cons.mpr ⟨nonempty, ih⟩
  | pointer _ _ _ _ ih => exact ih

theorem Spells.length_le (spelled : Spells packet start bytes labels) :
    bytes.length ≤ wireLength labels + 2 := by
  induction spelled with
  | root => simp
  | label _ _ _ ih =>
      simp only [List.length_cons, List.length_append, wireLength_cons]
      omega
  | pointer => simp [pointerTo]

/-- The labels of a name as one group, and none of the root. -/
def asGroup (labels : List Str) : List (List Str) := if labels = [] then [] else [labels]

@[simp] theorem asGroup_flatten (labels : List Str) : (asGroup labels).flatten = labels := by
  by_cases empty : labels = [] <;> simp [asGroup, empty]

theorem asGroup_filled (labels : List Str) : ∀ group ∈ asGroup labels, group ≠ [] := by
  by_cases empty : labels = [] <;> simp [asGroup, empty]

theorem firstParts_joinDots (nonempty : ∀ label ∈ labels, label ≠ []) :
    firstParts (some (joinDots labels)) = (asGroup labels).map joinDots := by
  have shown := append_firstParts [] (joinDots labels)
  rw [List.nil_append] at shown
  rw [shown]
  by_cases empty : labels = []
  · rw [if_pos ((joinDots_eq_nil nonempty).mpr empty)]
    simp [asGroup, empty]
  · rw [if_neg (mt (joinDots_eq_nil nonempty).mp empty)]
    simp [asGroup, empty]

/-- From the pointer to the target on, the loop of `dns_to_string_info` collects
the labels, in groups. -/
def Resolves (packet : Str) (target : Nat) (labels : List Str) : Prop :=
  ∀ groups : List (List Str), (∀ group ∈ groups, group ≠ []) →
    wireLength (groups.flatten ++ labels) ≤ 500 →
    ∃ collected : List (List Str), (∀ group ∈ collected, group ≠ []) ∧ collected.flatten = groups.flatten ++ labels ∧
      ∃ fuel, Loop.run (followPointer packet) fuel (groups.map joinDots, target) =
        some (.ok (collected.map joinDots))

/-- How a name is read that starts with the labels `here`. -/
def Ends (packet : Str) (here : List Str) (labels : List Str) : Option Nat → Prop
  | none => here = labels
  | some target => ∃ later, labels = here ++ later ∧ Resolves packet target later

theorem Ends.nonempty {here : List Str} {next : Option Nat} (ends : Ends packet here labels next)
    (all : ∀ label ∈ labels, label ≠ []) : ∀ label ∈ here, label ≠ [] := by
  cases next with
  | none =>
      have whole : here = labels := ends
      rwa [whole]
  | some target =>
      obtain ⟨later, rfl, _⟩ := ends
      exact fun label member => all label (List.mem_append_left _ member)

theorem dnsString_eq {next : Option Nat} {count : Nat} {here : List Str}
    (read : dnsStringLoop bytes.length 0 [] bytes = .ok (some count, here, next)) :
    dnsString bytes = .ok (some count, some (joinDots here), next) := by
  simp only [dnsString, read, bind, Except.bind, pure, Except.pure]

theorem resolves_of_ends {next : Option Nat} {count : Option Nat} {here : List Str}
    (nonempty : ∀ label ∈ here, label ≠ [])
    (read : dnsString (packet.drop target) = .ok (count, some (joinDots here), next))
    (ends : Ends packet here labels next) : Resolves packet target labels := by
  intro groups filled bounded
  have collected : ((groups ++ asGroup here).map joinDots) =
      groups.map joinDots ++ firstParts (some (joinDots here)) := by
    rw [firstParts_joinDots nonempty, List.map_append]
  have flat : (groups ++ asGroup here).flatten = groups.flatten ++ here := by simp
  have kept : ∀ group ∈ groups ++ asGroup here, group ≠ [] := by
    intro group member
    rcases List.mem_append.mp member with earlier | last
    · exact filled group earlier
    · exact asGroup_filled here group last
  have fits : wireLength (groups.flatten ++ here) ≤ 500 → total ((groups ++ asGroup here).map joinDots) ≤ 500 := by
    intro small
    rw [← flat] at small
    exact Nat.le_trans (total_joinDots _) small
  cases next with
  | none =>
      have whole : here = labels := ends
      subst whole
      refine ⟨groups ++ asGroup here, kept, flat, 1, ?_⟩
      have allowed := Nat.not_lt.mpr (fits bounded)
      rw [total, collected, append_firstParts] at allowed
      simp only [Loop.run, followPointer, read, if_neg allowed]
      rw [collected, append_firstParts]
  | some next =>
      obtain ⟨later, rfl, resolves⟩ := ends
      rw [← List.append_assoc] at bounded
      have small : wireLength (groups.flatten ++ here) ≤ 500 := by
        rw [wireLength_append] at bounded
        omega
      obtain ⟨all, allFilled, allFlat, fuel, finished⟩ := resolves (groups ++ asGroup here) kept (by rwa [flat])
      refine ⟨all, allFilled, by rw [allFlat, flat, List.append_assoc], fuel + 1, ?_⟩
      have step : Loop.Next (followPointer packet) (groups.map joinDots, target)
          ((groups ++ asGroup here).map joinDots, next) :=
        next_iff.mpr ⟨count, joinDots here, read, collected, fits small⟩
      rw [Loop.run_next step, finished]

/-- Reading a name that is spelled out takes its bytes and no more, up to the
pointer it ends in. -/
theorem Spells.read (spelled : Spells packet start bytes labels) (rest : Str) :
    ∃ here next, Ends packet here labels next ∧ ∀ (remaining : Int) (bytesRead : Nat) (parts : List Str),
      remaining = (bytes ++ rest).length →
      dnsStringLoop remaining bytesRead parts (bytes ++ rest) =
        .ok (some (bytesRead + bytes.length), parts ++ here, next) := by
  induction spelled generalizing rest with
  | root =>
      refine ⟨[], none, rfl, fun remaining bytesRead parts _ => ?_⟩
      rw [List.singleton_append, dnsStringLoop_zero rfl]
      simp
  | @label start bytes label labels nonempty short later ih =>
      obtain ⟨here, next, ends, read⟩ := ih rest
      refine ⟨label :: here, next, ?_, fun remaining bytesRead parts counted => ?_⟩
      · cases next with
        | none => exact congrArg (label :: ·) ends
        | some target =>
            obtain ⟨others, rfl, resolves⟩ := ends
            exact ⟨others, rfl, resolves⟩
      · have positive := List.length_pos_iff.mpr nonempty
        have size : u8 (UInt8.ofNat label.length) = label.length := u8_ofNat (by omega)
        have left : 0 < bytes.length := by
          cases later <;> simp [pointerTo]
        simp only [List.cons_append, List.append_assoc, List.length_cons, List.length_append] at counted ⊢
        rw [dnsStringLoop_label (by omega) (by omega) (by omega), size, List.take_left, List.drop_left,
          read _ _ _ (by simp only [List.length_append]; omega)]
        simp only [List.append_assoc, List.singleton_append, Except.ok.injEq, Prod.mk.injEq,
          Option.some.injEq, and_true]
        omega
  | @pointer start target bytes after labels earlier low there spelled ih =>
      obtain ⟨here, next, ends, read⟩ := ih after
      have found : dnsString (bytes ++ after) = .ok (some bytes.length, some (joinDots here), next) :=
        dnsString_eq (by simpa only [Nat.zero_add, List.nil_append] using read _ 0 [] rfl)
      rw [← there] at found
      refine ⟨[], some target, ⟨labels, rfl, resolves_of_ends (ends.nonempty spelled.nonempty) found ends⟩, ?_⟩
      intro remaining bytesRead parts _
      have high : u8 (UInt8.ofNat (0xc0 + target / 256)) = 0xc0 + target / 256 := u8_ofNat (by omega)
      have small : u8 (UInt8.ofNat (target % 256)) = target % 256 := u8_ofNat (by omega)
      have whole : ((u8 (UInt8.ofNat (0xc0 + target / 256)) - 0xc0) <<< 8) +
          u8 (UInt8.ofNat (target % 256)) = target := by
        rw [high, small, Nat.shiftLeft_eq]
        omega
      rw [pointerTo, List.cons_append, List.cons_append, List.nil_append,
        dnsStringLoop_pointed (by omega), whole]
      simp

/-- A name is read back whatever pointers it is compressed with, and its own
bytes are counted. -/
theorem Spells.returns (spelled : Spells packet start bytes labels) (bounded : (joinDots labels).length ≤ 255)
    (rest : Str) :
    Returns (fun fuel => dnsToStringInfo fuel (bytes ++ rest) packet)
      (some bytes.length, some (joinDots labels)) := by
  obtain ⟨here, next, ends, read⟩ := spelled.read rest
  have found : dnsString (bytes ++ rest) = .ok (some bytes.length, some (joinDots here), next) :=
    dnsString_eq (by simpa only [Nat.zero_add, List.nil_append] using read _ 0 [] rfl)
  have nonempty := ends.nonempty spelled.nonempty
  cases next with
  | none =>
      have whole : here = labels := ends
      subst whole
      refine ⟨0, ?_⟩
      simp only [dnsToStringInfo, found, bind, Except.bind, pure, Except.pure,
        firstParts_joinDots spelled.nonempty, joinDots_flatten (asGroup_filled here), asGroup_flatten]
  | some target =>
      obtain ⟨later, rfl, resolves⟩ := ends
      have small : wireLength (here ++ later) ≤ 500 := by
        by_cases empty : here ++ later = []
        · simp [empty]
        · have counted := joinDots_length empty
          omega
      obtain ⟨collected, filled, flat, fuel, finished⟩ :=
        resolves (asGroup here) (asGroup_filled here) (by rwa [asGroup_flatten])
      rw [← firstParts_joinDots nonempty] at finished
      refine ⟨fuel, ?_⟩
      simp only [dnsToStringInfo, found, finished, bind, Except.bind, pure, Except.pure, Option.map_some,
        joinDots_flatten filled, flat, asGroup_flatten]

end ExaProxy.Dns
