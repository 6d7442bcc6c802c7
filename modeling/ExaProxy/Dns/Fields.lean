import ExaProxy.Dns.Reading
import ExaProxy.Dns.Records

namespace ExaProxy.Dns

open ExaProxy.Data

variable {packet data s : Str} {parts : List Str} {fuel size : Nat}

theorem slice_word (s : Str) (low : Nat) (enough : low + 2 ≤ s.length) :
    s.slice low (low + 2) = [s.getD low 0, s.getD (low + 1) 0] := by
  have first : low < s.length := by omega
  have second : low + 1 < s.length := by omega
  have width : low + 2 - low = 2 := by omega
  have pair : [s.getD low 0, s.getD (low + 1) 0] = [s[low], s[low + 1]] := by simp [first, second]
  rw [pair, Str.slice, width, List.drop_eq_getElem_cons first, List.drop_eq_getElem_cons second]
  rfl

theorem u16_slice (s : Str) (low : Nat) (enough : low + 2 ≤ s.length) :
    u16 (s.slice low (low + 2)) = .ok (word s low) := by
  rw [slice_word s low enough, u16, word]
  rfl

theorem u16_slice_cut (s : Str) (low : Nat) (short : s.length < low + 2) :
    u16 (s.slice low (low + 2)) = .error .structError := by
  have size : (s.slice low (low + 2)).length ≠ 2 := by
    simp only [Str.slice, List.length_take, List.length_drop]
    omega
  cases data : s.slice low (low + 2) with
  | nil => rfl
  | cons first rest =>
      cases rest with
      | nil => rfl
      | cons second rest =>
          cases rest with
          | nil => simp [data] at size
          | cons third rest => rfl

theorem u32_slice (s : Str) (low : Nat) (enough : low + 4 ≤ s.length) :
    ∃ value, u32 (s.slice low (low + 4)) = .ok value := by
  have size : (s.slice low (low + 4)).length = 4 := by
    simp only [Str.slice, List.length_take, List.length_drop]
    omega
  match data : s.slice low (low + 4), size with
  | [b3, b2, b1, b0], _ => exact ⟨_, rfl⟩

/-- A reader that has found an owner name: it was measured unless it is empty. -/
def Measured (owner : Option Nat × Option Str) : Prop :=
  owner.1 = none → owner.2 = some []

section Queries

theorem query_readFields_none {owner : Option Nat × Option Str} (measured : Measured owner)
    (unnamed : ∀ total name, owner = (some total, some name) → name = []) :
    DNSQuery.readFields data owner = .ok none := by
  obtain ⟨totalRead, name⟩ := owner
  match name with
  | none => rfl
  | some [] => rfl
  | some (char :: label) =>
      cases totalRead with
      | none => cases measured rfl
      | some total => cases unnamed total _ rfl

theorem query_readFields_short {total : Nat} {name : Str} (short : data.length < total + 4) :
    DNSQuery.readFields data (some total, some name) = .ok none := by
  cases name with
  | nil => rfl
  | cons char label =>
      have little : ¬ (data.drop total).length ≥ 4 := by
        rw [List.length_drop]
        omega
      simp only [DNSQuery.readFields, Option.getD_some, little, if_false, pure, Except.pure]

theorem query_readFields_named {total : Nat} {name : Str} (named : name ≠ []) (room : total + 4 ≤ data.length) :
    DNSQuery.readFields data (some total, some name) =
      .ok (some ⟨name, word (data.drop total) 0, word (data.drop total) 2, total + 4⟩) := by
  cases name with
  | nil => exact absurd rfl named
  | cons char label =>
      have left : (data.drop total).length = data.length - total := List.length_drop
      have enough : (data.drop total).length ≥ 4 := by omega
      have first := u16_slice (data.drop total) 0 (by omega)
      have second := u16_slice (data.drop total) 2 (by omega)
      simp only [Nat.zero_add, Nat.reduceAdd] at first second
      simp only [DNSQuery.readFields, Option.getD_some, enough, if_true, first, second, addRead, bind,
        Except.bind, pure, Except.pure]

theorem query_readFields_ok {owner : Option Nat × Option Str} (measured : Measured owner) :
    ∃ query, DNSQuery.readFields data owner = .ok query := by
  by_cases unnamed : ∀ total name, owner = (some total, some name) → name = []
  · exact ⟨none, query_readFields_none measured unnamed⟩
  · simp only [not_forall] at unnamed
    obtain ⟨total, name, rfl, named⟩ := unnamed
    by_cases room : total + 4 ≤ data.length
    · exact ⟨_, query_readFields_named named room⟩
    · exact ⟨none, query_readFields_short (Nat.lt_of_not_le room)⟩

theorem query_readFields_some {owner : Option Nat × Option Str} {query : DNSQuery} (measured : Measured owner)
    (read : DNSQuery.readFields data owner = .ok (some query)) :
    ∃ total name, owner = (some total, some name) ∧ name ≠ [] ∧ total + 4 ≤ data.length ∧
      query.len = total + 4 := by
  by_cases unnamed : ∀ total name, owner = (some total, some name) → name = []
  · cases (query_readFields_none measured unnamed).symm.trans read
  · simp only [not_forall] at unnamed
    obtain ⟨total, name, rfl, named⟩ := unnamed
    by_cases room : total + 4 ≤ data.length
    · cases (query_readFields_named named room).symm.trans read
      exact ⟨total, name, rfl, named, room, rfl⟩
    · cases (query_readFields_short (Nat.lt_of_not_le room)).symm.trans read

theorem query_stable (packet data : Str) : Stable (DNSQuery.read packet data) :=
  (dnsToStringInfo_stable data packet).bind fun _ => stable_const _

theorem info_measured {owner : Option Nat × Option Str}
    (returned : Returns (fun fuel => dnsToStringInfo fuel data packet) owner) : Measured owner := by
  intro unmeasured
  obtain ⟨totalRead, name⟩ := owner
  obtain ⟨fuel, returned⟩ := returned
  cases unmeasured
  exact dnsToStringInfo_measured returned

theorem query_completes_iff : Completes (DNSQuery.read packet data) ↔ NameReadable packet data := by
  rw [← nameReadable_iff]
  refine (completes_bind (dnsToStringInfo_stable data packet) fun _ => stable_const _).trans
    (and_iff_left fun owner returned => ?_)
  obtain ⟨query, read⟩ := query_readFields_ok (info_measured returned)
  exact ⟨query, 0, read⟩

/-- A query is read exactly where a question stands. -/
theorem query_iff (readable : NameReadable packet data) :
    (∃ query, Returns (DNSQuery.read packet data) (some query) ∧ query.len = size) ↔
      QuestionAt (Named packet) data size := by
  constructor
  · intro given
    obtain ⟨query, returned, rfl⟩ := given
    obtain ⟨owner, info, read⟩ := (returns_bind (dnsToStringInfo_stable data packet)
      fun _ => stable_const _).mp returned
    obtain ⟨total, name, rfl, named, room, counted⟩ :=
      query_readFields_some (info_measured info) (returns_const.mp read)
    exact ⟨total, (named_iff readable).mpr ⟨name, named, info⟩, room, counted⟩
  · intro question
    obtain ⟨total, named, room, rfl⟩ := question
    obtain ⟨name, some, info⟩ := (named_iff readable).mp named
    refine ⟨_, (returns_bind (dnsToStringInfo_stable data packet) fun _ => stable_const _).mpr
      ⟨_, info, returns_const.mpr (query_readFields_named some room)⟩, rfl⟩

end Queries

section Resources

theorem readName_stable (packet data : Str) : Stable (DNSResource.readName packet data) := by
  unfold DNSResource.readName
  split
  · exact stable_const _
  · exact dnsToStringInfo_stable data packet

theorem readName_root (root : data.head? = some 0) :
    Returns (DNSResource.readName packet data) (some 1, some (ascii ".")) :=
  ⟨0, by simp only [DNSResource.readName, root, if_true, pure, Except.pure]⟩

theorem readName_named (named : data.head? ≠ some 0) :
    DNSResource.readName packet data = fun fuel => dnsToStringInfo fuel data packet := by
  funext fuel
  simp only [DNSResource.readName, named, if_false]

theorem readName_completes_iff : Completes (DNSResource.readName packet data) ↔
    data.head? = some 0 ∨ NameReadable packet data := by
  by_cases root : data.head? = some 0
  · exact iff_of_true ⟨_, readName_root root⟩ (.inl root)
  · rw [or_iff_right root, ← nameReadable_iff, readName_named root]

theorem readName_measured {owner : Option Nat × Option Str}
    (returned : Returns (DNSResource.readName packet data) owner) : Measured owner := by
  by_cases root : data.head? = some 0
  · rw [returned.unique (readName_stable packet data) (readName_root root)]
    exact fun unmeasured => by cases unmeasured
  · rw [readName_named root] at returned
    exact info_measured returned

/-- An owner name that is not empty is read exactly where one stands. -/
theorem owner_iff (readable : data.head? = some 0 ∨ NameReadable packet data) : Owner packet data size ↔
    ∃ name, name ≠ [] ∧ Returns (DNSResource.readName packet data) (some size, some name) := by
  by_cases root : data.head? = some 0
  · have dot : Returns (DNSResource.readName packet data) (some 1, some (ascii ".")) := readName_root root
    constructor
    · intro owner
      cases owner_unique owner (.inl ⟨root, rfl⟩)
      exact ⟨_, by decide, dot⟩
    · intro given
      obtain ⟨name, _, returned⟩ := given
      cases returned.unique (readName_stable packet data) dot
      exact .inl ⟨root, rfl⟩
  · rw [readName_named root, ← named_iff (readable.resolve_left root)]
    exact or_iff_right fun given => root given.1

theorem resource_readFields_none {owner : Option Nat × Option Str} (measured : Measured owner)
    (unnamed : ∀ total name, owner = (some total, some name) → name = []) :
    DNSResource.readFields data owner = .ok none := by
  obtain ⟨totalRead, name⟩ := owner
  match name with
  | none => rfl
  | some [] => rfl
  | some (char :: label) =>
      cases totalRead with
      | none => cases measured rfl
      | some total => cases unnamed total _ rfl

theorem resource_readFields_short {total : Nat} {name : Str} (named : name ≠ []) (short : data.length < total + 10) :
    DNSResource.readFields data (some total, some name) = .error .structError := by
  cases name with
  | nil => exact absurd rfl named
  | cons char label =>
      have left : (data.drop total).length = data.length - total := List.length_drop
      have cut := u16_slice_cut (data.drop total) 8 (by omega)
      simp only [Nat.reduceAdd] at cut
      simp only [DNSResource.readFields, Option.getD_some, cut, bind, Except.bind]

theorem resource_readFields_cut {total : Nat} {name : Str} (named : name ≠ []) (room : total + 10 ≤ data.length)
    (cut : data.length < total + 10 + word (data.drop total) 8) :
    DNSResource.readFields data (some total, some name) = .ok none := by
  cases name with
  | nil => exact absurd rfl named
  | cons char label =>
      have left : (data.drop total).length = data.length - total := List.length_drop
      have fixed := u16_slice (data.drop total) 8 (by omega)
      simp only [Nat.reduceAdd] at fixed
      have little : ¬ (data.drop total).length ≥ 10 + word (data.drop total) 8 := by omega
      simp only [DNSResource.readFields, Option.getD_some, fixed, little, if_false, bind, Except.bind, pure,
        Except.pure]

theorem resource_readFields_named {total : Nat} {name : Str} (named : name ≠ [])
    (room : total + 10 + word (data.drop total) 8 ≤ data.length) :
    ∃ ttl, DNSResource.readFields data (some total, some name) = .ok (some {
      question := name, querytype := word (data.drop total) 0, queryclass := word (data.drop total) 2, ttl
      rdata := Str.slice (data.drop total) 10 (10 + word (data.drop total) 8)
      len := total + (10 + word (data.drop total) 8) }) := by
  cases name with
  | nil => exact absurd rfl named
  | cons char label =>
      have left : (data.drop total).length = data.length - total := List.length_drop
      have fixed := u16_slice (data.drop total) 8 (by omega)
      have first := u16_slice (data.drop total) 0 (by omega)
      have second := u16_slice (data.drop total) 2 (by omega)
      obtain ⟨ttl, third⟩ := u32_slice (data.drop total) 4 (by omega)
      simp only [Nat.zero_add, Nat.reduceAdd] at fixed first second third
      have enough : (data.drop total).length ≥ 10 + word (data.drop total) 8 := by omega
      refine ⟨ttl, ?_⟩
      simp only [DNSResource.readFields, Option.getD_some, fixed, enough, if_true, first, second, third, addRead,
        bind, Except.bind, pure, Except.pure]

theorem resource_readFields_ok_iff {owner : Option Nat × Option Str} (measured : Measured owner) :
    (∃ resource, DNSResource.readFields data owner = .ok resource) ↔
      ∀ total name, owner = (some total, some name) → name ≠ [] → total + 10 ≤ data.length := by
  constructor
  · intro given total name same named
    obtain ⟨resource, read⟩ := given
    by_contra short
    rw [same, resource_readFields_short named (Nat.lt_of_not_le short)] at read
    cases read
  · intro enough
    by_cases unnamed : ∀ total name, owner = (some total, some name) → name = []
    · exact ⟨none, resource_readFields_none measured unnamed⟩
    · simp only [not_forall] at unnamed
      obtain ⟨total, name, rfl, named⟩ := unnamed
      by_cases room : total + 10 + word (data.drop total) 8 ≤ data.length
      · obtain ⟨ttl, read⟩ := resource_readFields_named named room
        exact ⟨_, read⟩
      · exact ⟨none, resource_readFields_cut named (enough total name rfl named) (Nat.lt_of_not_le room)⟩

theorem resource_readFields_some {owner : Option Nat × Option Str} {resource : DNSResource} (measured : Measured owner)
    (read : DNSResource.readFields data owner = .ok (some resource)) :
    ∃ total name, owner = (some total, some name) ∧ name ≠ [] ∧
      total + 10 + word (data.drop total) 8 ≤ data.length ∧ resource.len = total + (10 + word (data.drop total) 8) ∧
      resource.querytype = word (data.drop total) 0 ∧
      resource.rdata = Str.slice (data.drop total) 10 (10 + word (data.drop total) 8) := by
  have enough := (resource_readFields_ok_iff measured).mp ⟨_, read⟩
  by_cases unnamed : ∀ total name, owner = (some total, some name) → name = []
  · cases (resource_readFields_none measured unnamed).symm.trans read
  · simp only [not_forall] at unnamed
    obtain ⟨total, name, rfl, named⟩ := unnamed
    by_cases room : total + 10 + word (data.drop total) 8 ≤ data.length
    · obtain ⟨ttl, found⟩ := resource_readFields_named named room
      cases found.symm.trans read
      exact ⟨total, name, rfl, named, room, rfl, rfl, rfl⟩
    · have cut := resource_readFields_cut named (enough total name rfl named) (Nat.lt_of_not_le room)
      cases cut.symm.trans read

theorem resource_stable (packet data : Str) : Stable (DNSResource.read packet data) :=
  (readName_stable packet data).bind fun _ => stable_const _

theorem resource_completes_iff :
    Completes (DNSResource.read packet data) ↔ ResourceReadable packet data := by
  refine (completes_bind (readName_stable packet data) fun _ => stable_const _).trans ?_
  rw [readName_completes_iff, ResourceReadable]
  refine and_congr_right fun readable => ?_
  constructor
  · intro later size owner
    obtain ⟨name, named, returned⟩ := (owner_iff readable).mp owner
    obtain ⟨resource, _, read⟩ := later _ returned
    exact (resource_readFields_ok_iff (readName_measured returned)).mp ⟨resource, read⟩ size name rfl named
  · intro room owner returned
    obtain ⟨resource, read⟩ := (resource_readFields_ok_iff (readName_measured returned)).mpr
      fun size name same named => room size ((owner_iff readable).mpr ⟨name, named, same ▸ returned⟩)
    exact ⟨resource, 0, read⟩

/-- A resource is read exactly where a record stands. -/
theorem resource_iff {querytype : Nat} {rdata : Str} (readable : data.head? = some 0 ∨ NameReadable packet data) :
    (∃ resource, Returns (DNSResource.read packet data) (some resource) ∧ resource.len = size ∧
      resource.querytype = querytype ∧ resource.rdata = rdata) ↔
        RecordAt (Owner packet) data size querytype rdata := by
  constructor
  · intro given
    obtain ⟨resource, returned, rfl, rfl, rfl⟩ := given
    obtain ⟨owner, first, read⟩ := (returns_bind (readName_stable packet data)
      fun _ => stable_const _).mp returned
    obtain ⟨total, name, rfl, named, room, counted⟩ :=
      resource_readFields_some (readName_measured first) (returns_const.mp read)
    exact ⟨total, (owner_iff readable).mpr ⟨name, named, first⟩, room, counted⟩
  · intro record
    obtain ⟨total, owner, room, rfl, rfl, rfl⟩ := record
    obtain ⟨name, named, first⟩ := (owner_iff readable).mp owner
    obtain ⟨ttl, read⟩ := resource_readFields_named named room
    refine ⟨_, (returns_bind (readName_stable packet data) fun _ => stable_const _).mpr
      ⟨_, first, returns_const.mpr read⟩, rfl, rfl, rfl⟩

end Resources

end ExaProxy.Dns
