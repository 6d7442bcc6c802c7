import ExaProxy.Data.Fuel
import ExaProxy.Dns.Wire

namespace ExaProxy.Dns

open ExaProxy.Data

variable {packet data s : Str} {labels parts more : List Str} {next : Option Nat}
  {size ptr target characters last fuel : Nat}

theorem dnsToStringInfo_stable (s packet : Str) :
    Stable fun fuel => dnsToStringInfo fuel s packet := by
  intro fuel value returned more enough
  cases read : dnsString s with
  | error fault => simp [dnsToStringInfo, read, bind, Except.bind] at returned
  | ok found =>
      obtain ⟨bytesRead, name, ptr⟩ := found
      cases ptr with
      | none =>
          simp only [dnsToStringInfo, read, bind, Except.bind] at returned ⊢
          exact returned
      | some ptr =>
          simp only [dnsToStringInfo, read, bind, Except.bind] at returned ⊢
          cases finished : Loop.run (followPointer packet) fuel (firstParts name, ptr) with
          | none => simp [finished, throw, throwThe, MonadExceptOf.throw] at returned
          | some result =>
              rw [finished] at returned
              rw [Loop.run_mono finished enough]
              exact returned

theorem completes_iff_ok {name : Str} {bytesRead : Option Nat} {ptr : Nat}
    (read : dnsString s = .ok (bytesRead, some name, some ptr)) :
    Completes (fun fuel => dnsToStringInfo fuel s packet) ↔
      ∃ labels fuel, Loop.run (followPointer packet) fuel (firstParts (some name), ptr) =
        some (.ok labels) := by
  constructor
  · intro given
    obtain ⟨value, fuel, returned⟩ := given
    cases finished : Loop.run (followPointer packet) fuel (firstParts (some name), ptr) with
    | none =>
        simp [dnsToStringInfo, read, finished, bind, Except.bind, throw, throwThe,
          MonadExceptOf.throw] at returned
    | some result =>
        cases result with
        | error fault =>
            simp [dnsToStringInfo, read, finished, bind, Except.bind, throw, throwThe,
              MonadExceptOf.throw] at returned
        | ok labels => exact ⟨labels, fuel, finished⟩
  · intro given
    obtain ⟨labels, fuel, finished⟩ := given
    exact ⟨(bytesRead, labels.map joinDots), fuel, by
      simp only [dnsToStringInfo, read, finished, bind, Except.bind, pure, Except.pure]⟩

/-- The exits of the loop in `dns_to_string_info`: it raises where a name
breaks off. -/
theorem followPointer_raises_iff {state : List Str × Nat} :
    (∃ fault, followPointer packet state = .inr (.error fault)) ↔
      BreaksOff (packet.drop state.2) := by
  obtain ⟨parts, ptr⟩ := state
  rw [dnsString_breaksOff]
  refine exists_congr fun fault => ⟨followPointer_error, fun raised => ?_⟩
  simp only [followPointer, raised]

theorem followPointer_returns_iff {ptr : Nat} (small : ptr < 2 ^ 14) :
    (∃ labels fuel, Loop.run (followPointer packet) fuel (parts, ptr) = some (.ok labels)) ↔
      ¬ BreaksOff (packet.drop ptr) ∧
      ∀ characters last, Chain packet ptr characters last → total parts + characters ≤ 500 →
        ¬ BreaksOff (packet.drop last) ∧ ¬ Circular packet last := by
  constructor
  · intro given
    obtain ⟨labels, fuel, finished⟩ := given
    have halts : Loop.Halts (followPointer packet) (parts, ptr) := ⟨fuel, .ok labels, finished⟩
    have unbroken : ∀ state, Relation.ReflTransGen (Loop.Next (followPointer packet)) (parts, ptr)
        state → ¬ BreaksOff (packet.drop state.2) := by
      intro state path broken
      obtain ⟨fault, raised⟩ := followPointer_raises_iff.mpr broken
      have wrong := Loop.result_unique ⟨fuel, finished⟩
        (Loop.run_eq_some_iff.mpr ⟨state, path, raised⟩)
      cases wrong
    refine ⟨unbroken (parts, ptr) .refl, fun characters last chain within => ⟨?_, ?_⟩⟩
    · obtain ⟨labels, _, path⟩ := reaches_of_chain chain within
      exact unbroken (labels, last) path
    · exact (followPointer_halts_iff small).mp halts characters last chain within
  · intro ⟨first, later⟩
    obtain ⟨fuel, result, finished⟩ := (followPointer_halts_iff small).mpr
      fun characters last chain within => (later characters last chain within).2
    cases result with
    | ok labels => exact ⟨labels, fuel, finished⟩
    | error fault =>
        obtain ⟨state, path, raised⟩ := Loop.run_eq_some_iff.mp ⟨fuel, finished⟩
        have broken := followPointer_raises_iff.mp ⟨fault, raised⟩
        rcases Relation.reflTransGen_iff_eq_or_transGen.mp path with rfl | reached
        · exact absurd broken first
        · obtain ⟨characters, chain, counted⟩ := chain_of_reaches path
          have within := (transGen_grows reached).2.1
          exact absurd broken (later characters state.2 chain (by omega)).1

theorem nameReadable_iff :
    Completes (fun fuel => dnsToStringInfo fuel data packet) ↔ NameReadable packet data := by
  cases read : dnsString data with
  | error fault =>
      refine iff_of_false ?_ (fun readable => readable.1 (dnsString_breaksOff.mpr ⟨fault, read⟩))
      intro given
      obtain ⟨value, fuel, returned⟩ := given
      simp [dnsToStringInfo, read, bind, Except.bind] at returned
  | ok found =>
      obtain ⟨bytesRead, value, next⟩ := found
      have whole : ¬ BreaksOff data := by
        rw [dnsString_breaksOff, read]
        simp
      cases next with
      | none =>
          refine iff_of_true ?_ ⟨whole, fun _ _ _ stands => by cases read.symm.trans stands.read⟩
          exact ⟨(bytesRead, some (joinDots (firstParts value))), 0, by
            simp [dnsToStringInfo, read, bind, Except.bind, pure, Except.pure]⟩
      | some ptr =>
          obtain ⟨name, rfl⟩ : ∃ name, value = some name := dnsString_named read
          rw [completes_iff_ok read, followPointer_returns_iff (dnsString_pointer read).1,
            total_firstParts]
          obtain ⟨labels, size, stands, rfl, rfl⟩ := dnsString_pointed.mp read
          simp only [← leads_iff]
          refine ⟨fun bounded => ⟨whole, fun _ _ _ again => ?_⟩, fun readable => readable.2 _ _ _ stands⟩
          obtain ⟨rfl, same, _⟩ := stands.unique again
          cases same
          exact bounded

theorem dnsStringLoop_measured {remaining : Int} {bytesRead : Nat} {labels : List Str}
    {next : Option Nat}
    (read : dnsStringLoop remaining bytesRead parts s = .ok (none, labels, next)) :
    labels = [] ∧ next = none := by
  induction remaining, bytesRead, parts, s using dnsStringLoop.induct with
  | case1 remaining bytesRead parts => simp [dnsStringLoop] at read
  | case2 remaining bytesRead parts char length pointer =>
      simp only [dnsStringLoop, pointer, length, if_true] at read
      cases read
  | case3 remaining bytesRead parts char length pointer low tail =>
      simp only [dnsStringLoop, pointer, length, if_true] at read
      cases read
  | case4 remaining bytesRead parts char rest length short zero =>
      rw [dnsStringLoop_zero zero] at read
      cases read
  | case5 remaining bytesRead parts char rest length left short nonzero ended =>
      rw [dnsStringLoop_cut short nonzero ended] at read
      cases read
      exact ⟨rfl, rfl⟩
  | case6 remaining bytesRead parts char rest length left short nonzero enough ih =>
      rw [dnsStringLoop_label short nonzero enough] at read
      exact ih read

theorem dnsToStringInfo_measured {name : Option Str}
    (returned : dnsToStringInfo fuel s packet = .ok (none, name)) : name = some [] := by
  cases loop : dnsStringLoop s.length 0 [] s with
  | error fault => simp [dnsToStringInfo, dnsString, loop, bind, Except.bind] at returned
  | ok found =>
      obtain ⟨bytesRead, labels, ptr⟩ := found
      cases bytesRead with
      | none =>
          obtain ⟨rfl, rfl⟩ := dnsStringLoop_measured loop
          simp only [dnsToStringInfo, dnsString, loop, bind, Except.bind, pure, Except.pure,
            Except.ok.injEq, Prod.mk.injEq, true_and] at returned
          exact returned.symm
      | some count =>
          cases ptr with
          | none =>
              simp [dnsToStringInfo, dnsString, loop, bind, Except.bind, pure,
                Except.pure] at returned
          | some ptr =>
              simp only [dnsToStringInfo, dnsString, loop, bind, Except.bind, pure,
                Except.pure] at returned
              split at returned <;> cases returned

theorem joinDots_firstParts (name : Str) : joinDots (firstParts (some name)) = name := by
  cases name with
  | nil => rfl
  | cons char rest => simp [firstParts, joinDots, Str.join]

theorem firstParts_filled (name : Str) : ∀ part ∈ firstParts (some name), part ≠ [] := by
  cases name <;> simp [firstParts]

/-- One turn of the loop at a place with a name, or where the data stop. -/
theorem followPointer_standing (parts : List Str) (stands : Standing (packet.drop ptr) labels next size) :
    followPointer packet (parts, ptr) =
      if total (parts ++ firstParts (some (joinDots labels))) > 500 then .inr (.ok none)
      else match next with
        | none => .inr (.ok (some (parts ++ firstParts (some (joinDots labels)))))
        | some target => .inl (parts ++ firstParts (some (joinDots labels)), target) := by
  simp only [followPointer, stands.read, append_firstParts, total]
  cases next <;> rfl

theorem followPointer_stops (stops : Stops (packet.drop ptr)) : followPointer packet (parts, ptr) =
    if total parts > 500 then .inr (.ok none) else .inr (.ok (some parts)) := by
  obtain ⟨count, read⟩ := stops.read
  simp only [followPointer, read, if_true, total]
  rfl

theorem reaches_filled {state : List Str × Nat} (filled : ∀ part ∈ parts, part ≠ [])
    (path : Relation.ReflTransGen (Loop.Next (followPointer packet)) (parts, ptr) state) :
    ∀ part ∈ state.1, part ≠ [] := by
  induction path with
  | refl => exact filled
  | tail _ step ih =>
      obtain ⟨count, name, _, grown, _⟩ := next_iff.mp step
      rw [grown]
      exact fun part member => (List.mem_append.mp member).elim (ih part) (firstParts_filled name part)

/-- Where the loop ends with labels, and which. -/
theorem followPointer_collects (ended : ∃ fuel, Loop.run (followPointer packet) fuel (firstParts (some s), ptr) =
    some (.ok (some parts))) : (∀ part ∈ parts, part ≠ []) ∧ total parts ≤ 500 ∧
      ∃ characters last, Leads packet ptr characters last ∧
        (total parts = s.length + characters ∨ ∃ more size, Standing (packet.drop last) more none size ∧
          total parts = s.length + characters + (joinDots more).length) := by
  obtain ⟨⟨collected, last⟩, path, left⟩ := Loop.run_eq_some_iff.mp ended
  obtain ⟨characters, chain, counted⟩ := chain_of_reaches path
  have filled := reaches_filled (firstParts_filled s) path
  have leads := leads_iff.mpr chain
  rw [total_firstParts] at counted
  rcases standing_or (packet.drop last) with ⟨more, next, size, stands⟩ | stops | breaks
  · rw [followPointer_standing _ stands] at left
    split at left
    · cases left
    · next within =>
        cases next with
        | some target => cases left
        | none =>
            cases left
            refine ⟨fun part member => ?_, Nat.le_of_not_lt within, characters, last, leads,
              .inr ⟨more, size, stands, ?_⟩⟩
            · exact (List.mem_append.mp member).elim (filled part) (firstParts_filled _ part)
            · rw [total_append, total_firstParts, counted]
  · rw [followPointer_stops stops] at left
    split at left
    · cases left
    · next within =>
        cases left
        exact ⟨filled, Nat.le_of_not_lt within, characters, last, leads, .inl counted⟩
  · obtain ⟨fault, raised⟩ := breaks.read
    simp [followPointer, raised] at left

/-- A loop that ends with a name has come to no place where the labels grew too long. -/
theorem followPointer_within {name : List Str} {start : List Str × Nat}
    (ended : ∃ fuel, Loop.run (followPointer packet) fuel start = some (.ok (some name)))
    (path : Relation.ReflTransGen (Loop.Next (followPointer packet)) start (parts, ptr))
    (stands : Standing (packet.drop ptr) labels next size) : total parts + (joinDots labels).length ≤ 500 := by
  have turn := followPointer_standing parts stands
  rw [total_append, total_firstParts] at turn
  split at turn
  · cases Loop.result_unique ended (Loop.run_eq_some_iff.mpr ⟨_, path, turn⟩)
  · next within => exact Nat.le_of_not_lt within

theorem total_pos (filled : ∀ part ∈ parts, part ≠ []) (some : parts ≠ []) : 0 < total parts := by
  cases parts with
  | nil => exact absurd rfl some
  | cons part rest =>
      have first := List.length_pos_of_ne_nil (filled part List.mem_cons_self)
      simp only [total, List.map_cons, List.sum_cons]
      omega

theorem collected_of_ends {name : List Str} (ended : ∃ fuel, Loop.run (followPointer packet) fuel
    (firstParts (some (joinDots labels)), target) = some (.ok (some name))) (named : name ≠ []) :
    Collected packet labels target := by
  obtain ⟨kept, bounded, characters, last, leads, counted⟩ := followPointer_collects ended
  have reached : ∀ characters last, Leads packet target characters last →
      (joinDots labels).length + characters ≤ 500 ∧ ∃ parts, total parts = (joinDots labels).length + characters ∧
        Relation.ReflTransGen (Loop.Next (followPointer packet)) (firstParts (some (joinDots labels)), target)
          (parts, last) := by
    intro characters last leads
    induction leads with
    | here =>
        refine ⟨?_, _, total_firstParts _, .refl⟩
        rcases counted with counted | ⟨more, size, _, counted⟩ <;> omega
    | @hop characters middle onward size more _ stands ih =>
        obtain ⟨_, parts, total_eq, path⟩ := ih
        have within := followPointer_within ended path stands
        have turn := followPointer_standing parts stands
        rw [total_append, total_firstParts, if_neg (Nat.not_lt.mpr within)] at turn
        rw [total_eq] at within
        refine ⟨by omega, _, ?_, path.tail turn⟩
        rw [total_append, total_firstParts, total_eq]
        omega
  refine ⟨fun characters last leads => (reached characters last leads).1, ?_, ?_⟩
  · intro characters last more size leads stands
    obtain ⟨_, parts, total_eq, path⟩ := reached characters last leads
    rw [← total_eq]
    exact followPointer_within ended path stands
  · have positive := total_pos kept named
    by_cases unlabelled : labels = []
    · have zero : (joinDots labels).length = 0 := by
        rw [unlabelled]
        rfl
      refine .inr ⟨characters, last, leads, ?_⟩
      rcases counted with counted | ⟨more, size, stands, counted⟩
      · exact .inl (by omega)
      · by_cases empty : more = []
        · rw [empty] at counted
          exact .inl (by simp only [show joinDots [] = [] from rfl, List.length_nil] at counted; omega)
        · exact .inr ⟨more, size, stands, empty⟩
    · exact .inl unlabelled

/-- What the loop collected before it came to a state is in what it ends with. -/
theorem followPointer_grows {name : List Str} (ended : ∃ fuel, Loop.run (followPointer packet) fuel (parts, ptr) =
    some (.ok (some name))) : total parts ≤ total name := by
  obtain ⟨⟨collected, last⟩, path, left⟩ := Loop.run_eq_some_iff.mp ended
  obtain ⟨characters, _, counted⟩ := chain_of_reaches path
  dsimp only at counted
  rcases standing_or (packet.drop last) with ⟨labels, next, size, stands⟩ | stops | breaks
  · rw [followPointer_standing _ stands] at left
    split at left
    · cases left
    · cases next with
      | some target => cases left
      | none =>
          cases left
          rw [total_append]
          omega
  · rw [followPointer_stops stops] at left
    split at left
    · cases left
    · cases left
      omega
  · obtain ⟨fault, raised⟩ := breaks.read
    simp [followPointer, raised] at left

theorem total_nil : total [] = 0 := rfl

/-- The state in which the loop comes to a place that the pointers lead to. -/
theorem Leads.reached (leads : Leads packet ptr characters last) (within : s.length + characters ≤ 500) :
    ∃ parts, total parts = s.length + characters ∧
      Relation.ReflTransGen (Loop.Next (followPointer packet)) (firstParts (some s), ptr) (parts, last) := by
  have bounded : total (firstParts (some s)) + characters ≤ 500 := by rwa [total_firstParts]
  obtain ⟨parts, counted, path⟩ := reaches_of_chain (leads_iff.mp leads) bounded
  exact ⟨parts, by rw [counted, total_firstParts], path⟩

/-- The loop goes on from such a state to the same end. -/
theorem Leads.ended {result : Except Fault (Option (List Str))} (leads : Leads packet ptr characters last)
    (within : s.length + characters ≤ 500)
    (ended : ∃ fuel, Loop.run (followPointer packet) fuel (firstParts (some s), ptr) = some result) :
    ∃ parts, total parts = s.length + characters ∧
      ∃ fuel, Loop.run (followPointer packet) fuel (parts, last) = some result := by
  obtain ⟨parts, counted, path⟩ := leads.reached (s := s) within
  refine ⟨parts, counted, ?_⟩
  obtain ⟨fuel, again, finished⟩ := (Loop.halts_iff_of_reaches path).mp
    ⟨ended.choose, result, ended.choose_spec⟩
  obtain ⟨final, onward, left⟩ := Loop.run_eq_some_iff.mp ⟨fuel, finished⟩
  have same := Loop.result_unique ended (Loop.run_eq_some_iff.mpr ⟨final, path.trans onward, left⟩)
  exact ⟨fuel, finished.trans (congrArg some same.symm)⟩

theorem Collected.ends (collected : Collected packet labels target)
    {result : Option (List Str)} (ended : ∃ fuel, Loop.run (followPointer packet) fuel
      (firstParts (some (joinDots labels)), target) = some (.ok result)) : ∃ name, result = some name := by
  obtain ⟨⟨parts, last⟩, path, left⟩ := Loop.run_eq_some_iff.mp ended
  obtain ⟨characters, chain, counted⟩ := chain_of_reaches path
  rw [total_firstParts] at counted
  have leads := leads_iff.mpr chain
  have within := collected.within characters last leads
  rcases standing_or (packet.drop last) with ⟨more, next, size, stands⟩ | stops | breaks
  · rw [followPointer_standing _ stands, total_append, total_firstParts, counted] at left
    cases next with
    | none =>
        have bounded := collected.ended characters last more size leads stands
        rw [if_neg (Nat.not_lt.mpr bounded)] at left
        cases left
        exact ⟨_, rfl⟩
    | some onward =>
        have bounded := collected.within _ onward (leads.hop stands)
        rw [if_neg (by omega)] at left
        cases left
  · rw [followPointer_stops stops, counted, if_neg (Nat.not_lt.mpr within)] at left
    cases left
    exact ⟨_, rfl⟩
  · obtain ⟨fault, raised⟩ := breaks.read
    simp [followPointer, raised] at left

theorem Collected.ends_filled (collected : Collected packet labels target) (filled : ∀ label ∈ labels, label ≠ [])
    {name : List Str} (ended : ∃ fuel, Loop.run (followPointer packet) fuel
      (firstParts (some (joinDots labels)), target) = some (.ok (some name))) : name ≠ [] := by
  rintro rfl
  rcases collected.labelled with labelled | ⟨characters, last, leads, some⟩
  · have grown := followPointer_grows ended
    rw [total_firstParts, total_nil] at grown
    exact labelled ((joinDots_eq_nil filled).mp (List.length_eq_zero_iff.mp (Nat.le_zero.mp grown)))
  · obtain ⟨parts, counted, onward⟩ := leads.ended (collected.within characters last leads) ended
    have grown := followPointer_grows onward
    rw [total_nil] at grown
    rcases some with positive | ⟨more, size, stands, labelled⟩
    · omega
    · have bounded := collected.ended characters last more size leads stands
      have turn := followPointer_standing parts stands
      rw [total_append, total_firstParts, counted, if_neg (Nat.not_lt.mpr bounded)] at turn
      have same := Loop.result_unique onward (Loop.run_eq_some_iff.mpr ⟨_, .refl, turn⟩)
      simp only [Except.ok.injEq, Option.some.injEq] at same
      have empty : joinDots more = [] := by
        have counts := congrArg total same
        rw [total_append, total_firstParts, total_nil] at counts
        exact List.length_eq_zero_iff.mp (by omega)
      exact labelled (stands.joinDots_eq_nil.mp empty)

theorem joinDots_ne_nil (filled : ∀ part ∈ parts, part ≠ []) (some : parts ≠ []) : joinDots parts ≠ [] :=
  fun empty => some ((joinDots_eq_nil filled).mp empty)

/-- A name without a pointer, as it is read. -/
theorem named_iff_bare {count : Nat} (stands : Standing data labels none count) : Named packet data size ↔
    ∃ name, name ≠ [] ∧ Returns (fun fuel => dnsToStringInfo fuel data packet) (some size, some name) := by
  have info : ∀ fuel, dnsToStringInfo fuel data packet = .ok (some count, some (joinDots labels)) := by
    intro fuel
    simp only [dnsToStringInfo, stands.read, bind, Except.bind, pure, Except.pure, joinDots_firstParts]
  constructor
  · intro named
    obtain ⟨_, _, again, shape⟩ := named
    obtain ⟨rfl, rfl, rfl⟩ := stands.unique again
    rcases shape with ⟨_, labelled⟩ | ⟨_, pointed, _⟩
    · exact ⟨joinDots labels, joinDots_ne_nil stands.labels_filled labelled, 0, info 0⟩
    · cases pointed
  · intro given
    obtain ⟨name, some, fuel, returned⟩ := given
    cases (info fuel).symm.trans returned
    exact ⟨labels, none, stands, .inl ⟨rfl, fun empty => some (stands.joinDots_eq_nil.mpr empty)⟩⟩

theorem named_iff_pointed {count : Nat} (readable : NameReadable packet data)
    (stands : Standing data labels (some target) count) : Named packet data size ↔
    ∃ name, name ≠ [] ∧ Returns (fun fuel => dnsToStringInfo fuel data packet) (some size, some name) := by
  have read := stands.read
  obtain ⟨result, enough, finished⟩ := (completes_iff_ok read).mp (nameReadable_iff.mpr readable)
  have info : Returns (fun fuel => dnsToStringInfo fuel data packet) (some count, result.map joinDots) :=
    ⟨enough, by simp only [dnsToStringInfo, read, finished, bind, Except.bind, pure, Except.pure]⟩
  constructor
  · intro named
    obtain ⟨_, _, again, shape⟩ := named
    obtain ⟨rfl, rfl, rfl⟩ := stands.unique again
    rcases shape with ⟨pointed, _⟩ | ⟨_, pointed, collected⟩
    · cases pointed
    · cases pointed
      obtain ⟨name, rfl⟩ := collected.ends ⟨enough, finished⟩
      have some := collected.ends_filled stands.labels_filled ⟨enough, finished⟩
      have kept := (followPointer_collects ⟨enough, finished⟩).1
      exact ⟨joinDots name, joinDots_ne_nil kept some, info⟩
  · intro given
    obtain ⟨name, some, returned⟩ := given
    have same := info.unique (dnsToStringInfo_stable data packet) returned
    cases result with
    | none => cases same
    | some parts =>
        cases same
        refine ⟨labels, .some target, stands, .inr ⟨target, rfl, ?_⟩⟩
        refine collected_of_ends ⟨enough, finished⟩ fun empty => some ?_
        rw [empty]
        rfl


/-- `dns_to_string_info` gives a name that is not empty, and how many bytes it takes, exactly where the
data start with one. -/
theorem named_iff (readable : NameReadable packet data) : Named packet data size ↔
    ∃ name, name ≠ [] ∧ Returns (fun fuel => dnsToStringInfo fuel data packet) (some size, some name) := by
  rcases standing_or data with ⟨labels, next, count, stands⟩ | stops | breaks
  · cases next with
    | none => exact named_iff_bare stands
    | some target => exact named_iff_pointed readable stands
  · obtain ⟨count, read⟩ := stops.read
    refine iff_of_false (fun named => ?_) (fun given => ?_)
    · obtain ⟨_, _, stands, _⟩ := named
      exact stands.not_stops stops
    · obtain ⟨name, some, fuel, returned⟩ := given
      simp only [dnsToStringInfo, read, bind, Except.bind, pure, Except.pure] at returned
      cases returned
      exact some rfl
  · exact absurd breaks readable.1

end ExaProxy.Dns
