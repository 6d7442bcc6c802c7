import Mathlib.Data.List.Induction
import Mathlib.Data.List.Nodup
import Mathlib.Data.List.Perm.Basic

namespace ExaProxy.Data

namespace Grouping

variable {κ α : Type*} [DecidableEq κ]

def addName (seen : List κ) (name : κ) : List κ := if name ∈ seen then seen else seen ++ [name]

def names (pairs : List (κ × α)) : List κ := (pairs.map Prod.fst).foldl addName []

def group (name : κ) (pairs : List (κ × α)) : List (κ × α) := pairs.filter (·.1 = name)

def regroup (pairs : List (κ × α)) : List (κ × α) := (names pairs).flatMap fun name => group name pairs

variable {pairs more : List (κ × α)} {pair : κ × α} {name other : κ} {keys : List κ}

theorem names_concat (pairs : List (κ × α)) (pair : κ × α) :
    names (pairs ++ [pair]) = addName (names pairs) pair.1 := by
  simp [names]

theorem mem_addName : other ∈ addName keys name ↔ other ∈ keys ∨ other = name := by
  unfold addName
  split
  · next known => exact ⟨.inl, Or.rec id fun same => same ▸ known⟩
  · simp

theorem mem_names : name ∈ names pairs ↔ ∃ pair ∈ pairs, pair.1 = name := by
  induction pairs using List.reverseRecOn with
  | nil => simp [names]
  | append_singleton pairs last ih =>
      rw [names_concat, mem_addName, ih]
      simp [or_and_right, exists_or, eq_comm]

theorem names_nodup (pairs : List (κ × α)) : (names pairs).Nodup := by
  induction pairs using List.reverseRecOn with
  | nil => exact List.nodup_nil
  | append_singleton pairs last ih =>
      rw [names_concat, addName]
      split
      · exact ih
      · next fresh =>
          refine List.nodup_append.mpr ⟨ih, List.nodup_singleton _, fun earlier member late single => ?_⟩
          intro same
          subst same
          exact fresh (List.mem_singleton.mp single ▸ member)

theorem mem_group : pair ∈ group name pairs ↔ pair ∈ pairs ∧ pair.1 = name := by
  simp [group]

theorem group_ne_nil : group name pairs ≠ [] ↔ name ∈ names pairs := by
  rw [mem_names]
  constructor
  · intro some
    obtain ⟨pair, member⟩ := List.exists_mem_of_ne_nil _ some
    exact ⟨pair, mem_group.mp member⟩
  · intro given
    obtain ⟨pair, member⟩ := given
    exact List.ne_nil_of_mem (mem_group.mpr member)

theorem group_concat (pairs : List (κ × α)) (pair : κ × α) : group name (pairs ++ [pair]) =
    if pair.1 = name then group name pairs ++ [pair] else group name pairs := by
  rw [group, List.filter_append, List.filter_singleton]
  split <;> simp_all [group]

theorem group_group : group name (group other pairs) = if other = name then group name pairs else [] := by
  rw [group, group, List.filter_filter]
  split
  · next same =>
      subst same
      simp [group]
  · next different =>
      rw [List.filter_eq_nil_iff]
      rintro pair - both
      simp only [Bool.and_eq_true, decide_eq_true_eq] at both
      exact different (both.2.symm.trans both.1)

theorem flatMap_group_perm (nodup : keys.Nodup) (covered : ∀ pair ∈ pairs, pair.1 ∈ keys) :
    (keys.flatMap fun key => group key pairs).Perm pairs := by
  induction keys generalizing pairs with
  | nil =>
      have empty : pairs = [] := List.eq_nil_iff_forall_not_mem.mpr fun pair member => by
        simpa using covered pair member
      rw [empty]
      rfl
  | cons key keys ih =>
      obtain ⟨fresh, nodup⟩ := List.nodup_cons.mp nodup
      have others : ∀ name ∈ keys, group name pairs = group name (pairs.filter (¬ ·.1 = key)) := by
        intro name member
        rw [group, group, List.filter_filter]
        refine List.filter_congr fun pair _ => ?_
        have different : name ≠ key := fun same => fresh (same ▸ member)
        by_cases named : pair.1 = name <;> simp [named, different]
      have rest : (keys.flatMap fun name => group name pairs).Perm (pairs.filter (¬ ·.1 = key)) := by
        rw [List.flatMap_congr others]
        refine ih nodup fun pair member => ?_
        obtain ⟨among, different⟩ := List.mem_filter.mp member
        exact (List.mem_cons.mp (covered pair among)).resolve_left (by simpa using different)
      rw [List.flatMap_cons]
      refine (rest.append_left _).trans ?_
      simpa [group] using List.filter_append_perm (fun pair : κ × α => decide (pair.1 = key)) pairs

theorem regroup_perm (pairs : List (κ × α)) : (regroup pairs).Perm pairs :=
  flatMap_group_perm (names_nodup pairs) fun pair member => mem_names.mpr ⟨pair, member, rfl⟩

/-- Of the groups of different names one is left if the items of a name are kept. -/
theorem group_flatMap (nodup : keys.Nodup) : group name (keys.flatMap fun key => group key pairs) =
    if name ∈ keys then group name pairs else [] := by
  induction keys with
  | nil => rfl
  | cons key keys ih =>
      obtain ⟨fresh, nodup⟩ := List.nodup_cons.mp nodup
      have later := ih nodup
      rw [group] at later
      rw [List.flatMap_cons, group, List.filter_append, later]
      have first : (group key pairs).filter (·.1 = name) = _ := group_group
      rw [first]
      by_cases same : key = name
      · subst same
        simp [fresh]
      · simp [same, Ne.symm same]

theorem group_regroup (name : κ) (pairs : List (κ × α)) : group name (regroup pairs) = group name pairs := by
  rw [regroup, group_flatMap (names_nodup pairs)]
  split
  · rfl
  · next absent => exact (not_not.mp (mt group_ne_nil.mp absent)).symm

theorem addName_known (known : name ∈ keys) : addName keys name = keys := if_pos known

theorem addName_fresh (fresh : name ∉ keys) : addName keys name = keys ++ [name] := if_neg fresh

theorem names_append_group (fresh : name ∉ names pairs) (filled : more ≠ [])
    (all : ∀ pair ∈ more, pair.1 = name) : names (pairs ++ more) = names pairs ++ [name] := by
  induction more using List.reverseRecOn with
  | nil => exact absurd rfl filled
  | append_singleton more last ih =>
      rw [← List.append_assoc, names_concat, all last (by simp)]
      by_cases first : more = []
      · subst first
        rw [List.append_nil, addName_fresh fresh]
      · rw [ih first fun pair member => all pair (List.mem_append_left _ member)]
        exact addName_known (by simp)

theorem names_flatMap (nodup : keys.Nodup) (filled : ∀ key ∈ keys, group key pairs ≠ []) :
    names (keys.flatMap fun key => group key pairs) = keys := by
  induction keys using List.reverseRecOn with
  | nil => rfl
  | append_singleton keys last ih =>
      obtain ⟨nodup, -, apart⟩ := List.nodup_append.mp nodup
      have earlier := ih nodup fun key member => filled key (List.mem_append_left _ member)
      rw [List.flatMap_append, List.flatMap_singleton, names_append_group _ (filled last (by simp))
        fun pair member => (mem_group.mp member).2, earlier]
      rw [earlier]
      exact fun member => apart last member last (List.mem_singleton_self _) rfl

theorem names_regroup (pairs : List (κ × α)) : names (regroup pairs) = names pairs :=
  names_flatMap (names_nodup pairs) fun _ member => group_ne_nil.mpr member

end Grouping

end ExaProxy.Data
