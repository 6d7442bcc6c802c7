import Mathlib.Data.List.AList

namespace ExaProxy.Data

variable {κ ν : Type*} [DecidableEq κ] {dict : AList (fun _ : κ => ν)} {key other : κ}
  {value result : ν}

theorem lookup_insert_iff : (dict.insert key value).lookup other = some result ↔
    (other = key ∧ result = value) ∨ (other ≠ key ∧ dict.lookup other = some result) := by
  by_cases same : other = key
  · subst same
    simp [AList.lookup_insert, eq_comm]
  · simp [AList.lookup_insert_ne same, same]

theorem lookup_erase_iff : (dict.erase key).lookup other = some result ↔
    other ≠ key ∧ dict.lookup other = some result := by
  by_cases same : other = key
  · subst same
    simp [AList.lookup_erase]
  · simp [AList.lookup_erase_ne same, same]

theorem lookup_mem (found : dict.lookup key = some value) : key ∈ dict :=
  AList.lookup_isSome.mp (by rw [found]; rfl)

theorem erase_absent (absent : key ∉ dict) : dict.erase key = dict :=
  AList.ext (List.kerase_of_notMem_keys absent)

theorem insert_erase : (dict.insert key value).erase key = dict.erase key := by
  apply AList.ext
  exact List.kerase_cons_eq rfl

theorem entries_perm_erase (found : dict.lookup key = some value) :
    dict.entries.Perm (⟨key, value⟩ :: (dict.erase key).entries) := by
  obtain ⟨stored, before, rest, absent, entries, erased⟩ :=
    List.exists_of_kerase (lookup_mem found)
  have same : stored = value := by
    have looked := found
    rw [AList.lookup, entries, List.dlookup_append, List.dlookup_eq_none.mpr absent,
      Option.none_or, List.dlookup_cons_eq] at looked
    exact Option.some.inj looked
  have removed : (dict.erase key).entries = before ++ rest := erased
  rw [removed, entries, same]
  exact List.perm_middle

end ExaProxy.Data
