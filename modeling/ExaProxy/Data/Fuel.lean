import Mathlib.Data.List.Forall2
import Mathlib.Logic.Basic

namespace ExaProxy.Data

/-! Computations that may need fuel.  More fuel never changes a value that was
returned, so such computations can be taken apart at every bind. -/

variable {ε α β : Type} {f : Nat → Except ε α} {g : α → Nat → Except ε β} {value other : α}
  {result : β}

/-- With enough fuel the computation returns `value`. -/
def Returns (f : Nat → Except ε α) (value : α) : Prop := ∃ fuel, f fuel = .ok value

def Stable (f : Nat → Except ε α) : Prop :=
  ∀ fuel value, f fuel = .ok value → ∀ more, fuel ≤ more → f more = .ok value

theorem bind_eq_ok {first : Except ε α} {rest : α → Except ε β} :
    (first >>= rest) = .ok result ↔ ∃ value, first = .ok value ∧ rest value = .ok result := by
  cases first with
  | error fault => simp [bind, Except.bind]
  | ok value => simp [bind, Except.bind]

theorem stable_const (first : Except ε α) : Stable fun _ => first :=
  fun _ _ returned _ _ => returned

theorem Stable.bind (first : Stable f) (rest : ∀ value, Stable (g value)) :
    Stable fun fuel => f fuel >>= fun value => g value fuel := by
  intro fuel result returned more enough
  obtain ⟨value, early, late⟩ := bind_eq_ok.mp returned
  exact bind_eq_ok.mpr ⟨value, first fuel value early more enough,
    rest value fuel result late more enough⟩

theorem Returns.unique (stable : Stable f) (first : Returns f value) (second : Returns f other) :
    value = other := by
  obtain ⟨low, returned⟩ := first
  obtain ⟨high, again⟩ := second
  have early := stable low value returned (max low high) (Nat.le_max_left low high)
  have late := stable high other again (max low high) (Nat.le_max_right low high)
  rw [early] at late
  exact Except.ok.inj late

@[simp] theorem returns_const {first : Except ε α} :
    Returns (fun _ => first) value ↔ first = .ok value :=
  ⟨fun ⟨_, returned⟩ => returned, fun returned => ⟨0, returned⟩⟩

theorem returns_bind (first : Stable f) (rest : ∀ value, Stable (g value)) :
    Returns (fun fuel => f fuel >>= fun value => g value fuel) result ↔
      ∃ value, Returns f value ∧ Returns (g value) result := by
  constructor
  · intro ⟨fuel, returned⟩
    obtain ⟨value, early, late⟩ := bind_eq_ok.mp returned
    exact ⟨value, ⟨fuel, early⟩, ⟨fuel, late⟩⟩
  · intro ⟨value, ⟨low, early⟩, ⟨high, late⟩⟩
    exact ⟨max low high, bind_eq_ok.mpr ⟨value,
      first low value early _ (Nat.le_max_left low high),
      rest value high result late _ (Nat.le_max_right low high)⟩⟩

/-- With enough fuel the computation returns some value: it neither raises nor
runs for ever. -/
def Completes (f : Nat → Except ε α) : Prop := ∃ value, Returns f value

@[simp] theorem completes_pure (value : α) : Completes fun _ => (pure value : Except ε α) :=
  ⟨value, 0, rfl⟩

theorem completes_bind (first : Stable f) (rest : ∀ value, Stable (g value)) :
    Completes (fun fuel => f fuel >>= fun value => g value fuel) ↔
      Completes f ∧ ∀ value, Returns f value → Completes (g value) := by
  constructor
  · intro ⟨result, returned⟩
    obtain ⟨value, early, late⟩ := (returns_bind first rest).mp returned
    refine ⟨⟨value, early⟩, fun other again => ?_⟩
    rw [again.unique first early]
    exact ⟨result, late⟩
  · intro ⟨⟨value, early⟩, later⟩
    obtain ⟨result, late⟩ := later value early
    exact ⟨result, (returns_bind first rest).mpr ⟨value, early, late⟩⟩

theorem mapM_length {body : α → Except ε β} {items : List α} {results : List β}
    (returned : items.mapM body = .ok results) : results.length = items.length := by
  induction items generalizing results with
  | nil =>
      cases returned
      rfl
  | cons item rest ih =>
      rw [List.mapM_cons] at returned
      obtain ⟨_, _, later⟩ := bind_eq_ok.mp returned
      obtain ⟨others, tail, last⟩ := bind_eq_ok.mp later
      cases last
      rw [List.length_cons, ih tail, List.length_cons]

/-- A second computation that cannot go wrong does not matter. -/
theorem completes_bind_of_completes (first : Stable f) (rest : ∀ value, Stable (g value))
    (certain : ∀ value, Completes (g value)) :
    Completes (fun fuel => f fuel >>= fun value => g value fuel) ↔ Completes f :=
  (completes_bind first rest).trans (and_iff_left fun value _ => certain value)

theorem stable_mapM {body : α → Nat → Except ε β} (each : ∀ item, Stable (body item))
    (items : List α) : Stable fun fuel => items.mapM fun item => body item fuel := by
  induction items with
  | nil => exact stable_const _
  | cons item rest ih =>
      simp only [List.mapM_cons]
      exact (each item).bind fun _ => ih.bind fun _ => stable_const _

theorem returns_mapM {body : α → Nat → Except ε β} (each : ∀ item, Stable (body item)) {items : List α}
    {results : List β} (returned : List.Forall₂ (fun item => Returns (body item)) items results) :
    Returns (fun fuel => items.mapM fun item => body item fuel) results := by
  induction returned with
  | nil => exact ⟨0, rfl⟩
  | @cons item result items results first _ ih =>
      simp only [List.mapM_cons]
      refine (returns_bind (each item) fun _ => (stable_mapM each items).bind fun _ => stable_const _).mpr
        ⟨result, first, ?_⟩
      exact (returns_bind (g := fun results _ => pure (result :: results)) (stable_mapM each items)
        fun _ => stable_const _).mpr ⟨results, ih, 0, rfl⟩

theorem completes_mapM {body : α → Nat → Except ε β} (each : ∀ item, Stable (body item))
    (items : List α) : Completes (fun fuel => items.mapM fun item => body item fuel) ↔
      ∀ item ∈ items, Completes (body item) := by
  induction items with
  | nil => exact iff_of_true ⟨[], 0, rfl⟩ (by simp)
  | cons item rest ih =>
      simp only [List.mapM_cons, List.forall_mem_cons]
      rw [completes_bind (each item) fun _ => (stable_mapM each rest).bind fun _ => stable_const _,
        ← ih]
      refine and_congr_right fun ⟨value, returned⟩ => ?_
      have tail := fun item => completes_bind_of_completes (g := fun items _ => pure (item :: items))
        (stable_mapM each rest) (fun _ => stable_const _) (fun _ => completes_pure _)
      exact ⟨fun later => (tail value).mp (later value returned),
        fun completes item _ => (tail item).mpr completes⟩

end ExaProxy.Data
