import Mathlib.Data.List.Induction
import Mathlib.Data.List.Nodup
import Mathlib.Order.Lattice

namespace ExaProxy.Data

/-! Items in buckets, each with a time.  An item is put in the last bucket, or in a new one
behind it; buckets are taken from the front. -/

variable {τ κ : Type*}

namespace Buckets

/-- All items, in the order in which they were put in. -/
def items (buckets : List (τ × List κ)) : List κ := buckets.flatMap Prod.snd

/-- The item is in the bucket of the time. -/
def Holds (buckets : List (τ × List κ)) (time : τ) (item : κ) : Prop :=
  ∃ held, (time, held) ∈ buckets ∧ item ∈ held

variable {buckets : List (τ × List κ)} {time other latest : τ} {item member : κ} {held : List κ}

variable [LinearOrder τ]

def put (time : τ) (item : κ) (buckets : List (τ × List κ)) : List (τ × List κ) :=
  match buckets.getLast? with
  | some (latest, held) =>
      if time > latest then buckets ++ [(time, [item])] else buckets.dropLast ++ [(latest, held ++ [item])]
  | none => buckets ++ [(time, [item])]

/-- The times of the buckets ascend. -/
def Ascending (buckets : List (τ × List κ)) : Prop := (buckets.map Prod.fst).Pairwise (· < ·)

/-- No bucket is later than the time. -/
def Until (buckets : List (τ × List κ)) (time : τ) : Prop := ∀ bucket ∈ buckets, bucket.1 ≤ time

theorem put_concat : put time item (buckets ++ [(latest, held)]) =
    if time > latest then buckets ++ [(latest, held)] ++ [(time, [item])]
    else buckets ++ [(latest, held ++ [item])] := by
  simp [put]

theorem items_put (time : τ) (item : κ) (buckets : List (τ × List κ)) :
    items (put time item buckets) = items buckets ++ [item] := by
  induction buckets using List.reverseRecOn with
  | nil => rfl
  | append_singleton buckets bucket _ =>
      obtain ⟨latest, held⟩ := bucket
      rw [put_concat]
      split <;> simp [items]

theorem Ascending.put (ascending : Ascending buckets) (time : τ) (item : κ) :
    Ascending (Buckets.put time item buckets) := by
  induction buckets using List.reverseRecOn with
  | nil => simp [Ascending, Buckets.put]
  | append_singleton buckets bucket _ =>
      obtain ⟨latest, held⟩ := bucket
      have before := ascending
      simp only [Ascending, List.map_append, List.map_cons, List.map_nil, List.pairwise_append, List.mem_singleton,
        forall_eq] at before
      rw [put_concat]
      split
      · next later =>
          simp only [Ascending, List.map_append, List.map_cons, List.map_nil, List.pairwise_append,
            List.mem_singleton, forall_eq, List.mem_append]
          refine ⟨before, List.pairwise_singleton _ _, ?_⟩
          rintro earlier (member | rfl)
          · exact (before.2.2 earlier member).trans later
          · exact later
      · simpa only [Ascending, List.map_append, List.map_cons, List.map_nil] using ascending

/-- What is put in at a time that no bucket is later than is in the bucket of that time, and
nothing else changes. -/
theorem holds_put (bounded : Until buckets time) : Holds (put time item buckets) other member ↔
    Holds buckets other member ∨ other = time ∧ member = item := by
  induction buckets using List.reverseRecOn with
  | nil => simp [Holds, put]
  | append_singleton buckets bucket _ =>
      obtain ⟨latest, held⟩ := bucket
      have last : latest ≤ time := bounded (latest, held) (by simp)
      rw [put_concat]
      split
      · simp only [Holds, List.mem_append, List.mem_singleton, Prod.mk.injEq]
        grind
      · next together =>
          have same : time = latest := le_antisymm (not_lt.mp together) last
          subst same
          simp only [Holds, List.mem_append, List.mem_singleton, Prod.mk.injEq]
          grind

theorem Until.put (bounded : Until buckets time) (item : κ) : Until (Buckets.put time item buckets) time := by
  intro bucket listed
  induction buckets using List.reverseRecOn with
  | nil =>
      obtain rfl := List.mem_singleton.mp listed
      exact le_refl time
  | append_singleton buckets last _ =>
      obtain ⟨latest, held⟩ := last
      rw [put_concat] at listed
      split at listed
      · rcases List.mem_append.mp listed with before | here
        · exact bounded bucket before
        · obtain rfl := List.mem_singleton.mp here
          exact le_refl time
      · rcases List.mem_append.mp listed with before | here
        · exact bounded bucket (List.mem_append_left _ before)
        · obtain rfl := List.mem_singleton.mp here
          exact bounded (latest, held) (by simp)

end Buckets

end ExaProxy.Data
