import ExaProxy.Data.Transition
import Mathlib.Data.List.Basic

namespace ExaProxy.Data

variable {α κ : Type*}

/-- What was given and what was taken, with what waits while the outlet is open. -/
structure Outlet (α : Type*) where
  given : List α := []
  taken : List α := []
  buffer : Option (List α) := none

namespace Outlet

/-- Data is added and some is taken; what waits where the outlet closes is lost. -/
inductive Step : Outlet α → Outlet α → Prop
  | opened : Step {} ⟨[], [], some []⟩
  | moved {given taken buffer : List α} (data part rest : List α)
      (conserved : part ++ rest = buffer ++ data) :
      Step ⟨given, taken, some buffer⟩ ⟨given ++ data, taken ++ part, some rest⟩
  | closed {given taken buffer : List α} (data part : List α) (conserved : part <+: buffer ++ data) :
      Step ⟨given, taken, some buffer⟩ ⟨given ++ data, taken ++ part, none⟩

/-- What was taken comes first, and is all that does not wait. -/
structure Sound (outlet : Outlet α) : Prop where
  first : outlet.taken <+: outlet.given
  waits : ∀ buffer, outlet.buffer = some buffer → outlet.taken ++ buffer = outlet.given

variable {before after outlet : Outlet α}

theorem Step.sound (step : Step before after) (sound : before.Sound) : after.Sound := by
  cases step with
  | opened => exact ⟨List.prefix_refl _, fun buffer opened => by cases opened; rfl⟩
  | @moved given taken buffer data part rest conserved =>
      have waited : taken ++ buffer = given := sound.waits buffer rfl
      have whole : taken ++ part ++ rest = given ++ data := by
        rw [List.append_assoc, conserved, ← List.append_assoc, waited]
      constructor
      · exact ⟨rest, whole⟩
      · intro other same
        cases same
        exact whole
  | @closed given taken buffer data part conserved =>
      obtain ⟨rest, same⟩ := conserved
      have waited : taken ++ buffer = given := sound.waits buffer rfl
      constructor
      · refine ⟨rest, ?_⟩
        change taken ++ part ++ rest = given ++ data
        rw [List.append_assoc, same, ← List.append_assoc, waited]
      · intro other opened
        cases opened

theorem sound (run : Reachable (· = {}) Step outlet) : outlet.Sound := by
  apply run.invariant Sound
  · intro start initial
    subst initial
    exact ⟨List.prefix_refl _, fun buffer none => by cases none⟩
  · intro _ _ _ sound step
    exact step.sound sound

end Outlet

/-! ### Logs of data for several readers -/

section
variable [DecidableEq κ] {key other : κ} {log : List (κ × List α)} {entry : Option (κ × List α)}
  {data : List α}

/-- The data for one reader, in order. -/
def dataFor (key : κ) (log : List (κ × List α)) : List α :=
  (log.filter fun entry => entry.1 = key).flatMap Prod.snd

@[simp] theorem dataFor_nil : dataFor key ([] : List (κ × List α)) = [] := rfl

@[simp] theorem dataFor_append (first second : List (κ × List α)) :
    dataFor key (first ++ second) = dataFor key first ++ dataFor key second := by
  simp [dataFor]

@[simp] theorem dataFor_own : dataFor key [(key, data)] = data := by simp [dataFor]

theorem dataFor_other (different : other ≠ key) : dataFor key [(other, data)] = [] := by
  simp [dataFor, different]

/-- An entry with this data for a reader, or none where there is no data. -/
def Logged (entry : Option (κ × List α)) (key : κ) (data : List α) : Prop :=
  entry = some (key, data) ∨ entry = none ∧ data = []

theorem Logged.own (entered : Logged entry key data) : dataFor key entry.toList = data := by
  obtain rfl | ⟨rfl, rfl⟩ := entered
  · exact dataFor_own
  · rfl

theorem Logged.elsewhere (entered : Logged entry key data) (different : other ≠ key) :
    dataFor other entry.toList = [] := by
  obtain rfl | ⟨rfl, rfl⟩ := entered
  · exact dataFor_other (Ne.symm different)
  · rfl

end

end ExaProxy.Data
