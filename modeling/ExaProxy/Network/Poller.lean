import Mathlib.Logic.Function.Basic

namespace ExaProxy.Network

/-! The poller, as the managers of clients and downloads use it.  `EPoller` keeps
for every name the sockets it knows and those of them that are corked: under each
name a socket is absent, watched or corked. -/

abbrev Sock := Nat

inductive Interest where
  | absent | watched | corked
deriving DecidableEq, Repr

structure Poller (ν : Type) where
  interest : ν → Sock → Interest := fun _ _ => .absent

namespace Poller

variable {ν : Type} [DecidableEq ν] (poller : Poller ν) (name other : ν) (sock member : Sock)

def put (interest : Interest) : Poller ν where
  interest other member :=
    if other = name ∧ member = sock then interest else poller.interest other member

/-- `addReadSocket` and `addWriteSocket` -/
def add : Poller ν :=
  if poller.interest name sock = .absent then poller.put name sock .watched else poller

/-- `removeReadSocket` and `removeWriteSocket` -/
def remove : Poller ν := poller.put name sock .absent

/-- `corkReadSocket` -/
def cork : Poller ν :=
  if poller.interest name sock = .watched then poller.put name sock .corked else poller

/-- `uncorkReadSocket` -/
def uncork : Poller ν :=
  if poller.interest name sock = .corked then poller.put name sock .watched else poller

theorem interest_put (interest : Interest) : (poller.put name sock interest).interest other member =
    if other = name ∧ member = sock then interest else poller.interest other member := rfl

theorem interest_remove : (poller.remove name sock).interest other member =
    if other = name ∧ member = sock then .absent else poller.interest other member := rfl

theorem interest_add : (poller.add name sock).interest other member =
    if other = name ∧ member = sock ∧ poller.interest name sock = .absent then .watched
    else poller.interest other member := by
  unfold add
  by_cases absent : poller.interest name sock = .absent
  · simp only [absent, if_true, interest_put, and_true]
  · simp only [absent, if_false, and_false]

theorem interest_cork : (poller.cork name sock).interest other member =
    if other = name ∧ member = sock ∧ poller.interest name sock = .watched then .corked
    else poller.interest other member := by
  unfold cork
  by_cases watched : poller.interest name sock = .watched
  · simp only [watched, if_true, interest_put, and_true]
  · simp only [watched, if_false, and_false]

theorem interest_uncork : (poller.uncork name sock).interest other member =
    if other = name ∧ member = sock ∧ poller.interest name sock = .corked then .watched
    else poller.interest other member := by
  unfold uncork
  by_cases corked : poller.interest name sock = .corked
  · simp only [corked, if_true, interest_put, and_true]
  · simp only [corked, if_false, and_false]

theorem cork_unwatched : (poller.cork name sock).interest name sock ≠ .watched := by
  rw [interest_cork]
  split
  · simp
  · next kept => simpa using kept

theorem cork_known : (poller.cork name sock).interest other member = .absent ↔
    poller.interest other member = .absent := by
  rw [interest_cork]
  split
  · next changed =>
      obtain ⟨rfl, rfl, watched⟩ := changed
      simp [watched]
  · rfl

theorem uncork_known : (poller.uncork name sock).interest other member = .absent ↔
    poller.interest other member = .absent := by
  rw [interest_uncork]
  split
  · next changed =>
      obtain ⟨rfl, rfl, corked⟩ := changed
      simp [corked]
  · rfl

theorem add_known : (poller.add name sock).interest other member = .absent ↔
    poller.interest other member = .absent ∧ ¬ (other = name ∧ member = sock) := by
  rw [interest_add]
  by_cases same : other = name ∧ member = sock
  · obtain ⟨rfl, rfl⟩ := same
    by_cases absent : poller.interest other member = .absent <;> simp [absent]
  · simp only [same, not_false_eq_true, and_true, ← and_assoc, false_and, if_false]

theorem remove_known : (poller.remove name sock).interest other member = .absent ↔
    poller.interest other member = .absent ∨ (other = name ∧ member = sock) := by
  rw [interest_remove]
  split
  · next same => simp [same]
  · next different => simp [different]

end Poller

end ExaProxy.Network
