import ExaProxy.Client.Operations

namespace ExaProxy.Client.ClientManager

open ExaProxy.Data ExaProxy.Network

variable {ρ : Type} {readers : Readers ρ} {manager before after : ClientManager ρ} {sock other : Sock}
  {source : Source}

/-- The server that a socket's client came from. -/
def sourceOf (manager : ClientManager ρ) (sock : Sock) : Option Source :=
  ((manager.served sock).or (manager.waiting sock)).map Identity.source

/-- The sockets in the two dictionaries whose clients came from a server. -/
def held (manager : ClientManager ρ) (source : Source) : Finset Sock :=
  (manager.norequest.keys ++ manager.bysock.keys).toFinset.filter fun sock =>
    manager.sourceOf sock = some source

/-- No socket is in both dictionaries, nor in one of them before it is accepted. -/
structure Distinct (manager : ClientManager ρ) : Prop where
  apart : ∀ sock, manager.waiting sock ≠ none → manager.served sock = none
  fresh : ∀ sock, manager.sockets ≤ sock → manager.served sock = none ∧ manager.waiting sock = none

theorem mem_held : sock ∈ manager.held source ↔ manager.sourceOf sock = some source := by
  simp only [held, Finset.mem_filter, List.mem_toFinset, List.mem_append, and_iff_right_iff_imp]
  intro same
  by_contra absent
  rw [not_or] at absent
  have unknown : manager.sourceOf sock = none := by
    simp only [sourceOf, served, waiting, AList.lookup_eq_none.mpr absent.1,
      AList.lookup_eq_none.mpr absent.2, Option.map_none, Option.none_or]
  rw [unknown] at same
  cases same

theorem sourceOf_served {identity : Identity} (served : manager.served sock = some identity) :
    manager.sourceOf sock = some identity.source := by
  rw [sourceOf, served]
  rfl

theorem sourceOf_waiting (distinct : manager.Distinct) {identity : Identity}
    (waiting : manager.waiting sock = some identity) : manager.sourceOf sock = some identity.source := by
  rw [sourceOf, distinct.apart sock (by rw [waiting]; simp), waiting]
  rfl

theorem held_congr (same : after.sourceOf = before.sourceOf) : after.held = before.held := by
  funext source
  ext sock
  rw [mem_held, mem_held, same]

theorem Alike.sourceOf (alike : Alike before after) : after.sourceOf = before.sourceOf := by
  funext sock
  simp only [ClientManager.sourceOf, alike.served, alike.waiting]

theorem Alike.distinct (alike : Alike before after) (distinct : before.Distinct) :
    after.Distinct where
  apart := by
    rw [alike.served, alike.waiting]
    exact distinct.apart
  fresh := by
    rw [alike.served, alike.waiting, alike.sockets]
    exact distinct.fresh

theorem Dropped.sourceOf (dropped : Dropped sock before after) :
    after.sourceOf = Function.update before.sourceOf sock none := by
  funext other
  simp only [ClientManager.sourceOf, dropped.served, dropped.waiting, Function.update_apply]
  split <;> simp

theorem Dropped.distinct (dropped : Dropped sock before after) (distinct : before.Distinct) :
    after.Distinct where
  apart := by
    intro other
    rw [dropped.served, dropped.waiting, Function.update_apply, Function.update_apply]
    split
    · exact fun _ => rfl
    · exact distinct.apart other
  fresh := by
    intro other accepted
    rw [dropped.sockets] at accepted
    rw [dropped.served, dropped.waiting, Function.update_apply, Function.update_apply]
    split
    · exact ⟨rfl, rfl⟩
    · exact distinct.fresh other accepted

theorem Dropped.held (dropped : Dropped sock before after) :
    after.held source = (before.held source).erase sock := by
  ext other
  rw [mem_held, Finset.mem_erase, mem_held, dropped.sourceOf, Function.update_apply]
  by_cases same : other = sock <;> simp [same]

theorem Promoted.sourceOf (promoted : Promoted sock before after) (distinct : before.Distinct)
    (waits : before.waiting sock ≠ none) : after.sourceOf = before.sourceOf := by
  funext other
  simp only [ClientManager.sourceOf, promoted.served, promoted.waiting, Function.update_apply]
  split
  · next same =>
      subst same
      rw [distinct.apart other waits, Option.or_none, Option.none_or]
  · rfl

theorem Promoted.distinct (promoted : Promoted sock before after) (distinct : before.Distinct) :
    after.Distinct where
  apart := by
    intro other
    rw [promoted.served, promoted.waiting, Function.update_apply, Function.update_apply]
    split
    · exact fun absent => absurd rfl absent
    · exact distinct.apart other
  fresh := by
    intro other accepted
    rw [promoted.sockets] at accepted
    rw [promoted.served, promoted.waiting, Function.update_apply, Function.update_apply]
    split
    · next same =>
        subst same
        exact ⟨(distinct.fresh other accepted).2, rfl⟩
    · exact distinct.fresh other accepted

/-- A client that has just connected. -/
structure Connects (source : Source) (before after : ClientManager ρ) : Prop where
  sourceOf : after.sourceOf = Function.update before.sourceOf before.sockets (some source)
  served : ∀ sock, sock ≠ before.sockets → after.served sock = before.served sock
  distinct : after.Distinct

theorem connection_connects (distinct : manager.Distinct) :
    Connects source manager (manager.connection readers source) := by
  have served : (manager.connection readers source).served = manager.served := rfl
  have waiting : (manager.connection readers source).waiting =
      Function.update manager.waiting manager.sockets (some ⟨manager.nextid + 1, source⟩) :=
    lookup_insert_map
  have free := distinct.fresh manager.sockets (Nat.le_refl _)
  exact {
    sourceOf := by
      funext other
      simp only [ClientManager.sourceOf, served, waiting, Function.update_apply]
      split
      · next same =>
          subst same
          rw [free.1]
          rfl
      · rfl
    served := fun sock different => rfl
    distinct := {
      apart := by
        intro other
        rw [served, waiting, Function.update_apply]
        split
        · next same => exact fun _ => same ▸ free.1
        · exact distinct.apart other
      fresh := by
        intro other accepted
        have older : manager.sockets < other := accepted
        rw [served, waiting, Function.update_of_ne (Nat.ne_of_gt older)]
        exact distinct.fresh other (Nat.le_of_lt older) } }

theorem passthroughConnection_connects (distinct : manager.Distinct) :
    Connects .passthrough manager (manager.passthroughConnection readers).1 := by
  have served : (manager.passthroughConnection readers).1.served =
      Function.update manager.served manager.sockets (some ⟨manager.nextid + 1, .passthrough⟩) :=
    lookup_insert_map
  have waiting : (manager.passthroughConnection readers).1.waiting = manager.waiting := rfl
  have free := distinct.fresh manager.sockets (Nat.le_refl _)
  exact {
    sourceOf := by
      funext other
      simp only [ClientManager.sourceOf, served, waiting, Function.update_apply]
      split <;> rfl
    served := fun sock different => by rw [served, Function.update_of_ne different]
    distinct := {
      apart := by
        intro other
        rw [served, waiting, Function.update_apply]
        split
        · next same => exact fun waits => absurd (same ▸ free.2) waits
        · exact distinct.apart other
      fresh := by
        intro other accepted
        have older : manager.sockets < other := accepted
        rw [served, waiting, Function.update_of_ne (Nat.ne_of_gt older)]
        exact distinct.fresh other (Nat.le_of_lt older) } }

theorem Connects.held (connects : Connects source before after) (distinct : before.Distinct)
    (other : Source) : (after.held other).card =
      (before.held other).card + if other = source then 1 else 0 := by
  have free : before.sourceOf before.sockets = none := by
    have fresh := distinct.fresh before.sockets (Nat.le_refl _)
    simp only [ClientManager.sourceOf, fresh.1, fresh.2, Option.none_or, Option.map_none]
  by_cases same : other = source
  · have grown : after.held other = insert before.sockets (before.held other) := by
      ext sock
      rw [mem_held, Finset.mem_insert, mem_held, connects.sourceOf, Function.update_apply]
      by_cases new : sock = before.sockets <;> simp [new, same]
    rw [grown, Finset.card_insert_of_notMem (by rw [mem_held, free]; simp), if_pos same]
  · have kept : after.held other = before.held other := by
      ext sock
      rw [mem_held, mem_held, connects.sourceOf, Function.update_apply]
      by_cases new : sock = before.sockets
      · subst new
        simp [free, Ne.symm same]
      · simp [new]
    rw [kept, if_neg same, Nat.add_zero]

end ExaProxy.Client.ClientManager
