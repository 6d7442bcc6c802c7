import ExaProxy.Network.Pollers

namespace ExaProxy.Network

variable {ν : Type}

/-- The pollers fit together: the same names are set up, and what each of them keeps is as
its own calls leave it. -/
structure Pollers.Sound (fileno : Sock → Nat) (pollers : Pollers ν) : Prop where
  tables : ∀ name, (pollers.epoll.sockets name).isSome ↔
    ∃ direction, (pollers.select.sockets direction name).isSome
  shown : ∀ name table, pollers.epoll.sockets name = some table → table.Shows fileno (pollers.epoll.interest name)
  distinct : ∀ direction name sockets, pollers.select.sockets direction name = some sockets → sockets.Nodup

namespace Pollers

variable {fileno : Sock → Nat} {pollers : Pollers ν} {action : Action} {direction : Direction} {name other : ν}
  {sock member : Sock}

theorem Sound.watches_iff (sound : pollers.Sound fileno) (injective : Function.Injective fileno) :
    pollers.epoll.Watches fileno name sock ↔ pollers.epoll.interest name sock = .watched := by
  cases found : pollers.epoll.sockets name with
  | none => simp [EPoller.Watches, EPoller.interest, found]
  | some table =>
      simp only [EPoller.Watches, found, Option.some.injEq, exists_eq_left']
      exact (sound.shown name table found).registered_iff injective

theorem Sound.reports (sound : pollers.Sound fileno) : pollers.epoll.Reports fileno := by
  intro name table found fd registered
  have shown := sound.shown name table found
  obtain ⟨sock, watched, same⟩ := (shown.registered fd).mp registered
  have known : pollers.epoll.interest name sock ≠ .absent := by simp [watched]
  exact ⟨sock, (shown.known sock).mpr known, same, same ▸ shown.reported sock known⟩

theorem Sound.start : Sound fileno ({} : Pollers ν) where
  tables := fun name => by simp
  shown := fun _ _ found => nomatch found
  distinct := fun _ _ _ found => nomatch found

theorem other_ne (direction : Direction) : direction.other ≠ direction := by
  cases direction <;> decide

theorem watches_directions {select : SelectPoller ν} (direction : Direction) : select.Watches name sock ↔
    select.Holds direction name sock ∨ select.Holds direction.other name sock := by
  constructor
  · intro ⟨way, held⟩
    cases direction <;> cases way <;> simp [held, Direction.other]
  · rintro (held | held)
    · exact ⟨_, held⟩
    · exact ⟨_, held⟩

theorem holds_isSome (held : pollers.select.Holds direction name sock) :
    (pollers.select.sockets direction name).isSome := by
  obtain ⟨sockets, found, _⟩ := held
  simp [found]

theorem Sound.set_up_iff (sound : pollers.Sound fileno) (direction : Direction) :
    (pollers.epoll.sockets name).isSome ↔ (pollers.select.sockets direction name).isSome ∨
      (pollers.select.sockets direction.other name).isSome := by
  rw [sound.tables]
  constructor
  · intro ⟨way, found⟩
    cases direction <;> cases way <;> simp [found, Direction.other]
  · rintro (found | found)
    · exact ⟨_, found⟩
    · exact ⟨_, found⟩

theorem interest_absent (absent : ¬ (pollers.epoll.sockets name).isSome) :
    pollers.epoll.interest name sock = .absent := by
  have none : pollers.epoll.sockets name = none := by simpa using absent
  simp [EPoller.interest, none]

theorem Sound.alike_iff (sound : pollers.Sound fileno) (injective : Function.Injective fileno) :
    pollers.Alike fileno ↔ ∀ name sock, pollers.epoll.interest name sock = .watched ↔
      pollers.select.Watches name sock := by
  simp only [Alike, sound.reports, and_true, sound.watches_iff injective]

variable [DecidableEq ν]

theorem select_sockets_act : (pollers.select.next (.act action direction name sock)).sockets =
    fun way other => if way = direction ∧ other = name then
      (pollers.select.sockets direction name).map fun sockets => SelectPoller.change sockets sock action
    else pollers.select.sockets way other := by
  funext way other
  cases found : pollers.select.sockets direction name with
  | none =>
      simp only [SelectPoller.next, SelectPoller.operate, found, Option.map_none, Option.getD_none]
      split
      · next same =>
          obtain ⟨rfl, rfl⟩ := same
          exact found
      · rfl
  | some sockets =>
      simp only [SelectPoller.next, SelectPoller.operate, found, Option.map_some, Option.getD_some,
        SelectPoller.put]
      grind

/-- Whether a socket is watched after the call. -/
def starts : Action → Bool
  | .add | .uncork => true
  | .remove | .cork => false

theorem mem_change {sockets : List Sock} (distinct : sockets.Nodup) :
    member ∈ SelectPoller.change sockets sock action ↔
      if member = sock then starts action = true else member ∈ sockets := by
  cases action with
  | add | uncork =>
      simp only [SelectPoller.change, starts]
      grind
  | remove | cork =>
      simp only [SelectPoller.change, starts, distinct.mem_erase_iff]
      grind

theorem change_nodup {sockets : List Sock} (distinct : sockets.Nodup) :
    (SelectPoller.change sockets sock action).Nodup := by
  cases action with
  | add | uncork =>
      simp only [SelectPoller.change]
      split
      · exact distinct
      · next absent => exact List.nodup_append.mpr ⟨distinct, by simp, by grind⟩
  | remove | cork => exact distinct.erase sock

theorem Sound.holds_act (sound : pollers.Sound fileno) {way : Direction} :
    (pollers.select.next (.act action direction name sock)).Holds way other member ↔
      if way = direction ∧ other = name ∧ member = sock ∧ (pollers.select.sockets direction name).isSome then
        starts action = true
      else pollers.select.Holds way other member := by
  rw [SelectPoller.Holds, SelectPoller.Holds, select_sockets_act]
  by_cases here : way = direction ∧ other = name
  · obtain ⟨rfl, rfl⟩ := here
    cases found : pollers.select.sockets way other with
    | none => simp
    | some sockets =>
        simp only [found, and_self, if_true, Option.map_some, Option.some.injEq, exists_eq_left', Option.isSome_some,
          and_true, true_and, mem_change (sound.distinct way other sockets found)]
  · have elsewhere : ¬ (way = direction ∧ other = name ∧ member = sock ∧
        (pollers.select.sockets direction name).isSome = true) := fun same => here ⟨same.1, same.2.1⟩
    simp only [if_neg here, if_neg elsewhere]

theorem Sound.interest_act (sound : pollers.Sound fileno) (injective : Function.Injective fileno) :
    (pollers.epoll.next fileno (.act action direction name sock)).interest other member =
      if other = name ∧ member = sock ∧ (pollers.epoll.sockets name).isSome then
        action.effect (pollers.epoll.interest name sock)
      else pollers.epoll.interest other member := by
  cases found : pollers.epoll.sockets name with
  | none => simp [EPoller.next, EPoller.operate, found]
  | some table =>
      obtain ⟨after, acted, shown⟩ := (sound.shown name table found).act injective action direction sock
      simp only [EPoller.next, EPoller.operate, found, acted, Option.bind_eq_bind, Option.bind_some, Option.pure_def,
        Option.getD_some, Option.isSome_some, and_true]
      by_cases here : other = name
      · subst here
        simp only [EPoller.interest, Function.update_self, Option.elim_some, true_and, shown.interest,
          Function.update_apply, found]
      · simp [EPoller.interest, here]

/-- What `Poller` does to a socket. -/
def onPoller (poller : Poller ν) (name : ν) (sock : Sock) : Action → Poller ν
  | .add => poller.add name sock
  | .remove => poller.remove name sock
  | .cork => poller.cork name sock
  | .uncork => poller.uncork name sock

/-- Under a name that is set up `EPoller` does what `Poller` does. -/
theorem Sound.refines (sound : pollers.Sound fileno) (injective : Function.Injective fileno)
    (found : (pollers.epoll.sockets name).isSome) :
    Poller.mk (pollers.epoll.next fileno (.act action direction name sock)).interest =
      onPoller ⟨pollers.epoll.interest⟩ name sock action := by
  have same (other : ν) (member : Sock) : (onPoller ⟨pollers.epoll.interest⟩ name sock action).interest other member =
      if other = name ∧ member = sock then action.effect (pollers.epoll.interest name sock)
      else pollers.epoll.interest other member := by
    cases action with
    | add =>
        rw [onPoller, Poller.interest_add]
        cases interest : pollers.epoll.interest name sock <;> simp only [interest, Action.effect] <;> grind
    | remove => rw [onPoller, Poller.interest_remove, Action.effect]
    | cork =>
        rw [onPoller, Poller.interest_cork]
        cases interest : pollers.epoll.interest name sock <;> simp only [interest, Action.effect] <;> grind
    | uncork =>
        rw [onPoller, Poller.interest_uncork]
        cases interest : pollers.epoll.interest name sock <;> simp only [interest, Action.effect] <;> grind
  have interests : (pollers.epoll.next fileno (.act action direction name sock)).interest =
      (onPoller ⟨pollers.epoll.interest⟩ name sock action).interest := by
    funext other member
    rw [same, sound.interest_act injective]
    simp only [found, and_true]
  rw [interests]

theorem epoll_sockets_act (sound : pollers.Sound fileno) (injective : Function.Injective fileno) :
    ((pollers.epoll.next fileno (.act action direction name sock)).sockets other).isSome ↔
      (pollers.epoll.sockets other).isSome := by
  cases found : pollers.epoll.sockets name with
  | none => simp [EPoller.next, EPoller.operate, found]
  | some table =>
      obtain ⟨after, acted, _⟩ := (sound.shown name table found).act injective action direction sock
      simp only [EPoller.next, EPoller.operate, found, acted, Option.bind_eq_bind, Option.bind_some, Option.pure_def,
        Option.getD_some, Function.update_apply]
      grind

theorem Sound.act (sound : pollers.Sound fileno) (injective : Function.Injective fileno) :
    (pollers.next fileno (.act action direction name sock)).Sound fileno where
  tables := by
    intro other
    rw [next, epoll_sockets_act sound injective, sound.tables, select_sockets_act]
    refine exists_congr fun way => ?_
    beta_reduce
    split
    · next here => simp [here.1, here.2]
    · rfl
  shown := by
    intro other table found
    cases listed : pollers.epoll.sockets name with
    | none =>
        have kept : pollers.epoll.next fileno (.act action direction name sock) = pollers.epoll := by
          simp [EPoller.next, EPoller.operate, listed]
        simp only [next, kept] at found ⊢
        exact sound.shown other table found
    | some before =>
        obtain ⟨after, acted, shown⟩ := (sound.shown name before listed).act injective action direction sock
        have changed : pollers.epoll.next fileno (.act action direction name sock) =
            { sockets := Function.update pollers.epoll.sockets name (some after) } := by
          simp [EPoller.next, EPoller.operate, listed, acted]
        simp only [next, changed] at found ⊢
        by_cases here : other = name
        · subst here
          rw [Function.update_self] at found
          cases found
          convert shown using 1
          funext member
          simp only [EPoller.interest, Function.update_self, Option.elim_some]
          exact shown.interest member
        · rw [Function.update_of_ne here] at found
          convert sound.shown other table found using 1
          funext member
          simp [EPoller.interest, here]
  distinct := by
    intro way other sockets found
    simp only [next, select_sockets_act] at found
    split at found
    · obtain ⟨before, listed, rfl⟩ := Option.map_eq_some_iff.mp found
      exact change_nodup (sound.distinct direction name before listed)
    · exact sound.distinct way other sockets found

theorem setup_interest : (pollers.epoll.next fileno (.setup direction name)).interest other =
    pollers.epoll.interest other := by
  funext member
  cases found : pollers.epoll.sockets name with
  | some table => simp [EPoller.next, EPoller.operate, found]
  | none =>
      simp only [EPoller.next, EPoller.operate, found, Option.getD_some, EPoller.interest, Function.update_apply]
      split
      · next same => simp [same, found, Table.interest]
      · rfl

theorem setup_holds {way : Direction} : (pollers.select.next (.setup direction name)).Holds way other sock ↔
    pollers.select.Holds way other sock := by
  cases found : pollers.select.sockets direction name with
  | some sockets => simp [SelectPoller.next, SelectPoller.operate, found]
  | none =>
      simp only [SelectPoller.next, SelectPoller.operate, found, Option.getD_some, SelectPoller.Holds,
        SelectPoller.put]
      grind

theorem Sound.setup (sound : pollers.Sound fileno) : (pollers.next fileno (.setup direction name)).Sound fileno where
  tables := by
    intro other
    have paired := sound.tables other
    have epoll : ((pollers.epoll.next fileno (.setup direction name)).sockets other).isSome ↔
        other = name ∨ (pollers.epoll.sockets other).isSome := by
      cases found : pollers.epoll.sockets name with
      | some table =>
          simp only [EPoller.next, EPoller.operate, found, Option.getD_some]
          grind
      | none =>
          simp only [EPoller.next, EPoller.operate, found, Option.getD_some, Function.update_apply]
          grind
    have select : ∀ way, ((pollers.select.next (.setup direction name)).sockets way other).isSome ↔
        way = direction ∧ other = name ∨ (pollers.select.sockets way other).isSome := by
      intro way
      cases found : pollers.select.sockets direction name with
      | some sockets =>
          simp only [SelectPoller.next, SelectPoller.operate, found, Option.getD_some]
          grind
      | none =>
          simp only [SelectPoller.next, SelectPoller.operate, found, Option.getD_some, SelectPoller.put]
          grind
    simp only [next, epoll, select, paired, exists_or, exists_eq_left]
  shown := by
    intro other table found
    rw [next, setup_interest]
    cases listed : pollers.epoll.sockets name with
    | some before =>
        simp only [next, EPoller.next, EPoller.operate, listed, Option.getD_some] at found
        exact sound.shown other table found
    | none =>
        simp only [next, EPoller.next, EPoller.operate, listed, Option.getD_some, Function.update_apply] at found
        split at found
        · next same =>
            cases found
            subst same
            constructor <;> simp [EPoller.interest, listed]
        · exact sound.shown other table found
  distinct := by
    intro way other sockets found
    cases listed : pollers.select.sockets direction name with
    | some before =>
        simp only [next, SelectPoller.next, SelectPoller.operate, listed, Option.getD_some] at found
        exact sound.distinct way other sockets found
    | none =>
        simp only [next, SelectPoller.next, SelectPoller.operate, listed, Option.getD_some, SelectPoller.put]
          at found
        have before := sound.distinct way other
        grind

theorem Sound.next (sound : pollers.Sound fileno) (injective : Function.Injective fileno) (operation : Operation ν) :
    (pollers.next fileno operation).Sound fileno := by
  cases operation with
  | setup direction name => exact sound.setup
  | act action direction name sock => exact sound.act injective

theorem run_sound (injective : Function.Injective fileno) (operations : List (Operation ν)) :
    (run fileno operations).Sound fileno := by
  induction operations using List.reverseRecOn with
  | nil => exact .start
  | append_singleton earlier operation ih =>
      rw [run, List.foldl_append]
      exact ih.next injective operation

/-- The watched sockets are the same after a call if and only if it fits. -/
theorem act_alike_iff (sound : pollers.Sound fileno) (injective : Function.Injective fileno)
    (alike : pollers.Alike fileno) :
    (pollers.next fileno (.act action direction name sock)).Alike fileno ↔
      pollers.Fits (.act action direction name sock) := by
  rw [sound.alike_iff injective] at alike
  rw [(sound.act injective).alike_iff injective]
  have before := alike name sock
  have setUp : (pollers.epoll.sockets name).isSome ↔ _ := sound.set_up_iff direction
  have here := @holds_isSome _ pollers direction name sock
  have there := @holds_isSome _ pollers direction.other name sock
  have absent := @interest_absent _ pollers name sock
  -- nothing changes but for the one socket under the one name
  have only : (∀ other member, (pollers.next fileno (.act action direction name sock)).epoll.interest other member =
        .watched ↔ (pollers.next fileno (.act action direction name sock)).select.Watches other member) ↔
      ((if (pollers.epoll.sockets name).isSome then action.effect (pollers.epoll.interest name sock)
        else pollers.epoll.interest name sock) = .watched ↔
        ((if (pollers.select.sockets direction name).isSome then starts action = true
          else pollers.select.Holds direction name sock) ∨ pollers.select.Holds direction.other name sock)) := by
    simp only [next, sound.interest_act injective, watches_directions direction, sound.holds_act]
    constructor
    · intro same
      simpa [other_ne] using same name sock
    · intro same other member
      by_cases equal : other = name ∧ member = sock
      · obtain ⟨rfl, rfl⟩ := equal
        simpa [other_ne] using same
      · have elsewhere := alike other member
        rw [watches_directions direction] at elsewhere
        grind
  rw [only]
  rw [watches_directions direction] at before
  cases action <;> cases interest : pollers.epoll.interest name sock <;>
    simp only [Fits, Action.effect, starts, interest] at * <;> grind

theorem next_alike_iff (sound : pollers.Sound fileno) (injective : Function.Injective fileno)
    (alike : pollers.Alike fileno) (operation : Operation ν) :
    (pollers.next fileno operation).Alike fileno ↔ pollers.Fits operation := by
  cases operation with
  | setup direction name =>
      refine iff_of_true ?_ trivial
      rw [sound.alike_iff injective] at alike
      rw [sound.setup.alike_iff injective]
      intro other sock
      simp only [next, setup_interest, SelectPoller.Watches, setup_holds]
      exact alike other sock
  | act action direction name sock => exact act_alike_iff sound injective alike

theorem run_append (operations : List (Operation ν)) (operation : Operation ν) :
    run fileno (operations ++ [operation]) = (run fileno operations).next fileno operation := by
  simp [run]

/-- The pollers watch the same sockets throughout a run if and only if each call of it fits. -/
theorem pollers_alike_iff (injective : Function.Injective fileno) (operations : List (Operation ν)) :
    (∀ earlier, earlier <+: operations → (run fileno earlier).Alike fileno) ↔
      ∀ earlier operation, earlier ++ [operation] <+: operations → (run fileno earlier).Fits operation := by
  induction operations using List.reverseRecOn with
  | nil =>
      refine iff_of_true (fun earlier empty => ?_) fun earlier operation empty => by simp at empty
      rw [List.prefix_nil.mp empty, (run_sound injective []).alike_iff injective]
      intro name sock
      simp [run, EPoller.interest, SelectPoller.Watches, SelectPoller.Holds]
  | append_singleton earlier operation ih =>
      simp only [List.prefix_concat_iff, forall_eq_or_imp]
      have sound := run_sound injective earlier
      constructor
      · intro ⟨last, all⟩ before called same
        have alike := all earlier List.prefix_rfl
        rw [run_append, next_alike_iff sound injective alike] at last
        rcases same with whole | inside
        · obtain ⟨rfl, same⟩ := List.append_inj' whole rfl
          cases same
          exact last
        · exact ih.mp all before called inside
      · intro fits
        have all := ih.mpr fun before called inside => fits before called (.inr inside)
        refine ⟨?_, all⟩
        rw [run_append, next_alike_iff sound injective (all earlier List.prefix_rfl)]
        exact fits earlier operation (.inl rfl)

/-- A connection that is corked and read again, and then closed. -/
def corkedRun : List (Operation Unit) :=
  [.setup .read (), .act .add .read () 3, .act .cork .read () 3, .act .uncork .read () 3, .act .remove .read () 3]

theorem pollers_alike_corked :
    (∀ earlier, earlier <+: corkedRun → (run id earlier).Alike id) ↔
      ∀ earlier operation, earlier ++ [operation] <+: corkedRun → (run id earlier).Fits operation :=
  pollers_alike_iff Function.injective_id corkedRun

/-- What is uncorked after it was removed is watched by `SelectPoller` alone. -/
theorem pollers_differ : ¬ ∀ operations : List (Operation Unit), ∀ earlier, earlier <+: operations →
    (run id earlier).Alike id := by
  intro alike
  let operations : List (Operation Unit) :=
    [.setup .read (), .act .add .read () 3, .act .remove .read () 3, .act .uncork .read () 3]
  have watched : (run id operations).select.Watches () 3 := ⟨.read, [3], rfl, by decide⟩
  have same := alike operations operations List.prefix_rfl
  rw [(run_sound Function.injective_id operations).alike_iff Function.injective_id] at same
  have absent : (run id operations).epoll.interest () 3 = .absent := by decide +kernel
  have both := (same () 3).mpr watched
  rw [absent] at both
  cases both

end Pollers

end ExaProxy.Network
