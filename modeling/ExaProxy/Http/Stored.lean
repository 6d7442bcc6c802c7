import ExaProxy.Http.Headers
import Mathlib.Algebra.GroupWithZero.Nat

namespace ExaProxy.Http

open ExaProxy.Data

/-- How many quotes are open or were open in some lines. -/
def quotesOf (lines : List Str) : Nat := (lines.map countQuotes).sum

/-- Empty lines stand in quotes that are still open. -/
def Hidden (lines : List Str) : Prop := ∀ i, lines[i]? = some [] → quotesOf (lines.take i) % 2 = 1

/-- The name of the header that a line starts, if it starts one. -/
def fieldName (line : Str) : Option Str :=
  if Str.isSpace (line.headD 32) then none
  else (Str.splitOnce (ascii ":") line).map fun (name, _) => Str.lower (Str.strip name)

variable {lines : List Str} {line key value other : Str}

theorem fieldName_starts (nonempty : line ≠ []) (unspaced : Str.isSpace (line.headD 0) = false)
    (found : Str.splitOnce (ascii ":") line = some (key, value)) :
    fieldName line = some (Str.lower (Str.strip key)) := by
  cases line with
  | nil => exact absurd rfl nonempty
  | cons byte rest =>
      rw [List.headD_cons] at unspaced
      simp [fieldName, unspaced, found]

theorem quotesOf_append (lines : List Str) (line : Str) :
    quotesOf (lines ++ [line]) = quotesOf lines + countQuotes line := by
  simp [quotesOf]

theorem Hidden.of_filled (filled : ∀ line ∈ lines, line ≠ []) : Hidden lines :=
  fun _ empty => absurd rfl (filled [] (List.mem_of_getElem? empty))

theorem Hidden.append (hidden : Hidden lines) (covered : line = [] → quotesOf lines % 2 = 1) :
    Hidden (lines ++ [line]) := by
  intro i empty
  rcases Nat.lt_trichotomy i lines.length with before | at_end | after
  · rw [List.getElem?_append_left before] at empty
    rw [List.take_append_of_le_length before.le]
    exact hidden i empty
  · subst at_end
    rw [List.getElem?_concat_length] at empty
    rw [List.take_left]
    exact covered (Option.some.inj empty)
  · rw [List.getElem?_eq_none (by simp; omega)] at empty
    cases empty

namespace Headers

variable {headers before after : Headers}

/-- Every name that has lines is printed. -/
def Listed (headers : Headers) : Prop := ∀ key ∈ headers.data, key ∈ headers.order

@[simp] theorem get_store : (headers.store key lines).get other = if other = key then lines else headers.get other := by
  by_cases same : other = key
  · subst same
    simp [get, store]
  · simp [get, store, same]

@[simp] theorem get_enter : (headers.enter key lines).get other = if other = key then lines else headers.get other := by
  unfold enter
  split
  · exact get_store
  · have stored : (headers.store key lines).get other = _ := get_store
    exact stored

theorem order_enter : (headers.enter key lines).order =
    if key ∈ headers.order then headers.order else headers.order ++ [key] := by
  unfold enter
  split <;> rfl

theorem mem_enter : other ∈ (headers.enter key lines).data ↔ other = key ∨ other ∈ headers.data := by
  unfold enter
  split <;> exact AList.mem_insert _

theorem get_absent (absent : key ∉ headers.data) : headers.get key = [] := by
  rw [get, AList.lookup_eq_none.mpr absent]
  rfl

theorem Listed.get_unprinted (listed : headers.Listed) (absent : key ∉ headers.order) :
    headers.get key = [] := get_absent fun member => absent (listed key member)

theorem Listed.enter (listed : headers.Listed) : (headers.enter key lines).Listed := by
  intro other member
  rw [order_enter]
  rcases mem_enter.mp member with rfl | member
  · split
    · assumption
    · simp
  · split
    · exact listed other member
    · exact List.mem_append_left _ (listed other member)

theorem Listed.get_extend (listed : headers.Listed) : (headers.extend key line).get other =
    if other = key then headers.get key ++ [line] else headers.get other := by
  rw [extend, get_enter]
  split
  · split
    · rfl
    · next absent => rw [listed.get_unprinted absent]; rfl
  · rfl

/-- What `pop` does. -/
structure Popped (key : Str) (before after : Headers) : Prop where
  get : ∀ other, after.get other = if other = key then [] else before.get other
  order : after.order = before.order.erase key
  data : ∀ other, other ∈ after.data ↔ other ≠ key ∧ other ∈ before.data

theorem pop_popped (ok : headers.pop key = .ok after) : Popped key headers after := by
  unfold pop at ok
  split at ok
  · split at ok
    · cases ok
      refine ⟨fun other => ?_, rfl, fun other => AList.mem_erase⟩
      by_cases same : other = key
      · subst same
        simp [Headers.get]
      · simp [Headers.get, same]
    · cases ok
  · next absent =>
      cases ok
      refine ⟨fun other => ?_, ?_, fun other => ?_⟩
      · split
        · next same => exact same ▸ get_absent absent
        · rfl
      · exact (List.erase_of_not_mem fun listed => absent (headers.known key listed)).symm
      · exact ⟨fun member => ⟨fun same => absent (same ▸ member), member⟩, And.right⟩

theorem pop_listed (listed : key ∈ headers.data → key ∈ headers.order) :
    ∃ after, headers.pop key = .ok after := by
  unfold pop
  split
  · next member =>
      rw [if_pos (listed member)]
      exact ⟨_, rfl⟩
  · exact ⟨_, rfl⟩

theorem Popped.listed (popped : Popped key before after) (listed : before.Listed) : after.Listed := by
  intro other member
  obtain ⟨different, kept⟩ := (popped.data other).mp member
  rw [popped.order]
  exact (List.mem_erase_of_ne different).mpr (listed other kept)

/-- What holds in the loop of `parse`, after lines from `source`: `key` is the
header that is being read, and `quoted` whether its quotes are open. -/
structure Stored (source : List Str) (headers : Headers) (key : Str) (quoted : Bool) : Prop where
  listed : headers.Listed
  current : key ≠ [] → headers.get key ≠ []
  filled : ∀ name ∈ headers.order, headers.get name ≠ []
  hidden : ∀ name, Hidden (headers.get name)
  quotes : ∀ name, quotesOf (headers.get name) % 2 = 1 ↔ name = key ∧ quoted = true
  named : ∀ name line, name ≠ [] → (headers.get name).head? = some line → fieldName line = some name
  taken : ∀ name, ∀ line ∈ headers.get name, line ∈ source

variable {source : List Str} {quoted final : Bool}

namespace Stored

theorem initial (source : List Str) : Stored source {} [] false where
  listed key member := absurd member (AList.notMem_empty key)
  current nonempty := absurd rfl nonempty
  filled := by simp
  hidden name i empty := by simp [get] at empty
  quotes name := by simp [get, quotesOf]
  named := by simp [get]
  taken := by simp [get]

theorem extend (stored : Stored source headers key quoted) (name : Str) (taken : line ∈ source)
    (same : quoted = true → name = key) (covered : line = [] → quoted = true)
    (starts : headers.get name = [] → name = [] ∨ fieldName line = some name) :
    Stored source (headers.extend name line) name
      (xor (decide (countQuotes line % 2 = 1)) quoted) where
  listed := stored.listed.enter
  current _ := by
    rw [stored.listed.get_extend, if_pos rfl]
    simp
  filled other member := by
    rw [stored.listed.get_extend]
    split
    · simp
    · next different =>
        apply stored.filled
        rw [Headers.extend, order_enter] at member
        split at member
        · exact member
        · rcases List.mem_append.mp member with member | last
          · exact member
          · exact absurd (List.mem_singleton.mp last) different
  hidden other := by
    rw [stored.listed.get_extend]
    split
    · apply (stored.hidden name).append
      intro empty
      exact (stored.quotes name).mpr ⟨same (covered empty), covered empty⟩
    · exact stored.hidden other
  quotes other := by
    rw [stored.listed.get_extend]
    split
    · next equal =>
        have before := stored.quotes name
        rw [quotesOf_append, and_iff_right equal]
        cases quoted with
        | true =>
            have odd := before.mpr ⟨same rfl, rfl⟩
            simp only [Bool.xor_true, Bool.not_eq_true', decide_eq_false_iff_not]
            omega
        | false =>
            have even : ¬ quotesOf (headers.get name) % 2 = 1 := fun odd => by simpa using before.mp odd
            simp only [Bool.xor_false, decide_eq_true_eq]
            omega
    · next different =>
        rw [stored.quotes other]
        constructor
        · intro ⟨current, opened⟩
          exact absurd (current.trans (same opened).symm) different
        · intro ⟨equal, _⟩
          exact absurd equal different
  named other first nonempty head := by
    rw [stored.listed.get_extend] at head
    split at head
    · next equal =>
        subst equal
        cases earlier : headers.get other with
        | nil =>
            rw [earlier, List.nil_append, List.head?_cons, Option.some.injEq] at head
            rcases starts earlier with empty | starts
            · exact absurd empty nonempty
            · exact head ▸ starts
        | cons line rest =>
            rw [earlier] at head
            exact stored.named other first nonempty (by rw [earlier]; exact head)
    · exact stored.named other first nonempty head
  taken other member inside := by
    rw [stored.listed.get_extend] at inside
    split at inside
    · rcases List.mem_append.mp inside with inside | last
      · exact stored.taken name member inside
      · exact List.mem_singleton.mp last ▸ taken
    · exact stored.taken other member inside

/-- What the loop of `parse` ends with. -/
theorem parseLines (stored : Stored source headers key quoted) {rest : List Str}
    (taken : ∀ line ∈ rest, Str.stripChars (ascii "\r") line ∈ source)
    (ok : Headers.parseLines rest key quoted headers = .ok (final, after)) :
    ∃ last, Stored source after last final := by
  induction rest generalizing key quoted headers with
  | nil =>
      cases ok
      exact ⟨key, stored⟩
  | cons line rest ih =>
      have first := taken line List.mem_cons_self
      have others : ∀ line ∈ rest, Str.stripChars (ascii "\r") line ∈ source :=
        fun line member => taken line (List.mem_cons_of_mem _ member)
      simp only [Headers.parseLines] at ok
      generalize Str.stripChars (ascii "\r") line = line at first ok
      split at ok
      · next opened =>
          -- a quoted line, whatever it looks like
          have more := stored.extend key first (fun _ => rfl) (fun _ => opened) fun empty => by
            have odd := (stored.quotes key).mpr ⟨rfl, opened⟩
            rw [empty] at odd
            cases odd
          rw [opened, Bool.xor_true] at more
          exact ih more others ok
      · next closed =>
          have closed : quoted = false := by simpa using closed
          split at ok
          · cases ok
            exact ⟨key, closed ▸ stored⟩
          · next nonempty =>
              have covered : line = [] → quoted = true := fun empty => absurd empty nonempty
              split at ok
              · have more := stored.extend key first (fun _ => rfl) covered fun empty => by
                  by_contra other
                  exact stored.current (fun same => other (.inl same)) empty
                rw [closed, Bool.xor_false] at more
                exact ih more others ok
              · next unspaced =>
                  split at ok
                  · next name value found =>
                      have more := stored.extend (Str.lower (Str.strip name)) first
                        (fun opened => by rw [closed] at opened; cases opened) covered
                        fun _ => .inr (fieldName_starts nonempty (by simpa using unspaced) found)
                      rw [closed, Bool.xor_false] at more
                      exact ih more others ok
                  · cases ok

end Stored

/-- Whole headers may go, and some lines of these ones. -/
structure Thinned (names : List Str) (before after : Headers) : Prop where
  data : ∀ name ∈ after.data, name ∈ before.data ∧ (name ∈ before.order → name ∈ after.order)
  order : after.order.Sublist before.order
  lines : ∀ name, (after.get name).Sublist (before.get name)
  others : ∀ name ∈ after.data, name ∉ names → after.get name = before.get name

namespace Thinned

variable {names : List Str}

theorem refl : Thinned names headers headers :=
  ⟨fun _ member => ⟨member, id⟩, .refl _, fun _ => .refl _, fun _ _ _ => rfl⟩

theorem trans {middle : Headers} (first : Thinned names before middle)
    (second : Thinned names middle after) : Thinned names before after where
  data name member := by
    obtain ⟨earlier, printed⟩ := second.data name member
    exact ⟨(first.data name earlier).1, printed ∘ (first.data name earlier).2⟩
  order := second.order.trans first.order
  lines name := (second.lines name).trans (first.lines name)
  others name member other := (second.others name member other).trans
    (first.others name (second.data name member).1 other)

theorem weaken {more : List Str} (thinned : Thinned names before after) (weaker : names ⊆ more) :
    Thinned more before after where
  data := thinned.data
  order := thinned.order
  lines := thinned.lines
  others name member other := thinned.others name member fun named => other (weaker named)

theorem pop (ok : headers.pop key = .ok after) : Thinned names headers after where
  data name member := by
    obtain ⟨different, kept⟩ := ((pop_popped ok).data name).mp member
    rw [(pop_popped ok).order]
    exact ⟨kept, (List.mem_erase_of_ne different).mpr⟩
  order := by
    rw [(pop_popped ok).order]
    exact List.erase_sublist
  lines name := by
    rw [(pop_popped ok).get]
    split
    · exact List.nil_sublist _
    · exact .refl _
  others name member _ := by
    rw [(pop_popped ok).get, if_neg (((pop_popped ok).data name).mp member).1]

theorem popWhen (names : List Str) {gone : Prop} [Decidable gone] (ok : headers.popWhen gone key = .ok after) :
    Thinned names headers after ∧ (gone → key ∉ after.order) ∧ (¬ gone → after = headers) := by
  unfold Headers.popWhen at ok
  split at ok
  · next holds =>
      refine ⟨.pop ok, fun _ member => ?_, fun fails => absurd holds fails⟩
      rw [(pop_popped ok).order] at member
      exact headers.nodup.not_mem_erase member
  · next fails =>
      cases ok
      exact ⟨refl, fun holds => absurd holds fails, fun _ => rfl⟩

theorem share (sublist : key ∈ headers.data → lines.Sublist (headers.get key)) :
    Thinned [key] headers (headers.share key lines) := by
  unfold Headers.share
  split
  · next member =>
      refine ⟨fun name inside => ⟨?_, id⟩, .refl _, fun name => ?_, fun name _ other => ?_⟩
      · rcases (AList.mem_insert _).mp inside with rfl | inside
        · exact member
        · exact inside
      · rw [get_store]
        split
        · next same => exact same ▸ sublist member
        · exact .refl _
      · rw [get_store, if_neg fun same => other (List.mem_singleton.mpr same)]
  · exact refl

end Thinned

theorem afterColon_ok (ok : afterColon line = .ok value) : line ≠ [] := by
  intro same
  subst same
  cases ok

theorem share_get (member : key ∈ (headers.share key lines).data) :
    (headers.share key lines).get key = lines := by
  unfold share at member ⊢
  split at member
  · next known => rw [if_pos known, get_store, if_pos rfl]
  · next absent => exact absurd member absent

/-- What the loop over the upgrades leaves of them is the header that is passed on. -/
theorem dropUpgrades_thinned {copy upgrades result : List Str}
    (own : ascii "upgrade" ∈ headers.data → headers.get (ascii "upgrade") = upgrades)
    (ok : dropUpgrades copy upgrades headers = .ok (result, after)) :
    Thinned [ascii "upgrade"] headers after ∧ (∀ line ∈ copy, line ≠ []) ∧
      (ascii "upgrade" ∈ after.data → after.get (ascii "upgrade") = result) := by
  induction copy generalizing upgrades headers with
  | nil =>
      cases ok
      exact ⟨.refl, by simp, own⟩
  | cons upgrade rest ih =>
      simp only [dropUpgrades] at ok
      obtain ⟨value, colon, ok⟩ := bind_ok ok
      have filled : upgrade ≠ [] := afterColon_ok colon
      split at ok
      · obtain ⟨thinned, others, kept⟩ := ih own ok
        exact ⟨thinned, List.forall_mem_cons.mpr ⟨filled, others⟩, kept⟩
      · obtain ⟨popped, pops, ok⟩ := bind_ok ok
        have shared : Thinned [ascii "upgrade"] headers
            (headers.share (ascii "upgrade") (upgrades.erase upgrade)) :=
          .share fun member => own member ▸ List.erase_sublist
        obtain ⟨thinned, others, kept⟩ := ih (fun member => by
          obtain ⟨different, member⟩ := ((pop_popped pops).data _).mp member
          rw [(pop_popped pops).get, if_neg different, share_get member]) ok
        exact ⟨(shared.trans (.pop pops)).trans thinned, List.forall_mem_cons.mpr ⟨filled, others⟩, kept⟩

theorem dropConnections_sublist {upgrades copy connections result : List Str}
    (ok : dropConnections upgrades copy connections = .ok result) :
    result.Sublist connections ∧ ∀ line ∈ copy, line ≠ [] := by
  induction copy generalizing connections with
  | nil =>
      cases ok
      exact ⟨.refl _, by simp⟩
  | cons connection rest ih =>
      simp only [dropConnections] at ok
      obtain ⟨value, colon, ok⟩ := bind_ok ok
      have filled : connection ≠ [] := afterColon_ok colon
      split at ok
      · obtain ⟨sublist, others⟩ := ih ok
        exact ⟨sublist, List.forall_mem_cons.mpr ⟨filled, others⟩⟩
      · obtain ⟨sublist, others⟩ := ih ok
        exact ⟨sublist.trans List.erase_sublist, List.forall_mem_cons.mpr ⟨filled, others⟩⟩

/-- A header that is only kept with its lines is not printed without them. -/
theorem settle_thinned (sublist : lines.Sublist (headers.get key))
    (ok : headers.settle key lines = .ok after) :
    Thinned [key] headers after ∧ (key ∈ after.order → after.get key ≠ []) := by
  have shared : Thinned [key] headers (headers.share key lines) := .share fun _ => sublist
  obtain ⟨thinned, gone, kept⟩ := Thinned.popWhen [key] ok
  refine ⟨shared.trans thinned, fun member => ?_⟩
  by_cases empty : lines = []
  · exact absurd member (gone empty)
  · rw [kept empty] at member ⊢
    rw [share_get ((headers.share key lines).known key member)]
    exact empty

def hopByHop : List Str := [ascii "upgrade", ascii "connection"]

/-- The two headers keep no empty lines, and are not printed without lines. -/
theorem removeHopByHop_thinned (ok : headers.removeHopByHop = .ok after) :
    Thinned hopByHop headers after ∧ ∀ name ∈ hopByHop,
      (∀ line ∈ after.get name, line ≠ []) ∧ (name ∈ after.order → after.get name ≠ []) := by
  obtain ⟨⟨upgrades, dropped⟩, drops, ok⟩ := bind_ok ok
  obtain ⟨popped, pops, ok⟩ := bind_ok ok
  obtain ⟨connections, keeps, ok⟩ := bind_ok ok
  obtain ⟨first, filled, own⟩ := dropUpgrades_thinned (fun _ => rfl) drops
  obtain ⟨second, gone, kept⟩ := Thinned.popWhen [ascii "upgrade"] pops
  obtain ⟨sublist, others⟩ := dropConnections_sublist keeps
  obtain ⟨third, present⟩ := settle_thinned sublist ok
  have all : Thinned hopByHop headers after :=
    ((first.trans second).weaken (by simp [hopByHop])).trans (third.weaken (by simp [hopByHop]))
  refine ⟨all, ?_⟩
  simp only [hopByHop, List.forall_mem_cons, List.not_mem_nil, false_implies, implies_true, and_true]
  refine ⟨⟨fun line member => filled line ((all.lines _).subset member), fun member => ?_⟩,
    fun line member => others line ((third.lines _).subset member), present⟩
  have printed := third.order.subset member
  have nonempty : upgrades ≠ [] := fun empty => gone empty printed
  rw [third.others _ (after.known _ member) (by decide)]
  rw [kept nonempty] at printed ⊢
  rw [own (dropped.known _ printed)]
  exact nonempty

/-- What holds of the headers of a request, where the proxy may have changed those
that are `free`: they are printed, none of them without a line, and empty lines
stand in quotes.  `allowed` says what the lines of a name are. -/
structure Sound (allowed : Str → Str → Prop) (free : List Str) (headers : Headers) : Prop where
  listed : ∀ name ∈ headers.data, name ∉ free → name ∈ headers.order
  filled : ∀ name ∈ headers.order, headers.get name ≠ []
  hidden : ∀ name, Hidden (headers.get name)
  named : ∀ name line, name ≠ [] → name ∉ free → (headers.get name).head? = some line →
    fieldName line = some name
  lines : ∀ name, ∀ line ∈ headers.get name, allowed name line

theorem Stored.sound (stored : Stored source headers key quoted) :
    Sound (fun _ line => line ∈ source) hopByHop headers where
  listed name member _ := stored.listed name member
  filled := stored.filled
  hidden := stored.hidden
  named name line nonempty _ := stored.named name line nonempty
  lines := stored.taken

namespace Sound

variable {allowed more : Str → Str → Prop} {free : List Str}

/-- Headers from which only whole ones were taken are sound, if the others are. -/
theorem thinned {names : List Str} (sound : Sound allowed free before) (thinned : Thinned names before after)
    (own : ∀ name ∈ names, name ∈ free ∧ (∀ line ∈ after.get name, line ≠ []) ∧
      (name ∈ after.order → after.get name ≠ [])) : Sound allowed free after := by
  have kept : ∀ name, name ∉ names → after.get name = [] ∨ after.get name = before.get name := by
    intro name other
    by_cases printed : name ∈ after.data
    · exact .inr (thinned.others name printed other)
    · exact .inl (get_absent printed)
  constructor
  · intro name member other
    obtain ⟨earlier, printed⟩ := thinned.data name member
    exact printed (sound.listed name earlier other)
  · intro name member
    by_cases named : name ∈ names
    · exact (own name named).2.2 member
    · rw [thinned.others name (after.known name member) named]
      exact sound.filled name (thinned.order.subset member)
  · intro name
    by_cases named : name ∈ names
    · exact .of_filled (own name named).2.1
    · rcases kept name named with empty | same
      · rw [empty]
        exact .of_filled (by simp)
      · rw [same]
        exact sound.hidden name
  · intro name line nonempty other head
    rcases kept name (fun named => other (own name named).1) with empty | same
    · rw [empty] at head
      cases head
    · exact sound.named name line nonempty other (same ▸ head)
  · exact fun name line member => sound.lines name line ((thinned.lines name).subset member)

theorem popWhen {gone : Prop} [Decidable gone] (sound : Sound allowed free headers)
    (ok : headers.popWhen gone key = .ok after) : Sound allowed free after :=
  sound.thinned (Thinned.popWhen [] ok).1 (by simp)

theorem pop (sound : Sound allowed free headers) (ok : headers.pop key = .ok after) :
    Sound allowed free after := by
  have popped : Thinned [] headers after := .pop ok
  exact sound.thinned popped (by simp)

/-- The proxy writes a header itself. -/
theorem enter (sound : Sound allowed free headers) (filled : lines ≠ []) (hidden : Hidden lines)
    (mono : ∀ name line, allowed name line → more name line) (added : ∀ line ∈ lines, more key line) :
    Sound more (key :: free) (headers.enter key lines) where
  listed name member other := by
    rw [List.mem_cons, not_or] at other
    have earlier := (mem_enter.mp member).resolve_left other.1
    rw [order_enter]
    split
    · exact sound.listed name earlier other.2
    · exact List.mem_append_left _ (sound.listed name earlier other.2)
  filled name member := by
    rw [get_enter]
    split
    · exact filled
    · next different =>
        apply sound.filled
        rw [order_enter] at member
        split at member
        · exact member
        · exact (List.mem_append.mp member).resolve_right fun last => different (List.mem_singleton.mp last)
  hidden name := by
    rw [get_enter]
    split
    · exact hidden
    · exact sound.hidden name
  named name line nonempty other head := by
    rw [List.mem_cons, not_or] at other
    rw [get_enter, if_neg other.1] at head
    exact sound.named name line nonempty other.2 head
  lines name line member := by
    rw [get_enter] at member
    split at member
    · next same => exact same ▸ added line member
    · exact mono name line (sound.lines name line member)

theorem extend (sound : Sound allowed free headers) (filled : value ≠ []) (added : allowed key value) :
    Sound allowed (key :: free) (headers.extend key value) := by
  apply sound.enter
  · split <;> simp
  · split
    · exact (sound.hidden key).append fun empty => absurd empty filled
    · exact .of_filled (by simpa using filled)
  · exact fun _ _ => id
  · intro line member
    split at member
    · rcases List.mem_append.mp member with member | last
      · exact sound.lines key line member
      · exact List.mem_singleton.mp last ▸ added
    · exact List.mem_singleton.mp member ▸ added

theorem weaken (sound : Sound allowed free headers) (mono : ∀ name line, allowed name line → more name line) :
    Sound more free headers :=
  { sound with lines := fun name line member => mono name line (sound.lines name line member) }

theorem freer {others : List Str} (sound : Sound allowed free headers) (fewer : free ⊆ others) :
    Sound allowed others headers :=
  { sound with
    listed := fun name member other => sound.listed name member fun named => other (fewer named)
    named := fun name line nonempty other =>
      sound.named name line nonempty fun named => other (fewer named) }

theorem replace (sound : Sound allowed free headers) (filled : value ≠ [])
    (mono : ∀ name line, allowed name line → more name line) (added : more key value) :
    Sound more (key :: free) (headers.replace key value) := by
  have entered : Sound more (key :: free) (headers.enter key [value]) :=
    sound.enter (by simp) (.of_filled (by simpa using filled)) mono (by simpa using added)
  have same : ∀ name, (headers.replace key value).get name = (headers.enter key [value]).get name :=
    fun name => get_store.trans get_enter.symm
  constructor
  · intro name member other
    rw [List.mem_cons, not_or] at other
    exact sound.listed name (((AList.mem_insert _).mp member).resolve_left other.1) other.2
  · intro name member
    rw [same, get_enter]
    split
    · simp
    · exact sound.filled name member
  · exact fun name => same name ▸ entered.hidden name
  · exact fun name line nonempty other head => entered.named name line nonempty other (same name ▸ head)
  · exact fun name line member => entered.lines name line (same name ▸ member)

end Sound

theorem restrict_sound {allowed : Str → Str → Prop} {httpVersion : Str} {expect : Bool}
    (sound : Sound allowed hopByHop headers)
    (ok : headers.restrict httpVersion expect = .ok after) : Sound allowed hopByHop after := by
  obtain ⟨removed, removes, ok⟩ := bind_ok ok
  obtain ⟨popped, pops, ok⟩ := bind_ok ok
  obtain ⟨_, _, ok⟩ := bind_ok ok
  cases ok
  have removed : Sound allowed hopByHop removed := by
    split at removes
    · obtain ⟨thinned, own⟩ := removeHopByHop_thinned removes
      exact sound.thinned thinned fun name member => ⟨member, own name member⟩
    · cases removes
      exact sound
  exact removed.popWhen pops

/-- The lines of a text of headers. -/
def linesOf (text : Str) : List Str := (text.splitOn 10).map (Str.stripChars (ascii "\r"))

theorem parse_sound {httpVersion lines : Str} {expect transparent : Bool}
    (ok : Headers.parse httpVersion expect transparent lines = .ok after) :
    Sound (fun _ line => line ∈ linesOf lines) hopByHop after ∧ [] ∉ after.data := by
  obtain ⟨_, _, ok⟩ := bind_ok ok
  obtain ⟨⟨quoted, read⟩, reads, ok⟩ := bind_ok ok
  obtain ⟨_, _, ok⟩ := bind_ok ok
  obtain ⟨restricted, restricts, ok⟩ := bind_ok ok
  obtain ⟨_, named, ok⟩ := bind_ok ok
  cases ok
  obtain ⟨last, stored⟩ := (Stored.initial (linesOf lines)).parseLines
    (fun line member => List.mem_map_of_mem member) reads
  refine ⟨?_, refuse_ok named⟩
  split at restricts
  · cases restricts
    exact stored.sound
  · exact restrict_sound stored.sound restricts

end Headers

end ExaProxy.Http
