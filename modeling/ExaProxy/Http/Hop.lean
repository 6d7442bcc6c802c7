import ExaProxy.Http.Stored

namespace ExaProxy.Http

open ExaProxy.Data

namespace Headers

variable {headers before after plain : Headers} {key name : Str} {lines : List Str}
  {httpVersion text : Str} {expect : Bool}

/-- The headers for the connection alone, by the version of the request. -/
def stripped (httpVersion : Str) : List Str :=
  if httpVersion = ascii "1.0" then ascii "keep-alive" :: hopByHop else hopByHop

/-- The other headers are left as they were. -/
structure Frame (httpVersion : Str) (plain after : Headers) : Prop where
  data : ∀ name ∉ stripped httpVersion, name ∈ after.data ↔ name ∈ plain.data
  lines : ∀ name ∉ stripped httpVersion, after.get name = plain.get name
  order : after.order.filter (· ∉ stripped httpVersion) = plain.order.filter (· ∉ stripped httpVersion)

/-- An upgrade that is not passed on has this name for its value. -/
def Upgraded (upgrades : List Str) (name : Str) : Prop :=
  ∃ line ∈ upgrades, ∃ value, afterColon line = .ok value ∧ passedOn (Str.lower value) = false ∧
    Str.lower value = name

theorem mem_share : name ∈ (headers.share key lines).data ↔ name ∈ headers.data := by
  unfold share
  split
  · next known => exact (AList.mem_insert _).trans (or_iff_right_of_imp fun same => same ▸ known)
  · rfl

theorem mem_popWhen {gone : Prop} [Decidable gone] (other : name ≠ key)
    (ok : headers.popWhen gone key = .ok after) : name ∈ after.data ↔ name ∈ headers.data := by
  unfold popWhen at ok
  split at ok
  · exact ((pop_popped ok).data name).trans (and_iff_right other)
  · cases ok
    rfl

theorem mem_settle (other : name ≠ key) (ok : headers.settle key lines = .ok after) :
    name ∈ after.data ↔ name ∈ headers.data :=
  (mem_popWhen other ok).trans mem_share

theorem mem_dropUpgrades {copy upgrades result : List Str}
    (ok : dropUpgrades copy upgrades headers = .ok (result, after)) :
    name ∈ after.data ↔ name ∈ headers.data ∧ ¬ Upgraded copy name := by
  induction copy generalizing upgrades headers with
  | nil =>
      cases ok
      simp [Upgraded]
  | cons upgrade rest ih =>
      simp only [dropUpgrades] at ok
      obtain ⟨value, colon, ok⟩ := bind_ok ok
      have step : Upgraded (upgrade :: rest) name ↔
          (passedOn (Str.lower value) = false ∧ Str.lower value = name) ∨ Upgraded rest name := by
        simp [Upgraded, colon]
      rw [step]
      split at ok
      · next passed => rw [ih ok, passed, Bool.true_eq_false, false_and, false_or]
      · next kept =>
          obtain ⟨popped, pops, ok⟩ := bind_ok ok
          rw [ih ok, (pop_popped pops).data, mem_share, Bool.eq_false_iff.mpr kept]
          grind

theorem mem_removeHopByHop (other : name ∉ hopByHop) (ok : headers.removeHopByHop = .ok after) :
    name ∈ after.data ↔ name ∈ headers.data ∧ ¬ Upgraded (headers.get (ascii "upgrade")) name := by
  simp only [hopByHop, List.mem_cons, List.not_mem_nil, or_false, not_or] at other
  obtain ⟨⟨upgrades, dropped⟩, drops, ok⟩ := bind_ok ok
  obtain ⟨popped, pops, ok⟩ := bind_ok ok
  obtain ⟨connections, keeps, ok⟩ := bind_ok ok
  rw [mem_settle other.2 ok, mem_popWhen other.1 pops, mem_dropUpgrades drops]

theorem restrict_data (other : name ∉ stripped httpVersion)
    (ok : headers.restrict httpVersion expect = .ok after) : name ∈ after.data ↔
      name ∈ headers.data ∧
        ¬ (httpVersion = ascii "1.1" ∧ Upgraded (headers.get (ascii "upgrade")) name) := by
  obtain ⟨removed, removes, ok⟩ := bind_ok ok
  obtain ⟨popped, pops, ok⟩ := bind_ok ok
  obtain ⟨_, _, ok⟩ := bind_ok ok
  cases ok
  have listed : name ∉ hopByHop ∧ (httpVersion = ascii "1.0" → name ≠ ascii "keep-alive") := by
    unfold stripped at other
    split at other
    · next old => exact ⟨fun member => other (List.mem_cons_of_mem _ member),
        fun _ same => other (same ▸ List.mem_cons_self)⟩
    · next new => exact ⟨other, fun old => absurd old new⟩
  have kept : name ∈ after.data ↔ name ∈ removed.data := by
    by_cases old : httpVersion = ascii "1.0"
    · exact mem_popWhen (listed.2 old) pops
    · rw [popWhen, if_neg old] at pops
      cases pops
      rfl
  rw [kept]
  split at removes
  · next version => rw [mem_removeHopByHop listed.1 removes, and_iff_right version]
  · next version =>
      cases removes
      simp [version]

theorem restrict_thinned (ok : headers.restrict httpVersion expect = .ok after) :
    Thinned hopByHop headers after := by
  obtain ⟨removed, removes, ok⟩ := bind_ok ok
  obtain ⟨popped, pops, ok⟩ := bind_ok ok
  obtain ⟨_, _, ok⟩ := bind_ok ok
  cases ok
  have first : Thinned hopByHop headers removed := by
    split at removes
    · exact (removeHopByHop_thinned removes).1
    · cases removes
      exact .refl
  exact first.trans (Thinned.popWhen hopByHop pops).1

theorem hopByHop_stripped (httpVersion : Str) : hopByHop ⊆ stripped httpVersion := by
  unfold stripped
  split
  · exact List.subset_cons_self _ _
  · exact List.Subset.refl _

/-- The frame is kept if no other header goes as a whole. -/
theorem Frame.of_kept (ok : headers.restrict httpVersion expect = .ok after)
    (kept : ∀ name ∉ stripped httpVersion, name ∈ headers.data → name ∈ after.data) :
    Frame httpVersion headers after := by
  have thinned := restrict_thinned ok
  have data : ∀ name ∉ stripped httpVersion, name ∈ after.data ↔ name ∈ headers.data :=
    fun name other => ⟨fun member => (thinned.data name member).1, kept name other⟩
  refine ⟨data, fun name other => ?_, ?_⟩
  · by_cases printed : name ∈ after.data
    · exact thinned.others name printed fun member => other (hopByHop_stripped _ member)
    · rw [get_absent printed, get_absent (mt (data name other).mpr printed)]
  · have fewer : (after.order.filter (· ∉ stripped httpVersion)).Sublist
        (headers.order.filter (· ∉ stripped httpVersion)) := thinned.order.filter _
    have all : headers.order.filter (· ∉ stripped httpVersion) ⊆
        after.order.filter (· ∉ stripped httpVersion) := by
      intro name member
      obtain ⟨printed, other⟩ := List.mem_filter.mp member
      have still := kept name (of_decide_eq_true other) (headers.known name printed)
      exact List.mem_filter.mpr ⟨(thinned.data name still).2 printed, other⟩
    exact fewer.eq_of_length_le
      (List.subperm_of_subset (headers.nodup.filter _) all).length_le

/-- What the loop of `parse` has read where it is left in no quotes. -/
def Read (text : Str) (headers : Headers) : Prop :=
  parseLines (text.splitOn 10) [] false {} = .ok (false, headers)

theorem Read.unique (read : Read text headers) (again : Read text after) : headers = after := by
  have same := read.symm.trans again
  simpa using same

theorem parse_read {transparent : Bool} (ok : parse httpVersion expect transparent text = .ok after) :
    ¬ (Str.strip text ≠ [] ∧ Str.isSpace (text.headD 0) = true) ∧ ∃ headers, Read text headers ∧
      (if transparent then .ok headers else headers.restrict httpVersion expect) = .ok after ∧
      [] ∉ after.data := by
  obtain ⟨_, starts, ok⟩ := bind_ok ok
  obtain ⟨⟨quoted, headers⟩, reads, ok⟩ := bind_ok ok
  obtain ⟨_, closed, ok⟩ := bind_ok ok
  obtain ⟨restricted, restricts, ok⟩ := bind_ok ok
  obtain ⟨_, named, ok⟩ := bind_ok ok
  cases ok
  have unquoted : quoted = false := by simpa using refuse_ok closed
  subst unquoted
  exact ⟨refuse_ok starts, headers, reads, restricts, refuse_ok named⟩

theorem parse_transparent (starts : ¬ (Str.strip text ≠ [] ∧ Str.isSpace (text.headD 0) = true))
    (read : Read text headers) (named : [] ∉ headers.data) :
    parse httpVersion expect true text = .ok headers := by
  have reads : parseLines (text.splitOn 10) [] false {} = .ok (false, headers) := read
  simp only [parse, refuse, bind, Except.bind, if_neg starts, reads, Bool.false_eq_true, if_false, if_true,
    if_neg named]
  rfl

/-- The other headers are those that a transparent proxy has, unless one of them
has the name of an upgrade that is not passed on. -/
theorem frame_iff (accepted : parse httpVersion expect false text = .ok after) :
    (∃ plain, parse httpVersion expect true text = .ok plain ∧ Frame httpVersion plain after) ↔
      ¬ ∃ headers, Read text headers ∧ httpVersion = ascii "1.1" ∧
        ∃ name ∉ hopByHop, name ∈ headers.data ∧ Upgraded (headers.get (ascii "upgrade")) name := by
  obtain ⟨starts, headers, read, restricts, named⟩ := parse_read accepted
  rw [if_neg Bool.false_ne_true] at restricts
  have others : httpVersion = ascii "1.1" → stripped httpVersion = hopByHop := by
    intro given
    subst given
    rfl
  constructor
  · rintro ⟨plain, parses, frame⟩ ⟨again, read', version, name, other, known, upgraded⟩
    obtain ⟨_, plain', readPlain, same, _⟩ := parse_read parses
    cases same
    cases read.unique read'
    cases read.unique readPlain
    have still := (frame.data name (others version ▸ other)).mpr known
    exact ((restrict_data (others version ▸ other) restricts).mp still).2 ⟨version, upgraded⟩
  · intro unnamed
    have kept : ∀ name ∉ stripped httpVersion, name ∈ headers.data → name ∈ after.data := by
      intro name other known
      refine (restrict_data other restricts).mpr ⟨known, fun ⟨version, upgraded⟩ => ?_⟩
      exact unnamed ⟨headers, read, version, name, others version ▸ other, known, upgraded⟩
    refine ⟨headers, parse_transparent starts read fun empty => named (kept [] ?_ empty), .of_kept restricts kept⟩
    unfold stripped
    split <;> decide

/-- Headers without an upgrade. -/
def plainText : Str := ascii "Host: a\r\nConnection: keep-alive\r\n\r\n"

theorem frame_of_plainText : ∃ after plain, parse (ascii "1.1") false false plainText = .ok after ∧
    parse (ascii "1.1") false true plainText = .ok plain ∧ Frame (ascii "1.1") plain after := by
  have parsed : (parse (ascii "1.1") false false plainText).map (·.get (ascii "host")) =
      .ok [ascii "Host: a"] := by decide +kernel
  have upgrades : (parseLines (plainText.splitOn 10) [] false {}).map (·.2.get (ascii "upgrade")) =
      .ok [] := by decide +kernel
  obtain ⟨after, accepted, _⟩ := map_ok parsed
  obtain ⟨plain, parses, frame⟩ := (frame_iff accepted).mpr (by
    intro given
    obtain ⟨headers, read, _, name, _, _, upgraded⟩ := given
    rw [show parseLines (plainText.splitOn 10) [] false {} = .ok (false, headers) from read] at upgrades
    rw [show headers.get (ascii "upgrade") = [] from Except.ok.inj upgrades] at upgraded
    obtain ⟨line, member, _⟩ := upgraded
    cases member)
  exact ⟨after, plain, accepted, parses, frame⟩

/-- A client that asks for the upgrade `host` loses the header of that name. -/
theorem host_stripped :
    (parse (ascii "1.1") false true (ascii "Host: a\r\nUpgrade: host\r\n\r\n")).map (·.get (ascii "host")) =
      .ok [ascii "Host: a"] ∧
    (parse (ascii "1.1") false false (ascii "Host: a\r\nUpgrade: host\r\n\r\n")).map (·.get (ascii "host")) =
      .ok [] := by
  decide +kernel

end Headers

end ExaProxy.Http
