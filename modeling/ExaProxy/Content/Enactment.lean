import ExaProxy.Content.Operations

namespace ExaProxy.Content

open ExaProxy.Data ExaProxy.Network

namespace ContentManager

/-! Which decisions `getContent` can enact.  The branches of `connect` and
`intercept` do not assign the request that a connection used again is sent. -/

variable {manager : ContentManager} {site : Site} {send : Send} {client : Sock} {host : Str}
  {port : Int} {method : HostCommand} {decision : Decision}

/-- The arguments are as they come from the redirector and the resolver: a host
is an address and a port is a number. -/
def Addressed (site : Site) : Decision → Prop
  | .download host port .. | .connect host port _ | .intercept host port _ =>
      site.isip host = true ∧ 0 ∉ host ∧ Str.isdigit port = true
  | .malformed => False
  | _ => True

/-- A connection to the port may be opened, or need not be. -/
def Reaches (manager : ContentManager) (site : Site) (client : Sock) (host port : Str) : Prop :=
  (manager.reusable client host (Str.digitsValue port)).isSome ∨
    site.refused host (Str.digitsValue port) = true ∨ Str.digitsValue port ≤ 65535

/-- What `getContent` needs, for each command. -/
def Enactable (manager : ContentManager) (site : Site) (client : Sock) : Decision → Prop
  | .download host port .. => Reaches manager site client host port
  | .connect host port _ | .intercept host port _ =>
      manager.reusable client host (Str.digitsValue port) = none ∧
        Reaches manager site client host port
  | .file _ reason | .rewrite _ reason .. => 0 ∉ pathBelow site.location reason
  | .monitor path => site.monitorPage path ≠ none
  | _ => True

theorem getDownloader_returns (registered : manager.Registered) {portText data : Str}
    (valid : site.isip host = true) (plain : 0 ∉ host) :
    (∃ result, manager.getDownloader site client host (Str.digitsValue portText) method data =
        .ok result) ↔ Reaches manager site client host portText := by
  have checked : isip site host = .ok true := by rw [isip, if_neg plain, valid]
  rw [getDownloader_eq registered, checked]
  simp only [Except.bind, Bool.true_eq_false, if_false, Reaches]
  cases reused : manager.reusable client host (Str.digitsValue portText) with
  | some downloader => simp
  | none =>
      by_cases refused : site.refused host (Str.digitsValue portText) = true
      · simp [refused]
      · simp only [refused, Bool.false_eq_true, if_false, openDownloader, Option.isSome_none, false_or]
        by_cases fits : Str.digitsValue portText ≤ 65535
        · have inside : ¬ ((Str.digitsValue portText : Int) < 0 ∨
              (Str.digitsValue portText : Int) > 65535) := by omega
          simp only [if_neg inside, fits, iff_true]
          split <;> exact ⟨_, rfl⟩
        · have outside : (Str.digitsValue portText : Int) < 0 ∨
              (Str.digitsValue portText : Int) > 65535 := by omega
          simp only [if_pos outside]
          simp [Except.map, fits]

/-- The end of `getContent` raises only for a connection used again without a request. -/
theorem conclude_returns (prepared : Prepared) (content : prepared.content ≠ none) :
    (∃ after answer, conclude send client prepared = .ok (after, answer) ∧ answer.content ≠ none) ↔
      (prepared.downloader.isSome = true → prepared.newdownloader = false →
        prepared.request ≠ none) := by
  simp only [conclude]
  cases prepared.downloader with
  | none =>
      by_cases served : client ∈ prepared.manager.byclient <;> simp [served, content]
  | some sock =>
      cases prepared.newdownloader with
      | true => simp [content]
      | false =>
          cases prepared.request with
          | none => simp
          | some request => simp [content]

theorem getDownloader_reused (registered : manager.Registered) {data : Str} {downloader : Downloader}
    (valid : site.isip host = true) (plain : 0 ∉ host)
    (reused : manager.reusable client host port = some downloader) :
    manager.getDownloader site client host port method data =
      .ok (manager, some downloader.sock, false) := by
  have checked : isip site host = .ok true := by rw [isip, if_neg plain, valid]
  rw [getDownloader_eq registered, checked, reused]
  rfl

theorem contact_eq {portText data : Str} (number : Str.isdigit portText = true) {asked : Option Str}
    {length : Remaining} {refusal : Reply} :
    manager.contact site client host portText method data asked length refusal =
      (manager.getDownloader site client host (Str.digitsValue portText) method data).map fun result =>
        if result.2.1.isSome then
          ⟨result.1, result.2.1, result.2.2, asked, some (.stream []), length⟩
        else ⟨result.1, none, false, asked, some refusal, .number 0⟩ := by
  simp only [contact, portOf, Str.int_isdigit number, Option.elim_some, bind, Except.bind, pure,
    Except.pure]
  cases manager.getDownloader site client host (Str.digitsValue portText) method data with
  | error raised => rfl
  | ok result =>
      simp only [Except.map]
      split <;> rfl

theorem contact_returns (registered : manager.Registered) {portText data : Str}
    (valid : site.isip host = true) (plain : 0 ∉ host) (number : Str.isdigit portText = true)
    {asked : Option Str} {length : Remaining} {refusal : Reply} :
    (∃ after answer, (manager.contact site client host portText method data asked length
        refusal).bind (conclude send client) = .ok (after, answer) ∧ answer.content ≠ none) ↔
      (asked = none → manager.reusable client host (Str.digitsValue portText) = none) ∧
        Reaches manager site client host portText := by
  rw [contact_eq number]
  cases reused : manager.reusable client host (Str.digitsValue portText) with
  | some downloader =>
      have reaches : Reaches manager site client host portText := .inl (by simp [reused])
      rw [getDownloader_reused registered valid plain reused]
      simp only [Except.map, Except.bind, Option.isSome_some, if_true, reaches, and_true]
      rw [conclude_returns _ (by simp)]
      simp
  | none =>
      have returns : (∃ result, manager.getDownloader site client host (Str.digitsValue portText)
          method data = .ok result) ↔ Reaches manager site client host portText :=
        getDownloader_returns registered valid plain
      simp only [implies_true, true_and]
      cases got : manager.getDownloader site client host (Str.digitsValue portText) method data with
      | error raised =>
          rw [got] at returns
          simpa [Except.map, Except.bind] using returns
      | ok result =>
          have reaches : Reaches manager site client host portText := returns.mp ⟨result, got⟩
          simp only [Except.map, Except.bind, reaches, iff_true]
          cases getDownloader_obtained registered got with
          | nothing current cleared =>
              exact (conclude_returns _ (by simp)).mpr (by simp)
          | existing downloader serving same =>
              simp [reusable, serving, same] at reused
          | created current cleared free =>
              exact (conclude_returns _ (by simp)).mpr (by simp)

/-- A decision is enacted when what its command needs is there, and only then. -/
theorem getContent_returns_iff (run : Run (fun _ _ _ => True) manager)
    (addressed : Addressed site decision) :
    (∃ after answer, manager.getContent site send client decision = .ok (after, answer) ∧
      answer.content ≠ none) ↔ Enactable manager site client decision := by
  have registered := run.registered
  have local' : ∀ content length, ∃ after answer,
      conclude send client ⟨manager, none, false, some [], some content, length⟩ =
        .ok (after, answer) ∧ answer.content ≠ none := fun content length =>
    (conclude_returns _ (by simp)).mpr (by simp)
  have started : ∀ prepared, manager.prepare site client decision = prepared →
      manager.getContent site send client decision = prepared.bind (conclude send client) := by
    rintro prepared rfl
    rfl
  rw [started _ rfl]
  cases decision with
  | download host port upgrade length request =>
      obtain ⟨valid, plain, number⟩ := addressed
      exact (contact_returns registered valid plain number).trans (by simp [Enactable])
  | connect host port data =>
      obtain ⟨valid, plain, number⟩ := addressed
      exact (contact_returns registered valid plain number).trans (by simp [Enactable])
  | intercept host port data =>
      obtain ⟨valid, plain, number⟩ := addressed
      exact (contact_returns registered valid plain number).trans (by simp [Enactable])
  | redirect url => exact iff_of_true (local' _ _) trivial
  | http data => exact iff_of_true (local' _ _) trivial
  | icap response length => exact iff_of_true (local' _ _) trivial
  | file code reason =>
      simp only [prepare, Site.getLocalContent, Enactable]
      by_cases null : 0 ∈ pathBelow site.location reason
      · simp [null, Except.map, Except.bind]
      · rw [if_neg null]
        exact iff_of_true (local' _ _) null
  | rewrite code reason comment protocol url host clientIp =>
      simp only [prepare, Site.readLocalContent, Enactable]
      by_cases null : 0 ∈ pathBelow site.location reason
      · simp [null, Except.map, Except.bind]
      · rw [if_neg null]
        exact iff_of_true (local' _ _) null
  | monitor path =>
      simp only [prepare, Enactable]
      cases page : site.monitorPage path with
      | none => simp [Except.bind]
      | some text => exact iff_of_true (local' _ _) (by simp)
  | close => exact iff_of_true (local' _ _) trivial
  | malformed => cases addressed

theorem getContent_returns_local : ∃ after answer,
    ContentManager.getContent {} anySite (.accepted 0) 7 (.redirect (ascii "http://a/")) =
      .ok (after, answer) ∧ answer.content ≠ none := by
  have addressed : Addressed anySite (.redirect (ascii "http://a/")) := trivial
  exact (getContent_returns_iff (.start rfl) addressed).mpr trivial

/-- A client that has a connection to port 443 asks for a tunnel to it. -/
theorem getContent_raises_reused : ¬ ∀ manager site send client decision,
    Run (fun _ _ _ => True) manager → Addressed site decision →
    ∃ after answer, manager.getContent site send client decision = .ok (after, answer) ∧
      answer.content ≠ none := by
  intro returns
  have start : Run (fun _ _ _ => True) {} := .start rfl
  have asked : Run (fun _ _ _ => True) _ := start.call (.getContent anySite (.accepted 0) 7
    (.download (ascii "10.0.0.1") (ascii "443") [] (ascii "0") (ascii "GET / HTTP/1.1\r\n\r\n")))
    rfl (by simp)
  obtain ⟨after, answer, ok, _⟩ := returns _ anySite (.accepted 0) 7
    (.connect (ascii "10.0.0.1") (ascii "443") []) asked ⟨rfl, by decide, by decide⟩
  cases ok

end ContentManager

end ExaProxy.Content
