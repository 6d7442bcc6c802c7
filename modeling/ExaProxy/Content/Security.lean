import ExaProxy.Configuration.Ranges
import ExaProxy.Content.Operations

namespace ExaProxy.Content

open Data Network ExaProxy.Configuration

/-- The port of an exemption; `any` is the text `*`. -/
inductive ExemptPort where
  | any
  | number (port : Int)
deriving DecidableEq, Repr

/-- `security.deny` and `security.local`, and the set `supervisor.local`. -/
structure Security where
  deny : List Range := []
  exempt : List (Str × ExemptPort) := []
  interfaces : List Str := []

/-- The texts of the set that `Supervisor.interfaces` makes, from those that `getifaddrs` has. -/
def localInterfaces (addresses : List Str) : List Str := ascii "127.0.0.1" :: ascii "::1" :: addresses

def ipNumber (host : Str) : Option Nat := (inetPton (familyOf host) host).map (unpack (familyOf host))

/-- `pr == proto and start <= ip <= end` -/
def holds (host : Str) (range : Range) : Bool :=
  match ipNumber host with
  | some ip => familyOf host = range.proto ∧ range.start ≤ ip ∧ ip ≤ range.stop
  | none => false

/-- `(h == '*' or h == host) and (p == '*' or p == port)` -/
def exempts (host : Str) (port : Int) (exemption : Str × ExemptPort) : Bool :=
  (exemption.1 = ascii "*" ∨ exemption.1 = host) ∧ (exemption.2 = .any ∨ exemption.2 = .number port)

namespace Security

variable (security : Security)

def refused (host : Str) (port : Int) : Bool :=
  security.deny.any (holds host) || (host ∈ security.interfaces && !security.exempt.any (exempts host port))

/-- A site where `isip` and the checks are the ones of the code. -/
def site (site : Site) : Site :=
  { site with isip := fun host => inetPton4 host || inetPton6 host, refused := security.refused }

end Security

/-- A new connection is opened. -/
def Opens (manager : ContentManager) (site : Site) (client : Sock) (host : Str) (port : Int)
    (method : HostCommand) (request : Str) : Prop :=
  ∃ after sock, manager.getDownloader site client host port method request = .ok (after, some sock, true)

/-- The texts are of the same address. -/
def Same (host other : Str) : Prop :=
  ∃ family packed, inetPton family host = some packed ∧ inetPton family other = some packed

variable {manager : ContentManager} {site : Site} {security : Security} {client : Sock} {host : Str}
  {port : Int} {method : HostCommand} {request packed : Str} {family : Family} {range : Range}

theorem familyOf_eq (read : inetPton family host = some packed) : familyOf host = family := by
  have colon := (inetPton_spelled read).2
  cases family with
  | inet => exact if_neg (by simp [colon])
  | inet6 => exact if_pos (by simp [colon])

theorem ipNumber_eq (read : inetPton family host = some packed) : ipNumber host = some (Str.bigEndian packed) := by
  have family := familyOf_eq read
  subst family
  rw [ipNumber, read, Option.map_some, unpack_eq (inetPton_length read)]

theorem isip_eq (read : inetPton family host = some packed) :
    ContentManager.isip (security.site site) host = .ok true := by
  have null : 0 ∉ host := by
    intro member
    have spelled := (inetPton_spelled read).1 0 member
    exact absurd spelled (by decide)
  have accepted : (inetPton4 host || inetPton6 host) = true := by
    obtain ⟨four, six⟩ := inetPton_isSome host
    cases family with
    | inet => rw [← four, read, Option.isSome_some, Bool.true_or]
    | inet6 => rw [← six, read, Option.isSome_some, Bool.or_true]
  rw [ContentManager.isip, if_neg null]
  exact congrArg _ accepted

theorem holds_iff (read : inetPton family host = some packed) : holds host range = true ↔
    family = range.proto ∧ range.start ≤ Str.bigEndian packed ∧ Str.bigEndian packed ≤ range.stop := by
  rw [holds, ipNumber_eq read, familyOf_eq read]
  exact decide_eq_true_iff

theorem opens_iff (valid : ContentManager.isip site host = .ok true) :
    Opens manager site client host port method request ↔ (manager.reuse client host port).2 = none ∧
      site.refused host port = false ∧ site.connects = true ∧ 0 ≤ port ∧ port ≤ 65535 := by
  unfold Opens ContentManager.getDownloader
  obtain ⟨current, existing⟩ := manager.reuse client host port
  simp only [valid, bind, Except.bind]
  cases existing with
  | some sock => simp [pure, Except.pure]
  | none =>
      cases refused : site.refused host port with
      | true => simp [pure, Except.pure]
      | false =>
          by_cases outside : port < 0 ∨ port > 65535
          · have inside : ¬ (0 ≤ port ∧ port ≤ 65535) := by omega
            simp [ContentManager.openDownloader, outside, inside]
          · have inside : 0 ≤ port ∧ port ≤ 65535 := by omega
            cases connects : site.connects <;>
              simp [ContentManager.openDownloader, outside, inside, connects, pure, Except.pure]

/-- The addresses from `start` on are those with its first bits exactly where `start` is
the first of them. -/
theorem block_prefix_iff {start exponent bits : Nat} (bound : start < 2 ^ bits) :
    (∀ ip < 2 ^ bits, (start ≤ ip ∧ ip ≤ start + 2 ^ exponent - 1) ↔ ip / 2 ^ exponent = start / 2 ^ exponent) ↔
      2 ^ exponent ∣ start := by
  have positive := Nat.two_pow_pos exponent
  constructor
  · intro agree
    have least : start / 2 ^ exponent * 2 ^ exponent ≤ start := Nat.div_mul_le_self start _
    have first := (agree _ (least.trans_lt bound)).mpr (Nat.mul_div_cancel _ positive)
    exact (Nat.dvd_iff_div_mul_eq start _).mpr (Nat.le_antisymm least first.1)
  · rintro ⟨block, rfl⟩ ip -
    rw [Nat.mul_div_cancel_left _ positive, Nat.div_eq_iff positive, Nat.mul_comm]

theorem opens_deny_iff (read : inetPton range.proto host = some packed) (least : 0 ≤ port) (most : port ≤ 65535)
    (idle : (manager.reuse client host port).2 = none) :
    Opens manager (Security.site { deny := [range] } { site with connects := true }) client host port method request ↔
      ¬ (range.start ≤ Str.bigEndian packed ∧ Str.bigEndian packed ≤ range.stop) := by
  have held : holds host range = true ↔ _ := holds_iff read
  rw [opens_iff (isip_eq read)]
  simp [Security.site, Security.refused, idle, least, most, Bool.eq_false_iff, held]

/-- An entry refuses the addresses that agree with its network on the first bits, and no
other one, exactly where the network has no bit behind them. -/
theorem deny_prefix_iff {service network netmask : Str} {bits : Nat} (site : Site)
    (parts : service.splitOn 47 = [network, netmask]) (mask : Str.int netmask = some (bits : Int))
    (accepted : value.range service = .ok range) :
    ∃ net, inetPton range.proto network = some net ∧
      ((∀ host packed, inetPton range.proto host = some packed → ∀ manager client port method request,
        0 ≤ port → port ≤ 65535 → (ContentManager.reuse manager client host port).2 = none →
          (Opens manager (Security.site { deny := [range] } { site with connects := true }) client host port method
              request ↔
            Str.bigEndian packed / 2 ^ (width range.proto - bits) ≠ Str.bigEndian net / 2 ^ (width range.proto - bits))) ↔
        2 ^ (width range.proto - bits) ∣ Str.bigEndian net) := by
  obtain ⟨network', netmask', net, number, parts', read, mask', short, whole⟩ := range_inv accepted
  obtain ⟨rfl, rfl⟩ : network' = network ∧ netmask' = netmask := by simpa [parts] using parts'.symm
  obtain rfl : number = bits := Option.some.inj (mask'.symm.trans mask)
  have exponent : blockSize range.proto bits = 2 ^ (width range.proto - bits) := by
    have count : ((width range.proto : Int) - bits).toNat = width range.proto - bits := by omega
    rw [blockSize, count]
  have family : familyOf network' = range.proto := by rw [whole]
  have start : range.start = Str.bigEndian net := by rw [whole]
  have stop : range.stop = Str.bigEndian net + 2 ^ (width range.proto - bits) - 1 := by
    rw [← exponent, whole]
  have bounded : ∀ {host packed}, inetPton range.proto host = some packed →
      Str.bigEndian packed < 2 ^ width range.proto := by
    intro host packed read
    rw [width_pow, ← inetPton_length read]
    exact Str.bigEndian_lt packed
  rw [family] at read
  refine ⟨net, read, ?_⟩
  rw [← block_prefix_iff (bounded read)]
  constructor
  · intro opens ip small
    rw [width_pow] at small
    obtain ⟨host, -, same⟩ := inetPton_inetNtop (Str.bytes_length range.proto.size ip)
    have number : Str.bigEndian (Str.bytes range.proto.size ip) = ip := by
      rw [Str.bigEndian_bytes, Nat.mod_eq_of_lt small]
    have opened := opens host _ same {} 0 80 .download [] (by decide) (by decide) rfl
    rw [opens_deny_iff same (by decide) (by decide) rfl, number, start, stop] at opened
    exact not_iff_not.mp opened
  · intro agree host packed read manager client port method request least most idle
    rw [opens_deny_iff read least most idle, start, stop]
    exact not_iff_not.mpr (agree _ (bounded read))

theorem deny_network : ∃ range net, value.range (ascii "10.0.0.0/8") = .ok range ∧
    inetPton range.proto (ascii "10.0.0.0") = some net ∧ ∀ host packed, inetPton range.proto host = some packed →
      ∀ manager client port method request, 0 ≤ port → port ≤ 65535 →
        (ContentManager.reuse manager client host port).2 = none →
          (Opens manager (Security.site { deny := [range] } { ContentManager.anySite with connects := true }) client
              host port method request ↔
            Str.bigEndian packed / 2 ^ (width range.proto - 8) ≠ Str.bigEndian net / 2 ^ (width range.proto - 8)) := by
  have parts : (ascii "10.0.0.0/8").splitOn 47 = [ascii "10.0.0.0", ascii "8"] := by decide +kernel
  have accepted : value.range (ascii "10.0.0.0/8") = .ok ⟨.inet, 167772160, 184549375⟩ := by decide +kernel
  have mask : Str.int (ascii "8") = some ((8 : Nat) : Int) := by decide +kernel
  obtain ⟨net, read, refuses⟩ := deny_prefix_iff ContentManager.anySite parts mask accepted
  have known : inetPton .inet (ascii "10.0.0.0") = some [10, 0, 0, 0] := by decide +kernel
  cases read.symm.trans known
  exact ⟨_, _, accepted, read, refuses.mpr (by decide)⟩

/-- The first address of the network is not refused, and the one after its last is. -/
theorem deny_host_bits : ∃ range, value.range (ascii "10.0.0.1/8") = .ok range ∧
    Opens {} (Security.site { deny := [range] } { ContentManager.anySite with connects := true }) 0
      (ascii "10.0.0.0") 80 .download [] ∧
    ¬ Opens {} (Security.site { deny := [range] } { ContentManager.anySite with connects := true }) 0
      (ascii "11.0.0.0") 80 .download [] := by
  have first : inetPton .inet (ascii "10.0.0.0") = some [10, 0, 0, 0] := by decide +kernel
  have behind : inetPton .inet (ascii "11.0.0.0") = some [11, 0, 0, 0] := by decide +kernel
  have accepted : value.range (ascii "10.0.0.1/8") = .ok ⟨.inet, 167772161, 184549376⟩ := by decide +kernel
  refine ⟨_, accepted, ?_, ?_⟩
  · exact (opens_deny_iff first (by decide) (by decide) rfl).mpr (by decide)
  · exact mt (opens_deny_iff behind (by decide) (by decide) rfl).mp (by decide)

/-- No exemption is of the address, or of all of them, and of the port or of all ports. -/
def Unexempt (exempt : List (Str × ExemptPort)) (host : Str) (port : Int) : Prop :=
  ∀ exemption ∈ exempt, exemption.1 = ascii "*" ∨ Same host exemption.1 →
    exemption.2 ≠ .any ∧ exemption.2 ≠ .number port

/-- For the text of the host itself, the loop over the exemptions finds none. -/
theorem unexempt_text (unexempt : Unexempt security.exempt host port) (read : inetPton family host = some packed) :
    security.exempt.any (exempts host port) = false := by
  rw [List.any_eq_false]
  intro exemption listed exempted
  simp only [exempts, decide_eq_true_eq] at exempted
  have named : exemption.1 = ascii "*" ∨ Same host exemption.1 := by
    refine exempted.1.imp_right fun text => ?_
    rw [text]
    exact ⟨family, packed, read, read⟩
  obtain ⟨notAny, notNumber⟩ := unexempt exemption listed named
  exact exempted.2.elim notAny notNumber

/-- An address of the proxy itself is connected to exactly where its text is not the one
that is listed, and nothing else is in the way. -/
theorem local_opens_iff (site : Site) (manager : ContentManager) (client : Sock) (method : HostCommand)
    (request : Str) (own : ∃ member ∈ security.interfaces, Same host member)
    (unexempt : Unexempt security.exempt host port) :
    ¬ Opens manager (security.site site) client host port method request ↔
      host ∈ security.interfaces ∨ security.deny.any (holds host) = true ∨
        (manager.reuse client host port).2 ≠ none ∨ site.connects = false ∨ ¬ (0 ≤ port ∧ port ≤ 65535) := by
  obtain ⟨member, listed, family, packed, read, -⟩ := own
  have blocked : (security.site site).refused host port = false ↔
      security.deny.any (holds host) = false ∧ host ∉ security.interfaces := by
    simp only [Security.site, Security.refused, unexempt_text unexempt read]
    simp
  rw [opens_iff (isip_eq read), blocked, ← Bool.not_eq_true, ← Bool.not_eq_true]
  simp only [Security.site]
  tauto

theorem local_listed : ¬ Opens {} (Security.site { interfaces := localInterfaces [] } ContentManager.anySite) 0
    (ascii "::1") 80 .download [] := by
  have read : inetPton .inet6 (ascii "::1") = some (List.replicate 15 0 ++ [1]) := by decide +kernel
  have own : ∃ member ∈ localInterfaces [], Same (ascii "::1") member :=
    ⟨ascii "::1", by decide, .inet6, _, read, read⟩
  have unexempt : Unexempt [] (ascii "::1") 80 := by
    intro exemption listed
    cases listed
  exact (local_opens_iff ContentManager.anySite {} 0 .download [] own unexempt).mpr (.inl (by decide))

/-- The loopback address, spelled without compression. -/
theorem local_spelled : Same (ascii "0:0:0:0:0:0:0:1") (ascii "::1") ∧ ascii "::1" ∈ localInterfaces [] ∧
    Opens {} (Security.site { interfaces := localInterfaces [] } ContentManager.anySite) 0
      (ascii "0:0:0:0:0:0:0:1") 80 .download [] := by
  have spelled : inetPton .inet6 (ascii "0:0:0:0:0:0:0:1") = some (List.replicate 15 0 ++ [1]) := by decide +kernel
  have short : inetPton .inet6 (ascii "::1") = some (List.replicate 15 0 ++ [1]) := by decide +kernel
  refine ⟨⟨.inet6, _, spelled, short⟩, by decide, ?_⟩
  exact (opens_iff (isip_eq spelled)).mpr (by decide +kernel)

end ExaProxy.Content
