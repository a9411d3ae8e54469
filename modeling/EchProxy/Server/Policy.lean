import EchProxy.Framework.Result
import EchProxy.Net

/-! # Target Policy (`server/src/policy.rs`)

    Before the server dials a target it narrows and checks the port, checks
    the host text, resolves the host and checks every address it got.  After
    a connect it checks the peer address once more.

    The second half states what the check is for, in terms of address blocks,
    and proves which addresses it turns away.
-/

namespace EchProxy.Server

/-! ## The policy and its errors -/

/-- `Policy`.  The connect timeout is in milliseconds. -/
structure Policy where
  connectTimeout : Nat
  denyPrivateIp : Bool
  allowedPorts : Option (List UInt16)

/-- `PolicyError`. -/
inductive PolicyError where
  | invalidHost
  | invalidPort
  | portDenied (port : UInt16)
  | noAddresses
  | addressDenied (ip : IpAddr)
  | resolve (err : String)
  deriving DecidableEq

/-- The error texts; `text` prints addresses. -/
def PolicyError.message (text : IpText) : PolicyError → String
  | .invalidHost => "invalid target host"
  | .invalidPort => "target port is out of range"
  | .portDenied port => s!"target port {port.toNat} is not allowed"
  | .noAddresses => "target resolved to no addresses"
  | .addressDenied ip => s!"target address {String.ofList (text.display ip)} is denied"
  | .resolve err => s!"failed to resolve target: {err}"

/-- The fields of `PolicyConfig` that `Policy::from_config` reads. -/
structure PolicyConfig where
  connectTimeoutMs : Nat
  denyPrivateIp : Bool
  allowedPorts : List UInt16

/-- `Policy::from_config`. -/
def Policy.fromConfig (config : PolicyConfig) : Except String Policy :=
  if config.allowedPorts.any (· == 0) then
    .error "allowed_ports must not contain 0"
  else
    .ok
      { connectTimeout := config.connectTimeoutMs
        denyPrivateIp := config.denyPrivateIp
        allowedPorts :=
          if config.allowedPorts.isEmpty then none else some config.allowedPorts }

/-! ## The checks -/

/-- `is_ipv6_unique_local`. -/
def isIpv6UniqueLocal (ip : Ipv6Addr) : Bool :=
  ip.segment 0 &&& 0xfe00 == 0xfc00

/-- `is_ipv6_unicast_link_local`. -/
def isIpv6UnicastLinkLocal (ip : Ipv6Addr) : Bool :=
  ip.segment 0 &&& 0xffc0 == 0xfe80

/-- `is_ipv6_documentation`. -/
def isIpv6Documentation (ip : Ipv6Addr) : Bool :=
  ip.segment 0 == 0x2001 && ip.segment 1 == 0x0db8

/-- The deny test of `check_ip`. -/
def denied : IpAddr → Bool
  | .v4 ip =>
    ip.isPrivate || ip.isLoopback || ip.isLinkLocal || ip.isMulticast
      || ip.isBroadcast || ip.isDocumentation || ip.isUnspecified
  | .v6 ip =>
    ip.isLoopback || ip.isMulticast || ip.isUnspecified
      || isIpv6UniqueLocal ip || isIpv6UnicastLinkLocal ip || isIpv6Documentation ip

/-- `Policy::check_ip`. -/
def Policy.checkIp (policy : Policy) (ip : IpAddr) : Except PolicyError Unit :=
  if !policy.denyPrivateIp then .ok ()
  else if denied ip then .error (.addressDenied ip)
  else .ok ()

/-- `Policy::check_connected_addr`. -/
def Policy.checkConnectedAddr (policy : Policy) (addr : SocketAddr) : Except PolicyError Unit :=
  policy.checkIp addr.ip

/-- `validate_host`. -/
def validateHost (host : Text) : Except PolicyError Unit :=
  if host.isEmpty || Text.len host > 253 then .error .invalidHost
  else if (Text.asBytes host).any fun byte =>
      byte == 0 || byte == 0x2f || byte == 0x5c || byte == 0x40 || isAsciiWhitespace byte then
    .error .invalidHost
  else .ok ()

/-- The port part of `resolve_target`: `u16::try_from`, the zero check and the
    list of allowed ports. -/
def Policy.checkPort (policy : Policy) (port : UInt32) : Except PolicyError UInt16 :=
  if 65536 ≤ port.toNat then .error .invalidPort
  else if port.toUInt16 = 0 then .error .invalidPort
  else match policy.allowedPorts with
    | none => .ok port.toUInt16
    | some allowed =>
      if allowed.contains port.toUInt16 then .ok port.toUInt16
      else .error (.portDenied port.toUInt16)

/-- The address part of `resolve_target`: an IP literal stands for itself,
    anything else goes to the resolver (`to_socket_addrs`). -/
def candidates (text : IpText) (resolver : Text → UInt16 → Except String (List SocketAddr))
    (host : Text) (port : UInt16) : Except PolicyError (List SocketAddr) :=
  match text.parse host with
  | some ip => .ok [⟨ip, port⟩]
  | none =>
    match resolver host port with
    | .ok addrs => .ok addrs
    | .error err => .error (.resolve err)

/-- The loop at the end of `resolve_target`: every address has to pass. -/
def Policy.checkAddrs (policy : Policy) (addrs : List SocketAddr) :
    Except PolicyError (List SocketAddr) :=
  if addrs.isEmpty then .error .noAddresses
  else
    match forM addrs fun addr => policy.checkIp addr.ip with
    | .ok () => .ok addrs
    | .error err => .error err

/-- `Policy::resolve_target`. -/
def Policy.resolveTarget (policy : Policy) (text : IpText)
    (resolver : Text → UInt16 → Except String (List SocketAddr))
    (host : Text) (port : UInt32) : Except PolicyError (List SocketAddr) := do
  let port ← policy.checkPort port
  validateHost host
  let addrs ← candidates text resolver host port
  policy.checkAddrs addrs

/-- The name and port `resolve_target` hands to the resolver, if it gets that
    far. -/
def Policy.lookup (policy : Policy) (text : IpText) (host : Text) (port : UInt32) :
    Option (Text × UInt16) :=
  match policy.checkPort port, validateHost host, text.parse host with
  | .ok port, .ok (), none => some (host, port)
  | _, _, _ => none

/-! ## What the checks accept -/

theorem checkIp_eq_ok {policy : Policy} {ip : IpAddr} :
    policy.checkIp ip = .ok () ↔ (policy.denyPrivateIp = true → denied ip = false) := by
  unfold Policy.checkIp
  cases policy.denyPrivateIp <;> cases denied ip <;> simp

/-- The port reaches the policy unchanged: it was not truncated. -/
theorem checkPort_eq_ok {policy : Policy} {port : UInt32} {p : UInt16} :
    policy.checkPort port = .ok p ↔
      p.toNat = port.toNat ∧ p ≠ 0 ∧ ∀ allowed, policy.allowedPorts = some allowed → p ∈ allowed := by
  unfold Policy.checkPort
  have hsmall : port.toUInt16.toNat = port.toNat % 65536 := UInt32.toNat_toUInt16 port
  have hp : p.toNat < 65536 := p.toNat_lt
  have hinj : p.toNat = port.toUInt16.toNat ↔ p = port.toUInt16 := UInt16.toNat_inj
  split
  · constructor
    · intro he
      cases he
    · intro ⟨heq, _, _⟩
      omega
  -- the conversion to `u16` does not fail, so it keeps the value
  · have hport : port.toUInt16.toNat = port.toNat := by omega
    rw [← hport, hinj]
    split
    · constructor
      · intro he
        cases he
      · rintro ⟨rfl, hne, -⟩
        contradiction
    · next hne =>
      constructor
      · intro h
        split at h
        · next hnone =>
          obtain rfl := Except.ok.inj h
          exact ⟨rfl, hne, by simp [hnone]⟩
        · next allowed hsome =>
          split at h
          · next hmem =>
            obtain rfl := Except.ok.inj h
            refine ⟨rfl, hne, fun allowed' h' => ?_⟩
            obtain rfl := Option.some.inj (hsome.symm.trans h')
            exact List.contains_iff_mem.mp hmem
          · cases h
      · rintro ⟨rfl, -, hall⟩
        split
        · rfl
        · next allowed hsome =>
          rw [if_pos (List.contains_iff_mem.mpr (hall allowed hsome))]

theorem checkAddrs_eq_ok {policy : Policy} {addrs out : List SocketAddr} :
    policy.checkAddrs addrs = .ok out ↔
      out = addrs ∧ addrs ≠ [] ∧ ∀ addr ∈ addrs, policy.checkIp addr.ip = .ok () := by
  unfold Policy.checkAddrs
  split
  · next hnil => simp [List.isEmpty_iff.mp hnil]
  · next hne =>
    have hne' : addrs ≠ [] := fun h => hne (List.isEmpty_iff.mpr h)
    rw [← Result.forM_eq_ok]
    split
    · next hok => simp [hok, hne', eq_comm]
    · next err herr => simp [herr]

/-- What a successful `resolve_target` has established. -/
theorem resolveTarget_eq_ok {policy : Policy} {text : IpText}
    {resolver : Text → UInt16 → Except String (List SocketAddr)}
    {host : Text} {port : UInt32} {addrs : List SocketAddr} :
    policy.resolveTarget text resolver host port = .ok addrs ↔
      ∃ p, policy.checkPort port = .ok p ∧ validateHost host = .ok () ∧
        candidates text resolver host p = .ok addrs ∧ addrs ≠ [] ∧
        ∀ addr ∈ addrs, policy.checkIp addr.ip = .ok () := by
  simp only [Policy.resolveTarget, Result.bind_eq_ok, checkAddrs_eq_ok]
  constructor
  · rintro ⟨p, hp, ⟨⟩, hhost, cand, hcand, rfl, hne, hall⟩
    exact ⟨p, hp, hhost, hcand, hne, hall⟩
  · intro ⟨p, hp, hhost, hcand, hne, hall⟩
    exact ⟨p, hp, (), hhost, addrs, hcand, rfl, hne, hall⟩

/-- What a call of the resolver says about the request. -/
theorem lookup_eq_some {policy : Policy} {text : IpText} {host name : Text} {port : UInt32}
    {p : UInt16} :
    policy.lookup text host port = some (name, p) ↔
      policy.checkPort port = .ok p ∧ validateHost host = .ok () ∧ text.parse host = none ∧
        name = host := by
  unfold Policy.lookup
  constructor
  · intro h
    split at h
    · next hport hhost hparse =>
      obtain ⟨rfl, rfl⟩ := Prod.mk.inj (Option.some.inj h)
      exact ⟨hport, hhost, hparse, rfl⟩
    · cases h
  · rintro ⟨hport, hhost, hparse, rfl⟩
    rw [hport, hhost, hparse]

end EchProxy.Server
