import EchProxy.Framework.Cidr
import EchProxy.Net.Text
import EchProxy.Server.Policy

/-! # Which Hosts the Policy Keeps Away

    The deny test exists so that no tunnel ends inside the server's own
    network.  This module says which hosts are meant, as address blocks, and
    compares that with what the test turns away.

    The test looks at an address in its own family.  An IPv4-mapped IPv6
    address denotes an IPv4 host, and none of the IPv6 predicates sees that
    host.
-/

namespace EchProxy.Server

/-! ## The hosts to keep away -/

/-- 10.0.0.0/8, 172.16.0.0/12 and 192.168.0.0/16. -/
def privateV4 : List (Cidr.Block 32) :=
  [⟨0x0a000000, 8, by decide⟩, ⟨0xac100000, 12, by decide⟩, ⟨0xc0a80000, 16, by decide⟩]

/-- 127.0.0.0/8. -/
def loopbackV4 : List (Cidr.Block 32) := [⟨0x7f000000, 8, by decide⟩]

/-- 169.254.0.0/16. -/
def linkLocalV4 : List (Cidr.Block 32) := [⟨0xa9fe0000, 16, by decide⟩]

/-- 224.0.0.0/4. -/
def multicastV4 : List (Cidr.Block 32) := [⟨0xe0000000, 4, by decide⟩]

/-- 255.255.255.255. -/
def broadcastV4 : List (Cidr.Block 32) := [⟨0xffffffff, 32, by decide⟩]

/-- 192.0.2.0/24, 198.51.100.0/24 and 203.0.113.0/24. -/
def documentationV4 : List (Cidr.Block 32) :=
  [⟨0xc0000200, 24, by decide⟩, ⟨0xc6336400, 24, by decide⟩, ⟨0xcb007100, 24, by decide⟩]

/-- 0.0.0.0. -/
def unspecifiedV4 : List (Cidr.Block 32) := [⟨0, 32, by decide⟩]

/-- `::1`. -/
def loopbackV6 : List (Cidr.Block 128) := [⟨1, 128, by decide⟩]

/-- `::`. -/
def unspecifiedV6 : List (Cidr.Block 128) := [⟨0, 128, by decide⟩]

/-- `ff00::/8`. -/
def multicastV6 : List (Cidr.Block 128) := [⟨0xff00 <<< 112, 8, by decide⟩]

/-- `fc00::/7`. -/
def uniqueLocalV6 : List (Cidr.Block 128) := [⟨0xfc00 <<< 112, 7, by decide⟩]

/-- `fe80::/10`. -/
def linkLocalV6 : List (Cidr.Block 128) := [⟨0xfe80 <<< 112, 10, by decide⟩]

/-- `2001:db8::/32`. -/
def documentationV6 : List (Cidr.Block 128) := [⟨0x20010db8 <<< 96, 32, by decide⟩]

/-- The IPv4 blocks no tunnel may end in. -/
def internalV4 : List (Cidr.Block 32) :=
  privateV4 ++ loopbackV4 ++ linkLocalV4 ++ multicastV4 ++ broadcastV4 ++ documentationV4
    ++ unspecifiedV4

/-- The IPv6 blocks no tunnel may end in. -/
def internalV6 : List (Cidr.Block 128) :=
  loopbackV6 ++ multicastV6 ++ unspecifiedV6 ++ uniqueLocalV6 ++ linkLocalV6 ++ documentationV6

/-- The address lies in one of the blocks of its own family. -/
def InBlocks : IpAddr → Prop
  | .v4 ip => Cidr.Covers internalV4 ip.bits
  | .v6 ip => Cidr.Covers internalV6 ip.bits

/-- The host an address denotes: connecting to an IPv4-mapped address opens
    an IPv4 connection. -/
def hostOf : IpAddr → IpAddr
  | .v4 ip => .v4 ip
  | .v6 ip =>
    match ip.toIpv4Mapped with
    | some v4 => .v4 v4
    | none => .v6 ip

/-- The address denotes a host inside the blocks. -/
def Internal (ip : IpAddr) : Prop :=
  InBlocks (hostOf ip)

/-- An IPv4-mapped address whose IPv4 address fails the deny test. -/
def HidesDeniedV4 (ip : IpAddr) : Prop :=
  ∃ v4, ip = .v6 (.mapped v4) ∧ denied (.v4 v4) = true

/-! ## The deny test, predicate by predicate -/

section predicates
variable (ip : Ipv4Addr) (ip6 : Ipv6Addr)

theorem octet_toNat (i : Nat) :
    (ip.octet i).toNat = ip.bits.toNat / 2 ^ (8 * (3 - i)) % 256 := by
  rw [Ipv4Addr.octet, BitVec.extractLsb'_toNat, Nat.shiftRight_eq_div_pow]

theorem segment_toNat (i : Nat) :
    (ip6.segment i).toNat = ip6.bits.toNat / 2 ^ (16 * (7 - i)) % 65536 := by
  rw [Ipv6Addr.segment, BitVec.extractLsb'_toNat, Nat.shiftRight_eq_div_pow]

/-- Masking out the low `n` bits of the first segment compares the bits above
    them. -/
theorem segment_mask_iff {n : Nat} (hn : n ≤ 16) (want : BitVec 16) :
    ip6.segment 0 &&& BitVec.allOnes 16 <<< n = want <<< n ↔
      ip6.bits.toNat / 2 ^ (112 + n) = (want <<< n).toNat / 2 ^ n := by
  have hsegment : (ip6.segment 0).toNat = ip6.bits.toNat / 2 ^ 112 := by
    have hlt := ip6.bits.isLt
    rw [segment_toNat]
    omega
  have hlt : (ip6.segment 0).toNat / 2 ^ n * 2 ^ n ≤ (ip6.segment 0).toNat :=
    Nat.div_mul_le_self _ _
  have hsmall := (ip6.segment 0).isLt
  have hpos : 0 < 2 ^ n := Nat.two_pow_pos n
  have hdvd : (want <<< n).toNat / 2 ^ n * 2 ^ n = (want <<< n).toNat := by
    rw [BitVec.toNat_shiftLeft, Nat.shiftLeft_eq]
    have hpow : 2 ^ 16 = 2 ^ (16 - n) * 2 ^ n := by rw [← Nat.pow_add, Nat.sub_add_cancel hn]
    rw [hpow, Nat.mul_mod_mul_right, Nat.mul_div_cancel _ hpos]
  rw [← BitVec.shiftLeft_ushiftRight, ← BitVec.toNat_inj, BitVec.toNat_shiftLeft,
    BitVec.toNat_ushiftRight, Nat.shiftRight_eq_div_pow, Nat.shiftLeft_eq,
    Nat.mod_eq_of_lt (by omega), Nat.pow_add, ← Nat.div_div_eq_div_mul, ← hsegment]
  constructor
  · intro h
    rw [← h, Nat.mul_div_cancel _ hpos]
  · intro h
    rw [h, hdvd]

theorem isPrivate_iff : ip.isPrivate = true ↔ Cidr.Covers privateV4 ip.bits := by
  have hlt := ip.bits.isLt
  simp [Ipv4Addr.isPrivate, privateV4, Cidr.Block.mem_iff_div, ← BitVec.toNat_inj,
    BitVec.le_def, octet_toNat]
  omega

theorem isLoopback_iff : ip.isLoopback = true ↔ Cidr.Covers loopbackV4 ip.bits := by
  have hlt := ip.bits.isLt
  simp [Ipv4Addr.isLoopback, loopbackV4, Cidr.Block.mem_iff_div, ← BitVec.toNat_inj,
    octet_toNat]
  omega

theorem isLinkLocal_iff : ip.isLinkLocal = true ↔ Cidr.Covers linkLocalV4 ip.bits := by
  have hlt := ip.bits.isLt
  simp [Ipv4Addr.isLinkLocal, linkLocalV4, Cidr.Block.mem_iff_div, ← BitVec.toNat_inj,
    octet_toNat]
  omega

theorem isMulticast_iff : ip.isMulticast = true ↔ Cidr.Covers multicastV4 ip.bits := by
  have hlt := ip.bits.isLt
  simp [Ipv4Addr.isMulticast, multicastV4, Cidr.Block.mem_iff_div, BitVec.le_def,
    octet_toNat]
  omega

theorem isBroadcast_iff : ip.isBroadcast = true ↔ Cidr.Covers broadcastV4 ip.bits := by
  simp [Ipv4Addr.isBroadcast, broadcastV4, Cidr.Block.mem_full]

theorem isDocumentation_iff :
    ip.isDocumentation = true ↔ Cidr.Covers documentationV4 ip.bits := by
  have hlt := ip.bits.isLt
  simp [Ipv4Addr.isDocumentation, documentationV4, Cidr.Block.mem_iff_div,
    ← BitVec.toNat_inj, octet_toNat]
  omega

theorem isUnspecified_iff : ip.isUnspecified = true ↔ Cidr.Covers unspecifiedV4 ip.bits := by
  simp [Ipv4Addr.isUnspecified, unspecifiedV4, Cidr.Block.mem_full]

theorem isLoopback_v6_iff : ip6.isLoopback = true ↔ Cidr.Covers loopbackV6 ip6.bits := by
  simp [Ipv6Addr.isLoopback, loopbackV6, Cidr.Block.mem_full]

theorem isUnspecified_v6_iff :
    ip6.isUnspecified = true ↔ Cidr.Covers unspecifiedV6 ip6.bits := by
  simp [Ipv6Addr.isUnspecified, unspecifiedV6, Cidr.Block.mem_full]

theorem isMulticast_v6_iff : ip6.isMulticast = true ↔ Cidr.Covers multicastV6 ip6.bits := by
  have hmask := segment_mask_iff ip6 (show 8 ≤ 16 by decide) 0xff
  simpa [Ipv6Addr.isMulticast, multicastV6, Cidr.Block.mem_iff_div] using hmask

theorem isIpv6UniqueLocal_iff :
    isIpv6UniqueLocal ip6 = true ↔ Cidr.Covers uniqueLocalV6 ip6.bits := by
  have hmask := segment_mask_iff ip6 (show 9 ≤ 16 by decide) 0x7e
  simpa [isIpv6UniqueLocal, uniqueLocalV6, Cidr.Block.mem_iff_div] using hmask

theorem isIpv6UnicastLinkLocal_iff :
    isIpv6UnicastLinkLocal ip6 = true ↔ Cidr.Covers linkLocalV6 ip6.bits := by
  have hmask := segment_mask_iff ip6 (show 6 ≤ 16 by decide) 0x3fa
  simpa [isIpv6UnicastLinkLocal, linkLocalV6, Cidr.Block.mem_iff_div] using hmask

theorem isIpv6Documentation_iff :
    isIpv6Documentation ip6 = true ↔ Cidr.Covers documentationV6 ip6.bits := by
  have hlt := ip6.bits.isLt
  simp [isIpv6Documentation, documentationV6, Cidr.Block.mem_iff_div, ← BitVec.toNat_inj,
    segment_toNat]
  omega

end predicates

/-- The deny test is exactly membership in the blocks of the address's own
    family. -/
theorem denied_iff (ip : IpAddr) : denied ip = true ↔ InBlocks ip := by
  cases ip with
  | v4 ip =>
    simp only [denied, InBlocks, internalV4, Bool.or_eq_true, Cidr.covers_append,
      isPrivate_iff, isLoopback_iff, isLinkLocal_iff, isMulticast_iff, isBroadcast_iff,
      isDocumentation_iff, isUnspecified_iff]
  | v6 ip =>
    simp only [denied, InBlocks, internalV6, Bool.or_eq_true, Cidr.covers_append,
      isLoopback_v6_iff, isMulticast_v6_iff, isUnspecified_v6_iff, isIpv6UniqueLocal_iff,
      isIpv6UnicastLinkLocal_iff, isIpv6Documentation_iff]

/-! ## The gap: IPv4-mapped addresses -/

/-- No IPv4-mapped address lies in an IPv6 block, whatever host it denotes. -/
theorem denied_mapped (v4 : Ipv4Addr) : denied (.v6 (.mapped v4)) = false := by
  have hlt := v4.bits.isLt
  have hbits : (Ipv6Addr.mapped v4).bits.toNat = 0xffff * 2 ^ 32 + v4.bits.toNat := by
    rw [Ipv6Addr.mapped, BitVec.toNat_append, ← Nat.shiftLeft_add_eq_or_of_lt hlt,
      Nat.shiftLeft_eq]
    rfl
  rw [← Bool.not_eq_true, denied_iff]
  simp [InBlocks, internalV6, loopbackV6, multicastV6, unspecifiedV6, uniqueLocalV6,
    linkLocalV6, documentationV6, Cidr.Block.mem_iff_div, hbits]
  omega

/-- The internal hosts are those the deny test sees and those it misses
    behind an IPv4-mapped address. -/
theorem internal_iff (ip : IpAddr) : Internal ip ↔ denied ip = true ∨ HidesDeniedV4 ip := by
  cases ip with
  | v4 ip => simp [Internal, hostOf, HidesDeniedV4, denied_iff]
  | v6 ip =>
    cases hmapped : ip.toIpv4Mapped with
    | none =>
      have hnot : ∀ v4, ip ≠ .mapped v4 := by
        intro v4 h
        rw [Ipv6Addr.toIpv4Mapped_eq_some.mpr h] at hmapped
        cases hmapped
      simp [Internal, hostOf, hmapped, HidesDeniedV4, denied_iff, hnot]
    | some v4 =>
      obtain rfl := Ipv6Addr.toIpv4Mapped_eq_some.mp hmapped
      simp only [Internal, hostOf, hmapped, denied_mapped, Bool.false_eq_true, false_or,
        HidesDeniedV4, IpAddr.v6.injEq, ← denied_iff]
      constructor
      · intro h
        exact ⟨v4, rfl, h⟩
      · intro ⟨v4', heq, h⟩
        have hsame := Ipv6Addr.toIpv4Mapped_eq_some.mpr heq
        obtain rfl := Option.some.inj (hmapped.symm.trans hsame)
        exact h

/-- `resolve_target` yields no internal host. -/
def ResolveSafe (policy : Policy) (text : IpText)
    (resolver : Text → UInt16 → Except String (List SocketAddr)) (host : Text)
    (port : UInt32) : Prop :=
  ∀ addrs, policy.resolveTarget text resolver host port = .ok addrs →
    ∀ addr ∈ addrs, ¬ Internal addr.ip

/-- `check_connected_addr` lets no internal peer through. -/
def PeerSafe (policy : Policy) (addr : SocketAddr) : Prop :=
  policy.checkConnectedAddr addr = .ok () → ¬ Internal addr.ip

/-- The request gets through the checks with a candidate address that hides a
    denied IPv4 address: the port and the host text are accepted and no
    candidate is denied in its own family. -/
def SlipsThrough (policy : Policy) (text : IpText)
    (resolver : Text → UInt16 → Except String (List SocketAddr)) (host : Text)
    (port : UInt32) : Prop :=
  ∃ p addrs, policy.checkPort port = .ok p ∧ validateHost host = .ok () ∧
    candidates text resolver host p = .ok addrs ∧
    (∀ addr ∈ addrs, denied addr.ip = false) ∧ ∃ addr ∈ addrs, HidesDeniedV4 addr.ip

theorem resolveSafe_iff {policy : Policy} (hdeny : policy.denyPrivateIp = true)
    (text : IpText) (resolver : Text → UInt16 → Except String (List SocketAddr))
    (host : Text) (port : UInt32) :
    ResolveSafe policy text resolver host port ↔
      ¬ SlipsThrough policy text resolver host port := by
  have hcheck : ∀ ip, policy.checkIp ip = .ok () ↔ denied ip = false := by
    intro ip
    rw [checkIp_eq_ok]
    simp [hdeny]
  constructor
  · intro hsafe ⟨p, addrs, hport, hhost, hcand, hall, addr, hmem, hhides⟩
    have hok : policy.resolveTarget text resolver host port = .ok addrs :=
      resolveTarget_eq_ok.mpr ⟨p, hport, hhost, hcand, List.ne_nil_of_mem hmem,
        fun a ha => (hcheck _).mpr (hall a ha)⟩
    exact hsafe addrs hok addr hmem ((internal_iff _).mpr (.inr hhides))
  · intro hnot addrs hok addr hmem hinternal
    obtain ⟨p, hport, hhost, hcand, -, hall⟩ := resolveTarget_eq_ok.mp hok
    rcases (internal_iff _).mp hinternal with hdenied | hhides
    · rw [(hcheck _).mp (hall addr hmem)] at hdenied
      cases hdenied
    · exact hnot ⟨p, addrs, hport, hhost, hcand, fun a ha => (hcheck _).mp (hall a ha),
        addr, hmem, hhides⟩

theorem peerSafe_iff {policy : Policy} (hdeny : policy.denyPrivateIp = true)
    (addr : SocketAddr) : PeerSafe policy addr ↔ ¬ HidesDeniedV4 addr.ip := by
  rw [PeerSafe, Policy.checkConnectedAddr, checkIp_eq_ok, internal_iff]
  constructor
  · intro hsafe ⟨v4, heq, hv4⟩
    refine hsafe (fun _ => ?_) (.inr ⟨v4, heq, hv4⟩)
    rw [heq, denied_mapped]
  · rintro hnot hok (hdenied | hhides)
    · rw [hok hdeny] at hdenied
      cases hdenied
    · exact hnot hhides

/-- **What the deny test guarantees.**  With the test on, a request ends at
    internal hosts exactly when a candidate address slips through as an
    IPv4-mapped form of a denied IPv4 address, and so does a peer. -/
theorem deny_private_exact (policy : Policy) (hdeny : policy.denyPrivateIp = true) :
    (∀ text resolver host port,
      ResolveSafe policy text resolver host port ↔
        ¬ SlipsThrough policy text resolver host port) ∧
    (∀ addr, PeerSafe policy addr ↔ ¬ HidesDeniedV4 addr.ip) :=
  ⟨resolveSafe_iff hdeny, peerSafe_iff hdeny⟩

/-- A policy as shipped: the deny test on, every port allowed. -/
def defaultPolicy : Policy where
  connectTimeout := 8000
  denyPrivateIp := true
  allowedPorts := none

/-- A public peer is let through, and it is no internal host. -/
theorem deny_private_exact_default : PeerSafe defaultPolicy ⟨.v4 (.new 8 8 8 8), 443⟩ := by
  refine ((deny_private_exact defaultPolicy rfl).2 _).mpr ?_
  intro ⟨v4, heq, _⟩
  cases heq

/-- The loopback host is reached by its IPv4-mapped spelling: the host text
    `::ffff:127.0.0.1` resolves, and the peer check accepts the peer. -/
theorem mapped_loopback_reached :
    ¬ ResolveSafe defaultPolicy .std (fun _ _ => .error "no name")
        "::ffff:127.0.0.1".toList 80 ∧
      ¬ PeerSafe defaultPolicy ⟨.v6 (.mapped (.new 127 0 0 1)), 80⟩ := by
  have hhides : HidesDeniedV4 (.v6 (.mapped (.new 127 0 0 1))) :=
    ⟨.new 127 0 0 1, rfl, by decide⟩
  have hinternal : Internal (.v6 (.mapped (.new 127 0 0 1))) :=
    (internal_iff _).mpr (.inr hhides)
  constructor
  · intro hsafe
    exact hsafe [⟨.v6 (.mapped (.new 127 0 0 1)), 80⟩] (by decide) _
      (List.mem_singleton_self _) hinternal
  · intro hsafe
    exact hsafe (by decide) hinternal

end EchProxy.Server
