import EchProxy.Base
import Mathlib.Data.BitVec

/-! # IP Addresses

    The address types of the standard library, with the predicates the proxy
    uses on them.  An address is its bit pattern; octets and segments are
    read off it most significant first, as the library does.  Parsing and
    printing addresses is left to a parameter (`IpText`).
-/

namespace EchProxy

/-! ## Address types -/

/-- `std::net::Ipv4Addr`, by its value as a `u32`. -/
structure Ipv4Addr where
  bits : BitVec 32
  deriving DecidableEq, Repr

/-- `std::net::Ipv6Addr`, by its value as a `u128`. -/
structure Ipv6Addr where
  bits : BitVec 128
  deriving DecidableEq, Repr

/-- `std::net::IpAddr`. -/
inductive IpAddr where
  | v4 (ip : Ipv4Addr)
  | v6 (ip : Ipv6Addr)
  deriving DecidableEq, Repr

/-- `std::net::SocketAddr`: an address and a port. -/
structure SocketAddr where
  ip : IpAddr
  port : UInt16
  deriving DecidableEq

/-- The text form of addresses: `str::parse::<IpAddr>` and
    `IpAddr::to_string`. -/
structure IpText where
  parse : Text → Option IpAddr
  display : IpAddr → Text

/-! ## IPv4 -/

namespace Ipv4Addr

/-- `Ipv4Addr::new`. -/
def new (a b c d : BitVec 8) : Ipv4Addr :=
  ⟨a ++ b ++ c ++ d⟩

/-- The `i`-th octet, most significant first. -/
def octet (ip : Ipv4Addr) (i : Nat) : BitVec 8 :=
  ip.bits.extractLsb' (8 * (3 - i)) 8

/-- 10.0.0.0/8, 172.16.0.0/12 and 192.168.0.0/16. -/
def isPrivate (ip : Ipv4Addr) : Bool :=
  ip.octet 0 == 10
    || (ip.octet 0 == 172 && 16 ≤ ip.octet 1 && ip.octet 1 ≤ 31)
    || (ip.octet 0 == 192 && ip.octet 1 == 168)

/-- 127.0.0.0/8. -/
def isLoopback (ip : Ipv4Addr) : Bool :=
  ip.octet 0 == 127

/-- 169.254.0.0/16. -/
def isLinkLocal (ip : Ipv4Addr) : Bool :=
  ip.octet 0 == 169 && ip.octet 1 == 254

/-- 224.0.0.0/4. -/
def isMulticast (ip : Ipv4Addr) : Bool :=
  224 ≤ ip.octet 0 && ip.octet 0 ≤ 239

/-- 255.255.255.255. -/
def isBroadcast (ip : Ipv4Addr) : Bool :=
  ip.bits == 0xffffffff

/-- 192.0.2.0/24, 198.51.100.0/24 and 203.0.113.0/24. -/
def isDocumentation (ip : Ipv4Addr) : Bool :=
  (ip.octet 0 == 192 && ip.octet 1 == 0 && ip.octet 2 == 2)
    || (ip.octet 0 == 198 && ip.octet 1 == 51 && ip.octet 2 == 100)
    || (ip.octet 0 == 203 && ip.octet 1 == 0 && ip.octet 2 == 113)

/-- 0.0.0.0. -/
def isUnspecified (ip : Ipv4Addr) : Bool :=
  ip.bits == 0

end Ipv4Addr

/-! ## IPv6 -/

namespace Ipv6Addr

/-- The `i`-th 16-bit segment, most significant first. -/
def segment (ip : Ipv6Addr) (i : Nat) : BitVec 16 :=
  ip.bits.extractLsb' (16 * (7 - i)) 16

/-- `::1`. -/
def isLoopback (ip : Ipv6Addr) : Bool :=
  ip.bits == 1

/-- `ff00::/8`. -/
def isMulticast (ip : Ipv6Addr) : Bool :=
  ip.segment 0 &&& 0xff00 == 0xff00

/-- `::`. -/
def isUnspecified (ip : Ipv6Addr) : Bool :=
  ip.bits == 0

/-- `::ffff:a.b.c.d`, the IPv6 form of an IPv4 address. -/
def mapped (ip : Ipv4Addr) : Ipv6Addr :=
  ⟨(0xffff : BitVec 96) ++ ip.bits⟩

/-- The IPv4 address an IPv4-mapped address stands for
    (`Ipv6Addr::to_ipv4_mapped`). -/
def toIpv4Mapped (ip : Ipv6Addr) : Option Ipv4Addr :=
  if ip.bits.extractLsb' 32 96 = 0xffff then some ⟨ip.bits.extractLsb' 0 32⟩ else none

theorem toIpv4Mapped_eq_some {ip : Ipv6Addr} {v : Ipv4Addr} :
    ip.toIpv4Mapped = some v ↔ ip = mapped v := by
  obtain ⟨bits⟩ := ip
  obtain ⟨low⟩ := v
  constructor
  · intro h
    simp only [toIpv4Mapped, Option.ite_none_right_eq_some, Option.some.injEq,
      Ipv4Addr.mk.injEq] at h
    obtain ⟨hhigh, rfl⟩ := h
    simp only [mapped, ← hhigh]
    have hsplit : bits.extractLsb' 32 96 ++ bits.extractLsb' 0 32 = bits :=
      @BitVec.extractLsb'_append_extractLsb' 96 32 bits
    rw [hsplit]
  · intro h
    simp only [mapped, mk.injEq] at h
    subst h
    simp only [toIpv4Mapped, BitVec.extractLsb'_append_eq_left,
      BitVec.extractLsb'_append_eq_right, if_true]

end Ipv6Addr

end EchProxy
