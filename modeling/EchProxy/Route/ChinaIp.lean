import EchProxy.Framework.Checked
import EchProxy.Framework.Cidr
import EchProxy.Framework.Intervals
import EchProxy.Framework.Str
import EchProxy.Net

/-! # The China IP Set (`client/src/china_ip.rs`)

    The loader reads two tables line by line into ranges of `u32` and `u128`
    values, sorts and merges them, and a lookup is a binary search.  The text
    forms of addresses and networks, the methods of `ipnet` and the unstable
    sort are parameters with their documented behaviour.
-/

namespace EchProxy

open Checked Intervals

/-! ## What the loader uses from elsewhere -/

/-- An unsigned integer of `w` bits. -/
abbrev Word (w : Nat) := Fin (2 ^ w)

/-- `ipnet::IpNet`. -/
inductive IpNet where
  | v4 (net : Cidr.Block 32)
  | v6 (net : Cidr.Block 128)
  deriving DecidableEq

/-- The methods of `ipnet::Ipv4Net` and `ipnet::Ipv6Net`. -/
structure NetApi (w : Nat) where
  network : Cidr.Block w → BitVec w
  broadcast : Cidr.Block w → BitVec w
  netmask : Cidr.Block w → BitVec w
  network_eq : ∀ net, network net = net.base &&& Cidr.netmask w net.prefixLen
  broadcast_eq : ∀ net, broadcast net = net.base ||| ~~~ Cidr.netmask w net.prefixLen
  netmask_eq : ∀ net, netmask net = Cidr.netmask w net.prefixLen

/-- `sort_unstable_by_key(|(start, _)| *start)`: equal starts may come out in any
    order. -/
structure SortByStart (w : Nat) where
  sort : List (Word w × Word w) → List (Word w × Word w)
  perm : ∀ ranges, (sort ranges).Perm ranges
  sorted : ∀ ranges, (sort ranges).Pairwise fun a b => a.1 ≤ b.1

/-- The libraries of the loader. -/
structure TableLib where
  /-- `str::parse::<IpAddr>`. -/
  parseIp : Text → Option IpAddr
  /-- `str::parse::<IpNet>`. -/
  parseNet : Text → Option IpNet
  net4 : NetApi 32
  net6 : NetApi 128
  sort4 : SortByStart 32
  sort6 : SortByStart 128

/-- `u32::from`. -/
def Ipv4Addr.toWord (ip : Ipv4Addr) : Word 32 := ip.bits.toFin

/-- `u128::from`. -/
def Ipv6Addr.toWord (ip : Ipv6Addr) : Word 128 := ip.bits.toFin

/-! ## Merging -/

/-- `saturating_add(1)`. -/
def saturatingAddOne {w : Nat} (x : Word w) : Word w :=
  if h : x.val + 1 < 2 ^ w then ⟨x.val + 1, h⟩ else x

/-- The merge of both widths. -/
def mergeRanges {w : Nat} (lib : SortByStart w) (ranges : List (Word w × Word w)) :
    List (Word w × Word w) :=
  if ranges = [] then ranges
  else
    match lib.sort ranges with
    | [] => []
    | cur :: rest => mergeLoop saturatingAddOne [] cur rest

def mergeU32Ranges (lib : SortByStart 32) := mergeRanges lib

def mergeU128Ranges (lib : SortByStart 128) := mergeRanges lib

/-! ## Lookup -/

/-- The lookup of both widths; `ranges[i - 1]` is a raw index. -/
def containsRange {w : Nat} (ranges : List (Word w × Word w)) (ip : Word w) : Eval Bool :=
  match Search.binarySearchByKey ranges ip Prod.fst with
  | .ok _ => .ok true
  | .error 0 => .ok false
  | .error (i + 1) => do
    let (start, stop) ← index ranges i
    return decide (start ≤ ip ∧ ip ≤ stop)

def containsU32 (ranges : List (Word 32 × Word 32)) (ip : Word 32) := containsRange ranges ip

def containsU128 (ranges : List (Word 128 × Word 128)) (ip : Word 128) := containsRange ranges ip

/-- `ChinaIpSet`; while the tables are read, the ranges are not merged yet. -/
structure ChinaIpSet where
  v4 : List (Word 32 × Word 32)
  v6 : List (Word 128 × Word 128)

def ChinaIpSet.contains (set : ChinaIpSet) : IpAddr → Eval Bool
  | .v4 ip => containsU32 set.v4 ip.toWord
  | .v6 ip => containsU128 set.v6 ip.toWord

/-! ## Reading a table -/

/-- The errors of `push_range`. -/
inductive RangeError where
  | v4Order
  | v6Order
  | mixed
  deriving DecidableEq

def RangeError.message : RangeError → String
  | .v4Order => "IPv4 range start is greater than end"
  | .v6Order => "IPv6 range start is greater than end"
  | .mixed => "range IP versions differ"

/-- An error of `read_ip_table`: its message, and the error of `push_range`
    below it if there is one. -/
structure TableError where
  message : String
  cause : Option RangeError
  deriving DecidableEq

def pushNet (lib : TableLib) (net : IpNet) (set : ChinaIpSet) : ChinaIpSet :=
  match net with
  | .v4 net =>
    let start := (lib.net4.network net).toFin
    let stop := (lib.net4.broadcast net).toFin
    { set with v4 := set.v4 ++ [(start, stop)] }
  | .v6 net =>
    let start := lib.net6.network net
    let hostmask := ~~~ lib.net6.netmask net
    let stop := start ||| hostmask
    { set with v6 := set.v6 ++ [(start.toFin, stop.toFin)] }

def pushRange (start stop : IpAddr) (set : ChinaIpSet) : Except RangeError ChinaIpSet :=
  match start, stop with
  | .v4 start, .v4 stop =>
    if start.toWord > stop.toWord then .error .v4Order
    else .ok { set with v4 := set.v4 ++ [(start.toWord, stop.toWord)] }
  | .v6 start, .v6 stop =>
    if start.toWord > stop.toWord then .error .v6Order
    else .ok { set with v6 := set.v6 ++ [(start.toWord, stop.toWord)] }
  | _, _ => .error .mixed

/-- `push_range(..).with_context(..)`. -/
def pushRangeContext (message : String) (start stop : IpAddr) (set : ChinaIpSet) :
    Except TableError ChinaIpSet :=
  match pushRange start stop set with
  | .ok set => .ok set
  | .error err => .error ⟨message, some err⟩

/-- One turn of the loop of `read_ip_table`. -/
def readLine (lib : TableLib) (path : String) (idx : Nat) (line : Text) (set : ChinaIpSet) :
    Except TableError ChinaIpSet :=
  let line := Str.trim line
  if line = [] ∨ Str.startsWith ['#'] line then .ok set
  else
    match Str.splitWhitespace line with
    | [single] =>
      match lib.parseNet single with
      | some net => .ok (pushNet lib net set)
      | none =>
        match lib.parseIp single with
        | none => .error ⟨s!"invalid IP table entry at {path}:{idx + 1}", none⟩
        | some ip => pushRangeContext s!"invalid IP table entry at {path}:{idx + 1}" ip ip set
    | [start, stop] =>
      match lib.parseIp start with
      | none => .error ⟨s!"invalid range start at {path}:{idx + 1}", none⟩
      | some start =>
        match lib.parseIp stop with
        | none => .error ⟨s!"invalid range end at {path}:{idx + 1}", none⟩
        | some stop => pushRangeContext s!"invalid IP range at {path}:{idx + 1}" start stop set
    | _ => .error ⟨s!"invalid IP table entry at {path}:{idx + 1}", none⟩

/-- The loop of `read_ip_table` from line `idx` on. -/
def readLines (lib : TableLib) (path : String) :
    Nat → List Text → ChinaIpSet → Except TableError ChinaIpSet
  | _, [], set => .ok set
  | idx, line :: lines, set => do
    let set ← readLine lib path idx line set
    readLines lib path (idx + 1) lines set

/-- A table: its path, and its text unless the file cannot be read. -/
structure TableFile where
  path : String
  content : Option Text

def readIpTable (lib : TableLib) (file : TableFile) (set : ChinaIpSet) :
    Except TableError ChinaIpSet :=
  match file.content with
  | none => .error ⟨s!"failed to read CIDR table {file.path}", none⟩
  | some raw => readLines lib file.path 0 (Str.lines raw) set

/-- `ChinaIpSet::load`. -/
def ChinaIpSet.load (lib : TableLib) (ipv4Cidrs ipv6Cidrs : TableFile) :
    Except TableError ChinaIpSet := do
  let set ← readIpTable lib ipv4Cidrs ⟨[], []⟩
  let set ← readIpTable lib ipv6Cidrs set
  return ⟨mergeU32Ranges lib.sort4 set.v4, mergeU128Ranges lib.sort6 set.v6⟩

end EchProxy
