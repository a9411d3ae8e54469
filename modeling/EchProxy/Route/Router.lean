import EchProxy.Client.Auth
import EchProxy.Client.Config
import EchProxy.Framework.Traced
import EchProxy.Net.Text
import EchProxy.Route.Canonical

/-! # The Router (`client/src/router.rs`)

    For each connection the router decides between a direct one and the pool
    of the user's backend.  It records the local name lookups it makes; what
    they answer is a parameter, and so is the text form of addresses.
-/

namespace EchProxy

open Checked Traced

/-! ## The model -/

/-- A call of `lookup_host`. -/
structure DnsLookup where
  host : Text
  port : Nat
  deriving DecidableEq

/-- What `lookup_host` answers, with the error text. -/
abbrev Dns := DnsLookup → Except String (List SocketAddr)

/-- `RouteDecision`, over the pools. -/
inductive RouteDecision (Pool : Type) where
  | direct (connectHost : Text)
  | proxy (pool : Pool)
  deriving DecidableEq

/-- `Router`. -/
structure Router (Pool : Type) where
  route : RouteConfig
  chinaIp : MergedIpSet
  pools : HashMap Pool

namespace Router

variable {Pool : Type}

/-- `ips.iter().all(|ip| self.china_ip.contains(*ip))`. -/
def allContained (set : ChinaIpSet) : List IpAddr → Eval Bool
  | [] => return true
  | ip :: ips => do if ← set.contains ip then allContained set ips else return false

/-- `lookup_host(..).await?`. -/
def lookupHost (dns : Dns) (l : DnsLookup) : Traced Fault DnsLookup (List SocketAddr) := do
  emit l
  match dns l with
  | .ok addrs => return addrs
  | .error err => bail err

/-- `Router::classify_domain`. -/
def classifyDomain (router : Router Pool) (dns : Dns) (host : Text) (port : Nat) :
    Traced Fault DnsLookup (Option IpAddr) := do
  let addrs ← lookupHost dns ⟨host, port⟩
  let ips := addrs.map SocketAddr.ip
  if ips = [] then return none
  else if ← allContained router.chinaIp.toChinaIpSet ips then return ips.head?
  else return none

/-- The end of `decide`: the pool of the user's backend. -/
def proxy (router : Router Pool) (user : UserProfile) : Eval (RouteDecision Pool) :=
  match router.pools.lookup user.backend with
  | some pool => return .proxy pool
  | none => bail s!"backend {String.ofList user.backend} not found"

/-- `Router::decide`. -/
def decide (router : Router Pool) (text : IpText) (dns : Dns) (user : UserProfile)
    (targetHost : Text) (targetPort : Nat) : Traced Fault DnsLookup (RouteDecision Pool) :=
  if router.route.chinaIpDirect then
    match text.parse targetHost with
    | some ip => do
      if ← router.chinaIp.contains ip then return .direct targetHost
      else router.proxy user
    | none =>
      if router.route.domainStrategy = .systemDns then do
        match ← router.classifyDomain dns targetHost targetPort with
        | some ip => return .direct (text.display ip)
        | none => router.proxy user
      else router.proxy user
  else router.proxy user

/-! ## The documented routing function -/

section documented
variable (router : Router Pool) (text : IpText) (dns : Dns) (user : UserProfile)
  (targetHost : Text) (targetPort : Nat)

/-- The address is in the table: a range of its family covers it. -/
def InSet (ip : IpAddr) : Prop :=
  router.chinaIp.Covers ip

/-- Local names are looked up. -/
def LookupWanted : Prop :=
  router.route.chinaIpDirect = true ∧ text.parse targetHost = none ∧
    router.route.domainStrategy = .systemDns

/-- The lookup answers, with addresses that are all in the table. -/
def AllInSet (addrs : List SocketAddr) : Prop :=
  dns ⟨targetHost, targetPort⟩ = .ok addrs ∧ addrs ≠ [] ∧ ∀ addr ∈ addrs, router.InSet addr.ip

/-- The connection goes directly to `connectHost`: a literal in the table, or one
    of the addresses of a lookup that found only such. -/
def DirectTo (connectHost : Text) : Prop :=
  (router.route.chinaIpDirect = true ∧ connectHost = targetHost ∧
    ∃ ip, text.parse targetHost = some ip ∧ router.InSet ip) ∨
  (router.LookupWanted text targetHost ∧
    ∃ addrs, router.AllInSet dns targetHost targetPort addrs ∧
      ∃ addr ∈ addrs, connectHost = text.display addr.ip)

/-- The decision is the documented one. -/
structure RoutesAsDocumented (pool : Pool) : Prop where
  lookups : ∀ l ∈ (router.decide text dns user targetHost targetPort).events,
    l = ⟨targetHost, targetPort⟩ ∧ router.LookupWanted text targetHost
  direct : (∃ connectHost, router.DirectTo text dns targetHost targetPort connectHost) →
    ∃ connectHost, router.DirectTo text dns targetHost targetPort connectHost ∧
      (router.decide text dns user targetHost targetPort).result = .ok (.direct connectHost)
  proxied : (¬ ∃ connectHost, router.DirectTo text dns targetHost targetPort connectHost) →
    (router.decide text dns user targetHost targetPort).result = .ok (.proxy pool)

end documented

/-! ## When the router follows it -/

section decide
variable {router : Router Pool} {text : IpText} {dns : Dns} {user : UserProfile}
  {targetHost : Text} {targetPort : Nat} {pool : Pool}

theorem allContained_spec (set : MergedIpSet) (ips : List IpAddr) :
    ∃ b, allContained set.toChinaIpSet ips = .ok b ∧ (b = true ↔ ∀ ip ∈ ips, set.Covers ip) := by
  induction ips with
  | nil => exact ⟨true, rfl, fun _ _ h => (by cases h), fun _ => rfl⟩
  | cons ip ips ih =>
    obtain ⟨b, hb, hall⟩ := ih
    obtain ⟨found, hfound, hcovers⟩ := set.contains_covers ip
    rw [allContained, hfound, Result.ok_bind]
    cases found with
    | true => exact ⟨b, hb, by rw [hall, List.forall_mem_cons, ← hcovers]; simp⟩
    | false => exact ⟨false, rfl, by rw [List.forall_mem_cons, ← hcovers]; simp⟩

/-- The answer of `classify_domain`: an error of the lookup is its error. -/
theorem classifyDomain_error {err : String} (h : dns ⟨targetHost, targetPort⟩ = .error err) :
    router.classifyDomain dns targetHost targetPort =
      ⟨[⟨targetHost, targetPort⟩], .error (.error err)⟩ := by
  have hlookup : lookupHost dns ⟨targetHost, targetPort⟩ =
      ⟨[⟨targetHost, targetPort⟩], .error (.error err)⟩ := by
    rw [lookupHost, emit_bind, h]
    rfl
  rw [classifyDomain, hlookup]
  rfl

/-- Otherwise it is an address of the answer if all of them are in the table. -/
theorem classifyDomain_ok (router : Router Pool) {addrs : List SocketAddr}
    (h : dns ⟨targetHost, targetPort⟩ = .ok addrs) :
    ∃ found, router.classifyDomain dns targetHost targetPort =
        ⟨[⟨targetHost, targetPort⟩], .ok found⟩ ∧
      ((found = none ∧ ¬ router.AllInSet dns targetHost targetPort addrs) ∨
        ∃ addr ∈ addrs, found = some addr.ip ∧ router.AllInSet dns targetHost targetPort addrs) := by
  have hlookup : lookupHost dns ⟨targetHost, targetPort⟩ =
      ⟨[⟨targetHost, targetPort⟩], .ok addrs⟩ := by
    rw [lookupHost, emit_bind, h]
    rfl
  rw [classifyDomain, bind_ok _ (by rw [hlookup]), hlookup]
  cases addrs with
  | nil => exact ⟨none, rfl, .inl ⟨rfl, fun hall => hall.2.1 rfl⟩⟩
  | cons addr rest =>
    obtain ⟨b, hb, hall⟩ := allContained_spec router.chinaIp ((addr :: rest).map SocketAddr.ip)
    rw [List.forall_mem_map] at hall
    dsimp only
    rw [if_neg (by simp), hb, lift_ok_bind]
    cases b with
    | true =>
      exact ⟨some addr.ip, rfl, .inr ⟨addr, List.mem_cons_self, rfl, h, by simp, hall.mp rfl⟩⟩
    | false =>
      refine ⟨none, rfl, .inl ⟨rfl, fun hin => ?_⟩⟩
      have htrue := hall.mpr hin.2.2
      cases htrue

/-! The branches of `decide`, one by one. -/

theorem proxy_eq (hpool : router.pools.lookup user.backend = some pool) :
    (liftM (router.proxy user) : Traced Fault DnsLookup _) = ⟨[], .ok (.proxy pool)⟩ := by
  rw [proxy, hpool]
  rfl

theorem decide_literal (dns : Dns) (targetPort : Nat) (hpool : router.pools.lookup user.backend = some pool)
    (hon : router.route.chinaIpDirect = true) {ip : IpAddr} (hip : text.parse targetHost = some ip) :
    router.InSet ip ∧ router.decide text dns user targetHost targetPort =
        ⟨[], .ok (.direct targetHost)⟩ ∨
      ¬ router.InSet ip ∧ router.decide text dns user targetHost targetPort =
        ⟨[], .ok (.proxy pool)⟩ := by
  obtain ⟨b, hb, hcovers⟩ := router.chinaIp.contains_covers ip
  have hrun : router.decide text dns user targetHost targetPort =
      if b = true then ⟨[], .ok (.direct targetHost)⟩ else ⟨[], .ok (.proxy pool)⟩ := by
    rw [Router.decide, if_pos hon, hip]
    dsimp only
    rw [hb, lift_ok_bind, proxy_eq hpool]
    rfl
  cases b with
  | true => exact .inl ⟨hcovers.mp rfl, hrun⟩
  | false =>
    refine .inr ⟨fun hin => ?_, hrun⟩
    have htrue := hcovers.mpr hin
    cases htrue

/-- Without a literal and without a lookup the connection is proxied. -/
theorem decide_remote (hpool : router.pools.lookup user.backend = some pool)
    (h : router.route.chinaIpDirect = false ∨ text.parse targetHost = none ∧
      router.route.domainStrategy ≠ .systemDns) :
    router.decide text dns user targetHost targetPort = ⟨[], .ok (.proxy pool)⟩ := by
  rw [Router.decide]
  cases hon : router.route.chinaIpDirect with
  | false =>
    rw [if_neg Bool.false_ne_true]
    exact proxy_eq hpool
  | true =>
    rcases h with hoff | ⟨hnone, hstrategy⟩
    · rw [hon] at hoff
      cases hoff
    · rw [if_pos rfl, hnone]
      dsimp only
      rw [if_neg hstrategy]
      exact proxy_eq hpool

theorem decide_lookup (dns : Dns) (user : UserProfile) (targetPort : Nat)
    (h : router.LookupWanted text targetHost) :
    router.decide text dns user targetHost targetPort = (do
      match ← router.classifyDomain dns targetHost targetPort with
      | some ip => return .direct (text.display ip)
      | none => router.proxy user) := by
  obtain ⟨hon, hnone, hstrategy⟩ := h
  rw [Router.decide, if_pos hon, hnone]
  exact if_pos hstrategy

/-- Nothing but a lookup leads to a direct connection of a name. -/
theorem directTo_iff_of_none (hnone : text.parse targetHost = none) (connectHost : Text) :
    router.DirectTo text dns targetHost targetPort connectHost ↔
      router.LookupWanted text targetHost ∧
        ∃ addrs, router.AllInSet dns targetHost targetPort addrs ∧
          ∃ addr ∈ addrs, connectHost = text.display addr.ip := by
  simp [DirectTo, hnone]

/-- A direct decision that is documented. -/
theorem documented_of_direct {events : List DnsLookup} {connectHost : Text}
    (hrun : router.decide text dns user targetHost targetPort = ⟨events, .ok (.direct connectHost)⟩)
    (hevents : ∀ l ∈ events, l = ⟨targetHost, targetPort⟩ ∧ router.LookupWanted text targetHost)
    (hdirect : router.DirectTo text dns targetHost targetPort connectHost) :
    router.RoutesAsDocumented text dns user targetHost targetPort pool where
  lookups := by rwa [hrun]
  direct := fun _ => ⟨connectHost, hdirect, by rw [hrun]⟩
  proxied := fun h => absurd ⟨connectHost, hdirect⟩ h

/-- A proxy decision that is documented. -/
theorem documented_of_proxy {events : List DnsLookup}
    (hrun : router.decide text dns user targetHost targetPort = ⟨events, .ok (.proxy pool)⟩)
    (hevents : ∀ l ∈ events, l = ⟨targetHost, targetPort⟩ ∧ router.LookupWanted text targetHost)
    (hdirect : ∀ connectHost, ¬ router.DirectTo text dns targetHost targetPort connectHost) :
    router.RoutesAsDocumented text dns user targetHost targetPort pool where
  lookups := by rwa [hrun]
  direct := fun ⟨connectHost, h⟩ => absurd h (hdirect connectHost)
  proxied := fun _ => by rw [hrun]

/-- Where no lookup is wanted, `decide` follows the document. -/
theorem documented_of_no_lookup (hpool : router.pools.lookup user.backend = some pool)
    (hwanted : ¬ router.LookupWanted text targetHost) :
    router.RoutesAsDocumented text dns user targetHost targetPort pool := by
  have hnone : ∀ l ∈ ([] : List DnsLookup),
      l = ⟨targetHost, targetPort⟩ ∧ router.LookupWanted text targetHost := fun l hl => by cases hl
  cases hon : router.route.chinaIpDirect with
  | false =>
    refine documented_of_proxy (decide_remote hpool (.inl hon)) hnone fun connectHost hdirect => ?_
    rcases hdirect with ⟨htrue, -⟩ | ⟨h, -⟩
    · rw [hon] at htrue
      cases htrue
    · exact hwanted h
  | true =>
    -- a literal is its own address, and any other host goes to the proxy
    cases hparse : text.parse targetHost with
    | none =>
      have hstrategy : router.route.domainStrategy ≠ .systemDns :=
        fun hstrategy => hwanted ⟨hon, hparse, hstrategy⟩
      refine documented_of_proxy (decide_remote hpool (.inr ⟨hparse, hstrategy⟩)) hnone
        fun connectHost hdirect => ?_
      exact hwanted ((directTo_iff_of_none hparse connectHost).mp hdirect).1
    | some ip =>
      rcases decide_literal dns targetPort hpool hon hparse with
        ⟨hin, hrun⟩ | ⟨hout, hrun⟩
      · exact documented_of_direct hrun hnone (.inl ⟨hon, rfl, ip, hparse, hin⟩)
      · refine documented_of_proxy hrun hnone fun connectHost hdirect => ?_
        rcases hdirect with ⟨-, -, ip', hparse', hin⟩ | ⟨h, -⟩
        · rw [hparse] at hparse'
          obtain rfl := Option.some.inj hparse'
          exact hout hin
        · exact hwanted h

/-- Where a lookup succeeds, `decide` follows the document. -/
theorem documented_of_lookup (hpool : router.pools.lookup user.backend = some pool)
    (hwanted : router.LookupWanted text targetHost) {addrs : List SocketAddr}
    (hdns : dns ⟨targetHost, targetPort⟩ = .ok addrs) :
    router.RoutesAsDocumented text dns user targetHost targetPort pool := by
  have hrun := decide_lookup dns user targetPort hwanted
  have hevents : ∀ l ∈ [DnsLookup.mk targetHost targetPort],
      l = ⟨targetHost, targetPort⟩ ∧ router.LookupWanted text targetHost :=
    fun l hl => ⟨List.mem_singleton.mp hl, hwanted⟩
  obtain ⟨found, hfound, hcase⟩ := classifyDomain_ok router hdns
  rw [hfound, bind_ok _ rfl] at hrun
  rcases hcase with ⟨rfl, hnot⟩ | ⟨addr, hmem, rfl, hall⟩
  · simp only [proxy_eq hpool, List.append_nil] at hrun
    refine documented_of_proxy hrun hevents fun connectHost hdirect => ?_
    obtain ⟨-, addrs', hall, -⟩ := (directTo_iff_of_none hwanted.2.1 connectHost).mp hdirect
    have hsame := hall.1
    rw [hdns] at hsame
    obtain rfl := Except.ok.inj hsame
    exact hnot hall
  · exact documented_of_direct hrun hevents (.inr ⟨hwanted, addrs, hall, addr, hmem, rfl⟩)

/-- **The router routes as documented exactly where** no lookup it makes fails:
    the error of a lookup ends `decide`, where the connection should be
    proxied. -/
theorem decide_exact (hpool : router.pools.lookup user.backend = some pool) :
    router.RoutesAsDocumented text dns user targetHost targetPort pool ↔
      ¬ (router.LookupWanted text targetHost ∧ ∃ err, dns ⟨targetHost, targetPort⟩ = .error err) := by
  by_cases hwanted : router.LookupWanted text targetHost
  · cases hdns : dns ⟨targetHost, targetPort⟩ with
    | error err =>
      -- nothing is direct, and what comes out is the error
      have hrun := decide_lookup dns user targetPort hwanted
      rw [classifyDomain_error hdns, bind_error _ rfl] at hrun
      refine ⟨fun h => ?_, fun h => absurd ⟨hwanted, err, rfl⟩ h⟩
      have hproxied := h.proxied (by
        intro ⟨connectHost, hdirect⟩
        obtain ⟨-, addrs, ⟨hok, -⟩, -⟩ := (directTo_iff_of_none hwanted.2.1 connectHost).mp hdirect
        rw [hdns] at hok
        cases hok)
      rw [hrun] at hproxied
      cases hproxied
    | ok addrs =>
      refine ⟨fun _ => ?_, fun _ => documented_of_lookup hpool hwanted hdns⟩
      intro ⟨_, err, herr⟩
      cases herr
  · exact ⟨fun _ h => hwanted h.1, fun _ => documented_of_no_lookup hpool hwanted⟩

/-- What `decide` can come to, whether the user's backend has a pool or not: a
    direct connection where one is documented, else the pool or an error. -/
theorem decide_cases (router : Router Pool) (text : IpText) (dns : Dns) (user : UserProfile)
    (targetHost : Text) (targetPort : Nat) :
    (∃ connectHost, router.DirectTo text dns targetHost targetPort connectHost ∧
      (router.decide text dns user targetHost targetPort).result = .ok (.direct connectHost)) ∨
    (¬ ∃ connectHost, router.DirectTo text dns targetHost targetPort connectHost) ∧
      ((router.decide text dns user targetHost targetPort).result = router.proxy user ∨
        ∃ fault, (router.decide text dns user targetHost targetPort).result = .error fault) := by
  by_cases hwanted : router.LookupWanted text targetHost
  · have hrun := decide_lookup dns user targetPort hwanted
    cases hdns : dns ⟨targetHost, targetPort⟩ with
    | error err =>
      rw [classifyDomain_error hdns, bind_error _ rfl] at hrun
      refine .inr ⟨fun ⟨connectHost, hdirect⟩ => ?_, .inr ⟨_, by rw [hrun]⟩⟩
      obtain ⟨-, addrs, ⟨hok, -⟩, -⟩ := (directTo_iff_of_none hwanted.2.1 connectHost).mp hdirect
      rw [hdns] at hok
      cases hok
    | ok addrs =>
      obtain ⟨found, hfound, hcase⟩ := classifyDomain_ok router hdns
      rw [hfound, bind_ok _ rfl] at hrun
      -- an answer outside the table in any part goes to the proxy
      rcases hcase with ⟨rfl, hnot⟩ | ⟨addr, hmem, rfl, hall⟩
      · refine .inr ⟨fun ⟨connectHost, hdirect⟩ => ?_, .inl (by rw [hrun]; rfl)⟩
        obtain ⟨-, addrs', hall, -⟩ := (directTo_iff_of_none hwanted.2.1 connectHost).mp hdirect
        have hsame := hall.1
        rw [hdns] at hsame
        exact hnot (Except.ok.inj hsame ▸ hall)
      · exact .inl ⟨_, .inr ⟨hwanted, addrs, hall, addr, hmem, rfl⟩, by rw [hrun]; rfl⟩
  · -- no lookup: a literal in the table, or nothing
    by_cases hliteral : router.route.chinaIpDirect = true ∧
        ∃ ip, text.parse targetHost = some ip ∧ router.InSet ip
    · obtain ⟨hon, ip, hip, hin⟩ := hliteral
      refine .inl ⟨targetHost, .inl ⟨hon, rfl, ip, hip, hin⟩, ?_⟩
      obtain ⟨b, hb, hcovers⟩ := router.chinaIp.contains_covers ip
      obtain rfl : b = true := hcovers.mpr hin
      rw [Router.decide, if_pos hon, hip]
      dsimp only
      rw [hb, lift_ok_bind, if_pos rfl]
      rfl
    · refine .inr ⟨?_, .inl ?_⟩
      · rintro ⟨connectHost, ⟨hon, -, hin⟩ | ⟨hlookup, -⟩⟩
        · exact hliteral ⟨hon, hin⟩
        · exact hwanted hlookup
      · rw [Router.decide]
        split
        · next hon =>
          cases hparse : text.parse targetHost with
          | some ip =>
            obtain ⟨b, hb, hcovers⟩ := router.chinaIp.contains_covers ip
            dsimp only
            rw [hb, lift_ok_bind]
            cases b with
            | true => exact absurd ⟨hon, ip, hparse, hcovers.mp rfl⟩ hliteral
            | false => rfl
          | none =>
            dsimp only
            rw [if_neg fun hstrategy => hwanted ⟨hon, hparse, hstrategy⟩]
            rfl
        · rfl

/-- With a pool for the user's backend, `decide` fails only where a lookup of the
    target does. -/
theorem decide_error (hpool : router.pools.lookup user.backend = some pool) {fault : Fault}
    (h : (router.decide text dns user targetHost targetPort).result = .error fault) :
    router.LookupWanted text targetHost ∧
      ∃ err, dns ⟨targetHost, targetPort⟩ = .error err ∧ fault = .error err := by
  -- a documented decision is no error
  have hundocumented : ¬ router.RoutesAsDocumented text dns user targetHost targetPort pool := by
    intro hdocumented
    by_cases hdirect : ∃ connectHost, router.DirectTo text dns targetHost targetPort connectHost
    · obtain ⟨connectHost, -, hok⟩ := hdocumented.direct hdirect
      rw [h] at hok
      cases hok
    · have hok := hdocumented.proxied hdirect
      rw [h] at hok
      cases hok
  by_cases hwanted : router.LookupWanted text targetHost
  · cases hdns : dns ⟨targetHost, targetPort⟩ with
    | error err =>
      rw [decide_lookup dns user targetPort hwanted, classifyDomain_error hdns,
        bind_error _ rfl] at h
      exact ⟨hwanted, err, rfl, (Except.error.inj h).symm⟩
    | ok addrs => exact absurd (documented_of_lookup hpool hwanted hdns) hundocumented
  · exact absurd (documented_of_no_lookup hpool hwanted) hundocumented

/-- A proxied connection goes through the pool of the user's backend. -/
theorem pool_of_decide
    (h : (router.decide text dns user targetHost targetPort).result = .ok (.proxy pool)) :
    router.pools.lookup user.backend = some pool := by
  rcases decide_cases router text dns user targetHost targetPort with
    ⟨connectHost, -, hdirect⟩ | ⟨-, hproxy | ⟨fault, herror⟩⟩
  · rw [h] at hdirect
    cases hdirect
  · rw [h, proxy] at hproxy
    split at hproxy
    · next found hfound =>
      have hpool := Except.ok.inj hproxy
      rw [hfound, RouteDecision.proxy.inj hpool]
    · cases hproxy
  · rw [h] at herror
    cases herror

/-- A direct connection is a documented one. -/
theorem directTo_of_decide {connectHost : Text}
    (h : (router.decide text dns user targetHost targetPort).result = .ok (.direct connectHost)) :
    router.DirectTo text dns targetHost targetPort connectHost := by
  rcases decide_cases router text dns user targetHost targetPort with
    ⟨connectHost', hto, hdirect⟩ | ⟨-, hproxy | ⟨fault, herror⟩⟩
  · rw [h] at hdirect
    obtain rfl := RouteDecision.direct.inj (Except.ok.inj hdirect)
    exact hto
  · rw [h, proxy] at hproxy
    split at hproxy <;> cases hproxy
  · rw [h] at herror
    cases herror

end decide

/-! ## A failed lookup -/

theorem exampleBounds : (0x0a000000 : Word 32) ≤ 0x0affffff := by decide

/-- The network 10.0.0.0/8. -/
def exampleIpSet : MergedIpSet where
  v4 := [(0x0a000000, 0x0affffff)]
  v6 := []
  v4_normal := .one exampleBounds
  v6_normal := MergedIpSet.nil_v6

/-- A router that looks names up, with one network as its table. -/
def exampleRouter : Router Nat where
  route := ⟨true, .systemDns⟩
  chinaIp := exampleIpSet
  pools := [("backend".toList, 7)]

theorem exampleRouter_inSet : exampleRouter.InSet (.v4 (.new 10 0 0 1)) :=
  ⟨_, List.mem_cons_self, by decide, by decide⟩

def exampleUser : UserProfile := ⟨"alice".toList, "secret".toList, "backend".toList⟩

theorem decide_exact_example :
    exampleRouter.RoutesAsDocumented .std (fun _ => .ok [⟨.v4 (.new 10 0 0 1), 443⟩])
      exampleUser "a.example".toList 443 7 :=
  (decide_exact rfl).mpr fun ⟨_, err, herr⟩ => by cases herr

/-- A lookup that fails ends `decide` with its error. -/
theorem failed_lookup_not_proxied :
    ¬ exampleRouter.RoutesAsDocumented .std (fun _ => .error "no such host") exampleUser
      "a.example".toList 443 7 := by
  intro h
  have hproxied := h.proxied (by
    rintro ⟨connectHost, ⟨-, -, ip, hip, -⟩ | ⟨-, addrs, ⟨hok, -⟩, -⟩⟩
    · cases hip
    · cases hok)
  cases hproxied

end Router

end EchProxy
