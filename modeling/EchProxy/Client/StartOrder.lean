import EchProxy.Client.Startup

/-! # The Order of a Start (`run` in `client/src/main.rs`)

    The hash maps of the configuration are walked in an order that differs from
    one process to the next.  Where what the connect of each backend meets is the
    same in every order, nothing but the order of the connection attempts depends
    on it: a client starts in every order or in none, and what it then serves does
    not tell the orders apart.

    What a connect meets is the network, the files and the ECHConfigList that the
    cache has for it.  The last is where one backend could touch another: the
    cache has one entry for a DoH URL and a name, so two backends that share both
    leave each other an entry, and which of them finds it is up to the order.
    Backends that do not share both are within what is shown here.
-/

namespace EchProxy

open Checked Traced

variable {w : Width}

/-! ## Without an order -/

/-- Two routers that differ in the order of their pools. -/
structure Router.Alike {Pool : Type} (a b : Router Pool) : Prop where
  route : a.route = b.route
  chinaIp : a.chinaIp = b.chinaIp
  pools : ∀ backend, a.pools.lookup backend = b.pools.lookup backend

/-- They route alike: the same lookups, with the same outcome. -/
theorem Router.Alike.decide {Pool : Type} {a b : Router Pool} (h : a.Alike b) (text : IpText)
    (dns : Dns) (user : UserProfile) (targetHost : Text) (targetPort : Nat) :
    a.decide text dns user targetHost targetPort = b.decide text dns user targetHost targetPort := by
  have hproxy : a.proxy user = b.proxy user := by
    rw [Router.proxy, Router.proxy, h.pools]
  have hclassify : a.classifyDomain dns targetHost targetPort =
      b.classifyDomain dns targetHost targetPort := by
    rw [Router.classifyDomain, Router.classifyDomain, h.chinaIp]
  rw [Router.decide, Router.decide, h.route, h.chinaIp, hproxy, hclassify]

/-- Two clients that serve alike: they know the same users with the same
    passwords, and route alike. -/
structure Serving.Alike (a b : Serving w) : Prop where
  user : ∀ username, a.auth.user username = b.auth.user username
  authenticate : ∀ username password,
    a.auth.authenticate username password = b.auth.authenticate username password
  router : a.router.Alike b.router
  options : a.options = b.options

/-! ## The parts of a start, in another order -/

/-- The store of the users. -/
theorem AuthStore.fromConfig_reorder {users users' : HashMap UserConfig} {auth : AuthStore}
    (h : fromConfig users = .ok auth) (hdistinct : Assoc.Distinct users)
    (hperm : users'.Perm users) :
    ∃ auth', fromConfig users' = .ok auth' ∧
      ∀ username, auth'.user username = auth.user username := by
  obtain ⟨profiles, hmade, -, hlookup⟩ := (fromConfig_made h).reorder hdistinct hperm
  refine ⟨⟨profiles⟩, ?_, hlookup⟩
  have hsome : users' ≠ [] := by
    rintro rfl
    obtain rfl : users = [] := List.nil_perm.mp hperm
    cases h
  rw [fromConfig, if_neg hsome]
  have hloaded : (users'.mapM fun entry => do
      return (entry.1, ← AuthStore.profile entry.1 entry.2)) = Except.ok profiles := by
    apply Result.mapM_of_forall₂
    refine hmade.imp ?_
    intro entry stored ⟨hkey, hprofile⟩
    rw [hprofile, Result.ok_bind, ← hkey]
    rfl
  rw [hloaded, Result.ok_bind]
  rfl

/-- The loop over the backends connects each, and does what that does. -/
theorem PoolRegistry.connectEach_of_made {overflowChecks : Bool}
    {world : Text → Nat → Ech.World w} {ech : EchConfig} {backends : HashMap (BackendEntry w)}
    {pools : HashMap (ConnectedPool w)}
    (h : Assoc.Made (fun id entry pool =>
      (ConnectedPool.connect overflowChecks (world id) entry ech).result = .ok pool)
      backends pools) :
    connectEach overflowChecks world ech backends =
      ⟨backends.flatMap fun entry =>
        (ConnectedPool.connect overflowChecks (world entry.1) entry.2 ech).events, .ok pools⟩ := by
  induction h with
  | nil => rfl
  | @cons entry made backends pools hentry _ ih =>
    obtain ⟨id, entry⟩ := entry
    obtain ⟨id', pool⟩ := made
    obtain ⟨rfl, hpool⟩ := hentry
    rw [connectEach, observe_bind]
    dsimp only at hpool ⊢
    rw [hpool, withContext, lift_ok_bind, bind_ok _ (congrArg Traced.result ih), ih,
      List.flatMap_cons]
    dsimp only
    rw [Traced.pure_eq, List.append_nil]

/-- The registry of the pools. -/
theorem PoolRegistry.connect_reorder {overflowChecks : Bool} {world : Text → Nat → Ech.World w}
    {ech : EchConfig} {backends backends' : HashMap (BackendEntry w)} {registry : PoolRegistry w}
    (h : (connect overflowChecks world backends ech).result = .ok registry)
    (hdistinct : Assoc.Distinct backends) (hperm : backends'.Perm backends) :
    ∃ registry', (connect overflowChecks world backends' ech).result = .ok registry' ∧
      (∀ id, registry'.get id = registry.get id) ∧
      (connect overflowChecks world backends' ech).events.Perm
        (connect overflowChecks world backends ech).events := by
  -- a connect that succeeds is the loop, and every loop over made entries is as long
  have hconnect : ∀ {entries : HashMap (BackendEntry w)} {pools : HashMap (ConnectedPool w)},
      entries ≠ [] → Assoc.Made (fun id entry pool =>
        (ConnectedPool.connect overflowChecks (world id) entry ech).result = .ok pool)
        entries pools →
      connect overflowChecks world entries ech =
        ⟨entries.flatMap fun entry =>
          (ConnectedPool.connect overflowChecks (world entry.1) entry.2 ech).events,
          .ok ⟨pools⟩⟩ := by
    intro entries pools hsome hmade
    have hnonempty : entries.isEmpty = false := by
      rwa [List.isEmpty_eq_false_iff]
    rw [connect, hnonempty, if_neg (by simp), connectEach_of_made hmade, bind_ok _ rfl]
    dsimp only
    rw [Traced.pure_eq, List.append_nil]
  unfold connect at h
  split at h
  · cases h
  · next hsome =>
    rw [List.isEmpty_iff] at hsome
    rw [result_bind, Result.bind_eq_ok] at h
    obtain ⟨pools, hpools, h⟩ := h
    obtain rfl := Except.ok.inj h
    have hmade := connectEach_made hpools
    obtain ⟨pools', hmade', -, hlookup⟩ := hmade.reorder hdistinct hperm
    have hsome' : backends' ≠ [] := by
      rintro rfl
      exact hsome (List.nil_perm.mp hperm)
    rw [hconnect hsome' hmade', hconnect hsome hmade]
    exact ⟨⟨pools'⟩, rfl, hlookup, hperm.flatMap_right _⟩

/-- The check of the users. -/
theorem validateUsersBackends_reorder {backends : HashMap (BackendEntry w)}
    {users users' : HashMap UserConfig} (h : validateUsersBackends backends users = .ok ())
    (hperm : users'.Perm users) : validateUsersBackends backends users' = .ok () := by
  have hall : ∀ entry ∈ users', (backends.lookup entry.2.backend).isNone = false := by
    intro entry hentry
    obtain ⟨found, hfound⟩ := validateUsersBackends_ok h entry.1 entry.2 (hperm.subset hentry)
    rw [hfound]
    rfl
  clear hperm h
  induction users' with
  | nil => rfl
  | cons entry users' ih =>
    rw [validateUsersBackends, hall entry List.mem_cons_self, if_neg (by simp)]
    exact ih fun entry' hentry' => hall entry' (List.mem_cons_of_mem _ hentry')

/-! ## The start -/

section order
variable {env : Environment w} {config : Config w} {serving : Serving w}

/-- A start that succeeds does what the connect of the pools does. -/
theorem run_eq {walks : Walks config} {auth : AuthStore} {chinaIp : MergedIpSet}
    {pools : PoolRegistry w} (hauth : AuthStore.fromConfig walks.profiles = .ok auth)
    (hchina : MergedIpSet.load env.tableLib env.ipv4Cidrs env.ipv6Cidrs = .ok chinaIp)
    (hpools : (PoolRegistry.connect env.overflowChecks env.world walks.pools config.ech).result =
      .ok pools)
    (hvalidated : validateUsersBackends config.backends walks.checked = .ok ()) :
    run env config walks =
      ⟨(PoolRegistry.connect env.overflowChecks env.world walks.pools config.ech).events,
        .ok ⟨auth, Router.new config.route chinaIp pools,
          ⟨config.listen.socks5AllowNoAuth, config.listen.socks5DefaultUser⟩⟩⟩ := by
  rw [run, hauth, hchina, hvalidated]
  simp only [Except.mapError, lift_ok_bind]
  rw [bind_ok _ hpools, Traced.pure_eq]
  simp only [List.append_nil]

theorem parts_of_run {walks : Walks config} (h : (run env config walks).result = .ok serving) :
    ∃ auth chinaIp pools, AuthStore.fromConfig walks.profiles = .ok auth ∧
      MergedIpSet.load env.tableLib env.ipv4Cidrs env.ipv6Cidrs = .ok chinaIp ∧
      (PoolRegistry.connect env.overflowChecks env.world walks.pools config.ech).result =
        .ok pools ∧
      validateUsersBackends config.backends walks.checked = .ok () ∧
      serving = ⟨auth, Router.new config.route chinaIp pools,
        ⟨config.listen.socks5AllowNoAuth, config.listen.socks5DefaultUser⟩⟩ := by
  rw [run, result_bind, lift_result, Result.bind_eq_ok] at h
  obtain ⟨auth, hauth, h⟩ := h
  rw [result_bind, lift_result, Result.bind_eq_ok] at h
  obtain ⟨chinaIp, hchina, h⟩ := h
  rw [result_bind, Result.bind_eq_ok] at h
  obtain ⟨pools, hpools, h⟩ := h
  dsimp only at h
  rw [result_bind, lift_result, Result.bind_eq_ok] at h
  obtain ⟨_, hvalidated, h⟩ := h
  obtain rfl := Except.ok.inj h
  exact ⟨auth, chinaIp, pools, Result.mapError_eq_ok.mp hauth, Result.mapError_eq_ok.mp hchina,
    hpools, hvalidated, rfl⟩

/-- **The start does not depend on the order of the maps**: in an environment that
    does not depend on the order itself, if a client starts in one order it starts
    in every order, connects what it connects there, and serves alike; and alike it
    decides for every target. -/
theorem start_any_order (walks walks' : Walks config)
    (h : (run env config walks).result = .ok serving) :
    ∃ serving', (run env config walks').result = .ok serving' ∧ serving'.Alike serving ∧
      (∀ text dns user host port, serving'.router.decide text dns user host port =
        serving.router.decide text dns user host port) ∧
      (run env config walks').events.Perm (run env config walks).events := by
  obtain ⟨auth, chinaIp, pools, hauth, hchina, hpools, hvalidated, rfl⟩ := parts_of_run h
  -- both walks are orders of the one map
  have hprofiles : walks'.profiles.Perm walks.profiles :=
    walks'.profiles_perm.trans walks.profiles_perm.symm
  have hentries : walks'.pools.Perm walks.pools := walks'.pools_perm.trans walks.pools_perm.symm
  have hchecked : walks'.checked.Perm walks.checked :=
    walks'.checked_perm.trans walks.checked_perm.symm
  have hdistinct : Assoc.Distinct walks.profiles := config.users_distinct.perm walks.profiles_perm
  have hdistinct' : Assoc.Distinct walks.pools := config.backends_distinct.perm walks.pools_perm
  obtain ⟨auth', hauth', huser⟩ := AuthStore.fromConfig_reorder hauth hdistinct hprofiles
  obtain ⟨pools', hpools', hget, hevents⟩ :=
    PoolRegistry.connect_reorder hpools hdistinct' hentries
  have hvalidated' := validateUsersBackends_reorder hvalidated hchecked
  have hrouter : (Router.new config.route chinaIp pools').Alike
      (Router.new config.route chinaIp pools) := ⟨rfl, rfl, hget⟩
  rw [run_eq hauth' hchina hpools' hvalidated', run_eq hauth hchina hpools hvalidated]
  refine ⟨_, rfl, ⟨huser, ?_, hrouter, rfl⟩, hrouter.decide, hevents⟩
  intro username password
  have hsame : auth'.users.lookup username = auth.users.lookup username := huser username
  rw [AuthStore.authenticate, AuthStore.authenticate, hsame]

end order

def twoEntries : HashMap (BackendEntry .bits64) :=
  [("backend".toList, exampleEntry), ("other".toList, exampleEntry)]

theorem twoEntries_distinct : Assoc.Distinct twoEntries := by
  rw [Assoc.Distinct, twoEntries, List.map_cons, List.map_cons, List.map_nil]
  decide

theorem exampleUsers_distinct : Assoc.Distinct exampleUsers := List.nodup_singleton _

/-- Two backends, of which one is walked first or the other. -/
def twoBackends : Config .bits64 where
  listen := ⟨true, some "alice".toList⟩
  users := exampleUsers
  backends := twoEntries
  ech := .default
  route := .default
  users_distinct := exampleUsers_distinct
  backends_distinct := twoEntries_distinct

def twoWalks : Walks twoBackends where
  profiles := twoBackends.users
  profiles_perm := .refl _
  pools := twoBackends.backends
  pools_perm := .refl _
  checked := twoBackends.users
  checked_perm := .refl _

def backwards : Walks twoBackends :=
  { twoWalks with pools := twoBackends.backends.reverse, pools_perm := List.reverse_perm _ }

theorem start_any_order_backwards :
    ∃ serving serving', (run exampleEnvironment twoBackends twoWalks).result = .ok serving ∧
      (run exampleEnvironment twoBackends backwards).result = .ok serving' ∧
      serving'.router.pools ≠ serving.router.pools ∧ serving'.Alike serving := by
  obtain ⟨serving, hrun⟩ : ∃ serving,
      (run exampleEnvironment twoBackends twoWalks).result = .ok serving := ⟨_, rfl⟩
  obtain ⟨serving', hrun', halike, -⟩ := start_any_order twoWalks backwards hrun
  refine ⟨serving, serving', hrun, hrun', ?_, halike⟩
  obtain rfl := Except.ok.inj hrun
  obtain rfl := Except.ok.inj hrun'
  intro hsame
  have hkeys := congrArg (List.map Prod.fst) hsame
  revert hkeys
  decide

end EchProxy
