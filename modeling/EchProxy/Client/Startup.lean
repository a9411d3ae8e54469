import EchProxy.Client.Registry
import EchProxy.Ingress.Authenticated
import EchProxy.Route.Coverage

/-! # Starting the Client (`run` in `client/src/main.rs`)

    The configuration becomes a store of users, a registry of pools and a
    router, and only then its users are checked against its backends.  The maps
    of the configuration are walked three times, each time in an order of its
    own.

    A client that gets as far as serving routes every user: whoever an ingress
    lets in, the registry has the pool of the backend that the user's entry
    names, connected from the backend's entry.
-/

namespace EchProxy

open Checked Traced

variable {w : Width}

/-! ## The model -/

/-- `ListenConfig`, by the options of the SOCKS5 ingress. -/
structure ListenConfig where
  socks5AllowNoAuth : Bool
  socks5DefaultUser : Option Text
  deriving DecidableEq

/-- `Config`. -/
structure Config (w : Width) where
  listen : ListenConfig
  users : HashMap UserConfig
  backends : HashMap (BackendEntry w)
  ech : EchConfig
  route : RouteConfig
  users_distinct : Assoc.Distinct users
  backends_distinct : Assoc.Distinct backends

/-- The orders in which `run` walks the maps. -/
structure Walks (config : Config w) where
  /-- In `AuthStore::from_config`. -/
  profiles : HashMap UserConfig
  profiles_perm : profiles.Perm config.users
  /-- In `PoolRegistry::connect`. -/
  pools : HashMap (BackendEntry w)
  pools_perm : pools.Perm config.backends
  /-- In `validate_users_backends`. -/
  checked : HashMap UserConfig
  checked_perm : checked.Perm config.users

/-- What `run` meets. -/
structure Environment (w : Width) where
  overflowChecks : Bool
  /-- The world around each channel of each backend.  What a channel finds in
      the cache of the ECHConfigLists is a part of it, the entries of earlier
      channels included. -/
  world : Text → Nat → Ech.World w
  tableLib : TableLib
  ipv4Cidrs : TableFile
  ipv6Cidrs : TableFile

def missingBackend (username backend : Text) : String :=
  s!"users.{String.ofList username}.backend references missing backend {String.ofList backend}"

/-- `validate_users_backends`, over the users in the order of the walk. -/
def validateUsersBackends (backends : HashMap (BackendEntry w)) : HashMap UserConfig → Eval Unit
  | [] => return ()
  | (username, user) :: users =>
    if (backends.lookup user.backend).isNone then
      bail (missingBackend username user.backend)
    else validateUsersBackends backends users

/-- `Router::new`. -/
def Router.new (route : RouteConfig) (chinaIp : MergedIpSet) (pools : PoolRegistry w) :
    Router (ConnectedPool w) :=
  ⟨route, chinaIp, pools.pools⟩

/-- What the two ingresses are started with. -/
structure Serving (w : Width) where
  auth : AuthStore
  router : Router (ConnectedPool w)
  options : Socks.Socks5Options

/-- `run`, up to where it starts the ingresses. -/
def run (env : Environment w) (config : Config w) (walks : Walks config) :
    Traced Fault Ech.Event (Serving w) := do
  let auth ← (AuthStore.fromConfig walks.profiles).mapError Fault.error
  let chinaIp ← (MergedIpSet.load env.tableLib env.ipv4Cidrs env.ipv6Cidrs).mapError
    fun err => Fault.error err.message
  let pools ← PoolRegistry.connect env.overflowChecks env.world walks.pools config.ech
  let router := Router.new config.route chinaIp pools
  validateUsersBackends config.backends walks.checked
  return ⟨auth, router, ⟨config.listen.socks5AllowNoAuth, config.listen.socks5DefaultUser⟩⟩

/-! ## What a start that succeeds has done -/

section started
variable {env : Environment w} {config : Config w} {walks : Walks config} {serving : Serving w}

/-- The check finds an entry for every user. -/
theorem validateUsersBackends_ok {backends : HashMap (BackendEntry w)}
    {users : HashMap UserConfig} (h : validateUsersBackends backends users = .ok ()) :
    ∀ username user, (username, user) ∈ users →
      ∃ entry, backends.lookup user.backend = some entry := by
  induction users with
  | nil =>
    intro username user hmem
    cases hmem
  | cons first users ih =>
    obtain ⟨username', user'⟩ := first
    rw [validateUsersBackends] at h
    split at h
    · cases h
    · next hpresent =>
      intro username user hmem
      rcases List.mem_cons.mp hmem with heq | hmem
      · obtain ⟨rfl, rfl⟩ := Prod.mk.inj heq
        rw [Option.isNone_iff_eq_none] at hpresent
        exact Option.ne_none_iff_exists'.mp hpresent
      · exact ih h username user hmem

/-- A start, by its parts. -/
structure Started (env : Environment w) (config : Config w) (walks : Walks config)
    (serving : Serving w) : Prop where
  auth : AuthStore.fromConfig walks.profiles = .ok serving.auth
  pools : (PoolRegistry.connect env.overflowChecks env.world walks.pools config.ech).result =
    .ok ⟨serving.router.pools⟩
  validated : validateUsersBackends config.backends walks.checked = .ok ()

theorem started_of_run (h : (run env config walks).result = .ok serving) :
    Started env config walks serving := by
  rw [run, result_bind, lift_result, Result.bind_eq_ok] at h
  obtain ⟨auth, hauth, h⟩ := h
  rw [result_bind, lift_result, Result.bind_eq_ok] at h
  obtain ⟨chinaIp, -, h⟩ := h
  rw [result_bind, Result.bind_eq_ok] at h
  obtain ⟨pools, hpools, h⟩ := h
  dsimp only at h
  rw [result_bind, lift_result, Result.bind_eq_ok] at h
  obtain ⟨_, hvalidated, h⟩ := h
  obtain rfl := Except.ok.inj h
  exact ⟨Result.mapError_eq_ok.mp hauth, hpools, hvalidated⟩

/-- The pool a user is routed to: the user's own entry names a backend, and the
    pool of that backend is the one that was connected from its entry. -/
structure HasPool (env : Environment w) (config : Config w) (serving : Serving w)
    (user : UserProfile) (entry : BackendEntry w) (pool : ConnectedPool w) : Prop where
  own : ∃ userConfig, config.users.lookup user.username = some userConfig ∧
    userConfig.backend = user.backend
  configured : config.backends.lookup user.backend = some entry
  registered : serving.router.pools.lookup user.backend = some pool
  connected : (ConnectedPool.connect env.overflowChecks (env.world user.backend) entry
    config.ech).result = .ok pool
  made : pool.MadeFrom env.overflowChecks entry

/-- **Every profile of the store has its pool.** -/
theorem Started.hasPool (h : Started env config walks serving) {username : Text}
    {user : UserProfile} (huser : serving.auth.user username = some user) :
    ∃ entry pool, HasPool env config serving user entry pool := by
  -- the user's entry
  obtain ⟨userConfig, hconfig, hprofile⟩ := AuthStore.config_of_user h.auth huser
  rw [Assoc.lookup_perm config.users_distinct walks.profiles_perm] at hconfig
  obtain ⟨hname, hbackend⟩ := AuthStore.profile_spec hprofile
  -- the entry of the backend it names, which the check has seen
  have hchecked := walks.checked_perm.symm.subset (Assoc.mem_of_lookup hconfig)
  obtain ⟨entry, hentry⟩ := validateUsersBackends_ok h.validated username userConfig hchecked
  -- the pool that was made from it
  have hpool := PoolRegistry.get_of_connect h.pools userConfig.backend
  rw [Assoc.lookup_perm config.backends_distinct walks.pools_perm, hentry] at hpool
  cases hget : PoolRegistry.get ⟨serving.router.pools⟩ userConfig.backend with
  | none =>
    rw [hget] at hpool
    cases hpool
  | some pool =>
    rw [hget] at hpool
    cases hpool with
    | some hconnected =>
      refine ⟨entry, pool, ?_⟩
      rw [← hbackend] at hentry hget hconnected
      refine ⟨⟨userConfig, ?_, hbackend.symm⟩, hentry, hget, hconnected, ?_⟩
      · rw [hname]
        exact hconfig
      · exact ConnectedPool.madeFrom_of_connect hconnected

end started

/-! ## Whom the ingresses let in -/

/-- An ingress obtains the profile: the SOCKS5 one from a client's first two
    messages, the HTTP one from a request. -/
inductive Serving.Obtains (serving : Serving w) (user : UserProfile) : Prop where
  | socks (client : ClientStream) (input rest : Bytes)
      (hresult : ((do
        let method ← Socks.negotiateAuth client serving.options
        Socks.authenticate client serving.auth method serving.options :
          Socks.Step (ConnectedPool w) UserProfile) input).result = .ok (user, rest))
  | http (base64 : Text → Option Bytes) (header : Bytes) (request : Http.RequestParts)
      (hrequest : Http.parseRequest header = .ok request)
      (hresult : Http.authenticate base64 request serving.auth = .ok user)

/-- A SOCKS5 client is let in as a user of the store. -/
theorem Socks.login_takes {client : ClientStream} {auth : AuthStore}
    {options : Socks.Socks5Options} {Pool : Type} :
    Reader.Takes (do
        let method ← negotiateAuth client options
        authenticate client auth method options : Step Pool UserProfile)
      fun _ _ user => ∃ username, auth.user username = some user := by
  refine negotiateAuth_takes.bind ?_
  intro used events method ⟨greeting, hused, hselects, hevents⟩
  refine (authenticate_takes hselects.method_cases).mono ?_
  intro used' events' user ⟨login, hlogin, hused', haccepted, hevents'⟩
  cases login with
  | noAuth =>
    obtain ⟨username, hdefault, huser⟩ := haccepted
    exact ⟨username, huser⟩
  | userPass credentials =>
    exact ⟨credentials.username, (AuthStore.authenticate_eq_some.mp haccepted).1⟩

/-- On either way in. -/
theorem Serving.Obtains.user {serving : Serving w} {user : UserProfile}
    (h : serving.Obtains user) : ∃ username, serving.auth.user username = some user := by
  cases h with
  | socks client input rest hresult =>
    obtain ⟨used, -, huser⟩ := Socks.login_takes input _ user rest (by rw [← hresult])
    exact huser
  | http base64 header request hrequest hresult =>
    obtain ⟨value, username, -, -, huser⟩ := Http.authenticate_spec hresult
    exact ⟨username, huser⟩

/-- **Routing is total once the client serves**: whoever is let in has the pool
    that was connected from the entry of the backend of the user's own entry, the
    router finds it, and nothing but a name lookup that fails makes the router
    fail; what it proxies goes to this pool. -/
theorem routing_total {env : Environment w} {config : Config w} {walks : Walks config}
    {serving : Serving w} {user : UserProfile}
    (hrun : (run env config walks).result = .ok serving) (huser : serving.Obtains user) :
    ∃ entry pool, HasPool env config serving user entry pool ∧
      serving.router.proxy user = .ok (.proxy pool) ∧
      ∀ text dns host port,
        (∀ fault, (serving.router.decide text dns user host port).result = .error fault →
          serving.router.LookupWanted text host ∧
            ∃ err, dns ⟨host, port⟩ = .error err ∧ fault = .error err) ∧
        ∀ pool', (serving.router.decide text dns user host port).result = .ok (.proxy pool') →
          pool' = pool := by
  obtain ⟨username, hstored⟩ := huser.user
  obtain ⟨entry, pool, hpool⟩ := (started_of_run hrun).hasPool hstored
  have hregistered := hpool.registered
  refine ⟨entry, pool, hpool, ?_, ?_⟩
  · rw [Router.proxy, hregistered]
    rfl
  · intro text dns host port
    constructor
    · intro fault hfault
      exact Router.decide_error hregistered hfault
    · intro pool' hproxy
      have hfound := Router.pool_of_decide hproxy
      rw [hregistered] at hfound
      exact (Option.some.inj hfound).symm

/-! ## A start -/

/-- A backend without TLS. -/
def exampleEntry : BackendEntry .bits64 where
  endpoint := "http://10.0.0.9:50051".toList
  connectAddr := none
  ech := false
  echName := none
  echBootstrapDoh := none
  echPolicy := none
  tlsDomain := none
  caCert := none
  authToken := "token".toList
  sizes := ⟨0, 0, by decide, by decide⟩

/-- Alice is the user of a client without authentication. -/
def exampleConfig : Config .bits64 where
  listen := ⟨true, some "alice".toList⟩
  users := exampleUsers
  backends := [("backend".toList, exampleEntry)]
  ech := .default
  route := .default
  users_distinct := List.nodup_singleton _
  backends_distinct := List.nodup_singleton _

def exampleWalks : Walks exampleConfig where
  profiles := exampleConfig.users
  profiles_perm := .refl _
  pools := exampleConfig.backends
  pools_perm := .refl _
  checked := exampleConfig.users
  checked_perm := .refl _

/-- Everything that is asked for is there, and the tables are empty. -/
def exampleEnvironment : Environment .bits64 where
  overflowChecks := true
  world := fun _ _ => {
    parseUri := fun _ => none
    fromShared := fun _ => true
    cached := fun _ => none
    doh := fun _ _ => .error "no answer"
    sslConnector := fun _ => .ok ()
    echPeer := fun _ _ _ => ⟨false, false, false, false, .ok (), none, false, none, false⟩
    readFile := fun _ => none
    tlsConfig := fun _ _ => .ok ()
    connect := fun _ _ => true }
  tableLib := tableLibExample
  ipv4Cidrs := ⟨"v4", some []⟩
  ipv6Cidrs := ⟨"v6", some []⟩

/-- One channel, in spite of the sizes. -/
def examplePool : ConnectedPool .bits64 where
  backend := exampleEntry
  channels := [⟨.ordinary exampleEntry.endpoint none⟩]
  channels_pos := Nat.one_pos
  permits := 1

def exampleServing : Serving .bits64 where
  auth := ⟨[("alice".toList, Router.exampleUser)]⟩
  router := ⟨.default, .empty, [("backend".toList, examplePool)]⟩
  options := ⟨true, some "alice".toList⟩

theorem exampleServing_started :
    (run exampleEnvironment exampleConfig exampleWalks).result = .ok exampleServing := rfl

theorem exampleServing_obtains : exampleServing.Obtains Router.exampleUser :=
  .socks (Socks.exampleClient []) [0x05, 0x01, 0x00] [] rfl

/-- Alice has the pool of the one backend. -/
theorem routing_total_example :
    exampleServing.router.proxy Router.exampleUser = .ok (.proxy examplePool) := by
  obtain ⟨entry, pool, hpool, hproxy, -⟩ :=
    routing_total exampleServing_started exampleServing_obtains
  have hregistered : some examplePool = some pool := hpool.registered
  rw [hproxy, Option.some.inj hregistered]

end EchProxy
