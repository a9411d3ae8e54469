import EchProxy.Ech.Cache
import EchProxy.Ech.Connect
import EchProxy.Ech.Grammar

/-! # Tasks that Bootstrap (`bootstrap_ech_config` in `client/src/ech_tls.rs`)

    Each task looks for its key in the cache, and fetches and stores a
    configuration when there is none.  The tasks share the cache through its
    mutex and are otherwise independent.
-/

namespace EchProxy

namespace Ech

open Checked Traced Mutex

/-! ## A bootstrap -/

variable {w : Width}

/-- A call of `bootstrap_ech_config`, with what it finds outside. -/
structure Bootstrap (w : Width) where
  world : World w
  backend : BackendConfig
  ech : EchConfig

namespace Bootstrap

def doh (b : Bootstrap w) : Text := b.backend.effectiveEchBootstrapDoh b.ech

def name (b : Bootstrap w) : Eval Text := backendTlsName b.world b.backend

/-- The function, when the cache answers it with `cached`. -/
def run (b : Bootstrap w) (cached : Option Bytes) : Traced Fault Event Bytes :=
  bootstrapEchConfig { b.world with cached := fun _ => cached } b.backend b.ech

/-- The fetch for the name succeeds, and its response has this configuration. -/
def Fetches (b : Bootstrap w) (name : Text) (config : Bytes) (ttl : Nat) : Prop :=
  ∃ query response, buildHttpsQuery name = .ok query ∧ b.world.doh b.doh query = .ok response ∧
    parseHttpsResponseForEch response = .ok (config, ttl)

/-- The key, the configuration and the TTL of a `put_cached_ech_config`. -/
def stored? : Event → Option (Text × Bytes × Nat)
  | .store key config ttl => some (key, config, ttl)
  | _ => none

/-- What is stored after a miss. -/
def put? (b : Bootstrap w) : Option (Text × Bytes × Nat) := (b.run none).events.findSome? stored?

/-- A hit is returned, and nothing else happens. -/
theorem run_cached {b : Bootstrap w} {name : Text} (hname : b.name = .ok name) (config : Bytes) :
    b.run (some config) = ⟨[], .ok config⟩ := by
  have hsame : backendTlsName { b.world with cached := fun _ => some config } b.backend =
      .ok name := hname
  rw [run, bootstrapEchConfig, hsame, lift_ok_bind]
  rfl

/-- **Only a successful fetch is stored**, under the key of its URL and name. -/
theorem store_mem {b : Bootstrap w} {cached : Option Bytes} {key : Text} {config : Bytes}
    {ttl : Nat} :
    .store key config ttl ∈ (b.run cached).events ↔
      cached = none ∧ ∃ name, b.name = .ok name ∧ key = cacheKey b.doh name ∧
        b.Fetches name config ttl := by
  rw [run, bootstrapEchConfig, mem_lift_bind]
  constructor
  · intro ⟨name, hname, hmem⟩
    cases cached with
    | some found => cases hmem
    | none =>
      -- what is stored comes last, behind all that may fail
      obtain ⟨query, hquery, hmem⟩ := mem_lift_bind.mp hmem
      rcases mem_emit_bind.mp hmem with hevent | hmem
      · cases hevent
      · obtain ⟨response, hdoh, hmem⟩ := mem_lift_bind.mp hmem
        obtain ⟨⟨config', ttl'⟩, hparse, hmem⟩ := mem_lift_bind.mp hmem
        rcases mem_emit_bind.mp hmem with hevent | hmem
        · obtain ⟨rfl, rfl, rfl⟩ := Event.store.inj hevent
          exact ⟨rfl, name, hname, rfl, query, response, hquery, fetchDoh_eq_ok.mp hdoh,
            withContext_eq_ok.mp hparse⟩
        · cases hmem
  · rintro ⟨rfl, name, hname, rfl, query, response, hquery, hdoh, hparse⟩
    refine ⟨name, hname, mem_lift_bind.mpr ⟨query, hquery, mem_emit_bind.mpr (.inr ?_)⟩⟩
    refine mem_lift_bind.mpr ⟨response, fetchDoh_eq_ok.mpr hdoh, ?_⟩
    refine mem_lift_bind.mpr ⟨(config, ttl), withContext_eq_ok.mpr hparse, ?_⟩
    exact mem_emit_bind.mpr (.inl rfl)

/-- What is put after a miss has been fetched. -/
theorem put?_fetched {b : Bootstrap w} {key : Text} {config : Bytes} {ttl : Nat}
    (h : b.put? = some (key, config, ttl)) :
    ∃ name, b.name = .ok name ∧ key = cacheKey b.doh name ∧ b.Fetches name config ttl := by
  obtain ⟨event, hevent, hstored⟩ := List.exists_of_findSome?_eq_some h
  have hstore : event = .store key config ttl := by
    cases event with
    | store key' config' ttl' =>
      obtain ⟨rfl, rfl, rfl⟩ : key' = key ∧ config' = config ∧ ttl' = ttl := by
        simpa [stored?] using hstored
      rfl
    | query => cases hstored
    | attempt => cases hstored
  rw [hstore] at hevent
  exact (store_mem.mp hevent).2

end Bootstrap

/-- The key tells the URL from the name, where URLs have no NUL. -/
theorem cacheKey_inj {doh doh' name name' : Text} (hdoh : '\x00' ∉ doh) (hdoh' : '\x00' ∉ doh')
    (h : cacheKey doh name = cacheKey doh' name') : doh = doh' ∧ name = name' := by
  -- cut both keys at their first NUL
  have hcut : ∀ {url : Text} (text : Text), '\x00' ∉ url →
      Str.splitOnce ['\x00'] (cacheKey url text) = some (url, text) := by
    intro url text hurl
    have hsplit := Str.splitOnce_append hurl [] text
    rwa [List.append_assoc, List.singleton_append] at hsplit
  have hsame := hcut name' hdoh'
  rw [← h, hcut name hdoh] at hsame
  exact Prod.mk.inj (Option.some.inj hsame)

/-! ## The tasks -/

/-- How far a task is. -/
inductive Stage (w : Width) where
  /-- In front of `get_cached_ech_config`. -/
  | lookup (b : Bootstrap w) (key : Text)
  /-- In front of `put_cached_ech_config`. -/
  | store (b : Bootstrap w) (key : Text) (config : Bytes) (ttl : Nat)
  /-- The function has returned, with the configuration of the cache if it had
      one. -/
  | returned (b : Bootstrap w) (cached : Option Bytes)

/-- `bootstrap_ech_config`, call by call of the cache. -/
def bootstrapTask (w : Width) :
    Program (Bootstrap w) (Stage w) CacheCall (Option Bytes) where
  start b :=
    match b.name with
    | .ok name => .lookup b (cacheKey b.doh name)
    | .error _ => .returned b none
  next
    | .lookup _ key => some (.get key)
    | .store _ key config ttl => some (.put key config (fromSecs ttl))
    | .returned _ _ => none
  resume
    | .lookup b _, some config => .returned b (some config)
    | .lookup b _, none =>
      match b.put? with
      | some (key, config, ttl) => .store b key config ttl
      | none => .returned b none
    | .store b _ _ _, _ => .returned b none
    | .returned b cached, _ => .returned b cached

/-- The tasks of the process, around its cache. -/
abbrev Tasks (w : Width) := Mutex.State (Stage w) CacheCall (Option Bytes) EchConfigCache

def tasks (w : Width) : Lts.System (Tasks w) (Mutex.Label (Bootstrap w)) :=
  system echConfigCache (bootstrapTask w)

/-- A task asks and stores under the key of its URL and name, and stores what it
    has fetched. -/
def Stage.Honest : Stage w → Prop
  | .lookup b key => ∃ name, b.name = .ok name ∧ key = cacheKey b.doh name
  | .store b key config ttl =>
    ∃ name, b.name = .ok name ∧ key = cacheKey b.doh name ∧ b.Fetches name config ttl
  | .returned _ _ => True

theorem bootstrapTask_keeps : (bootstrapTask w).Keeps Stage.Honest where
  start := by
    intro b
    rw [bootstrapTask]
    dsimp only
    split
    · next name hname => exact ⟨name, hname, rfl⟩
    · trivial
  resume := by
    intro stage call result hhonest _
    cases stage with
    | lookup b key =>
      cases result with
      | some config => trivial
      | none =>
        rw [bootstrapTask]
        dsimp only
        split
        · next hput => exact Bootstrap.put?_fetched hput
        · trivial
    | store b key config ttl => trivial
    | returned b cached => trivial

/-- What the log of the calls says, in whatever order the tasks have run. -/
structure LatestValue (s : Tasks w) : Prop where
  ordered : Ordered (s.log.map Done.timed)
  /-- A lookup gets the latest value, while it lives. -/
  gets : ∀ before done after key, s.log = before ++ done :: after →
    done.timed.call = .get key → ∀ config, done.result = some config ↔
      ∃ ttl t₀, IsLatestPut (before.map Done.timed) key config ttl t₀ ∧
        done.timed.now < t₀ + min (max ttl minEchCacheTtl) maxEchCacheTtl
  /-- What is put has been fetched and parsed. -/
  puts : ∀ done ∈ s.log, ∀ key config ttl, done.timed.call = .put key config ttl →
    ∃ b secs name, done.stage = .store b key config secs ∧ ttl = fromSecs secs ∧
      b.name = .ok name ∧ key = cacheKey b.doh name ∧ b.Fetches name config secs
  /-- What a task returns from the cache was fetched and put before, for the
      same name at the same URL. -/
  returned : ∀ i b config, s.threads i = some (.free (.returned b (some config))) →
    b.run (some config) = ⟨[], .ok config⟩ ∧
    ∃ put ∈ s.log, ∃ b' key secs name name', put.stage = .store b' key config secs ∧
      b.name = .ok name ∧ b'.name = .ok name' ∧ b'.Fetches name' config secs ∧
      ('\x00' ∉ b.doh → '\x00' ∉ b'.doh → b'.doh = b.doh ∧ name' = name)

/-- A task that returns a configuration of the cache got it for its own key. -/
theorem returned_of_lookup {s : Tasks w} (hs : (tasks w).Reachable s) {i : Nat} {b : Bootstrap w}
    {config : Bytes} (hthread : s.threads i = some (.free (.returned b (some config)))) :
    ∃ name, b.name = .ok name ∧ ∃ lookup ∈ s.log,
      lookup.timed.call = .get (cacheKey b.doh name) ∧ lookup.result = some config := by
  have hstaged := staged_of_reachable bootstrapTask_keeps s hs
  rcases hstaged.origin i _ hthread with ⟨b', hstart⟩ | ⟨done, hdone, -, hresume⟩
  · -- no task starts with a configuration
    change _ = (match b'.name with
      | .ok name => Stage.lookup b' (cacheKey b'.doh name)
      | .error _ => .returned b' none) at hstart
    split at hstart <;> cases hstart
  · obtain ⟨hhonest, hnext⟩ := hstaged.calls done hdone
    obtain ⟨thread, stage, timed, result⟩ := done
    cases stage with
    | lookup b' key =>
      obtain ⟨name, hname, rfl⟩ := hhonest
      cases result with
      -- a hit is what the task returns
      | some config' =>
        obtain ⟨rfl, hconfig⟩ := Stage.returned.inj hresume
        exact ⟨name, hname, _, hdone, (Option.some.inj hnext).symm, hconfig.symm⟩
      | none =>
        change _ = (match b'.put? with
          | some (key, config, ttl) => Stage.store b' key config ttl
          | none => .returned b' none) at hresume
        split at hresume <;> cases hresume
    | store b' key config' ttl => cases hresume
    | returned b' cached => cases hnext

/-- **Whatever the order of steps**, the cache gives each task the latest value. -/
theorem latestValue_of_reachable {s : Tasks w} (hs : (tasks w).Reachable s) : LatestValue s := by
  have hserial := serial_of_reachable s hs
  have hstaged := staged_of_reachable bootstrapTask_keeps s hs
  -- what a lookup finds, by the calls before it in the log
  have hgets : ∀ before done after key, s.log = before ++ done :: after →
      done.timed.call = .get key → ∀ config, done.result = some config ↔
        ∃ ttl t₀, IsLatestPut (before.map Done.timed) key config ttl t₀ ∧
          done.timed.now < t₀ + min (max ttl minEchCacheTtl) maxEchCacheTtl := by
    intro before done after key hsplit hcall config
    have hordered := hserial.ordered
    rw [hsplit, List.map_append, List.map_cons, List.append_cons] at hordered
    have htimed : done.timed = ⟨.get key, done.timed.now⟩ := by
      rw [← hcall]
    rw [htimed] at hordered
    rw [hserial.results before done after hsplit, hcall]
    exact get_after (List.pairwise_append.mp hordered).1
  -- only the stage behind a fetch calls `put`
  have hputs : ∀ done ∈ s.log, ∀ key config ttl, done.timed.call = .put key config ttl →
      ∃ b secs name, done.stage = .store b key config secs ∧ ttl = fromSecs secs ∧
        b.name = .ok name ∧ key = cacheKey b.doh name ∧ b.Fetches name config secs := by
    intro done hdone key config ttl hcall
    obtain ⟨hhonest, hnext⟩ := hstaged.calls done hdone
    rw [hcall] at hnext
    cases hstage : done.stage with
    | lookup b key' =>
      rw [hstage] at hnext
      cases hnext
    | returned b cached =>
      rw [hstage] at hnext
      cases hnext
    | store b key' config' secs =>
      rw [hstage] at hnext hhonest
      cases hnext
      obtain ⟨name, hname, hkey, hfetches⟩ := hhonest
      exact ⟨b, secs, name, rfl, rfl, hname, hkey, hfetches⟩
  refine ⟨hserial.ordered, hgets, hputs, ?_⟩
  intro i b config hthread
  obtain ⟨name, hname, lookup, hlookup, hcall, hresult⟩ := returned_of_lookup hs hthread
  refine ⟨Bootstrap.run_cached hname config, ?_⟩
  -- the lookup found what was put last under its key
  obtain ⟨before, after, hsplit⟩ := List.append_of_mem hlookup
  obtain ⟨ttl, t₀, ⟨earlier, later, hputs_before, -⟩, -⟩ :=
    (hgets before lookup after _ hsplit hcall config).mp hresult
  obtain ⟨put, hput, htimed⟩ : ∃ put ∈ before, put.timed =
      ⟨.put (cacheKey b.doh name) config ttl, t₀⟩ := by
    apply List.mem_map.mp
    rw [hputs_before]
    exact List.mem_append_right _ List.mem_cons_self
  have hlogged : put ∈ s.log := by
    rw [hsplit]
    exact List.mem_append_left _ hput
  obtain ⟨b', secs, name', hstage, -, hname', hkey, hfetches⟩ :=
    hputs put hlogged _ config ttl (congrArg Timed.call htimed)
  refine ⟨put, hlogged, b', _, secs, name, name', hstage, hname, hname', hfetches, ?_⟩
  intro hdoh hdoh'
  exact cacheKey_inj hdoh' hdoh hkey.symm

/-! ## The cache of the process -/

/-- **The cache is the latest value with a lifetime**: for every sequence of
    calls, in every removal, in what a bootstrap stores, and in every order of
    the tasks. -/
theorem cache_latest_value (w : Width) :
    (∀ (calls : List (Timed CacheCall)) (key : Text) (now : Nat) (config : Bytes),
      Ordered (calls ++ [⟨.get key, now⟩]) →
      ((getCachedEchConfig (echConfigCache.after calls) key now).1 = some config ↔
        ∃ ttl t₀, IsLatestPut calls key config ttl t₀ ∧
          now < t₀ + min (max ttl minEchCacheTtl) maxEchCacheTtl)) ∧
    (∀ (cache : EchConfigCache) (key other : Text) (now : Nat),
      (getCachedEchConfig cache key now).2 other = cache other ∨
        (other = key ∧ (getCachedEchConfig cache key now).2 other = none ∧
          ∀ entry, cache key = some entry → entry.expiresAt ≤ now)) ∧
    (∀ (b : Bootstrap w) (cached : Option Bytes) (key : Text) (config : Bytes) (ttl : Nat),
      .store key config ttl ∈ (b.run cached).events ↔
        cached = none ∧ ∃ name, b.name = .ok name ∧ key = cacheKey b.doh name ∧
          b.Fetches name config ttl) ∧
    ∀ s, (tasks w).Reachable s → LatestValue s := by
  refine ⟨?_, getCachedEchConfig_removes, ?_, ?_⟩
  · intro calls key now config hordered
    exact get_after hordered
  · intro b cached key config ttl
    exact Bootstrap.store_mem
  · intro s hs
    exact latestValue_of_reachable hs

/-- A bootstrap of `b.example`, whose DoH server answers. -/
def exampleBootstrap : Bootstrap .bits64 where
  world :=
    { parseUri := fun _ => none
      fromShared := fun _ => true
      cached := fun _ => none
      doh := fun _ _ => .ok exampleMessage
      sslConnector := fun _ => .ok ()
      echPeer := fun _ _ _ => ⟨true, true, true, true, .ok (), some h2, true, none, true⟩
      readFile := fun _ => none
      tlsConfig := fun _ _ => .ok ()
      connect := fun _ _ => true }
  backend :=
    { endpoint := "https://b.example".toList
      connectAddr := none
      ech := true
      echName := none
      echBootstrapDoh := none
      echPolicy := none
      tlsDomain := some "b.example".toList
      caCert := none }
  ech := .default

/-- A first task fetches and stores, a second one finds what was stored. -/
def exampleSteps : List (Mutex.Label (Bootstrap .bits64)) :=
  [.start 0 exampleBootstrap, .lock 0, .readClock 0, .finish 0,
    .tick 7, .lock 0, .readClock 0, .finish 0,
    .start 1 exampleBootstrap, .tick 299999999999, .lock 1, .readClock 1, .finish 1]

def noTasks : Tasks .bits64 := ⟨0, fun _ => none, none, fun _ => none, []⟩

theorem cache_latest_value_example :
    (getCachedEchConfig (echConfigCache.after [⟨.put ['k'] [0xaa] 0, 5⟩]) ['k'] 30000000004).1 =
        some [0xaa] ∧
      ∃ s, (tasks .bits64).Reachable s ∧
        s.log.map Done.result = [none, none, some [0xaa, 0xbb]] ∧ LatestValue s := by
  obtain ⟨hget, -, -, hstate⟩ := cache_latest_value .bits64
  constructor
  · refine (hget _ ['k'] 30000000004 [0xaa] (by simp [Ordered])).mpr ?_
    exact ⟨0, 5, ⟨[], [], rfl, fun timed htimed => absurd htimed List.not_mem_nil⟩, by decide⟩
  · have hresults : ((tasks .bits64).run noTasks exampleSteps).map
        (fun s => s.log.map Done.result) = some [none, none, some [0xaa, 0xbb]] := by
      decide +kernel
    obtain ⟨s, hrun, hs⟩ := Option.map_eq_some_iff.mp hresults
    have hinit : (tasks .bits64).Reachable noTasks :=
      .init ⟨rfl, rfl, rfl, fun _ => rfl⟩
    have hreachable := Lts.System.reachable_of_run hinit hrun
    exact ⟨s, hreachable, hs, hstate s hreachable⟩

end Ech

end EchProxy
