import EchProxy.Base
import EchProxy.Framework.Expiring
import EchProxy.Framework.Mutex
import Mathlib.Data.List.Induction

/-! # The Cache of ECH Configurations (`client/src/ech_tls.rs`)

    One map behind a mutex for all tasks that connect.  A lookup removes an
    entry that is over, and an entry lives for the TTL of its record, but at
    least half a minute and at most an hour.  Times and durations are in
    nanoseconds.
-/

namespace EchProxy

namespace Ech

open Expiring Mutex

/-! ## The two operations -/

/-- `Duration::from_secs`. -/
def fromSecs (secs : Nat) : Nat := secs * 1000000000

/-- `MIN_ECH_CACHE_TTL`. -/
def minEchCacheTtl : Nat := fromSecs 30

/-- `MAX_ECH_CACHE_TTL`. -/
def maxEchCacheTtl : Nat := fromSecs 3600

/-- `CachedEchConfig`: the value is its `config`. -/
abbrev CachedEchConfig := Entry Bytes

/-- The map of `ech_config_cache`. -/
abbrev EchConfigCache := Store Text Bytes

/-- `ttl.clamp(MIN_ECH_CACHE_TTL, MAX_ECH_CACHE_TTL)`. -/
def clampTtl (ttl : Nat) : Nat :=
  if ttl < minEchCacheTtl then minEchCacheTtl
  else if maxEchCacheTtl < ttl then maxEchCacheTtl
  else ttl

/-- `get_cached_ech_config`, when it reads `now`: its result, and the map after
    it. -/
def getCachedEchConfig (cache : EchConfigCache) (key : Text) (now : Nat) :
    Option Bytes × EchConfigCache :=
  match cache key with
  | some entry =>
    if now < entry.expiresAt then (some entry.value, cache) else (none, cache.remove key)
  | none => (none, cache.remove key)

/-- `put_cached_ech_config`, when it reads `now`. -/
def putCachedEchConfig (cache : EchConfigCache) (key : Text) (config : Bytes) (ttl now : Nat) :
    EchConfigCache :=
  cache.insert key ⟨config, now + clampTtl ttl⟩

theorem clampTtl_eq (ttl : Nat) : clampTtl ttl = min (max ttl minEchCacheTtl) maxEchCacheTtl := by
  have hmin : minEchCacheTtl = 30000000000 := rfl
  have hmax : maxEchCacheTtl = 3600000000000 := rfl
  rw [clampTtl]
  split
  · omega
  · split <;> omega

/-- **A lookup removes only what is over**, and only under its own key. -/
theorem getCachedEchConfig_removes (cache : EchConfigCache) (key other : Text) (now : Nat) :
    (getCachedEchConfig cache key now).2 other = cache other ∨
      (other = key ∧ (getCachedEchConfig cache key now).2 other = none ∧
        ∀ entry, cache key = some entry → entry.expiresAt ≤ now) := by
  -- both ways to a removal know that there is no live entry
  have hremoved : (∀ entry, cache key = some entry → entry.expiresAt ≤ now) →
      cache.remove key other = cache other ∨ (other = key ∧ cache.remove key other = none ∧
        ∀ entry, cache key = some entry → entry.expiresAt ≤ now) := by
    intro hover
    rw [Store.remove]
    by_cases hkey : other = key
    · rw [if_pos hkey]
      exact .inr ⟨hkey, rfl, hover⟩
    · rw [if_neg hkey]
      exact .inl rfl
  rw [getCachedEchConfig]
  split
  · next entry hentry =>
    by_cases hlive : now < entry.expiresAt
    · rw [if_pos hlive]
      exact .inl rfl
    · rw [if_neg hlive]
      apply hremoved
      intro entry' hentry'
      rw [hentry, Option.some.injEq] at hentry'
      rw [← hentry']
      exact Nat.le_of_not_lt hlive
  · next hnone =>
    apply hremoved
    intro entry hentry
    rw [hnone] at hentry
    cases hentry

/-! ## Sequences of calls -/

/-- A call of one of the two. -/
inductive CacheCall where
  | get (key : Text)
  | put (key : Text) (config : Bytes) (ttl : Nat)
  deriving DecidableEq

/-- A call that reads `now`. -/
def CacheCall.run (call : CacheCall) (now : Nat) (cache : EchConfigCache) :
    Option Bytes × EchConfigCache :=
  match call with
  | .get key => getCachedEchConfig cache key now
  | .put key config ttl => (none, putCachedEchConfig cache key config ttl now)

/-- `ech_config_cache`: at first the map is empty. -/
def echConfigCache : Object CacheCall (Option Bytes) EchConfigCache where
  init := fun _ => none
  run := CacheCall.run

/-- The last `put` for the key in the sequence is this one. -/
def IsLatestPut (calls : List (Timed CacheCall)) (key : Text) (config : Bytes) (ttl t₀ : Nat) :
    Prop :=
  ∃ before after, calls = before ++ ⟨.put key config ttl, t₀⟩ :: after ∧
    ∀ timed ∈ after, ∀ config' ttl', timed.call ≠ .put key config' ttl'

/-- The entry that a call puts. -/
def entry? (timed : Timed CacheCall) : Option (Put Text Bytes) :=
  match timed.call with
  | .get _ => none
  | .put key config ttl => some ⟨key, ⟨config, timed.now + clampTtl ttl⟩⟩

/-- The entries that are put by a sequence of calls. -/
def entriesOf (calls : List (Timed CacheCall)) : List (Put Text Bytes) :=
  calls.filterMap entry?

theorem entry?_eq_some {timed : Timed CacheCall} {p : Put Text Bytes} :
    entry? timed = some p ↔
      ∃ ttl, timed.call = .put p.key p.entry.value ttl ∧
        p.entry.expiresAt = timed.now + clampTtl ttl := by
  obtain ⟨call, now⟩ := timed
  obtain ⟨key, value, expiresAt⟩ := p
  cases call with
  | get other =>
    constructor
    · intro h
      cases h
    · intro ⟨ttl, hcall, _⟩
      cases hcall
  | put other config ttl =>
    constructor
    · intro h
      cases h
      exact ⟨ttl, rfl, rfl⟩
    · intro ⟨ttl', hcall, hexpires⟩
      cases hcall
      dsimp only at hexpires
      rw [hexpires]
      rfl

/-- The last entry under a key is that of the last `put`. -/
theorem latest_entriesOf {calls : List (Timed CacheCall)} {key : Text} {entry : CachedEchConfig} :
    latest key (entriesOf calls) = some entry ↔
      ∃ ttl t₀, IsLatestPut calls key entry.value ttl t₀ ∧
        entry.expiresAt = t₀ + clampTtl ttl := by
  rw [latest_eq_some]
  constructor
  · intro ⟨before, after, hsplit, hafter⟩
    -- the last entry for the key comes from one call, with lookups only between the entries
    obtain ⟨calls₁, calls₂, rfl, -, hrest⟩ := List.filterMap_eq_append_iff.mp hsplit
    obtain ⟨gets, timed, calls₃, rfl, -, hput, rfl⟩ := List.filterMap_eq_cons_iff.mp hrest
    obtain ⟨ttl, hcall, hexpires⟩ := entry?_eq_some.mp hput
    obtain ⟨call, now⟩ := timed
    obtain rfl : call = _ := hcall
    refine ⟨ttl, now, ⟨calls₁ ++ gets, calls₃, by simp, ?_⟩, hexpires⟩
    intro later hlater config' ttl' heq
    have hentry : entry? later = some ⟨key, ⟨config', later.now + clampTtl ttl'⟩⟩ :=
      entry?_eq_some.mpr ⟨ttl', heq, rfl⟩
    exact hafter _ (List.mem_filterMap.mpr ⟨later, hlater, hentry⟩) rfl
  · rintro ⟨ttl, t₀, ⟨before, after, rfl, hafter⟩, hexpires⟩
    have hput : entry? ⟨.put key entry.value ttl, t₀⟩ = some ⟨key, entry⟩ :=
      entry?_eq_some.mpr ⟨ttl, rfl, hexpires⟩
    refine ⟨entriesOf before, entriesOf after, ?_, ?_⟩
    · rw [entriesOf, List.filterMap_append, List.filterMap_cons_some hput]
      rfl
    · intro p hp hkey
      obtain ⟨timed, htimed, hentry⟩ := List.mem_filterMap.mp hp
      obtain ⟨ttl', hcall, -⟩ := entry?_eq_some.mp hentry
      exact hafter timed htimed _ ttl' (hkey ▸ hcall)

/-- A call keeps the map in agreement with what was put. -/
theorem agrees_run {cache : EchConfigCache} {calls : List (Timed CacheCall)} {now : Nat}
    (h : Agrees cache (entriesOf calls) now) (call : CacheCall) :
    Agrees (call.run now cache).2 (entriesOf (calls ++ [⟨call, now⟩])) now := by
  cases call with
  | get key =>
    -- a lookup adds no entry to the history
    have hsame : entriesOf (calls ++ [⟨.get key, now⟩]) = entriesOf calls := by
      rw [entriesOf, List.filterMap_append, List.filterMap_cons_none rfl, List.filterMap_nil,
        List.append_nil, entriesOf]
    rw [hsame]
    show Agrees (getCachedEchConfig cache key now).2 _ now
    rw [getCachedEchConfig]
    split
    · next entry hentry =>
      by_cases hlive : now < entry.expiresAt
      · rw [if_pos hlive]
        exact h
      · rw [if_neg hlive]
        -- an entry that has expired is not missed
        refine h.remove fun entry' hentry' => ?_
        rw [hentry, Option.some.injEq] at hentry'
        rw [← hentry']
        exact Nat.le_of_not_lt hlive
    · next hnone =>
      refine h.remove fun entry hentry => ?_
      rw [hnone] at hentry
      cases hentry
  | put key config ttl =>
    have hmore : entriesOf (calls ++ [⟨.put key config ttl, now⟩]) =
        entriesOf calls ++ [⟨key, ⟨config, now + clampTtl ttl⟩⟩] := by
      rw [entriesOf, List.filterMap_append]
      rfl
    rw [hmore]
    exact h.insert key _

/-- So does a sequence of calls. -/
theorem agrees_after {calls : List (Timed CacheCall)} (hordered : Ordered calls) {now : Nat}
    (hpast : ∀ timed ∈ calls, timed.now ≤ now) : 
    Agrees (echConfigCache.after calls) (entriesOf calls) now := by
  induction calls using List.reverseRecOn generalizing now with
  | nil => exact agrees_empty now
  | append_singleton calls timed ih =>
    obtain ⟨hbefore, -, hlast⟩ := List.pairwise_append.mp hordered
    have hagrees := ih hbefore fun earlier hmem => hlast earlier hmem timed List.mem_cons_self
    rw [Object.after_concat]
    have hnow := hpast timed (List.mem_append_right _ List.mem_cons_self)
    exact (agrees_run hagrees timed.call).later hnow

/-- What a lookup returns is a live entry. -/
theorem getCachedEchConfig_eq_some {cache : EchConfigCache} {key : Text} {now : Nat}
    {config : Bytes} :
    (getCachedEchConfig cache key now).1 = some config ↔
      ∃ entry, cache key = some entry ∧ now < entry.expiresAt ∧ entry.value = config := by
  rw [getCachedEchConfig]
  cases hentry : cache key with
  | none => simp
  | some entry =>
    dsimp only
    by_cases hlive : now < entry.expiresAt
    · rw [if_pos hlive]
      simp [hlive]
    · rw [if_neg hlive]
      simp [hlive]

/-- **The cache is the latest value with a lifetime.** -/
theorem get_after {calls : List (Timed CacheCall)} {key : Text} {now : Nat} {config : Bytes}
    (hordered : Ordered (calls ++ [⟨.get key, now⟩])) :
    (getCachedEchConfig (echConfigCache.after calls) key now).1 = some config ↔
      ∃ ttl t₀, IsLatestPut calls key config ttl t₀ ∧
        now < t₀ + min (max ttl minEchCacheTtl) maxEchCacheTtl := by
  obtain ⟨hbefore, -, hlast⟩ := List.pairwise_append.mp hordered
  have hagrees := agrees_after hbefore fun timed hmem =>
    hlast timed hmem ⟨.get key, now⟩ List.mem_cons_self
  rw [getCachedEchConfig_eq_some]
  constructor
  · rintro ⟨entry, hentry, hlive, rfl⟩
    obtain ⟨ttl, t₀, hlatest, hexpires⟩ :=
      latest_entriesOf.mp ((hagrees.live key hlive).mp hentry)
    rw [hexpires, clampTtl_eq] at hlive
    exact ⟨ttl, t₀, hlatest, hlive⟩
  · intro ⟨ttl, t₀, hlatest, hlive⟩
    rw [← clampTtl_eq] at hlive
    let entry : CachedEchConfig := ⟨config, t₀ + clampTtl ttl⟩
    have hfound : latest key (entriesOf calls) = some entry :=
      latest_entriesOf.mpr ⟨ttl, t₀, hlatest, rfl⟩
    have hlive' : now < entry.expiresAt := hlive
    exact ⟨entry, (hagrees.live key hlive').mpr hfound, hlive, rfl⟩

end Ech

end EchProxy
