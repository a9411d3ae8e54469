import EchProxy.Ech.Bootstrap
import EchProxy.Ech.QueryName

/-! # What is published

    A name server answers every query from its zone.  Where the DoH server of a
    backend is such a server, its bootstrap gets what the zone publishes for the
    name of the backend, and nothing for a name without a configuration.  A
    configuration out of the cache was published for the same name, and is not
    used longer than its record allows, within the bounds of the cache.
-/

namespace EchProxy

namespace Ech

open Checked Traced Mutex

variable {w : Width}

/-! ## Name servers -/

/-- A query with one question. -/
structure DnsQuery where
  id : UInt16
  flags : UInt16
  labels : List Label
  qtype : UInt16
  qclass : UInt16

namespace DnsQuery

def question (q : DnsQuery) : Question := ⟨⟨q.labels, .root⟩, q.qtype, q.qclass⟩

def encode (q : DnsQuery) : Bytes :=
  put16 q.id.toNat ++ put16 q.flags.toNat ++ put16 1 ++ put16 0 ++ put16 0 ++ put16 0 ++
    q.question.encode

end DnsQuery

/-- The records of a server, by the labels of the name, the type and the class. -/
structure Zone where
  answers : List Bytes → UInt16 → UInt16 → List Record
  few : ∀ labels qtype qclass, (answers labels qtype qclass).length < 65536

namespace Zone

def answersTo (zone : Zone) (q : DnsQuery) : List Record :=
  zone.answers (q.labels.map Label.bytes) q.qtype q.qclass

/-- A reply: the id and the question of the query, and the answers of the zone. -/
inductive Replies (zone : Zone) (q : DnsQuery) : Bytes → Prop where
  | intro (flags nscount arcount : UInt16) (trailing : Bytes)
      (isResponse : flags.toNat &&& 0x8000 ≠ 0) (noError : flags.toNat &&& 0x000f = 0) :
      zone.Replies q (put16 q.id.toNat ++ put16 flags.toNat ++ put16 1 ++
        put16 (zone.answersTo q).length ++ put16 nscount.toNat ++ put16 arcount.toNat ++
        q.question.encode ++ (zone.answersTo q).flatMap Record.encode ++ trailing)

/-- The labels of a name; dots at its end are no labels. -/
def labelsOf (name : Text) : List Bytes :=
  (Str.split '.' (Str.trimEndMatches '.' name)).map Text.asBytes

/-- The configuration that is published for a name, and for how long. -/
def ech (zone : Zone) (name : Text) : Option (Bytes × Nat) :=
  (zone.answers (labelsOf name) 65 1).findSome? Record.found

end Zone

/-- The DoH server of a bootstrap answers from the zone. -/
def Bootstrap.Asks (b : Bootstrap w) (zone : Zone) : Prop :=
  ∀ q : DnsQuery, q.encode.length < 65536 →
    ∃ response, b.world.doh b.doh q.encode = .ok response ∧ zone.Replies q response.data

/-! ## One exchange -/

/-- The query for a name is one question, for its labels. -/
theorem buildHttpsQuery_question {name : Text} {query : Bytes}
    (h : buildHttpsQuery name = .ok query) :
    ∃ q : DnsQuery, query = q.encode ∧ q.labels.map Label.bytes = Zone.labelsOf name ∧
      q.qtype = 65 ∧ q.qclass = 1 := by
  rw [buildHttpsQuery] at h
  split at h
  · cases h
  · rw [Result.bind_eq_ok] at h
    obtain ⟨bytes, hbytes, h⟩ := h
    obtain ⟨wire, hwire, rfl⟩ := encodeLabels_eq_ok hbytes
    obtain rfl := Except.ok.inj h
    refine ⟨⟨0x4543, 0x0100, wire, 65, 1⟩, ?_, hwire, rfl, rfl⟩
    simp [DnsQuery.encode, DnsQuery.question, Question.encode, WireName.encode, NameEnd.encode,
      queryHeader, toBeBytes, put16]

/-- A response with these counts, questions and answers. -/
theorem parse_sections {message : Slice w} {flags n stop : Nat} {answers : List Record}
    (hflags : u16At message.data 2 = some flags) (isResponse : flags &&& 0x8000 ≠ 0)
    (noError : flags &&& 0x000f = 0) (hqdcount : u16At message.data 4 = some n)
    (hancount : u16At message.data 6 = some answers.length)
    (hquestions : QuestionsAt message.data n 12 stop) (hlong : 12 ≤ message.data.length)
    (hanswers : Stands message.data stop (answers.flatMap Record.encode)) :
    parseHttpsResponseForEch message =
      match answers.findSome? Record.found with
      | some found => .ok found
      | none => bail "HTTPS response did not contain an ech SVCB parameter" := by
  rw [parseHttpsResponseForEch, if_neg (Nat.not_lt.mpr hlong), readU16_ok hflags, Result.ok_bind,
    if_neg isResponse, if_neg (not_not.mpr noError), readU16_ok hqdcount, Result.ok_bind,
    readU16_ok hancount, Result.ok_bind, skipQuestions_ok hquestions, Result.ok_bind]
  exact searchAnswers_of_stands hanswers

/-- A reply is read as the answers of the zone. -/
theorem parse_reply {message : Slice w} {zone : Zone} {q : DnsQuery}
    (h : zone.Replies q message.data) :
    parseHttpsResponseForEch message =
      match (zone.answersTo q).findSome? Record.found with
      | some found => .ok found
      | none => bail "HTTPS response did not contain an ech SVCB parameter" := by
  generalize hdata : message.data = data at h
  obtain ⟨flags, nscount, arcount, trailing, isResponse, noError⟩ := h
  have hstands : Stands message.data 0 (put16 q.id.toNat ++ (put16 flags.toNat ++ (put16 1 ++
      (put16 (zone.answersTo q).length ++ (put16 nscount.toNat ++ (put16 arcount.toNat ++
        ([q.question].flatMap Question.encode ++
          ((zone.answersTo q).flatMap Record.encode ++ trailing)))))))) :=
    ⟨[], [], by rw [hdata]; simp, rfl⟩
  -- twelve bytes of header, the question, and the answers behind it
  have hbody := hstands.right.right.right.right.right.right
  refine parse_sections (hstands.right.left.u16At flags.toNat_lt) isResponse noError
    (hstands.right.right.left.u16At (by decide))
    (hstands.right.right.right.left.u16At (zone.few _ _ _))
    (questionsAt_of_stands hbody.left) ?_ hbody.right.left
  exact (Nat.le_add_right 12 _).trans hbody.fits

/-! ## Bootstraps -/

/-- What a bootstrap that asks the zone does. -/
def Bootstrap.published (b : Bootstrap w) (zone : Zone) (name : Text) (query : Bytes) :
    Traced Fault Event Bytes :=
  match zone.ech name with
  | some (config, ttl) =>
    ⟨[.query b.doh query, .store (cacheKey b.doh name) config ttl], .ok config⟩
  | none =>
    ⟨[.query b.doh query],
      .error (.error "failed to parse HTTPS/SVCB response for ECHConfigList")⟩

namespace Bootstrap

variable {b : Bootstrap w} {zone : Zone} {name : Text}

/-- The answer to the query for a name. -/
theorem Asks.response (h : b.Asks zone) {query : Bytes} (hquery : buildHttpsQuery name = .ok query) :
    ∃ response, b.world.doh b.doh query = .ok response ∧ parseHttpsResponseForEch response =
      match zone.ech name with
      | some found => .ok found
      | none => bail "HTTPS response did not contain an ech SVCB parameter" := by
  have hsmall : query.length < 65536 := by
    obtain ⟨wire, rfl, -, hshort⟩ := buildHttpsQuery_eq_ok hquery
    have hheader : queryHeader.length = 12 := rfl
    simp only [List.length_append, hheader, put16, List.length_cons, List.length_nil]
    omega
  obtain ⟨q, rfl, hlabels, hqtype, hqclass⟩ := buildHttpsQuery_question hquery
  obtain ⟨response, hdoh, hreplies⟩ := h q hsmall
  have hanswers : zone.answersTo q = zone.answers (Zone.labelsOf name) 65 1 := by
    rw [Zone.answersTo, hlabels, hqtype, hqclass]
  refine ⟨response, hdoh, ?_⟩
  rw [parse_reply hreplies, hanswers, Zone.ech]

/-- What is fetched is what is published. -/
theorem Asks.fetched (h : b.Asks zone) {config : Bytes} {ttl : Nat}
    (hfetches : b.Fetches name config ttl) : zone.ech name = some (config, ttl) := by
  obtain ⟨query, response, hquery, hdoh, hparse⟩ := hfetches
  obtain ⟨response', hdoh', hparse'⟩ := h.response hquery
  obtain rfl := Except.ok.inj (hdoh.symm.trans hdoh')
  rw [hparse'] at hparse
  cases hech : zone.ech name with
  | none =>
    rw [hech] at hparse
    cases hparse
  | some found =>
    rw [hech] at hparse
    rw [Except.ok.inj hparse]

/-- One query, and what is published is stored and returned. -/
theorem Asks.run (h : b.Asks zone) {query : Bytes} (hname : b.name = .ok name)
    (hquery : buildHttpsQuery name = .ok query) : b.run none = b.published zone name query := by
  obtain ⟨response, hdoh, hparse⟩ := h.response hquery
  have hsame : backendTlsName { b.world with cached := fun _ => none } b.backend = .ok name := hname
  have hfetch : fetchDoh { b.world with cached := fun _ => none }
      (b.backend.effectiveEchBootstrapDoh b.ech) query = .ok response := fetchDoh_eq_ok.mpr hdoh
  rw [Bootstrap.run, bootstrapEchConfig, hsame, lift_ok_bind]
  dsimp only
  rw [hquery, lift_ok_bind, emit_bind, hfetch, lift_ok_bind, hparse, published]
  cases zone.ech name with
  | none => rfl
  | some found => rfl

end Bootstrap

/-! ## Tasks -/

/-- The call of `bootstrap_ech_config` that a stage belongs to. -/
def Stage.bootstrap : Stage w → Bootstrap w
  | .lookup b _ | .store b _ _ _ | .returned b _ => b

section tasks
variable {s : Tasks w} {zones : Bootstrap w → Zone}

/-- All that went to the cache so far was done for URLs without NUL, whose servers answer
    from the zones. -/
def AskZones (zones : Bootstrap w → Zone) (s : Tasks w) : Prop :=
  ∀ done ∈ s.log, '\x00' ∉ done.stage.bootstrap.doh ∧
    done.stage.bootstrap.Asks (zones done.stage.bootstrap)

/-- The lookup of the `i`-th task found the configuration, which a task of the same URL
    had put before that lookup: its zone had published it for the name, and its lifetime
    was not over. -/
inductive Fresh (zones : Bootstrap w → Zone) (s : Tasks w) (i : Nat) (b : Bootstrap w)
    (name : Text) (config : Bytes) : Prop where
  | intro {lookup put : Done (Stage w) CacheCall (Option Bytes)} {b' : Bootstrap w} {ttl : Nat}
      {before after : List (Done (Stage w) CacheCall (Option Bytes))}
      (log : s.log = before ++ lookup :: after) (hput : put ∈ before)
      (own : lookup.thread = i) (stage : lookup.stage = .lookup b (cacheKey b.doh name))
      (found : lookup.result = some config)
      (store : put.stage = .store b' (cacheKey b.doh name) config ttl) (doh : b'.doh = b.doh)
      (published : (zones b').ech name = some (config, ttl))
      (alive : lookup.timed.now <
        put.timed.now + min (max (fromSecs ttl) minEchCacheTtl) maxEchCacheTtl)

/-- A task that returns a configuration of the cache has looked it up itself. -/
theorem own_lookup (hs : (tasks w).Reachable s) {i : Nat} {b : Bootstrap w} {config : Bytes}
    (hthread : s.threads i = some (.free (.returned b (some config)))) :
    ∃ lookup ∈ s.log, ∃ key, lookup.thread = i ∧ lookup.stage = .lookup b key ∧
      lookup.result = some config := by
  have hstaged := staged_of_reachable bootstrapTask_keeps s hs
  rcases hstaged.origin i _ hthread with ⟨b', hstart⟩ | ⟨lookup, hlookup, hown, hresume⟩
  · simp only [Thread.stage, bootstrapTask] at hstart
    split at hstart <;> cases hstart
  · obtain ⟨-, hnext⟩ := hstaged.calls lookup hlookup
    refine ⟨lookup, hlookup, ?_⟩
    obtain ⟨thread, stage, timed, result⟩ := lookup
    cases stage with
    | lookup b' key =>
      cases result with
      | some config' =>
        obtain ⟨rfl, hconfig⟩ := Stage.returned.inj hresume
        exact ⟨key, hown, rfl, hconfig.symm⟩
      | none =>
        simp only [Thread.stage, bootstrapTask] at hresume
        split at hresume <;> cases hresume
    | store b' key config' ttl => cases hresume
    | returned b' cached => cases hnext

/-- What a task takes from the cache was published, and is fresh. -/
theorem fresh_of_returned (hs : (tasks w).Reachable s) (hzones : AskZones zones s) {i : Nat}
    {b : Bootstrap w} {config : Bytes}
    (hthread : s.threads i = some (.free (.returned b (some config)))) :
    ∃ name, b.name = .ok name ∧ Fresh zones s i b name config := by
  have hlatest := latestValue_of_reachable hs
  have hstaged := staged_of_reachable bootstrapTask_keeps s hs
  obtain ⟨lookup, hlookup, key, hown, hstage, hfound⟩ := own_lookup hs hthread
  obtain ⟨hhonest, hnext⟩ := hstaged.calls lookup hlookup
  rw [hstage] at hhonest hnext
  obtain ⟨name, hname, rfl⟩ := hhonest
  have hcall : lookup.timed.call = .get (cacheKey b.doh name) := (Option.some.inj hnext).symm
  -- the put it found is in the log before it
  obtain ⟨before, after, hsplit⟩ := List.append_of_mem hlookup
  obtain ⟨ttl, t₀, ⟨earlier, later, hputs, -⟩, halive⟩ :=
    (hlatest.gets before lookup after _ hsplit hcall config).mp hfound
  obtain ⟨put, hput, htimed⟩ : ∃ put ∈ before, put.timed =
      ⟨.put (cacheKey b.doh name) config ttl, t₀⟩ := by
    apply List.mem_map.mp
    rw [hputs]
    exact List.mem_append_right _ List.mem_cons_self
  have hlogged : put ∈ s.log := by
    rw [hsplit]
    exact List.mem_append_left _ hput
  obtain ⟨b', secs, name', hstore, rfl, hname', hkey, hfetches⟩ :=
    hlatest.puts put hlogged _ config ttl (congrArg Timed.call htimed)
  -- both tasks had one URL and one name, as they had one key
  have hurl := (hzones lookup hlookup).1
  obtain ⟨hurl', hasks⟩ := hzones put hlogged
  rw [hstage] at hurl
  rw [hstore] at hurl' hasks
  obtain ⟨hdoh, rfl⟩ := cacheKey_inj hurl hurl' hkey
  refine ⟨name, hname, .intro hsplit hput hown hstage hfound hstore hdoh.symm
    (hasks.fetched hfetches) ?_⟩
  rw [htimed]
  exact halive

end tasks

/-- **Bootstraps get what is published**: where the DoH servers answer from their zones, a
    task that misses the cache stores and returns what the zone publishes for its name,
    and fails where it publishes nothing; and in every order of the tasks, what one takes
    from the cache was published for its name at its URL, and its lifetime is not over. -/
theorem config_published (zones : Bootstrap w → Zone) :
    (∀ (b : Bootstrap w) (name : Text) (query : Bytes), b.Asks (zones b) → b.name = .ok name →
      buildHttpsQuery name = .ok query → b.run none = b.published (zones b) name query) ∧
    ∀ s, (tasks w).Reachable s → AskZones zones s → ∀ i b config,
      s.threads i = some (.free (.returned b (some config))) →
      b.run (some config) = ⟨[], .ok config⟩ ∧
        ∃ name, b.name = .ok name ∧ Fresh zones s i b name config := by
  refine ⟨fun b name query hasks hname hquery => hasks.run hname hquery, ?_⟩
  intro s hs hzones i b config hthread
  obtain ⟨name, hname, hfresh⟩ := fresh_of_returned hs hzones hthread
  exact ⟨Bootstrap.run_cached hname config, name, hname, hfresh⟩

/-! ## An example -/

/-- One HTTPS record for every name, to be kept for a minute. -/
def exampleZone : Zone where
  answers _ _ _ := [⟨examplePointer, 1, 60, .https 1 examplePointer [⟨5, [7, 7]⟩], by decide⟩]
  few _ _ _ := by decide

/-- The reply of its server. -/
def exampleReply (query : Bytes) : Bytes :=
  query.take 2 ++ put16 0x8180 ++ put16 1 ++ put16 1 ++ put16 0 ++ put16 0 ++ query.drop 12 ++
    (exampleZone.answers [] 65 1).flatMap Record.encode

/-- The server, over HTTP. -/
def exampleDoh (query : Bytes) : Except String (Slice .bits64) :=
  if h : (exampleReply query).length ≤ Width.bits64.isizeMax then .ok ⟨exampleReply query, h⟩
  else .error "response too long"

/-- A bootstrap that asks this server. -/
def askingBootstrap : Bootstrap .bits64 :=
  { exampleBootstrap with
    world :=
      { exampleBootstrap.world with
        doh := fun _ => exampleDoh } }

theorem askingBootstrap_asks : askingBootstrap.Asks exampleZone := by
  intro q hsmall
  have htake : q.encode.take 2 = put16 q.id.toNat := by
    simp [DnsQuery.encode, put16]
  have hdrop : q.encode.drop 12 = q.question.encode := by
    simp [DnsQuery.encode, put16]
  have hreply : exampleReply q.encode = put16 q.id.toNat ++ put16 (0x8180 : UInt16).toNat ++
      put16 1 ++ put16 (exampleZone.answersTo q).length ++ put16 (0 : UInt16).toNat ++
      put16 (0 : UInt16).toNat ++ q.question.encode ++
      (exampleZone.answersTo q).flatMap Record.encode ++ [] := by
    rw [exampleReply, htake, hdrop, List.append_nil]
    rfl
  have hfits : (exampleReply q.encode).length ≤ Width.bits64.isizeMax := by
    have hrecords : ((exampleZone.answers [] 65 1).flatMap Record.encode).length = 22 := by decide
    have hmax : Width.bits64.isizeMax = 2 ^ 63 - 1 := rfl
    simp only [exampleReply, List.length_append, List.length_take, List.length_drop, put16,
      List.length_cons, List.length_nil, hrecords]
    omega
  have hserver : askingBootstrap.world.doh = fun _ => exampleDoh := rfl
  refine ⟨⟨exampleReply q.encode, hfits⟩, ?_, ?_⟩
  · rw [hserver]
    dsimp only
    rw [exampleDoh, dif_pos hfits]
  dsimp only
  rw [hreply]
  exact .intro 0x8180 0 0 [] (by decide) (by decide)

/-- A first task asks and stores, and one that starts a minute later finds what it stored. -/
def askingSteps : List (Mutex.Label (Bootstrap .bits64)) :=
  [.start 0 askingBootstrap, .lock 0, .readClock 0, .finish 0,
    .tick 7, .lock 0, .readClock 0, .finish 0,
    .start 1 askingBootstrap, .tick 59999999999, .lock 1, .readClock 1, .finish 1]

theorem config_published_example :
    (∃ query, askingBootstrap.run none =
      askingBootstrap.published exampleZone "b.example".toList query) ∧
    ∃ s, (tasks .bits64).Reachable s ∧
      Fresh (fun _ => exampleZone) s 1 askingBootstrap "b.example".toList [7, 7] := by
  obtain ⟨hmiss, hhit⟩ := config_published fun _ : Bootstrap .bits64 => exampleZone
  constructor
  · obtain ⟨query, hquery⟩ : ∃ query, buildHttpsQuery "b.example".toList = .ok query := ⟨_, rfl⟩
    exact ⟨query, hmiss _ _ _ askingBootstrap_asks rfl hquery⟩
  · obtain ⟨s, hrun, hthread, hlog⟩ : ∃ s, (tasks .bits64).run noTasks askingSteps = some s ∧
        s.threads 1 = some (.free (.returned askingBootstrap (some [7, 7]))) ∧
        s.log.map (fun done => done.stage.bootstrap) = List.replicate 3 askingBootstrap :=
      ⟨_, rfl, rfl, rfl⟩
    have hs : (tasks .bits64).Reachable s :=
      Lts.System.reachable_of_run (.init ⟨rfl, rfl, rfl, fun _ => rfl⟩) hrun
    have hzones : AskZones (fun _ => exampleZone) s := by
      intro done hdone
      have hmem : done.stage.bootstrap ∈ List.replicate 3 askingBootstrap := by
        rw [← hlog]
        exact List.mem_map_of_mem hdone
      rw [List.eq_of_mem_replicate hmem]
      exact ⟨by decide, askingBootstrap_asks⟩
    obtain ⟨-, name, hname, hfresh⟩ := hhit s hs hzones 1 askingBootstrap [7, 7] hthread
    obtain rfl : "b.example".toList = name := Except.ok.inj hname
    exact ⟨s, hs, hfresh⟩

end Ech

end EchProxy
