import EchProxy.Tunnel.ServerInv

/-! # Policy Enforcement over Whole Runs

    The guarantee a server operator relies on, read off the histories of a
    run: nothing is resolved or dialed for a request that was not let in,
    nothing is dialed that the policy has not passed, and nothing is written
    except to the one connection that was dialed last and passed the peer
    check.
-/

namespace EchProxy

open Server

/-! ## The guarantee -/

/-- The request is let in: its metadata has a value that reads as text, and the
    token in it is not empty and is a configured one. -/
def LetIn (config : ServerConfig) (metadata : MetadataMap) : Prop :=
  ∃ raw value, metadata.authorization = some raw ∧ config.toStr raw = some value ∧
    metadataToken value ≠ [] ∧ metadataToken value ∈ config.auth.tokens

/-- These are the requests that `authenticate` takes. -/
theorem letIn_iff {config : ServerConfig} {metadata : MetadataMap} :
    LetIn config metadata ↔
      ∃ token, config.auth.authenticate config.toStr metadata = .ok token := by
  constructor
  · rintro ⟨raw, value, hraw, hvalue, hsome, hmem⟩
    exact ⟨_, TokenAuth.authenticate_eq_ok.mpr ⟨raw, value, hraw, hvalue, rfl, hsome, hmem⟩⟩
  · rintro ⟨token, htoken⟩
    obtain ⟨raw, value, hraw, hvalue, rfl, hsome, hmem⟩ := TokenAuth.authenticate_eq_ok.mp htoken
    exact ⟨raw, value, hraw, hvalue, hsome, hmem⟩

namespace ServerState

/-- What holds of the first frame and of the resolved addresses before the
    first connect. -/
structure Admitted (config : ServerConfig) (s : ServerState) (target : Open)
    (addrs : List SocketAddr) : Prop where
  first_frame : s.received.head? = some (openFrame target)
  /-- The port is in 1..65535, so narrowing it loses nothing. -/
  port_range : 1 ≤ target.targetPort.toNat ∧ target.targetPort.toNat ≤ 65535
  port_allowed : ∀ allowed, config.policy.allowedPorts = some allowed →
    target.targetPort.toUInt16 ∈ allowed
  host_valid : validateHost target.targetHost = .ok ()
  /-- The addresses are the IP literal, or what the resolver answered. -/
  source :
    (∃ ip, config.text.parse target.targetHost = some ip ∧
        addrs = [⟨ip, target.targetPort.toUInt16⟩]) ∨
      ⟨target.targetHost, target.targetPort.toUInt16, .ok addrs⟩ ∈ s.lookups
  nonempty : addrs ≠ []
  all_pass : ∀ addr ∈ addrs, config.policy.checkIp addr.ip = .ok ()

/-- The resolver kept the port it was asked for. -/
def PortsKept (s : ServerState) : Prop :=
  ∀ l ∈ s.lookups, ∀ addrs, l.answer = .ok addrs → ∀ addr ∈ addrs, addr.port = l.port

/-- **The guarantee**, on the histories of a run. -/
structure Enforced (config : ServerConfig) (metadata : MetadataMap) (s : ServerState) :
    Prop where
  /-- Only a request that is let in resolves or dials. -/
  let_in : s.lookups ≠ [] ∨ s.dials ≠ [] → LetIn config metadata
  /-- The resolver is asked for the host and port of the first frame. -/
  asked : ∀ l ∈ s.lookups, ∃ target, s.received.head? = some (openFrame target) ∧
    l.host = target.targetHost ∧ l.port.toNat = target.targetPort.toNat ∧
    validateHost l.host = .ok ()
  /-- Dials are a prefix of an admitted list, in its order. -/
  dialed : s.dials ≠ [] →
    ∃ target addrs, Admitted config s target addrs ∧ s.dials.map Prod.fst <+: addrs
  /-- Nothing is dialed after a connect that succeeded. -/
  first_success : ∀ dial ∈ s.dials.dropLast, ∀ peer, dial.2 ≠ .connected peer
  /-- The port that is dialed is the port that was asked for. -/
  port_kept : PortsKept s → ∀ dial ∈ s.dials, ∃ target,
    s.received.head? = some (openFrame target) ∧ dial.1.port.toNat = target.targetPort.toNat
  /-- There is a target only after a connect, and its peer passed. -/
  target_passed : ∀ t, s.target = some t →
    s.dials.getLast? = some (t.addr, .connected t.peer) ∧
      ∀ peer, t.peer = some peer → config.policy.checkIp peer.ip = .ok ()
  /-- Without a target nothing is written and no success is reported. -/
  silent : s.target = none →
    s.targetWritten = [] ∧ ∀ error, openResultFrame true error ∉ s.sent

/-! ## The invariant behind it -/

/-- The `Open` the main loop works on before the connect. -/
def wanted (s : ServerState) : Option Open :=
  match s.main with
  | .resolving target | .connecting target _ _ => some target
  | _ => none

/-- The invariant: the histories, and how they fit to where the loop is. -/
structure Guarded (config : ServerConfig) (metadata : MetadataMap) (s : ServerState) :
    Prop where
  let_in : s.main ≠ .idle → (∀ err, s.main ≠ .rejected err) → LetIn config metadata
  untouched : s.main.phase = .waiting → s.lookups = [] ∧ s.resolved = none
  opened : ∀ target, s.wanted = some target → s.received.head? = some (openFrame target)
  resolving : ∀ target, s.main = .resolving target → s.resolved = none
  connecting : ∀ target rest lastErr, s.main = .connecting target rest lastErr →
    s.resolved = some (s.dials.map Prod.fst ++ rest) ∧
      ∀ dial ∈ s.dials, ∀ peer, dial.2 ≠ .connected peer
  asked : ∀ l ∈ s.lookups, ∃ target, s.received.head? = some (openFrame target) ∧
    config.policy.lookup config.text target.targetHost target.targetPort = some (l.host, l.port)
  admitted : ∀ addrs, s.resolved = some addrs → ∃ target, Admitted config s target addrs
  no_dials : s.resolved = none → s.dials = []
  in_order : ∀ addrs, s.resolved = some addrs → s.dials.map Prod.fst <+: addrs
  first_success : ∀ dial ∈ s.dials.dropLast, ∀ peer, dial.2 ≠ .connected peer
  target_passed : ∀ t, s.target = some t →
    s.dials.getLast? = some (t.addr, .connected t.peer) ∧
      ∀ peer, t.peer = some peer → config.policy.checkIp peer.ip = .ok ()

/-- The histories of the open phase stay, the first frame stays first, the
    target stays the same connection. -/
structure Same (s s' : ServerState) : Prop where
  lookups : s'.lookups = s.lookups
  resolved : s'.resolved = s.resolved
  dials : s'.dials = s.dials
  head : ∀ frame, s.received.head? = some frame → s'.received.head? = some frame
  target : ∀ t', s'.target = some t' →
    ∃ t, s.target = some t ∧ t.addr = t'.addr ∧ t.peer = t'.peer

/-- A step outside the open phase. -/
structure Kept (s s' : ServerState) : Prop extends Same s s' where
  past : s'.main.phase = .connected ∨ s'.main.phase = .over

section enforcement
variable {config : ServerConfig} {metadata : MetadataMap} {targetInput : Bytes}
  {s s' : ServerState}

theorem guarded_fresh (targetInput : Bytes) : Guarded config metadata (fresh targetInput) where
  let_in := fun hidle => absurd rfl hidle
  untouched := fun _ => ⟨rfl, rfl⟩
  opened := fun _ h => by cases h
  resolving := fun _ h => by cases h
  connecting := fun _ _ _ h => by cases h
  asked := fun _ h => absurd h List.not_mem_nil
  admitted := fun _ h => by cases h
  no_dials := fun _ => rfl
  in_order := fun _ h => by cases h
  first_success := fun _ h => absurd h List.not_mem_nil
  target_passed := fun _ h => by cases h

theorem wanted_phase {target : Open} (h : s.wanted = some target) : s.main.phase = .dialing := by
  unfold wanted at h
  split at h
  · next hmain => rw [hmain]; rfl
  · next hmain => rw [hmain]; rfl
  · cases h

/-- What was admitted stays admitted. -/
theorem Admitted.mono {target : Open} {addrs : List SocketAddr}
    (h : Admitted config s target addrs)
    (hhead : ∀ frame, s.received.head? = some frame → s'.received.head? = some frame)
    (hlookups : s.lookups ⊆ s'.lookups) : Admitted config s' target addrs where
  first_frame := hhead _ h.first_frame
  port_range := h.port_range
  port_allowed := h.port_allowed
  host_valid := h.host_valid
  source := h.source.imp id fun hmem => hlookups hmem
  nonempty := h.nonempty
  all_pass := h.all_pass

/-- A step outside the open phase keeps the invariant. -/
theorem Guarded.kept (h : Guarded config metadata s) (hk : Kept s s')
    (hlet : LetIn config metadata) : Guarded config metadata s' where
  let_in := fun _ _ => hlet
  -- the new place is past the dialing, where these four fields say nothing
  untouched := fun hpc => by
    rcases hk.past with hpast | hpast <;> rw [hpast] at hpc <;> cases hpc
  opened := fun target ht => by
    have hpc := wanted_phase ht
    rcases hk.past with hpast | hpast <;> rw [hpast] at hpc <;> cases hpc
  resolving := fun target hmain => by
    rcases hk.past with hpast | hpast <;> rw [hmain] at hpast <;> cases hpast
  connecting := fun target rest lastErr hmain => by
    rcases hk.past with hpast | hpast <;> rw [hmain] at hpast <;> cases hpast
  asked := fun l hl => by
    rw [hk.lookups] at hl
    obtain ⟨target, hhead, hlookup⟩ := h.asked l hl
    exact ⟨target, hk.head _ hhead, hlookup⟩
  admitted := fun addrs hres => by
    rw [hk.resolved] at hres
    obtain ⟨target, hadm⟩ := h.admitted addrs hres
    exact ⟨target, hadm.mono hk.head (by rw [hk.lookups]; exact List.Subset.refl _)⟩
  no_dials := fun hres => by
    rw [hk.dials]
    exact h.no_dials (hk.resolved ▸ hres)
  in_order := fun addrs hres => by
    rw [hk.dials]
    exact h.in_order addrs (hk.resolved ▸ hres)
  first_success := by
    rw [hk.dials]
    exact h.first_success
  target_passed := fun t' ht' => by
    obtain ⟨t, ht, haddr, hpeer⟩ := hk.target t' ht'
    rw [hk.dials, ← haddr, ← hpeer]
    exact h.target_passed t ht

/-- The main loop, the task and the queue are not looked at. -/
theorem move_same (s : ServerState) (main : ServerPc) (task : ReadTask ServerFrame)
    (sent : List ServerFrame) : Same s { s with main := main, task := task, sent := sent } :=
  ⟨rfl, rfl, rfl, fun _ hf => hf, fun t ht => ⟨t, ht, rfl, rfl⟩⟩

theorem Same.trans {s₁ : ServerState} (h : Same s s₁) (h' : Same s₁ s') : Same s s' where
  lookups := h'.lookups.trans h.lookups
  resolved := h'.resolved.trans h.resolved
  dials := h'.dials.trans h.dials
  head := fun frame hf => h'.head frame (h.head frame hf)
  target := fun t' ht' => by
    obtain ⟨t₁, ht₁, haddr₁, hpeer₁⟩ := h'.target t' ht'
    obtain ⟨t, ht, haddr, hpeer⟩ := h.target t₁ ht₁
    exact ⟨t, ht, haddr.trans haddr₁, hpeer.trans hpeer₁⟩

/-- Moving the main loop on changes no history. -/
theorem main_kept (s : ServerState) (main : ServerPc)
    (hpast : main.phase = .connected ∨ main.phase = .over) :
    Kept s { s with main := main } :=
  ⟨move_same s main s.task s.sent, hpast⟩

/-- On the way out everything stays as it is. -/
theorem leave_kept (s : ServerState) (text : IpText) (why : ServerExit) :
    Kept s (s.leave text why) := by
  unfold ServerState.leave
  split
  · exact ⟨move_same s _ _ _, .inr rfl⟩
  · exact ⟨move_same s _ _ _, .inr rfl⟩

/-- A first frame stays the first frame. -/
theorem note_same (s : ServerState) (item : StreamItem ClientFrame) : Same s (s.note item) where
  lookups := rfl
  resolved := rfl
  dials := rfl
  head := fun frame hf => by
    show (s.received ++ item.frames).head? = some frame
    rw [List.head?_append, hf]
    rfl
  target := fun t ht => ⟨t, ht, rfl, rfl⟩

/-- The relay loop keeps the histories. -/
theorem onNext_kept (s : ServerState) (text : IpText) (item : StreamItem ClientFrame) :
    Kept s (s.onNext text item) := by
  rcases item with _ | (status | frame)
  · exact main_kept s _ (.inl rfl)
  · exact main_kept s _ (.inl rfl)
  · obtain ⟨payload⟩ := frame
    rcases payload with _ | (target | bytes | _ | reason | millis)
    · exact leave_kept s text .emptyFrame
    · exact leave_kept s text .unexpectedOpen
    · exact main_kept s _ (.inl rfl)
    · exact main_kept s _ (.inl rfl)
    · exact main_kept s _ (.inl rfl)
    · exact main_kept s _ (.inl rfl)

theorem afterSend_kept (text : IpText) (hout : (s.outgoing text).isSome) :
    Kept s s.afterSend := by
  unfold ServerState.afterSend
  split
  · exact ⟨move_same s _ _ _, .inl rfl⟩
  · exact ⟨move_same s _ _ _, .inl rfl⟩
  · exact ⟨move_same s _ _ _, .inr rfl⟩
  · next hopen hpong hclosing =>
    -- nothing is sent from any other place
    unfold outgoing at hout
    split at hout
    · next hmain => exact absurd hmain hopen
    · next hmain => exact absurd hmain (hpong _)
    · next hmain => exact absurd hmain (hclosing _)
    · cases hout

/-- Writing to the target and shutting it down leave it the same connection. -/
theorem target_same (s : ServerState) {f : Target → Target}
    (hf : ∀ t, (f t).addr = t.addr ∧ (f t).peer = t.peer) :
    Same s { s with target := s.target.map f } where
  lookups := rfl
  resolved := rfl
  dials := rfl
  head := fun _ hf => hf
  target := fun t' ht' => by
    obtain ⟨t, ht, rfl⟩ := Option.map_eq_some_iff.mp ht'
    exact ⟨t, ht, (hf t).1.symm, (hf t).2.symm⟩

/-! ## The open phase, step by step -/

/-- The first frame is noted and the open phase begins, or ends. -/
theorem Guarded.onFirst (h : Guarded config metadata s) (hinv : Inv targetInput s)
    (hmain : s.main = .waitOpen) (text : IpText) (item : StreamItem ClientFrame) :
    Guarded config metadata ((s.note item).onFirst text item) := by
  have hphase : s.main.phase = .waiting := by rw [hmain]; rfl
  have hlet : LetIn config metadata := h.let_in (by simp [hmain]) (by simp [hmain])
  have hleave : ∀ why, Guarded config metadata ((s.note item).leave text why) := by
    intro why
    have hkept := leave_kept (s.note item) text why
    exact h.kept ⟨(note_same s item).trans hkept.toSame, hkept.past⟩ hlet
  rcases item with _ | (status | frame)
  · exact hleave .closedBeforeOpen
  · exact hleave (.openStreamError status)
  · obtain ⟨payload⟩ := frame
    rcases payload with _ | (target | bytes | _ | reason | millis)
    · exact hleave .notOpen
    -- `Open` is the one item that goes on: nothing was looked up or dialed before it
    · obtain ⟨hlookups, hresolved⟩ := h.untouched hphase
      have hdials := h.no_dials hresolved
      have hnone := hinv.no_target (.inl hphase)
      exact
        { let_in := fun _ _ => hlet
          untouched := fun hpc => by cases hpc
          opened := fun target' ht => by
            obtain rfl := Option.some.inj ht
            show (s.received ++ [openFrame target]).head? = _
            rw [hinv.nothing_received hphase]
            rfl
          resolving := fun _ _ => hresolved
          connecting := fun _ _ _ hpc => by cases hpc
          asked := fun l hl => by
            change l ∈ s.lookups at hl
            rw [hlookups] at hl
            cases hl
          admitted := fun addrs hres => by
            change s.resolved = some addrs at hres
            rw [hresolved] at hres
            cases hres
          no_dials := fun _ => hdials
          in_order := fun addrs hres => by
            change s.resolved = some addrs at hres
            rw [hresolved] at hres
            cases hres
          first_success := h.first_success
          target_passed := fun t ht => by
            change s.target = some t at ht
            rw [hnone] at ht
            cases ht }
    · exact hleave .notOpen
    · exact hleave .notOpen
    · exact hleave .notOpen
    · exact hleave .notOpen

/-- The call of the resolver is one for the host and port of `target`. -/
theorem resolverCall_spec {target : Open} {answer : Except String (List SocketAddr)} {l : Lookup}
    (hl : l ∈ resolverCall config target answer) :
    config.policy.lookup config.text target.targetHost target.targetPort
      = some (l.host, l.port) ∧ l.answer = answer := by
  unfold resolverCall at hl
  split at hl
  · next hlookup =>
    obtain rfl := List.mem_singleton.mp hl
    exact ⟨hlookup, rfl⟩
  · cases hl

/-- What `resolve_target` admits. -/
theorem admitted_of_resolveTarget {target : Open} {answer : Except String (List SocketAddr)}
    {addrs : List SocketAddr} (hhead : s.received.head? = some (openFrame target))
    (hlookups : resolverCall config target answer ⊆ s.lookups)
    (hres : config.policy.resolveTarget config.text (fun _ _ => answer) target.targetHost
      target.targetPort = .ok addrs) : Admitted config s target addrs := by
  obtain ⟨p, hport, hhost, hcand, hne, hall⟩ := resolveTarget_eq_ok.mp hres
  obtain ⟨hkept, hpos, hallowed⟩ := checkPort_eq_ok.mp hport
  have hlt : p.toNat < 65536 := p.toNat_lt
  -- the checked conversion to `u16` keeps the value
  have hp : target.targetPort.toUInt16 = p := by
    apply UInt16.toNat_inj.mp
    rw [UInt32.toNat_toUInt16]
    omega
  have hne0 : p.toNat ≠ 0 := fun hzero => hpos (UInt16.toNat_inj.mp hzero)
  refine
    { first_frame := hhead
      port_range := by omega
      port_allowed := by rwa [hp]
      host_valid := hhost
      source := ?_
      nonempty := hne
      all_pass := hall }
  rw [hp]
  unfold candidates at hcand
  -- a literal is its own only candidate; any other host is looked up
  split at hcand
  · next ip hip => exact .inl ⟨ip, hip, (Except.ok.inj hcand).symm⟩
  · next hparse =>
    split at hcand
    · next found hanswer =>
      obtain rfl := Except.ok.inj hcand
      have hlookup := lookup_eq_some.mpr ⟨hport, hhost, hparse, rfl⟩
      refine .inr (hlookups ?_)
      unfold resolverCall
      rw [hlookup, show answer = .ok found from hanswer]
      exact List.mem_singleton_self _
    · cases hcand

/-- The resolved addresses are checked before anything is dialed. -/
theorem Guarded.onResolve (h : Guarded config metadata s) (hinv : Inv targetInput s)
    {target : Open} (hmain : s.main = .resolving target)
    (answer : Except String (List SocketAddr)) :
    Guarded config metadata (s.onResolve config target answer) := by
  have hlet : LetIn config metadata := h.let_in (by simp [hmain]) (by simp [hmain])
  have hhead : s.received.head? = some (openFrame target) :=
    h.opened target (by unfold wanted; rw [hmain])
  have hnone := hinv.no_target (.inr (by rw [hmain]; rfl))
  have hresolved := h.resolving target hmain
  -- there is no address before the answer, so nothing was dialed
  have hdials := h.no_dials hresolved
  have hasked : ∀ l ∈ s.lookups ++ resolverCall config target answer, ∃ target,
      s.received.head? = some (openFrame target) ∧
      config.policy.lookup config.text target.targetHost target.targetPort
        = some (l.host, l.port) := by
    intro l hl
    rcases List.mem_append.mp hl with hl | hl
    · exact h.asked l hl
    · exact ⟨target, hhead, (resolverCall_spec hl).1⟩
  have htarget : ∀ {P : Prop} {t : Target}, s.target = some t → P := by
    intro P t ht
    rw [hnone] at ht
    cases ht
  unfold ServerState.onResolve
  split
  · next addrs hres =>
    have hadm : ∀ s₁ : ServerState, s₁.received = s.received →
        s₁.lookups = s.lookups ++ resolverCall config target answer →
        Admitted config s₁ target addrs := by
      intro s₁ hreceived hlookups
      refine admitted_of_resolveTarget (by rw [hreceived]; exact hhead) ?_ hres
      rw [hlookups]
      exact List.subset_append_right _ _
    exact
      { let_in := fun _ _ => hlet
        untouched := fun hpc => by cases hpc
        opened := fun target' ht => by
          obtain rfl := Option.some.inj ht
          exact hhead
        resolving := fun _ hpc => by cases hpc
        connecting := fun target' rest lastErr hpc => by
          obtain ⟨rfl, rfl, rfl⟩ := ServerPc.connecting.inj hpc
          show some addrs = some (s.dials.map Prod.fst ++ addrs) ∧ ∀ dial ∈ s.dials, _
          rw [hdials]
          exact ⟨rfl, fun _ hmem => absurd hmem List.not_mem_nil⟩
        asked := hasked
        admitted := fun addrs' hres' => by
          obtain rfl := Option.some.inj hres'
          exact ⟨target, hadm _ rfl rfl⟩
        no_dials := fun hres' => by cases hres'
        in_order := fun addrs' _ => by
          show s.dials.map Prod.fst <+: addrs'
          rw [hdials]
          exact List.nil_prefix
        first_success := h.first_success
        target_passed := fun _ ht => htarget ht }
  · next err hres =>
    have hkept := leave_kept { s with lookups := s.lookups ++ resolverCall config target answer }
      config.text (.refused err)
    have hres' : ∀ {P : Prop} {addrs : List SocketAddr}, s.resolved = some addrs → P := by
      intro P addrs haddrs
      rw [hresolved] at haddrs
      cases haddrs
    -- the refusal passes through the state with the lookup noted and no place in the loop
    have hmid : Guarded config metadata
        { s with
          main := .returned .clientClosed
          lookups := s.lookups ++ resolverCall config target answer } :=
      { let_in := fun _ _ => hlet
        untouched := fun hpc => by cases hpc
        opened := fun _ ht => by cases ht
        resolving := fun _ hpc => by cases hpc
        connecting := fun _ _ _ hpc => by cases hpc
        asked := hasked
        admitted := fun _ haddrs => hres' haddrs
        no_dials := fun _ => hdials
        in_order := fun _ haddrs => hres' haddrs
        first_success := h.first_success
        target_passed := fun _ ht => htarget ht }
    exact hmid.kept ⟨⟨hkept.lookups, hkept.resolved, hkept.dials, hkept.head, hkept.target⟩,
      hkept.past⟩ hlet

/-- One connect attempt: the next address of the admitted list, and none
    after a success. -/
theorem Guarded.onDial (h : Guarded config metadata s) (hinv : Inv targetInput s)
    {target : Open} {addr : SocketAddr} {rest : List SocketAddr} {lastErr : Option String}
    (hmain : s.main = .connecting target (addr :: rest) lastErr) (outcome : DialOutcome) :
    Guarded config metadata (s.onDial config target addr rest outcome) := by
  have hlet : LetIn config metadata := h.let_in (by simp [hmain]) (by simp [hmain])
  have hhead : s.received.head? = some (openFrame target) :=
    h.opened target (by unfold wanted; rw [hmain])
  have hnone := hinv.no_target (.inr (by rw [hmain]; rfl))
  obtain ⟨hresolved, hfailed⟩ := h.connecting target _ _ hmain
  -- the address leaves the list and enters the history
  have hnew : s.resolved = some ((s.dialed addr outcome).dials.map Prod.fst ++ rest) := by
    simp [hresolved, dialed]
  -- what the four outcomes have in common: they differ in the place and in the target
  have hdialed : ∀ (main : ServerPc) (conn : Option Target), main.phase ≠ .waiting →
      (∀ t, conn = some t → outcome = .connected t.peer ∧ t.addr = addr ∧
        ∀ peer, t.peer = some peer → config.policy.checkIp peer.ip = .ok ()) →
      (∀ target', main ≠ .resolving target') →
      (∀ target' rest' lastErr', main = .connecting target' rest' lastErr' →
        target' = target ∧ rest' = rest ∧ ∀ peer, outcome ≠ .connected peer) →
      Guarded config metadata { s.dialed addr outcome with main := main, target := conn } := by
    intro main conn hphase hconn hresolving hconnecting
    exact
      { let_in := fun _ _ => hlet
        untouched := fun hpc => absurd hpc hphase
        opened := fun target' ht => by
          unfold wanted at ht
          split at ht
          · next hpc => exact absurd hpc (hresolving _)
          · next hpc =>
            obtain rfl := Option.some.inj ht
            rw [(hconnecting _ _ _ hpc).1]
            exact hhead
          · cases ht
        resolving := fun target' hpc => absurd hpc (hresolving target')
        connecting := fun target' rest' lastErr' hpc => by
          obtain ⟨rfl, rfl, hfail⟩ := hconnecting _ _ _ hpc
          refine ⟨hnew, fun dial hmem => ?_⟩
          rcases List.mem_append.mp hmem with hmem | hmem
          · exact hfailed dial hmem
          · rw [List.mem_singleton.mp hmem]
            exact hfail
        asked := h.asked
        admitted := fun addrs hres => by
          obtain ⟨target', hadm⟩ := h.admitted addrs hres
          exact ⟨target', hadm.mono (fun _ hf => hf) (List.Subset.refl _)⟩
        no_dials := fun hres => by
          change s.resolved = none at hres
          rw [hresolved] at hres
          cases hres
        in_order := fun addrs hres => by
          change s.resolved = some addrs at hres
          rw [hnew] at hres
          obtain rfl := Option.some.inj hres
          exact List.prefix_append _ _
        -- all attempts before the last have failed
        first_success := by
          show ∀ dial ∈ (s.dials ++ [(addr, outcome)]).dropLast, _
          rw [List.dropLast_concat]
          exact hfailed
        target_passed := fun t ht => by
          obtain ⟨houtcome, haddr, hpeer⟩ := hconn t ht
          refine ⟨?_, hpeer⟩
          show (s.dials ++ [(addr, outcome)]).getLast? = _
          rw [List.getLast?_concat, houtcome, haddr] }
  cases outcome with
  | failed err =>
    have hgo := hdialed (.connecting target rest (some err)) none (by simp [ServerPc.phase])
      (by simp) (by simp) (by simp)
    rw [← hnone] at hgo
    exact hgo
  | timedOut =>
    have hgo : ∀ err, _ := fun err => hdialed (.connecting target rest err) none
      (by simp [ServerPc.phase]) (by simp) (by simp) (by simp)
    rw [← hnone] at hgo
    exact hgo _
  | connected peer =>
    cases hpeer : checkPeer config peer with
    | error err =>
      simp only [ServerState.onDial, hpeer]
      have hkept := leave_kept (s.dialed addr (.connected peer)) config.text (.refused err)
      have hgo := hdialed (.returned .clientClosed) none (by simp [ServerPc.phase])
        (by simp) (by simp) (by simp)
      rw [← hnone] at hgo
      exact hgo.kept ⟨⟨hkept.lookups, hkept.resolved, hkept.dials, hkept.head, hkept.target⟩,
        hkept.past⟩ hlet
    | ok u =>
      simp only [ServerState.onDial, hpeer]
      refine hdialed _ _ (by simp [ServerPc.phase]) ?_ (by simp) (by simp)
      intro t ht
      obtain rfl := Option.some.inj ht
      refine ⟨rfl, rfl, fun p hp => ?_⟩
      obtain rfl : peer = some p := hp
      exact hpeer

theorem looping_phase {main : ServerPc} (h : main.looping = true) : main.phase = .connected := by
  cases main <;> first | rfl | cases h

theorem outgoing_phase (text : IpText) (hout : (s.outgoing text).isSome) :
    s.main.phase = .connected ∨ s.main.phase = .over := by
  unfold outgoing at hout
  split at hout
  · next hmain => exact .inl (by rw [hmain]; rfl)
  · next hmain => exact .inl (by rw [hmain]; rfl)
  · next hmain => exact .inr (by rw [hmain]; rfl)
  · cases hout

theorem Guarded.let_in_past (h : Guarded config metadata s)
    (hpast : s.main.phase = .connected ∨ s.main.phase = .over) : LetIn config metadata := by
  apply h.let_in
  · intro hmain
    rw [hmain] at hpast
    rcases hpast with hpast | hpast <;> cases hpast
  · intro err hmain
    rw [hmain] at hpast
    rcases hpast with hpast | hpast <;> cases hpast

/-- While the first frame has not come, the loop may move on without it. -/
theorem Guarded.wait (h : Guarded config metadata s) (hwaiting : s.main.phase = .waiting)
    {main : ServerPc} (hphase : main.phase = .waiting)
    (hlet : main ≠ .idle → (∀ err, main ≠ .rejected err) → LetIn config metadata) :
    Guarded config metadata { s with main := main } := by
  obtain ⟨hlookups, hresolved⟩ := h.untouched hwaiting
  exact
    -- while it waits, nothing that the other fields speak of has happened
    { let_in := hlet
      untouched := fun _ => ⟨hlookups, hresolved⟩
      opened := fun target ht => by
        have hpc := wanted_phase ht
        rw [hphase] at hpc
        cases hpc
      resolving := fun target hpc => by
        change main = _ at hpc
        rw [hpc] at hphase
        cases hphase
      connecting := fun target rest lastErr hpc => by
        change main = _ at hpc
        rw [hpc] at hphase
        cases hphase
      asked := h.asked
      admitted := fun addrs hres => by
        change s.resolved = some addrs at hres
        rw [hresolved] at hres
        cases hres
      no_dials := h.no_dials
      in_order := h.in_order
      first_success := h.first_success
      target_passed := h.target_passed }

/-- A step past the open phase, in two parts. -/
theorem Guarded.kept_trans (h : Guarded config metadata s) {s₁ : ServerState}
    (hsame : Same s s₁) (hk : Kept s₁ s') (hlet : LetIn config metadata) :
    Guarded config metadata s' :=
  h.kept ⟨hsame.trans hk.toSame, hk.past⟩ hlet

/-- **Every step keeps the invariant.** -/
theorem Guarded.step (h : Guarded config metadata s) (hinv : Inv targetInput s)
    {l : ServerLabel} (hs : s.step config metadata l = some s') :
    Guarded config metadata s' := by
  -- a request that has come further than its check was let in
  have hlet : ∀ {main : ServerPc}, s.main = main → main ≠ .idle → (∀ err, main ≠ .rejected err) →
      LetIn config metadata := by
    intro main hmain hidle hrejected
    exact h.let_in (hmain ▸ hidle) (hmain ▸ hrejected)
  have hwrite : ∀ rest n, Same s (s.write rest n) := by
    intro rest n
    exact target_same s fun _ => ⟨rfl, rfl⟩
  have hshut : Same s s.shutTarget := target_same s fun _ => ⟨rfl, rfl⟩
  cases step_iff.mp hs with
  | @authenticated token hmain hauth =>
    apply h.wait (by rw [hmain]; rfl) rfl
    intro _ _
    exact letIn_iff.mpr ⟨token, hauth⟩
  | @rejected err hmain hauth =>
    apply h.wait (by rw [hmain]; rfl) rfl
    intro _ hne
    exact absurd rfl (hne err)
  | @recvFirst item hmain => exact h.onFirst hinv hmain config.text item
  | @recvNext item hmain =>
    exact h.kept_trans (note_same s item) (onNext_kept _ config.text item)
      (hlet hmain (by simp) (by simp))
  | openTimeout hmain => exact h.kept (leave_kept _ _ _) (hlet hmain (by simp) (by simp))
  | idleTimeout hmain => exact h.kept (leave_kept _ _ _) (hlet hmain (by simp) (by simp))
  | @resolve target answer hmain => exact h.onResolve hinv hmain answer
  | @dial target addr rest lastErr outcome hmain => exact h.onDial hinv hmain outcome
  | exhausted hmain => exact h.kept (leave_kept _ _ _) (hlet hmain (by simp) (by simp))
  | @firstWrite rest n hmain hpos hfits =>
    exact h.kept_trans (hwrite rest n) (main_kept _ _ (.inl rfl)) (hlet hmain (by simp) (by simp))
  | @write rest n hmain hpos hfits =>
    exact h.kept_trans (hwrite rest n) (main_kept _ _ (.inl rfl)) (hlet hmain (by simp) (by simp))
  | firstWriteDone hmain =>
    exact h.kept (main_kept s _ (.inl rfl)) (hlet hmain (by simp) (by simp))
  | writeDone hmain => exact h.kept (main_kept s _ (.inl rfl)) (hlet hmain (by simp) (by simp))
  | firstWriteErr hmain => exact h.kept (leave_kept _ _ _) (hlet hmain (by simp) (by simp))
  | writeErr hmain => exact h.kept (leave_kept _ _ _) (hlet hmain (by simp) (by simp))
  | shutdown hmain =>
    exact h.kept_trans hshut (main_kept _ _ (.inl rfl)) (hlet hmain (by simp) (by simp))
  | shutdownOut hmain =>
    exact h.kept_trans hshut (leave_kept _ _ _) (hlet hmain (by simp) (by simp))
  | @send frame hout =>
    have hsent : Same s { s with sent := s.sent ++ [frame] } := move_same s s.main s.task _
    have hsome : (outgoing config.text { s with sent := s.sent ++ [frame] }).isSome := by
      change (s.outgoing config.text).isSome
      rw [hout]
      rfl
    exact h.kept_trans hsent (afterSend_kept config.text hsome)
      (h.let_in_past (outgoing_phase config.text hsome))
  | sendFail hout =>
    exact h.kept (afterSend_kept config.text hout)
      (h.let_in_past (outgoing_phase config.text hout))
  | @task l t ht =>
    -- the task runs in the relay loop and after it only
    have hpast : s.main.phase = .connected ∨ s.main.phase = .over := by
      by_cases hover : s.main.phase = .over
      · exact .inr hover
      · by_cases hloop : s.main.looping = true
        · exact .inl (looping_phase hloop)
        · have hidle := hinv.not_spawned (by simpa using hloop) hover
          exact absurd hidle (ReadTask.step_spawned ht).1
    exact h.kept ⟨move_same s s.main t _, hpast⟩ (h.let_in_past hpast)

/-! ## The guarantee holds in every run -/

/-- Both invariants hold in every reachable state. -/
theorem inv_and_guarded (hr : (system config metadata targetInput).Reachable s) :
    Inv targetInput s ∧ Guarded config metadata s := by
  refine Lts.System.invariant (system config metadata targetInput)
    (fun s => Inv targetInput s ∧ Guarded config metadata s) ?_ ?_ s hr
  · rintro s rfl
    exact ⟨inv_fresh targetInput, guarded_fresh targetInput⟩
  · intro s l s' ⟨hinv, hguarded⟩ hs
    exact ⟨hinv.step hs, hguarded.step hinv hs⟩

/-- The port of every dialed address, when the resolver keeps ports. -/
theorem Admitted.dial_port {target : Open} {addrs : List SocketAddr}
    (h : Admitted config s target addrs) (hports : PortsKept s) :
    ∀ addr ∈ addrs, addr.port.toNat = target.targetPort.toNat := by
  have hrange := h.port_range
  have hnarrow : target.targetPort.toUInt16.toNat = target.targetPort.toNat := by
    rw [UInt32.toNat_toUInt16]
    omega
  intro addr hmem
  rcases h.source with ⟨ip, -, rfl⟩ | hlookup
  · rw [List.mem_singleton.mp hmem]
    exact hnarrow
  · have hport := hports _ hlookup addrs rfl addr hmem
    rw [hport]
    exact hnarrow

/-- Whoever is resolved or dialed for was let in. -/
theorem Guarded.let_in_touched (h : Guarded config metadata s)
    (hsome : s.lookups ≠ [] ∨ s.dials ≠ []) : LetIn config metadata := by
  have hphase : s.main.phase ≠ .waiting := by
    intro hwaiting
    obtain ⟨hlookups, hresolved⟩ := h.untouched hwaiting
    rcases hsome with hsome | hsome
    · exact hsome hlookups
    · exact hsome (h.no_dials hresolved)
  apply h.let_in
  · intro hmain
    rw [hmain] at hphase
    exact hphase rfl
  · intro err hmain
    rw [hmain] at hphase
    exact hphase rfl

/-- Whatever is dialed was admitted. -/
theorem Guarded.admitted_dialed (h : Guarded config metadata s) (hdials : s.dials ≠ []) :
    ∃ target addrs, Admitted config s target addrs ∧ s.dials.map Prod.fst <+: addrs := by
  cases hres : s.resolved with
  | none => exact absurd (h.no_dials hres) hdials
  | some addrs =>
    obtain ⟨target, hadm⟩ := h.admitted addrs hres
    exact ⟨target, addrs, hadm, h.in_order addrs hres⟩

/-- An admitted target is one `resolve_target` accepts. -/
theorem Admitted.resolveTarget {target : Open} {addrs : List SocketAddr}
    (h : Admitted config s target addrs) (hguarded : Guarded config metadata s) :
    config.policy.resolveTarget config.text (fun _ _ => .ok addrs) target.targetHost
      target.targetPort = .ok addrs := by
  obtain ⟨hpos, hle⟩ := h.port_range
  have hnarrow : target.targetPort.toUInt16.toNat = target.targetPort.toNat := by
    rw [UInt32.toNat_toUInt16]
    omega
  have hne : target.targetPort.toUInt16 ≠ 0 := by
    intro hzero
    rw [hzero] at hnarrow
    have : (0 : UInt16).toNat = 0 := rfl
    omega
  refine resolveTarget_eq_ok.mpr ⟨target.targetPort.toUInt16,
    checkPort_eq_ok.mpr ⟨hnarrow, hne, h.port_allowed⟩, h.host_valid, ?_, h.nonempty, h.all_pass⟩
  rcases h.source with ⟨ip, hip, rfl⟩ | hlookup
  · rw [candidates, hip]
  · obtain ⟨target', hhead, hasked⟩ := hguarded.asked _ hlookup
    rw [h.first_frame] at hhead
    obtain rfl : target = target' := by
      have hframe := Option.some.inj hhead
      simpa [openFrame] using hframe
    rw [candidates, (lookup_eq_some.mp hasked).2.2.1]

/-- **Policy enforcement**: in every state of every run, whatever the client
    sends, the resolver answers and the connects come back with. -/
theorem policy_enforced (hr : (system config metadata targetInput).Reachable s) :
    Enforced config metadata s := by
  obtain ⟨hinv, h⟩ := inv_and_guarded hr
  refine
    { let_in := h.let_in_touched
      asked := fun l hl => ?_
      dialed := h.admitted_dialed
      first_success := h.first_success
      port_kept := fun hports dial hmem => ?_
      target_passed := h.target_passed
      silent := fun hnone => ?_ }
  · obtain ⟨target, hhead, hlookup⟩ := h.asked l hl
    obtain ⟨hport, hhost, -, heq⟩ := lookup_eq_some.mp hlookup
    exact ⟨target, hhead, heq, (checkPort_eq_ok.mp hport).1, heq ▸ hhost⟩
  · obtain ⟨target, addrs, hadm, hpre⟩ := h.admitted_dialed (List.ne_nil_of_mem hmem)
    have hin : dial.1 ∈ addrs := hpre.subset (List.mem_map_of_mem hmem)
    exact ⟨target, hadm.first_frame, hadm.dial_port hports _ hin⟩
  · refine ⟨by simp [targetWritten, hnone], fun error hmem => ?_⟩
    exact hinv.open_ok error hmem hnone

end enforcement

/-- A run of the example server: the second address takes the connect, and
    the first payload is written to it. -/
def exampleLabels : List ServerLabel :=
  [.authenticate,
    .recv (some (.ok (openFrame ⟨"a.example".toList, 443, [7, 8]⟩))),
    .resolve (.ok [⟨.v4 (.new 1 1 1 1), 443⟩, ⟨.v4 (.new 8 8 8 8), 443⟩]),
    .dial .timedOut,
    .dial (.connected (some ⟨.v4 (.new 8 8 8 8), 443⟩)),
    .targetWrite 2, .targetWriteDone, .send (openResultFrame true "")]

theorem policy_enforced_example :
    ∃ s, (system exampleServer exampleRequest []).Reachable s ∧ s.targetWritten = [7, 8] ∧
      s.dials.length = 2 ∧ Enforced exampleServer exampleRequest s := by
  obtain ⟨s, hrun⟩ : ∃ s,
      (system exampleServer exampleRequest []).run (fresh []) exampleLabels = some s := ⟨_, rfl⟩
  have hseen : ((system exampleServer exampleRequest []).run (fresh []) exampleLabels).map
      (fun s => (s.targetWritten, s.dials.length)) = some ([7, 8], 2) := rfl
  rw [hrun] at hseen
  obtain ⟨hwritten, hdials⟩ := Prod.mk.inj (Option.some.inj hseen)
  have hr := Lts.System.reachable_of_run (.init rfl) hrun
  exact ⟨s, hr, hwritten, hdials, policy_enforced hr⟩

end ServerState

end EchProxy
