import EchProxy.Http.KeepAlive

/-! # The Cut between Head and Body

    `read_header` takes the shortest head off the client's stream and no byte
    more.  What is behind the head is left for the relay, so nothing is lost
    at the cut and nothing is relayed twice.
-/

namespace EchProxy

namespace Http

open Checked Traced

/-! ## The shortest head -/

/-- The head of a stream is its shortest beginning that ends with an empty line. -/
structure IsHead (bytes head rest : Bytes) : Prop where
  split : bytes = head ++ rest
  ended : endOfHead <:+ head
  shortest : ∀ init, init <+: bytes → endOfHead <:+ init → head.length ≤ init.length

/-- Among the beginnings of a list that meet `P` there is a shortest. -/
theorem exists_shortest {α : Type} {P : List α → Prop} {l init : List α} (hpre : init <+: l)
    (hinit : P init) : ∃ head rest, l = head ++ rest ∧ P head ∧ head.length ≤ init.length ∧
      ∀ other, other <+: l → P other → head.length ≤ other.length := by
  classical
  have hsome : ∃ n, P (l.take n) := ⟨init.length, by rwa [← List.prefix_iff_eq_take.mp hpre]⟩
  have hleast : ∀ other, other <+: l → P other → (l.take (Nat.find hsome)).length ≤ other.length := by
    intro other hother hP
    rw [List.prefix_iff_eq_take.mp hother] at hP
    exact (List.length_take_le _ _).trans (Nat.find_min' hsome hP)
  refine ⟨l.take (Nat.find hsome), l.drop (Nat.find hsome), ?_, Nat.find_spec hsome,
    hleast init hpre hinit, hleast⟩
  exact (List.take_append_drop _ _).symm

/-- What the loop returns is the first head behind `buf`. -/
theorem readLoop_sound {readError : Option String} {buf todo head rest : Bytes}
    (h : readLoop readError buf todo = .ok (head, rest)) :
    ∃ taken, taken ≠ [] ∧ head = buf ++ taken ∧ todo = taken ++ rest ∧ endOfHead <:+ head ∧
      head.length ≤ maxHeaderSize ∧
      ∀ init, init ≠ [] → init <+: taken → endOfHead <:+ buf ++ init → init = taken := by
  induction todo generalizing buf with
  | nil =>
    unfold readLoop at h
    split at h
    · split at h
      · cases h
      · cases h
    · cases h
  | cons b todo ih =>
    rw [readLoop] at h
    split at h
    · next hroom =>
      split at h
      · -- the head ends with this byte
        next hend =>
        obtain ⟨rfl, rfl⟩ := Prod.mk.inj (Except.ok.inj h)
        refine ⟨[b], List.cons_ne_nil _ _, rfl, rfl, hend, ?_, ?_⟩
        · rw [List.length_append, List.length_singleton]
          exact hroom
        · intro init hne hinit _
          obtain ⟨t, rfl, ht⟩ := (List.prefix_cons_iff.mp hinit).resolve_left hne
          rw [List.prefix_nil.mp ht]
      · next hnot =>
        obtain ⟨taken, -, hhead, rfl, hended, hlength, hfirst⟩ := ih h
        refine ⟨b :: taken, List.cons_ne_nil _ _, ?_, rfl, hended, hlength, ?_⟩
        · rw [hhead, List.append_assoc]
          rfl
        · intro init hne hinit hend
          obtain ⟨t, rfl, ht⟩ := (List.prefix_cons_iff.mp hinit).resolve_left hne
          -- a shorter prefix that ends the head would have stopped the loop
          by_cases hone : t = []
          · rw [hone] at hend
            exact absurd hend hnot
          · rw [hfirst t hone ht (by rwa [List.append_assoc])]
    · cases h

/-- **`read_header`** returns the head of the stream, where there is one that is
    not too long. -/
theorem readHeader_iff {client : ClientStream} {head rest : Bytes} :
    readHeader client = .ok (head, rest) ↔
      IsHead client.bytes head rest ∧ head.length ≤ maxHeaderSize := by
  have hmark : ¬ endOfHead <:+ [] := by decide
  constructor
  · intro h
    obtain ⟨taken, -, hhead, hsplit, hended, hlength, hfirst⟩ := readLoop_sound h
    obtain rfl : head = taken := hhead
    refine ⟨⟨hsplit, hended, ?_⟩, hlength⟩
    intro init hinit hend
    have hsome : init ≠ [] := fun hnil => hmark (hnil ▸ hend)
    have hhead' : head <+: client.bytes := ⟨rest, hsplit.symm⟩
    rcases List.prefix_or_prefix_of_prefix hinit hhead' with hshort | hlong
    · rw [hfirst init hsome hshort hend]
    · exact hlong.length_le
  · intro ⟨⟨hsplit, hended, hshortest⟩, hlength⟩
    have honce : ∀ init, init <+: head → endOfHead <:+ init → init = head := by
      intro init hinit hend
      have hpre : init <+: client.bytes := hinit.trans ⟨rest, hsplit.symm⟩
      exact hinit.eq_of_length_le (hshortest init hpre hend)
    have hsome : head ≠ [] := fun hnil => hmark (hnil ▸ hended)
    rw [readHeader, hsplit, readLoop_head hended honce hsome (List.nil_append _), if_pos hlength]

/-- It returns if and only if some beginning that is not too long ends with an
    empty line. -/
theorem exists_readHeader_iff (client : ClientStream) :
    (∃ head rest, readHeader client = .ok (head, rest)) ↔
      ∃ init, init <+: client.bytes ∧ init.length ≤ maxHeaderSize ∧ endOfHead <:+ init := by
  constructor
  · intro ⟨head, rest, h⟩
    obtain ⟨hhead, hlength⟩ := readHeader_iff.mp h
    exact ⟨head, ⟨rest, hhead.split.symm⟩, hlength, hhead.ended⟩
  · intro ⟨init, hpre, hlength, hend⟩
    obtain ⟨head, rest, hsplit, hended, hle, hshortest⟩ := exists_shortest hpre hend
    exact ⟨head, rest, readHeader_iff.mpr ⟨⟨hsplit, hended, hshortest⟩, hle.trans hlength⟩⟩

/-! ## Reads of one byte

    The buffer of the loop holds one byte, so a read takes one byte of what
    has arrived, however much that is.
-/

/-- `stream.read(&mut one)`, on the segments in which the bytes arrive. -/
def readOne : List Bytes → Option (UInt8 × List Bytes)
  | [] => none
  | [] :: arriving => readOne arriving
  | (b :: segment) :: arriving => some (b, segment :: arriving)

/-- The loop of `read_header` on segments. -/
def readSegments (readError : Option String) (buf : Bytes) (arriving : List Bytes) :
    Eval (Bytes × List Bytes) :=
  if buf.length < maxHeaderSize then
    match readOne arriving with
    | none =>
      match readError with
      | none => bail "client closed before HTTP headers completed"
      | some err => bail err
    | some (b, arriving) =>
      if endOfHead <:+ buf ++ [b] then return (buf ++ [b], arriving)
      else readSegments readError (buf ++ [b]) arriving
  else bail s!"HTTP headers exceed {maxHeaderSize} bytes"
termination_by maxHeaderSize - buf.length
decreasing_by
  rw [List.length_append, List.length_singleton]
  omega

theorem readOne_spec (arriving : List Bytes) :
    match readOne arriving with
    | none => arriving.flatten = []
    | some (b, left) => arriving.flatten = b :: left.flatten := by
  induction arriving with
  | nil => rfl
  | cons segment arriving ih =>
    cases segment with
    | nil => exact ih
    | cons b segment => rfl

/-- **How the bytes arrive does not matter** to the head and to what is left. -/
theorem readSegments_eq (readError : Option String) (buf : Bytes) (arriving : List Bytes) :
    (readSegments readError buf arriving).map (fun p => (p.1, p.2.flatten)) =
      readLoop readError buf arriving.flatten := by
  have hspec := readOne_spec arriving
  rw [readSegments.eq_def, readLoop.eq_def]
  by_cases hroom : buf.length < maxHeaderSize
  · rw [if_pos hroom]
    cases hread : readOne arriving with
    | none =>
      rw [hread] at hspec
      rw [hspec]
      dsimp only
      rw [if_pos hroom]
      cases readError <;> rfl
    | some p =>
      obtain ⟨b, left⟩ := p
      rw [hread] at hspec
      rw [hspec]
      dsimp only
      rw [if_pos hroom]
      -- both loops take the same byte and make the same test
      by_cases hend : endOfHead <:+ buf ++ [b]
      · rw [if_pos hend, if_pos hend]
        rfl
      · rw [if_neg hend, if_neg hend]
        exact readSegments_eq readError (buf ++ [b]) left
  · rw [if_neg hroom]
    cases arriving.flatten with
    | nil =>
      dsimp only
      rw [if_neg hroom]
      rfl
    | cons b rest =>
      dsimp only
      rw [if_neg hroom]
      rfl
termination_by maxHeaderSize - buf.length
decreasing_by
  rw [List.length_append, List.length_singleton]
  omega

/-! ## What is relayed -/

variable {Pool : Type}

/-- What the branches of `handle` read off the request: where it goes, and what is
    sent before the rest of the stream. -/
def readTarget (request : RequestParts) : Eval (Text × UInt16 × Bytes) :=
  if Str.eqIgnoreAsciiCase request.method "CONNECT".toList then do
    let (host, port) ← parseAuthority request.target 443
    return (host, port, [])
  else do
    let absolute ← parseAbsoluteUri request.target
    let port := absolute.port.getD (if absolute.scheme = "https".toList then 443 else 80)
    return (absolute.host, port, Text.asBytes (rewriteAbsoluteRequest request absolute))

/-- The answer to a `CONNECT`. -/
def answerConnect (client : ClientStream) (request : RequestParts) : Ingress Pool Unit :=
  if Str.eqIgnoreAsciiCase request.method "CONNECT".toList then
    writeResponse client "200 Connection Established".toList false
  else return ()

/-- `handle` with its branches brought together. -/
theorem handle_eq (setup : Setup Pool) (client : ClientStream) :
    handle setup client = (do
      let (user, request, rest) ← accept setup client
      let (host, port, firstPayload) ← readTarget request
      let decision ← decideRoute setup.router setup.network user host port
      answerConnect client request
      startRelay setup ⟨decision, host, port, firstPayload, rest⟩) := by
  refine Traced.bind_congr ?_
  intro ⟨user, request, rest⟩ _
  dsimp only
  by_cases hmethod : Str.eqIgnoreAsciiCase request.method "CONNECT".toList = true
  · rw [if_pos hmethod, handleConnect, readTarget, if_pos hmethod]
    cases parseAuthority request.target 443 with
    | error fault => rfl
    | ok p =>
      obtain ⟨host, port⟩ := p
      rw [lift_ok_bind, Result.ok_bind]
      dsimp only
      rw [Result.pure_eq, lift_ok_bind]
      dsimp only
      rw [answerConnect, if_pos hmethod]
  · -- for absolute-form there is no answer, so its place does not matter
    rw [if_neg hmethod, handleAbsolute, readTarget, if_neg hmethod]
    cases parseAbsoluteUri request.target with
    | error fault => rfl
    | ok uri =>
      rw [lift_ok_bind, Result.ok_bind, Result.pure_eq, lift_ok_bind]
      dsimp only
      rw [answerConnect, if_neg hmethod]
      refine Traced.bind_congr fun decision _ => ?_
      rw [bind_ok (a := ()) _ rfl]
      rfl

/-- The client's request authenticates, parses and is routed, and this is what it is
    relayed with. -/
def Routed (setup : Setup Pool) (client : ClientStream) (relay : Relay Pool) : Prop :=
  ∃ user request, (accept setup client).result = .ok (user, request, relay.rest) ∧
    readTarget request = .ok (relay.host, relay.port, relay.firstPayload) ∧
    (decideRoute setup.router setup.network user relay.host relay.port).result =
      .ok relay.decision

/-- The handler relays nothing else. -/
theorem routed_of_handle {setup : Setup Pool} {client : ClientStream} {relay : Relay Pool}
    (h : (handle setup client).result = .ok relay) : Routed setup client relay := by
  rw [handle_eq, result_bind, Result.bind_eq_ok] at h
  obtain ⟨⟨user, request, rest⟩, haccept, h⟩ := h
  dsimp only at h
  rw [result_bind, lift_result, Result.bind_eq_ok] at h
  obtain ⟨⟨host, port, firstPayload⟩, htarget, h⟩ := h
  dsimp only at h
  rw [result_bind, Result.bind_eq_ok] at h
  obtain ⟨decision, hdecide, h⟩ := h
  rw [result_bind, Result.bind_eq_ok] at h
  obtain ⟨_, -, h⟩ := h
  rw [startRelay, result_bind, Result.bind_eq_ok] at h
  obtain ⟨_, -, h⟩ := h
  rw [emit_bind] at h
  obtain rfl := Except.ok.inj h
  exact ⟨user, request, haccept, htarget, hdecide⟩

/-- What is sent first. -/
theorem readTarget_payload {request : RequestParts} {host : Text} {port : UInt16}
    {firstPayload : Bytes} (h : readTarget request = .ok (host, port, firstPayload)) :
    if Str.eqIgnoreAsciiCase request.method "CONNECT".toList then
      parseAuthority request.target 443 = .ok (host, port) ∧ firstPayload = []
    else ∃ uri, parseAbsoluteUri request.target = .ok uri ∧ host = uri.host ∧
      uri.port = some port ∧
      firstPayload = Text.asBytes (rewriteAbsoluteRequest request uri) := by
  rw [readTarget] at h
  split at h
  · next hmethod =>
    rw [if_pos hmethod]
    rw [Result.bind_eq_ok] at h
    obtain ⟨⟨host', port'⟩, hauthority, h⟩ := h
    obtain ⟨rfl, hrest⟩ := Prod.mk.inj (Except.ok.inj h)
    obtain ⟨rfl, rfl⟩ := Prod.mk.inj hrest
    exact ⟨hauthority, rfl⟩
  · next hmethod =>
    rw [if_neg hmethod]
    rw [Result.bind_eq_ok] at h
    obtain ⟨uri, huri, h⟩ := h
    obtain ⟨_, _, _, number, -, -, -, hread⟩ := parseAbsoluteUri_eq_ok.mp huri
    have hport : uri.port = some number := by rw [hread]
    dsimp only at h
    rw [hport, Option.getD_some] at h
    obtain ⟨rfl, hrest⟩ := Prod.mk.inj (Except.ok.inj h)
    obtain ⟨rfl, rfl⟩ := Prod.mk.inj hrest
    exact ⟨uri, huri, rfl, hport, rfl⟩

/-- **The cut loses and duplicates nothing**: `read_header` takes the shortest
    beginning of the stream that ends with an empty line, if it is not too
    long, and what a target gets of a request is always a beginning of the
    rest of the stream, behind the rewritten head if it is in absolute form,
    for each decision of the router. -/
theorem cut_exact (setup : Setup Backend) (client : ClientStream) :
    (∀ arriving, arriving.flatten = client.bytes →
      (readSegments client.readError [] arriving).map (fun p => (p.1, p.2.flatten)) =
        readHeader client) ∧
    ((∃ head rest, readHeader client = .ok (head, rest)) ↔
      ∃ init, init <+: client.bytes ∧ init.length ≤ maxHeaderSize ∧ endOfHead <:+ init) ∧
    (∀ head rest, readHeader client = .ok (head, rest) → IsHead client.bytes head rest) ∧
    (∀ relay, (handle setup client).result = .ok relay → Routed setup client relay) ∧
    ∀ relay written, Routed setup client relay → relay.Forwards written →
      ∃ head rest request, readHeader client = .ok (head, rest) ∧
        parseRequest head = .ok request ∧
        if Str.eqIgnoreAsciiCase request.method "CONNECT".toList then written <+: rest
        else ∃ uri, parseAbsoluteUri request.target = .ok uri ∧
          written <+: Text.asBytes (rewriteAbsoluteRequest request uri) ++ rest := by
  refine ⟨?_, exists_readHeader_iff client, ?_, fun relay h => routed_of_handle h, ?_⟩
  · intro arriving hbytes
    rw [readSegments_eq, hbytes, readHeader]
  · intro head rest h
    exact (readHeader_iff.mp h).1
  · intro relay written hrouted hforwards
    obtain ⟨user, request, haccept, htarget, -⟩ := hrouted
    obtain ⟨head, hhead, hparse, -⟩ := accept_eq_ok.mp haccept
    refine ⟨head, relay.rest, request, hhead, hparse, ?_⟩
    -- what is forwarded is a prefix of the first payload and what is behind the head
    have hpre := Relay.prefix_of_forwards hforwards
    have hpayload := readTarget_payload htarget
    by_cases hmethod : Str.eqIgnoreAsciiCase request.method "CONNECT".toList = true
    · rw [if_pos hmethod] at hpayload ⊢
      rwa [hpayload.2] at hpre
    · rw [if_neg hmethod] at hpayload ⊢
      obtain ⟨uri, huri, -, -, hfirst⟩ := hpayload
      exact ⟨uri, huri, hfirst ▸ hpre⟩

/-- Alice's first request is cut off, and the second one is what is behind it. -/
theorem cut_exact_example :
    ∃ head rest request,
      readHeader (connection [exampleFirst, exampleSecond] none fun _ => .ok ()) =
        .ok (head, rest) ∧
      parseRequest head = .ok request ∧
      if Str.eqIgnoreAsciiCase request.method "CONNECT".toList then
        (exampleRelay exampleSecond.bytes).firstPayload ++ exampleSecond.bytes <+: rest
      else ∃ uri, parseAbsoluteUri request.target = .ok uri ∧
        (exampleRelay exampleSecond.bytes).firstPayload ++ exampleSecond.bytes <+:
          Text.asBytes (rewriteAbsoluteRequest request uri) ++ rest := by
  have hbytes : (connection [exampleFirst, exampleSecond] none fun _ => .ok ()).bytes =
      exampleFirst.bytes ++ exampleSecond.bytes := by
    show exampleFirst.bytes ++ (exampleSecond.bytes ++ []) = _
    rw [List.append_nil]
  have hopens : (exampleRelay exampleSecond.bytes).Opens := fun _ hdecision => by cases hdecision
  have hresult := (handle_iff hbytes).mpr (exampleRelay_relayOf _)
  obtain ⟨-, -, -, hrouted, hcut⟩ :=
    cut_exact exampleSetup (connection [exampleFirst, exampleSecond] none fun _ => .ok ())
  exact hcut _ _ (hrouted _ hresult) (Relay.forwards_all hopens)

end Http

end EchProxy
