import EchProxy.Socks.Handle

/-! # How far a SOCKS5 Handshake reads

    Nothing in the ingress counts what a client sends before it is let in; the
    lengths are bytes of the messages, so each message is bounded.  What comes
    of a connection is decided by the bytes up to this bound.  What is behind
    them is left in the stream for the relay.
-/

namespace EchProxy

namespace Socks

open Checked Traced Reader

variable {Pool : Type} {client : ClientStream}

/-- A greeting: two bytes and up to 255 methods. -/
def greetingLimit : Nat := 1 + (1 + 255)

/-- A text behind its length. -/
def textLimit : Nat := 1 + 255

/-- A login: its version and two texts. -/
def loginLimit : Nat := 1 + (textLimit + textLimit)

/-- A request: four bytes, a domain behind its length, and a port. -/
def requestLimit : Nat := 1 + (1 + (1 + (1 + (textLimit + 2))))

/-- The longest handshake. -/
def handshakeLimit : Nat := greetingLimit + (loginLimit + requestLimit)

/-! ## The messages -/

theorem reading_within (len : UInt8) : Within (readExact client len.toNat : Step Pool Bytes) 255 :=
  (Within.exactly _ _).mono (Nat.le_of_lt_succ len.toNat_lt)

theorem eval_within {α : Type} (x : Eval α) {n : Nat} : Within (liftM x : Step Pool α) n :=
  (Within.lift (lift x)).mono (Nat.zero_le n)

theorem returning_within {α : Type} (a : α) {n : Nat} : Within (pure a : Step Pool α) n :=
  (Within.pure a).mono (Nat.zero_le n)

/-- Behind an answer nothing is read. -/
theorem answering_within {α : Type} (x : Ingress Pool Unit) {next : Step Pool α} {n : Nat}
    (h : Within next n) : Within ((liftM x : Step Pool Unit) >>= fun _ => next) n :=
  ((Within.lift x).bind fun _ => h).mono (Nat.zero_add n).le

theorem negotiateAuth_within (options : Socks5Options) :
    Within (negotiateAuth client options : Step Pool UInt8) greetingLimit := by
  refine (Within.item _).bind fun version => Within.ite (eval_within _) ?_
  refine (Within.item _).bind fun len => ?_
  refine ((reading_within len).bind (m := 0) fun methods => ?_)
  refine Within.ite (answering_within _ (returning_within _)) ?_
  exact Within.ite (answering_within _ (returning_within _)) (answering_within _ (eval_within _))

theorem readText_within (msg : String) : Within (do
      let len ← readU8 client
      let buf ← readExact client len.toNat
      context msg (Text.fromUtf8 buf) : Step Pool Text) textLimit :=
  (Within.item _).bind fun len => (reading_within len).bind (m := 0) fun _ => eval_within _

theorem authenticate_within (auth : AuthStore) (method : UInt8) (options : Socks5Options) :
    Within (authenticate client auth method options : Step Pool UserProfile) loginLimit := by
  refine Within.ite (eval_within _) ((Within.item _).bind fun version => ?_)
  refine Within.ite (answering_within _ (eval_within _)) ?_
  refine (readText_within _).bind fun username => ?_
  exact (readText_within _).bind (m := 0) fun password => Within.lift _

theorem readHost_within (atyp : UInt8) : Within (readHost client atyp : Step Pool Text) textLimit := by
  have haddress : ∀ n (f : Bytes → Text), n ≤ textLimit →
      Within (do return f (← readExact client n) : Step Pool Text) textLimit := fun n f hn =>
    ((Within.exactly _ n).bind fun _ => Within.pure _).mono hn
  refine Within.ite (haddress 4 _ (by decide)) (Within.ite (readText_within _) ?_)
  exact Within.ite (haddress 16 _ (by decide)) (answering_within _ (eval_within _))

theorem readConnectRequest_within :
    Within (readConnectRequest client : Step Pool (Text × UInt16)) requestLimit := by
  refine (Within.item _).bind fun version => (Within.item _).bind fun command => ?_
  refine (Within.item _).bind fun reserved => (Within.item _).bind fun atyp => ?_
  refine Within.ite (eval_within _) (Within.ite (answering_within _ (eval_within _)) ?_)
  refine (readHost_within atyp).bind fun host => ?_
  refine ((Within.exactly _ 2).bind fun _ => Within.pure _).bind (m := 0) fun port => ?_
  exact Within.ite (answering_within _ (eval_within _)) (returning_within _)

/-- **The handshake reads at most `handshakeLimit` bytes**, on every way through it. -/
theorem accept_within (auth : AuthStore) (options : Socks5Options) :
    Within (accept client auth options : Step Pool _) handshakeLimit := by
  refine (negotiateAuth_within options).bind fun method => ?_
  refine (authenticate_within auth method options).bind fun user => ?_
  exact readConnectRequest_within.bind (m := 0) fun _ => Within.pure _

/-! ## The connection -/

section connection
variable (setup : Setup Pool) (client : ClientStream)

/-- The way to the target has nothing to do with what is left to relay. -/
theorem connect_rest (outcome : UserProfile × Text × UInt16) (rest rest' : Bytes) :
    connect setup client outcome rest' = ⟨(connect setup client outcome rest).events,
      (connect setup client outcome rest).result.map fun relay => { relay with rest := rest' }⟩ := by
  obtain ⟨user, host, port⟩ := outcome
  simp only [connect]
  cases hdecision : (decideRoute setup.router setup.network user host port).result with
  | error err => simp only [bind_error _ hdecision, Except.map]
  | ok decision =>
    have hreply : connectAndReply setup.network client ⟨decision, host, port, [], rest'⟩ =
        connectAndReply setup.network client ⟨decision, host, port, [], rest⟩ := rfl
    simp only [bind_ok _ hdecision, hreply]
    cases hconnect :
        (connectAndReply setup.network client ⟨decision, host, port, [], rest⟩).result with
    | error err => simp only [bind_error _ hconnect, Except.map]
    | ok _ => simp only [bind_ok _ hconnect, emit_bind, pure_eq, Except.map]

/-- A relay that began has in front of it what `connect` was given. -/
theorem connect_result_rest (outcome : UserProfile × Text × UInt16) (rest more : Bytes) :
    (connect setup client outcome rest).result.map (fun relay => { relay with rest := rest ++ more }) =
      (connect setup client outcome rest).result.map
        fun relay => { relay with rest := relay.rest ++ more } := by
  cases hresult : (connect setup client outcome rest).result with
  | error err => rfl
  | ok relay =>
    obtain ⟨-, hrest⟩ := relay_of_connect hresult
    rw [← hrest]
    rfl

/-- **A handshake is decided by its first bytes.**  Of a client that sent as many bytes as
    the longest handshake has, every answer, every step towards the target and the
    outcome are fixed, whatever comes behind them: it is relayed, and no relay is
    short of more than the longest handshake. -/
theorem handshake_bounded (more : Bytes) (hlength : handshakeLimit ≤ client.bytes.length) :
    handle setup { client with bytes := client.bytes ++ more } =
        ⟨(handle setup client).events,
          (handle setup client).result.map fun relay => { relay with rest := relay.rest ++ more }⟩ ∧
      ∀ relay, (handle setup client).result = .ok relay →
        client.bytes.length ≤ handshakeLimit + relay.rest.length := by
  have hwithin : Within (accept client setup.auth setup.options : Step Pool _) handshakeLimit :=
    accept_within setup.auth setup.options
  have hhandle : ∀ bytes, handle setup { client with bytes := bytes } =
      (accept client setup.auth setup.options bytes >>= fun p => connect setup client p.1 p.2) :=
    fun _ => rfl
  have hshort : handle setup client = _ := hhandle client.bytes
  have hlong := hhandle (client.bytes ++ more)
  rw [hwithin.decided client.bytes more hlength] at hlong
  cases hresult : (accept client setup.auth setup.options client.bytes : Ingress Pool _).result with
  | error err =>
    rw [bind_error _ hresult] at hshort
    rw [hresult] at hlong
    exact ⟨by rw [hlong, hshort]; rfl, fun relay hrelay => by rw [hshort] at hrelay; cases hrelay⟩
  | ok p =>
    obtain ⟨outcome, rest⟩ := p
    rw [bind_ok _ hresult] at hshort
    rw [hresult, Except.map, bind_ok (a := (outcome, rest ++ more)) _ rfl] at hlong
    refine ⟨?_, fun relay hrelay => ?_⟩
    · rw [hlong, hshort, connect_rest setup client outcome rest (rest ++ more)]
      exact congrArg (Traced.mk _) (connect_result_rest setup client outcome rest more)
    · rw [hshort] at hrelay
      obtain ⟨-, hrest⟩ := relay_of_connect hrelay
      obtain ⟨used, hbytes, hused⟩ := hwithin.takes client.bytes _ outcome rest
        (congrArg (Traced.mk _) hresult)
      rw [hbytes, List.length_append, hrest]
      exact Nat.add_le_add_right hused _

end connection

/-- A name of 255 bytes. -/
def longName : Text := List.replicate 255 'a'

theorem longName_len : longName.len = 255 := by
  decide +kernel

def longSetup : Setup Nat :=
  { exampleSetup with auth := ⟨[(longName, ⟨longName, longName, []⟩)]⟩ }

/-- Every length is the largest a byte can say. -/
def longestHandshake : Handshake longSetup.auth longSetup.options where
  greeting := ⟨List.replicate 255 authUserPass, List.length_replicate.le⟩
  login := .userPass ⟨longName, longName, longName_len.le, longName_len.le⟩
  selects := .userPass (fun h => (by cases h.1)) (List.mem_replicate.mpr ⟨by decide, rfl⟩)
  user := ⟨longName, longName, []⟩
  accepted := AuthStore.authenticate_eq_some.mpr ⟨List.lookup_cons_self, rfl⟩
  request := ⟨.domain longName longName_len.le, 80, by decide⟩

theorem longestHandshake_length : longestHandshake.encode.length = handshakeLimit := by
  decide +kernel

/-- The bound is met: there is a handshake as long as it. -/
theorem handshake_bounded_longest :
    handle longSetup
        { exampleClient longestHandshake.encode with
          bytes := longestHandshake.encode ++ [0x16, 0x03] } =
      ⟨(handle longSetup (exampleClient longestHandshake.encode)).events,
        (handle longSetup (exampleClient longestHandshake.encode)).result.map
          fun relay => { relay with rest := relay.rest ++ [0x16, 0x03] }⟩ :=
  (handshake_bounded longSetup (exampleClient longestHandshake.encode) [0x16, 0x03]
    longestHandshake_length.ge).1

end Socks

end EchProxy
