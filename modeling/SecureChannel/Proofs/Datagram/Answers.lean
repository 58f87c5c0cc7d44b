import SecureChannel.Proofs.Datagram.Serving
import SecureChannel.Proofs.Service.FailClosed

/-!
# Where the answers of a server go

A server sends frames to nobody but the peer whose datagram it serves, and each of them is a key or
a reply under the token of the request. Servers drop keys and replies, so an answer that gets to a
server is the end of it. However many servers pass on however many answers to each other, every
datagram from elsewhere leads to two frames at most: two where a handshake is refused after its
response has left.

A reply that tells of a failure is empty. To a message or to a request to close it says that no
direction of any channel has moved, with one exception: a message that was opened, and whose answer
cannot be sealed, because it is too long or the channel has run out of numbers.
-/

namespace SecureChannel

open Registry

/-- Every channel has the directions that it had. -/
def Registry.StandsStill (r s : Registry) : Prop :=
  ∀ h, (s.channel? h).map Channel.pair = (r.channel? h).map Channel.pair

theorem Registry.Changes.standsStill {r s : Registry} {h : Handle} {c d : Channel} {gone : Prop}
    (changes : Changes r h d gone s) (found : r.channel? h = some c) (same : d.pair = c.pair) :
    StandsStill r s := by
  intro other
  by_cases here : other = h
  · rw [here, changes.changed, found, Option.map_some, Option.map_some, same]
  · rw [changes.kept other here]

namespace Service

variable {p : Primitives} {s : Service} {m : Message} {now : Nat} {e : ChannelError}

/-- If the message is opened, its answer can be sealed. -/
def Answerable (p : Primitives) (s : Service) (m : Message) : Prop :=
  ∀ h c ciphertext plaintext decrypter, Reaches s m h c ciphertext →
    c.pair.decrypter.decrypt p [] ciphertext = .ok (plaintext, decrypter) →
      c.pair.encrypter.nonce ≠ CipherState.lastNonce ∧
        ¬ CipherState.tooLong (s.handler plaintext)

/-- A message that fails, and could have been answered, has not moved any direction. -/
theorem standsStill_of_message (named : Named s.registry) (answerable : s.Answerable p m)
    (failed : (s.handleMessage p now m).1 = .error e) :
    StandsStill s.registry (s.handleMessage p now m).2.registry := by
  by_cases reached : ∃ h c ciphertext, Reaches s m h c ciphertext
  · obtain ⟨h, c, ciphertext, reaches⟩ := reached
    cases result : c.pair.decrypter.decrypt p [] ciphertext with
    | error refusal =>
      obtain ⟨refuses, -⟩ := reaches.handleMessage_refuses result now
      exact refuses.replaces.changes.standsStill reaches.found rfl
    | ok opening =>
      obtain ⟨plaintext, decrypter⟩ := opening
      obtain ⟨below, short⟩ := answerable h c ciphertext plaintext decrypter reaches result
      obtain ⟨octets, encrypter, sealed⟩ := CipherState.encrypt_isOk p [] below short
      obtain ⟨replies, -⟩ := reaches.handleMessage_replies result now
      obtain ⟨_, -, unsealed, -⟩ := replies.unsealed e failed
      cases sealed.symm.trans unsealed
  · rw [handleMessage_of_unreached named fun h c ciphertext reaches =>
      reached ⟨h, c, ciphertext, reaches⟩]
    exact fun _ => rfl

/-- A request to close that fails has not moved any direction. -/
theorem standsStill_of_close (named : Named s.registry)
    (failed : (s.handleClose p now m).1 = .error e) :
    StandsStill s.registry (s.handleClose p now m).2.registry := by
  by_cases reached : ∃ h c ciphertext, Reaches s m h c ciphertext
  · obtain ⟨h, c, ciphertext, reaches⟩ := reached
    cases result : c.pair.decrypter.decrypt p closeMarker ciphertext with
    | error refusal =>
      have refuses := reaches.handleClose_refuses result now
      exact refuses.replaces.changes.standsStill reaches.found rfl
    | ok opening =>
      obtain ⟨plaintext, decrypter⟩ := opening
      obtain ⟨closed, -⟩ := reaches.handleClose_closes result now
      cases closed.symm.trans failed
  · rw [handleClose_of_unreached named fun h c ciphertext reaches =>
      reached ⟨h, c, ciphertext, reaches⟩]
    exact fun _ => rfl

end Service

namespace DatagramServer

variable {p : Primitives} {s : Service} {now : Nat} {peer : Endpoint} {draws : Nat → Nat}
variable {fresh : Bytes32} {octets body : Bytes} {request frame : Frame} {token : Option Bytes}
variable {outcome : Outcome} {out : Outgoing} {socket : Frame → Delivery}

/-! ### What is sent -/

/-- No datagram leads to more than two frames: the answer at once, and a refusal after a response.
-/
theorem length_handleDatagram (p : Primitives) (s : Service) (now : Nat) (peer : Endpoint)
    (socket : Frame → Delivery) (octets : Bytes) (draws : Nat → Nat) (fresh : Bytes32) :
    (handleDatagram p s now peer socket octets draws fresh).1.length ≤ 2 := by
  rw [handleDatagram]
  split
  · exact Nat.zero_le 2
  · split
    · exact Nat.le_trans (length_leaving_le ..) (Nat.le_trans Option.length_toList_le (by decide))
    · refine Nat.le_trans (length_leaving_le ..) ?_
      rw [List.length_cons]
      exact Nat.succ_le_succ Option.length_toList_le

/-- Only what a datagram says matters, and not how it is laid out. -/
theorem handleDatagram_of_decode (decoded : Frame.decode octets = .ok request) (p : Primitives)
    (s : Service) (now : Nat) (peer : Endpoint) (socket : Frame → Delivery) (draws : Nat → Nat)
    (fresh : Bytes32) :
    handleDatagram p s now peer socket octets draws fresh =
      handleDatagram p s now peer socket request.encode draws fresh := by
  simp only [handleDatagram, decoded, Frame.decode_encode]

theorem handleDatagram_of_malformed {e : Json.Error} (malformed : Frame.decode octets = .error e)
    (p : Primitives) (s : Service) (now : Nat) (peer : Endpoint) (socket : Frame → Delivery)
    (draws : Nat → Nat) (fresh : Bytes32) :
    handleDatagram p s now peer socket octets draws fresh = ([], s) := by
  simp only [handleDatagram, malformed]

theorem handleDatagram_of_unasked (stated : (∃ publicKey, Frame.decode octets =
      .ok (.key publicKey)) ∨ ∃ token outcome body,
        Frame.decode octets = .ok (.reply token outcome body))
    (p : Primitives) (s : Service) (now : Nat) (peer : Endpoint) (socket : Frame → Delivery)
    (draws : Nat → Nat) (fresh : Bytes32) :
    handleDatagram p s now peer socket octets draws fresh = ([], s) := by
  rcases stated with ⟨publicKey, stated⟩ | ⟨token, outcome, body, stated⟩ <;>
    simp only [handleDatagram, stated, dispatch, Option.toList_none] <;> rfl

theorem handleDatagram_of_answer (answers : Answers request frame) (p : Primitives) (s : Service)
    (now : Nat) (peer : Endpoint) (socket : Frame → Delivery) (draws : Nat → Nat)
    (fresh : Bytes32) : handleDatagram p s now peer socket frame.encode draws fresh = ([], s) := by
  apply handleDatagram_of_unasked
  rw [Frame.decode_encode]
  cases answers with
  | key asks publicKey => exact .inl ⟨publicKey, rfl⟩
  | reply outcome body => exact .inr ⟨_, outcome, body, rfl⟩

/-! ### Failures -/

/-- A reply of failure is empty, and there was a failure. -/
theorem failed_of_mem_leaving {requested : Option Bytes} {answer : Except ChannelError Bytes}
    (mem : ⟨peer, .reply token outcome body⟩ ∈ leaving peer socket [replyTo requested answer])
    (failure : outcome ≠ .success) : body = [] ∧ ∃ e, answer = .error e := by
  obtain ⟨-, mem, -⟩ := mem_leaving.mp mem
  have same := List.mem_singleton.mp mem
  cases answer with
  | ok octets =>
    obtain ⟨-, success, -⟩ := Frame.reply.inj same
    exact absurd success failure
  | error e =>
    obtain ⟨-, -, nothing⟩ := Frame.reply.inj same
    exact ⟨nothing, e, rfl⟩

theorem failure_of_message {requested : Option Bytes} {query : Option String} {text : Bytes}
    (stated : Frame.decode octets = .ok (.message requested query text))
    (mem : ⟨peer, .reply token outcome body⟩ ∈
      (handleDatagram p s now peer socket octets draws fresh).1)
    (failure : outcome ≠ .success) :
    body = [] ∧ (Named s.registry →
      s.Answerable p (inbound s.config.codec peer requested query text) → StandsStill s.registry
        (handleDatagram p s now peer socket octets draws fresh).2.registry) := by
  rw [handleDatagram_of_decode stated, handleDatagram_message] at mem ⊢
  obtain ⟨nothing, e, failed⟩ := failed_of_mem_leaving mem failure
  refine ⟨nothing, ?_⟩
  intro named answerable
  exact Service.standsStill_of_message named answerable failed

theorem failure_of_close {requested : Option Bytes} {query : Option String} {text : Bytes}
    (stated : Frame.decode octets = .ok (.close requested query text))
    (mem : ⟨peer, .reply token outcome body⟩ ∈
      (handleDatagram p s now peer socket octets draws fresh).1)
    (failure : outcome ≠ .success) :
    body = [] ∧ (Named s.registry → StandsStill s.registry
      (handleDatagram p s now peer socket octets draws fresh).2.registry) := by
  rw [handleDatagram_of_decode stated, handleDatagram_close] at mem ⊢
  obtain ⟨nothing, e, failed⟩ := failed_of_mem_leaving mem failure
  refine ⟨nothing, ?_⟩
  intro named
  exact Service.standsStill_of_close named (map_eq_error_iff.mp failed)

/-! ### Answers that come back -/

/-- Any number of servers, and the frames that they have sent. -/
structure Relay where
  servers : Nat → Service
  sent : List Outgoing

namespace Relay

variable {w : Relay} {n : Nat}

def serve (p : Primitives) (w : Relay) (server now : Nat) (peer : Endpoint)
    (socket : Frame → Delivery) (octets : Bytes) (draws : Nat → Nat) (fresh : Bytes32) : Relay :=
  let (sent, s) := handleDatagram p (w.servers server) now peer socket octets draws fresh
  ⟨fun other => if other = server then s else w.servers other, w.sent ++ sent⟩

/-- An answer that comes back changes nothing. -/
theorem serve_of_answer (answers : Answers request frame) (p : Primitives) (w : Relay)
    (server now : Nat) (peer : Endpoint) (socket : Frame → Delivery) (draws : Nat → Nat)
    (fresh : Bytes32) : w.serve p server now peer socket frame.encode draws fresh = w := by
  have same : (fun other => if other = server then w.servers server else w.servers other) =
      w.servers := by
    funext other
    split
    · next here => rw [here]
    · rfl
  simp only [serve, handleDatagram_of_answer answers, List.append_nil, same]

/-- What can happen to servers that `n` datagrams from elsewhere get to. What a server has sent can
get to any server, from any address and any number of times. In between, anything may become of the
servers themselves. -/
inductive Run (p : Primitives) : Nat → Relay → Prop
  | start (servers : Nat → Service) : Run p 0 ⟨servers, []⟩
  | elsewhere {n : Nat} {w : Relay} (run : Run p n w) (server now : Nat) (peer : Endpoint)
      (socket : Frame → Delivery) (octets : Bytes) (draws : Nat → Nat) (fresh : Bytes32) :
      Run p (n + 1) (w.serve p server now peer socket octets draws fresh)
  | back {n : Nat} {w : Relay} (run : Run p n w) {out : Outgoing} (mem : out ∈ w.sent)
      (server now : Nat) (peer : Endpoint) (socket : Frame → Delivery) (draws : Nat → Nat)
      (fresh : Bytes32) : Run p n (w.serve p server now peer socket out.frame.encode draws fresh)
  | meanwhile {n : Nat} {w : Relay} (run : Run p n w) (servers : Nat → Service) :
      Run p n ⟨servers, w.sent⟩

/-- Nothing but answers is sent, so what comes back changes nothing. -/
theorem Run.sound (run : Run p n w) :
    (∀ out ∈ w.sent, ∃ request, Answers request out.frame) ∧ w.sent.length ≤ 2 * n := by
  induction run with
  | start servers => exact ⟨by simp, Nat.le_refl 0⟩
  | elsewhere run server now peer socket octets draws fresh ih =>
    obtain ⟨answers, bounded⟩ := ih
    constructor
    · intro out mem
      rcases List.mem_append.mp mem with earlier | new
      · exact answers out earlier
      · obtain ⟨-, request, -, answer⟩ := answers_of_handleDatagram new
        exact ⟨request, answer⟩
    · rw [serve, List.length_append, Nat.mul_succ]
      exact Nat.add_le_add bounded (length_handleDatagram ..)
  | back run mem server now peer socket draws fresh ih =>
    obtain ⟨request, answer⟩ := ih.1 _ mem
    rw [serve_of_answer answer]
    exact ih
  | meanwhile run servers ih => exact ih

end Relay

/-- What comes of a datagram, whatever it holds, and of the answers to it:

* everything that is sent goes to the peer, and is a key or a reply under the token of the request;
* a datagram that is no frame, a key and a reply lead to nothing at all;
* a reply of failure to a message or to a request to close is empty, and where names stand for
  channels, as they always do in a server that was started, it means that no direction of any
  channel has moved, provided that the answer of a message that was opened could be sealed;
* when answers come back to servers, nothing comes of them, so servers never send more than two
  frames for each datagram from elsewhere.
-/
theorem answers_come_to_rest (p : Primitives) (s : Service) (now : Nat) (peer : Endpoint)
    (socket : Frame → Delivery) (octets : Bytes) (draws : Nat → Nat) (fresh : Bytes32) :
    (∀ out ∈ (handleDatagram p s now peer socket octets draws fresh).1,
      out.peer = peer ∧
      ∃ request, Frame.decode octets = .ok request ∧ Answers request out.frame) ∧
    ((∀ e, Frame.decode octets = .error e →
        handleDatagram p s now peer socket octets draws fresh = ([], s)) ∧
      (∀ publicKey, Frame.decode octets = .ok (.key publicKey) →
        handleDatagram p s now peer socket octets draws fresh = ([], s)) ∧
      ∀ token outcome body, Frame.decode octets = .ok (.reply token outcome body) →
        handleDatagram p s now peer socket octets draws fresh = ([], s)) ∧
    (∀ token outcome body, outcome ≠ .success →
      ⟨peer, .reply token outcome body⟩ ∈
          (handleDatagram p s now peer socket octets draws fresh).1 →
        (∀ requested query text, Frame.decode octets = .ok (.message requested query text) →
          body = [] ∧ (Named s.registry →
            s.Answerable p (inbound s.config.codec peer requested query text) →
              StandsStill s.registry
                (handleDatagram p s now peer socket octets draws fresh).2.registry)) ∧
        ∀ requested query text, Frame.decode octets = .ok (.close requested query text) →
          body = [] ∧ (Named s.registry → StandsStill s.registry
            (handleDatagram p s now peer socket octets draws fresh).2.registry)) ∧
    ∀ n w, Relay.Run p n w → w.sent.length ≤ 2 * n ∧
      ∀ out ∈ w.sent, ∀ server now peer socket draws fresh,
        w.serve p server now peer socket out.frame.encode draws fresh = w := by
  refine ⟨fun out mem => answers_of_handleDatagram mem, ⟨?_, ?_, ?_⟩, ?_, ?_⟩
  · intro e malformed
    exact handleDatagram_of_malformed malformed p s now peer socket draws fresh
  · intro publicKey stated
    exact handleDatagram_of_unasked (.inl ⟨publicKey, stated⟩) p s now peer socket draws fresh
  · intro token outcome body stated
    exact handleDatagram_of_unasked (.inr ⟨token, outcome, body, stated⟩) p s now peer socket draws
      fresh
  · intro token outcome body failure mem
    exact ⟨fun _ _ _ stated => failure_of_message stated mem failure,
      fun _ _ _ stated => failure_of_close stated mem failure⟩
  · intro n w run
    obtain ⟨answers, bounded⟩ := run.sound
    refine ⟨bounded, ?_⟩
    intro out mem server now peer socket draws fresh
    obtain ⟨request, answer⟩ := answers out mem
    exact Relay.serve_of_answer answer p w server now peer socket draws fresh

/-! ### A message that is refused -/

def caller : Endpoint := .v4 .loopback 5684

def callerTag : Bytes := [49, 50, 55, 46, 48, 46, 48, 46, 49, 58, 53, 54, 56, 52]

theorem transportTag_caller (token : Option Bytes) :
    transportTag .routing token caller = some callerTag := by
  rw [transportTag]
  decide +kernel

/-- A server with a channel of the peer. -/
def withCaller : Service := (Service.reverser .routing).withPeer callerTag

/-- The peer sends an empty ciphertext on its channel. -/
def forgery : Bytes := (Frame.message (some [7]) none []).encode

def refused : List Outgoing × Service :=
  handleDatagram .standard withCaller 0 caller (Frame.delivery caller) forgery (fun _ => 0) default

/-- The channel refuses the ciphertext. The peer is told under its token, and no direction has
moved. -/
theorem answers_come_to_rest_refused :
    withCaller.registry.live? (.transport callerTag) = some ⟨0⟩ ∧
      refused.1 = [⟨caller, .reply (some [7]) .unauthorized []⟩] ∧
      StandsStill withCaller.registry refused.2.registry := by
  have opens := opens_setLive (Service.reverser .routing).registry (.transport callerTag)
    (.new default default .implicit) 0
  have reaches : withCaller.Reaches (inbound withCaller.config.codec caller (some [7]) none [])
      ⟨0⟩ (.new (.transport callerTag) (.new default default .implicit) 0) [] := by
    refine ⟨?_, opens.live?, opens.channel?⟩
    rw [inbound, show withCaller.config.codec = .routing from rfl, transportTag_caller]
    rfl
  obtain ⟨refuses, -⟩ := reaches.handleMessage_refuses (CipherState.decrypt_nil .standard _ []) 0
  have stated : Frame.decode forgery = .ok (.message (some [7]) none []) := Frame.decode_encode _
  have fits : (Frame.reply (some [7]) .unauthorized []).fits = true :=
    Frame.fits_reply (by decide)
  have taken := delivery_of_fits caller fits
  have sent : refused.1 = [⟨caller, .reply (some [7]) .unauthorized []⟩] := by
    rw [refused, handleDatagram_of_decode stated, handleDatagram_message, refuses.answer]
    exact leaving_of_delivered caller taken
  have mem : ⟨caller, .reply (some [7]) .unauthorized []⟩ ∈ refused.1 := by
    rw [sent]
    exact List.mem_singleton_self _
  have rest := answers_come_to_rest .standard withCaller 0 caller (Frame.delivery caller) forgery
    (fun _ => 0) default
  rw [← refused] at rest
  obtain ⟨-, -, failures, -⟩ := rest
  obtain ⟨message, -⟩ := failures (some [7]) .unauthorized [] (by decide) mem
  obtain ⟨-, still⟩ := message (some [7]) none [] stated
  have named : Named withCaller.registry := opens.confined.named (named_new _)
  refine ⟨reaches.live, sent, still named ?_⟩
  intro h c ciphertext plaintext decrypter again opened
  obtain ⟨rfl, rfl, rfl⟩ := reaches.unique again
  rw [CipherState.decrypt_nil] at opened
  cases opened

end DatagramServer

end SecureChannel
