import SecureChannel.Proofs.Datagram.Caller
import SecureChannel.Proofs.Datagram.Hosting
import SecureChannel.Proofs.Datagram.Requests

/-!
# A client of datagrams on an unreliable network

A `Dialogue` is a client of datagrams and its server, as in a session, but with a network in between
that keeps every datagram that was sent: it may deliver each of them at any time, any number of
times, in any order, or not at all. It alters nothing, and it makes nothing up. The server may have
other clients, and those may send it anything. It sees the client at some address, which need not be
the one that the client takes for its own.

A call ends when the client stops waiting: with the first datagram that holds an answer, or, if none
does, because the time is over or the socket fails. It may also be given up for another one.

`Sound` is the invariant. A reply that tells of success answers a request of the client under its
token, and if all requests under the token are messages, then it carries what the server has sealed
for one of them.
-/

namespace SecureChannel

open Registry DatagramServer

structure Asking extends Call where
  /-- What the client has sealed for it, if it is a message. -/
  message : Option Seal

/-- An answer of the server to a message of the client. -/
structure Answering where
  token : Option Bytes
  message : Opening
  answer : Seal

/-- A call that has returned the answer to its message. -/
structure Concluded where
  request : Request
  message : Seal
  answer : Opening

/-- A client and its server, and what has happened so far. -/
structure Dialogue extends Caller, Hosting where
  /-- Where the server sees the client. -/
  peer : Endpoint
  call : Option Asking
  /-- What the server has sent to the client. -/
  replies : List Bytes
  requests : List Asking
  served : List Answering
  concluded : List Concluded

/-- What a client seals for a message. -/
def Caller.sealing (p : Primitives) (c : Caller) : Wish → Option Seal
  | .send index plaintext => do
      let channel ← c.channels[index]?
      let (ciphertext, _) ← (channel.encrypt p [] plaintext).toOption
      return ⟨channel.pair.encrypter, [], plaintext, ciphertext⟩
  | .fetchKey | .connect _ | .close _ => none

theorem Caller.sealing_send {p : Primitives} {c : Caller} {index : Nat}
    {channel after : ClientChannel} {plaintext ciphertext : Bytes}
    (inside : c.channels[index]? = some channel)
    (sent : channel.encrypt p [] plaintext = .ok (ciphertext, after)) :
    c.sealing p (.send index plaintext) =
      some ⟨channel.pair.encrypter, [], plaintext, ciphertext⟩ := by
  simp [sealing, inside, sent, Except.toOption]

/-- What there is to say of a call that returns the answer to a message. -/
def Caller.conclusion (p : Primitives) (c : Caller) (call : Asking) (arrival : Arrival) :
    Option Concluded :=
  match call.purpose, call.message, c.client.successBody arrival,
      (c.finish p call.purpose arrival).1 with
  | .message index, some message, .ok body, .ok (.answer plaintext) =>
      c.channels[index]?.map fun channel =>
        ⟨call.request, message, ⟨channel.pair.decrypter, [], body, plaintext⟩⟩
  | _, _, _, _ => none

/-- What a service opens and seals when it answers a message. -/
def Service.answersTo (p : Primitives) (s : Service) (now : Nat) (m : Message) :
    List (Opening × Seal) :=
  match (s.receive p now [] m).1, s.config.codec.decode s.config.idScheme m,
      (s.handleMessage p now m).1 with
  | .ok (_, h, plaintext), .ok (_, ciphertext), .ok answer =>
      (s.registry.channel? h).toList.map fun c =>
        (⟨c.pair.decrypter, [], ciphertext, plaintext⟩,
          ⟨c.pair.encrypter, [], s.handler plaintext, answer⟩)
  | _, _, _ => []

namespace Dialogue

inductive Event
  | ask (wish : Wish) (token : Bytes)
  /-- The call ends: of the datagrams that come in the first that holds an answer is taken, and if
  there is none, the socket has failed or the time is over. -/
  | finish (incoming : List Bytes) (outage : Option IoError)
  | host (event : Hosting.Event)

/-- The network delivers what was sent. -/
def Faithful (w : Dialogue) : Event → Prop
  | .finish incoming _ => ∀ octets ∈ incoming, octets ∈ w.replies
  | .host (.datagram _ peer octets _ _) =>
      peer = w.peer →
        ∃ q ∈ w.requests, q.request.frame.fits = true ∧ q.request.frame.encode = octets
  | .ask _ _ | .host (.settle _ _ _) | .host (.expire _) => True

/-- The client has sent a request, and waits. -/
def await (w : Dialogue) (caller : Caller) (q : Asking) : Dialogue :=
  { w with toCaller := caller, call := some q, requests := w.requests ++ [q] }

/-- What a call sees of the datagrams that come in. -/
def arrival (request : Request) (incoming : List Bytes) (outage : Option IoError) : Arrival :=
  match (request.awaitAnswer incoming).1, outage with
  | some frame, _ => .frame frame
  | none, some e => .failed e
  | none, none => .none

/-- The datagrams that an event makes the server send to the client. -/
def sending (p : Primitives) (w : Dialogue) (event : Hosting.Event) : List Bytes :=
  ((w.toHosting.handed p event).filter fun out => out.peer = w.peer ∧ out.frame.fits).toList.map
    (·.frame.encode)

/-- What the server answers to the client, if an event brings a message of the client. -/
def answering (p : Primitives) (w : Dialogue) : Hosting.Event → List Answering
  | .datagram now peer octets _ _ =>
      match Frame.decode octets with
      | .ok (.message token query body) =>
          if peer = w.peer then
            (w.service.answersTo p now (inbound w.service.config.codec peer token query body)).map
              fun (message, answer) => ⟨token, message, answer⟩
          else []
      | _ => []
  | .settle _ _ _ | .expire _ => []

def step (p : Primitives) (w : Dialogue) : Event → Dialogue
  | .ask wish token =>
      match w.toCaller.ask p w.service.config token wish with
      | (.error _, caller) => { w with toCaller := caller, call := none }
      | (.ok call, caller) => w.await caller ⟨call, w.toCaller.sealing p wish⟩
  | .finish incoming outage =>
      match w.call with
      | none => w
      | some call =>
          let arrival := arrival call.request incoming outage
          { w with
            toCaller := (w.toCaller.finish p call.purpose arrival).2
            call := none
            concluded := w.concluded ++ (w.toCaller.conclusion p call arrival).toList }
  | .host event =>
      { w with
        toHosting := w.toHosting.step p event
        replies := w.replies ++ w.sending p event
        served := w.served ++ w.answering p event }

/-- What events lead to, one after the other. The client is a new one, and the server may have been
called with anything before. -/
inductive Reachable (p : Primitives) (config : Config) (key : Option StaticKey)
    (handler : Bytes → Bytes) : Dialogue → Prop
  | start {hosting : Hosting} (hosted : Hosting.Reachable p config key handler hosting)
      (endpoint peer : Endpoint) :
      Reachable p config key handler
        ⟨⟨.new endpoint config, [], []⟩, hosting, peer, none, [], [], [], []⟩
  | step {w : Dialogue} (reached : Reachable p config key handler w) (event : Event)
      (faithful : w.Faithful event) : Reachable p config key handler (w.step p event)

/-! ### The invariant -/

variable {p : Primitives} {config : Config} {key : Option StaticKey} {handler : Bytes → Bytes}
variable {w : Dialogue}

/-- A request carries what was sealed. -/
structure Carries (p : Primitives) (config : Config) (request : Request) (e : Seal) : Prop where
  made : e.Made p
  ad : e.ad = []
  mode : e.sender.isExplicit = config.nonceMode.isExplicit
  token : request.token ≠ none
  frame : ∃ id, request.frame = .message request.token
    (config.codec.encode id e.ciphertext).query (config.codec.encode id e.ciphertext).body

structure Asked (p : Primitives) (config : Config) (q : Asking) : Prop where
  token : q.request.frame.token? = q.request.token
  mode : ∀ handshake, q.purpose = .handshake handshake →
    handshake.initiator.mode = config.nonceMode
  sealed : ∀ index, q.purpose = .message index → ∃ e, q.message = some e
  message : ∀ e, q.message = some e → Carries p config q.request e
  other : q.message = none → ∀ token query body, q.request.frame ≠ .message token query body

/-- The server has opened what the client had sealed, and has sealed what the application says. -/
structure Served (p : Primitives) (config : Config) (handler : Bytes → Bytes)
    (requests : List Asking) (a : Answering) : Prop where
  opened : a.message.Made p
  sealed : a.answer.Made p
  ad : a.message.ad = [] ∧ a.answer.ad = []
  mode : a.message.receiver.isExplicit = config.nonceMode.isExplicit ∧
    a.answer.sender.isExplicit = config.nonceMode.isExplicit
  plaintext : a.answer.plaintext = handler a.message.plaintext
  request : ∃ q ∈ requests, ∃ e, q.message = some e ∧ q.request.token = a.token ∧
    e.ciphertext = a.message.ciphertext

/-- Where a reply that tells of success comes from: it answers a message, or a request that is
none. -/
def Explained (requests : List Asking) (served : List Answering) (token : Option Bytes)
    (body : Bytes) : Prop :=
  (∃ a ∈ served, a.token = token ∧ a.answer.ciphertext = body) ∨
    ∃ q ∈ requests, q.message = none ∧ q.request.token = token

/-- A call has opened a reply to a request under its token. -/
structure Concludes (p : Primitives) (config : Config) (requests : List Asking)
    (served : List Answering) (d : Concluded) : Prop where
  request : ∃ q ∈ requests, q.request = d.request ∧ q.message = some d.message
  opened : d.answer.Made p
  ad : d.answer.ad = []
  mode : d.answer.receiver.isExplicit = config.nonceMode.isExplicit
  explained : Explained requests served d.request.token d.answer.ciphertext

structure Sound (p : Primitives) (config : Config) (key : Option StaticKey)
    (handler : Bytes → Bytes) (w : Dialogue) : Prop where
  hosted : Hosting.Reachable p config key handler w.toHosting
  codec : w.client.codec = config.codec
  inMode : w.toCaller.InMode config.nonceMode
  call : ∀ q, w.call = some q → q ∈ w.requests
  replies : ∀ octets ∈ w.replies, ∀ token body,
    Frame.decode octets = .ok (.reply token .success body) →
      Explained w.requests w.served token body
  requests : ∀ q ∈ w.requests, Asked p config q
  served : ∀ a ∈ w.served, Served p config handler w.requests a
  concluded : ∀ d ∈ w.concluded, Concludes p config w.requests w.served d
  /-- Only under token reuse a request can have a token that was not drawn for it. -/
  tokens : config.codec ≠ .tokenReuse → w.requests.filterMap (·.request.token) = w.drawn

section Grow

variable {requests requests' : List Asking} {served served' : List Answering}

theorem Explained.grow {token : Option Bytes} {body : Bytes}
    (explained : Explained requests served token body) (more : requests ⊆ requests')
    (more' : served ⊆ served') : Explained requests' served' token body := by
  rcases explained with ⟨a, mem, same⟩ | ⟨q, mem, same⟩
  · exact .inl ⟨a, more' mem, same⟩
  · exact .inr ⟨q, more mem, same⟩

theorem Concludes.grow {d : Concluded} (concludes : Concludes p config requests served d)
    (more : requests ⊆ requests') (more' : served ⊆ served') :
    Concludes p config requests' served' d := by
  obtain ⟨q, mem, same⟩ := concludes.request
  exact { concludes with
    request := ⟨q, more mem, same⟩
    explained := concludes.explained.grow more more' }

theorem Served.grow {a : Answering} (served : Served p config handler requests a)
    (more : requests ⊆ requests') : Served p config handler requests' a := by
  obtain ⟨q, mem, same⟩ := served.request
  exact { served with request := ⟨q, more mem, same⟩ }

end Grow

/-! #### Sending a request -/

section Ask

variable {c c' : Caller} {wish : Wish} {token : Bytes} {call : Call}

/-- Except under token reuse a token is drawn for every request that has one. -/
theorem drawn_of_asks (asks : c.Asks p config token wish call c')
    (other : c.client.codec ≠ .tokenReuse) : c'.drawn = c.drawn ++ call.request.token.toList := by
  cases asks with
  | fetchKey => simp [DatagramClient.keyRequest]
  | connect => rfl
  | send | close =>
    simp [Caller.draw, other, DatagramClient.request, DatagramClient.requestToken_of_ne other]

theorem asked_of_asks (inMode : c.InMode config.nonceMode) (codec : c.client.codec = config.codec)
    (asks : c.Asks p config token wish call c') :
    Asked p config ⟨call, c.sealing p wish⟩ := by
  refine ⟨asks.token_eq, fun handshake => asks.mode_eq, ?_, ?_, ?_⟩
  · intro index purpose
    cases asks with
    | fetchKey | connect | close => cases purpose
    | send inside sent => exact ⟨_, Caller.sealing_send inside sent⟩
  · intro e sealed
    cases asks with
    | fetchKey | connect | close => cases sealed
    | @send index plaintext ciphertext channel after inside sent =>
      rw [Caller.sealing_send inside sent] at sealed
      cases sealed
      refine ⟨⟨_, (ClientChannel.encrypt_ok sent).1⟩, rfl,
        (inMode channel (List.mem_of_getElem? inside)).encrypter, Option.some_ne_none _,
        channel.id, ?_⟩
      rw [← codec]
      rfl
  · intro unsealed token query body same
    cases asks with
    | fetchKey | connect | close => cases same
    | send inside sent =>
      rw [Caller.sealing_send inside sent] at unsealed
      cases unsealed

theorem Sound.ask (sound : Sound p config key handler w) (wish : Wish) (token : Bytes) :
    Sound p config key handler (w.step p (.ask wish token)) := by
  simp only [step, sound.hosted.started.1.configured]
  rcases w.toCaller.ask_cases p config token wish with
    ⟨call, c', asked, asks⟩ | ⟨e, channels, failed, fewer⟩
  · rw [asked]
    have more : w.requests ⊆ w.requests ++ [⟨call, w.toCaller.sealing p wish⟩] :=
      List.subset_append_left ..
    refine ⟨sound.hosted, asks.client_eq.2.trans sound.codec, sound.inMode.asks asks, ?_, ?_, ?_,
      fun a mem => (sound.served a mem).grow more,
      fun d mem => (sound.concluded d mem).grow more (List.Subset.refl _), ?_⟩
    · rintro q ⟨⟩
      exact List.mem_append_right _ (List.mem_singleton_self _)
    · exact fun octets mem token body decoded =>
        (sound.replies octets mem token body decoded).grow more (List.Subset.refl _)
    · intro q mem
      rcases List.mem_append.mp mem with old | new
      · exact sound.requests q old
      · rw [List.mem_singleton.mp new]
        exact asked_of_asks sound.inMode sound.codec asks
    · intro other
      simp only [await, List.filterMap_append, sound.tokens other,
        drawn_of_asks asks (sound.codec ▸ other)]
      cases known : call.request.token <;> simp [known]
  · rw [failed]
    exact { sound with
      inMode := fun channel mem => sound.inMode channel (fewer.subset mem)
      call := by rintro q ⟨⟩ }

end Ask

/-! #### The end of a call -/

/-- An answer comes out of a datagram, and under a token it has that token. -/
theorem awaitAnswer_some {request : Request} {frame : Frame} {incoming : List Bytes}
    (answer : (request.awaitAnswer incoming).1 = some frame) :
    ∃ octets ∈ incoming, Frame.decode octets = .ok frame ∧
      (request.token ≠ none → frame.token? = request.token) := by
  induction incoming with
  | nil => cases answer
  | cons octets incoming ih =>
    simp only [Request.awaitAnswer] at answer
    split at answer
    · next accepted =>
      cases answer
      refine ⟨octets, List.mem_cons_self, ?_⟩
      simp only [Request.accepts] at accepted
      split at accepted
      · cases accepted
      · next decoded =>
        split at accepted
        · next fits =>
          cases accepted
          refine ⟨decoded, ?_⟩
          intro known
          simpa [known] using fits
        · cases accepted
    · obtain ⟨octets, mem, spec⟩ := ih answer
      exact ⟨octets, List.mem_cons_of_mem _ mem, spec⟩

/-- A body is that of a reply that tells of success. -/
theorem successBody_ok {client : DatagramClient} {request : Request} {incoming : List Bytes}
    {outage : Option IoError} {body : Bytes}
    (success : client.successBody (arrival request incoming outage) = .ok body) :
    ∃ token, (request.awaitAnswer incoming).1 = some (.reply token .success body) := by
  simp only [arrival] at success
  split at success
  · next frame answer =>
    cases frame with
    | reply token outcome text =>
      simp only [DatagramClient.successBody, DatagramClient.received, bind, Except.bind, pure,
        Except.pure, throw, throwThe, MonadExceptOf.throw] at success
      split at success
      · next good =>
        cases success
        have same : outcome = .success := by simpa [Outcome.isSuccess] using good
        exact ⟨token, by rw [answer, same]⟩
      · cases success
    | _ => cases success
  · cases success
  · cases success

/-- A call that returns an answer has opened the body of a reply. -/
theorem conclusion_eq_some {c : Caller} {call : Asking} {arrival : Arrival} {d : Concluded}
    (concluded : c.conclusion p call arrival = some d) :
    call.request = d.request ∧ call.message = some d.message ∧
      ∃ channel ∈ c.channels, ∃ after,
        c.client.successBody arrival = .ok d.answer.ciphertext ∧
        channel.decrypt p [] d.answer.ciphertext = .ok (d.answer.plaintext, after) ∧
        d.answer.receiver = channel.pair.decrypter ∧ d.answer.ad = [] := by
  rw [Caller.conclusion] at concluded
  split at concluded
  · next index message body plaintext purpose sealed success returned =>
    obtain ⟨channel, inside, rfl⟩ := Option.map_eq_some_iff.mp concluded
    rw [purpose] at returned
    simp only [Caller.finish, inside, DatagramClient.messageAnswer, success] at returned
    split at returned
    · cases returned
    · next after opened =>
      cases returned
      exact ⟨rfl, sealed, channel, List.mem_of_getElem? inside, after, success, opened, rfl, rfl⟩
  · cases concluded

/-- What a call returns was opened from a reply to a request under its token. -/
theorem Sound.concludes (sound : Sound p config key handler w) {call : Asking}
    (asked : call ∈ w.requests) {incoming : List Bytes}
    (faithful : ∀ octets ∈ incoming, octets ∈ w.replies) {outage : Option IoError} {d : Concluded}
    (concluded : w.toCaller.conclusion p call (arrival call.request incoming outage) = some d) :
    Concludes p config w.requests w.served d := by
  obtain ⟨request, message, channel, mem, after, success, opened, receiver, ad⟩ :=
    conclusion_eq_some concluded
  obtain ⟨token, answer⟩ := successBody_ok success
  obtain ⟨octets, inside, decoded, fits⟩ := awaitAnswer_some answer
  have known := ((sound.requests call asked).message d.message message).token
  have explained := sound.replies octets (faithful octets inside) token _ decoded
  rw [show token = call.request.token from fits known, request] at explained
  refine ⟨⟨call, asked, request, message⟩, ⟨after.pair.decrypter, ?_⟩, ad, ?_, explained⟩
  · rw [receiver, ad]
    exact (ClientChannel.decrypt_ok opened).1
  · rw [receiver]
    exact (sound.inMode channel mem).decrypter

theorem Sound.finish (sound : Sound p config key handler w) {incoming : List Bytes}
    (faithful : ∀ octets ∈ incoming, octets ∈ w.replies) (outage : Option IoError) :
    Sound p config key handler (w.step p (.finish incoming outage)) := by
  simp only [step]
  split
  · exact sound
  · next call waiting =>
    have asked := sound.call call waiting
    have concluded : ∀ d ∈ w.concluded ++
        (w.toCaller.conclusion p call (arrival call.request incoming outage)).toList,
        Concludes p config w.requests w.served d := by
      intro d mem
      rcases List.mem_append.mp mem with old | new
      · exact sound.concluded d old
      · exact sound.concludes asked faithful (Option.mem_toList.mp new)
    rcases w.toCaller.finish_cases p call.purpose (arrival call.request incoming outage) with
      ⟨returned, c', finished, returns⟩ | ⟨e, failed⟩
    · rw [finished]
      obtain ⟨client, drawn⟩ := returns.kept
      exact { sound with
        codec := (congrArg _ client).trans sound.codec
        inMode := sound.inMode.returns returns (sound.requests call asked).mode
        call := by rintro q ⟨⟩
        concluded := concluded
        tokens := fun other => (sound.tokens other).trans drawn.symm }
    · rw [failed]
      exact { sound with
        call := by rintro q ⟨⟩
        concluded := concluded }

/-- No call returns an answer that is not on record. -/
theorem Sound.recorded (sound : Sound p config key handler w) {call : Asking}
    (waiting : w.call = some call) {arrival : Arrival} {plaintext : Bytes}
    (returned : (w.toCaller.finish p call.purpose arrival).1 = .ok (.answer plaintext)) :
    ∃ d, w.toCaller.conclusion p call arrival = some d ∧ call.message = some d.message ∧
      d.answer.plaintext = plaintext := by
  have asked := sound.requests call (sound.call call waiting)
  rcases w.toCaller.finish_cases p call.purpose arrival with
    ⟨_, c', finished, returns⟩ | ⟨e, failed⟩
  · rw [finished] at returned
    cases returned
    generalize purpose : call.purpose = wanted at returns finished
    cases returns with
    | @message index _ channel after inside opened =>
      obtain ⟨e, sealed⟩ := asked.sealed index purpose
      rw [DatagramClient.messageAnswer] at opened
      split at opened
      · cases opened
      · next body success =>
        refine ⟨⟨call.request, e, ⟨channel.pair.decrypter, [], body, plaintext⟩⟩, ?_, sealed, rfl⟩
        simp only [Caller.conclusion, purpose, sealed, success, finished, inside, Option.map_some]
  · rw [failed] at returned
    cases returned

end Dialogue

/-! #### Serving a datagram -/

namespace Service

variable {p : Primitives} {s : Service} {now : Nat} {m : Message}

theorem answersTo_of_ok {id name : ChannelId} {h : Handle} {c : Channel}
    {plaintext ciphertext body : Bytes}
    (received : (s.receive p now [] m).1 = .ok (id, h, plaintext))
    (decoded : s.config.codec.decode s.config.idScheme m = .ok (name, ciphertext))
    (answer : (s.handleMessage p now m).1 = .ok body)
    (found : s.registry.channel? h = some c) :
    s.answersTo p now m = [(⟨c.pair.decrypter, [], ciphertext, plaintext⟩,
      ⟨c.pair.encrypter, [], s.handler plaintext, body⟩)] := by
  simp [answersTo, received, decoded, answer, found]

/-- A server answers a message, if it does, with what it opens and seals on one channel. -/
theorem answersTo_cases (p : Primitives) (named : Named s.registry) (now : Nat) (m : Message) :
    (s.answersTo p now m = [] ∧ ∀ body, (s.handleMessage p now m).1 ≠ .ok body) ∨
    ∃ h c o e, s.answersTo p now m = [(o, e)] ∧ (s.handleMessage p now m).1 = .ok e.ciphertext ∧
      s.registry.channel? h = some c ∧ o.Made p ∧ e.Made p ∧ (o.ad = [] ∧ e.ad = []) ∧
      (o.receiver = c.pair.decrypter ∧ e.sender = c.pair.encrypter) ∧
      e.plaintext = s.handler o.plaintext ∧
      ∃ id, s.config.codec.decode s.config.idScheme m = .ok (id, o.ciphertext) := by
  cases answer : (s.handleMessage p now m).1 with
  | error e =>
    refine .inl ⟨?_, by simp⟩
    rw [answersTo, answer]
    split
    · next impossible => cases impossible
    · rfl
  | ok body =>
    obtain ⟨id, h, c, ciphertext, plaintext, decrypter, t, receives, received, encrypter, sealed⟩ :=
      handleMessage_ok named answer
    refine .inr ⟨h, c, ⟨c.pair.decrypter, [], ciphertext, plaintext⟩,
      ⟨c.pair.encrypter, [], s.handler plaintext, body⟩,
      answersTo_of_ok (by rw [received]) receives.decoded answer receives.found, rfl,
      receives.found, ⟨decrypter, receives.opened⟩, ⟨encrypter, sealed⟩, ⟨rfl, rfl⟩, ⟨rfl, rfl⟩,
      rfl, id, receives.decoded⟩

end Service

namespace Dialogue

variable {p : Primitives} {config : Config} {key : Option StaticKey} {handler : Bytes → Bytes}
variable {w : Dialogue} {event : Hosting.Event}

/-- What comes from the client is one of its requests. -/
theorem request_of_faithful {now : Nat} {octets : Bytes} {draws : Nat → Nat} {fresh : Bytes32}
    (faithful : w.Faithful (.host (.datagram now w.peer octets draws fresh))) {frame : Frame}
    (decoded : Frame.decode octets = .ok frame) : ∃ q ∈ w.requests, q.request.frame = frame := by
  obtain ⟨q, mem, -, rfl⟩ := faithful rfl
  rw [Frame.decode_encode] at decoded
  exact ⟨q, mem, Except.ok.inj decoded⟩

/-- The answer to a datagram of the client answers one of its messages. -/
theorem Sound.answers (sound : Sound p config key handler w) (faithful : w.Faithful (.host event)) :
    ∀ a ∈ w.answering p event, Served p config handler w.requests a := by
  have steady := sound.hosted.started.1
  intro a mem
  cases event with
  | settle | expire => cases mem
  | datagram now peer octets draws fresh =>
    rw [answering] at mem
    split at mem
    · next token query body decoded =>
      split at mem
      · next mine =>
        subst mine
        obtain ⟨⟨message, answer⟩, mem, rfl⟩ := List.mem_map.mp mem
        rcases w.service.answersTo_cases p steady.running.named now
          (inbound w.service.config.codec w.peer token query body) with ⟨nothing, -⟩ |
          ⟨h, c, o, e, exchange, -, found, opened, sealed, ad, ⟨receiver, sender⟩, plaintext, id,
            read⟩
        · rw [nothing] at mem
          cases mem
        · rw [exchange] at mem
          cases List.mem_singleton.mp mem
          obtain ⟨encrypter, decrypter⟩ := sound.hosted.inMode h c found
          rw [steady.configured] at read
          refine ⟨opened, sealed, ad, ⟨by rw [receiver, decrypter], by rw [sender, encrypter]⟩,
            by rw [plaintext, sound.hosted.started.2.handler], ?_⟩
          obtain ⟨q, inside, frame⟩ := request_of_faithful faithful decoded
          have asked := sound.requests q inside
          cases sent : q.message with
          | none => exact absurd frame (asked.other sent token query body)
          | some e =>
            obtain ⟨id', made⟩ := (asked.message e sent).frame
            rw [made, Frame.message.injEq] at frame
            obtain ⟨same, rfl, rfl⟩ := frame
            exact ⟨q, inside, e, sent, same, (Codec.ciphertext_of_decode read).symm⟩
      · cases mem
    · cases mem

/-- A reply to the client that tells of success is explained by what the server has served. -/
theorem Sound.explained (sound : Sound p config key handler w)
    (faithful : w.Faithful (.host event)) {octets body : Bytes} {token : Option Bytes}
    (sent : octets ∈ w.sending p event)
    (read : Frame.decode octets = .ok (.reply token .success body)) :
    Explained w.requests (w.answering p event) token body := by
  simp only [sending, List.mem_map, Option.mem_toList, Option.filter_eq_some_iff, Bool.decide_and,
    Bool.decide_eq_true, Bool.and_eq_true, decide_eq_true_eq] at sent
  obtain ⟨⟨target, frame⟩, ⟨handed, rfl, -⟩, rfl⟩ := sent
  rw [Frame.decode_encode] at read
  obtain rfl := Except.ok.inj read
  cases event with
  | expire => cases handed
  | settle now index delivery =>
    -- What is sent then tells of a failure.
    obtain ⟨one, e, -, same⟩ := Hosting.refusal_of_settle handed
    obtain ⟨-, outcome, -⟩ := Frame.reply.inj (congrArg Outgoing.frame same)
    exact absurd outcome.symm e.outcome_ne_success
  | datagram now peer octets draws fresh =>
    obtain ⟨rfl, frame, decoded, handed⟩ := Hosting.answers_of_receive handed
    obtain ⟨q, mem, rfl⟩ := request_of_faithful faithful decoded
    have replies := replies_of_dispatch handed
    have asked := sound.requests q mem
    have same : q.request.token = token := asked.token.symm.trans replies.token
    cases message : q.message with
    | none => exact .inr ⟨q, mem, message, same⟩
    | some e =>
      obtain ⟨id, made⟩ := (asked.message e message).frame
      have handled := replies.message _ _ _ made
      rcases w.service.answersTo_cases p sound.hosted.started.1.running.named now _ with
        ⟨-, refused⟩ | ⟨h, c, o, answer, exchange, answered, -⟩
      · exact absurd handled (refused body)
      · rw [answered] at handled
        refine .inl ⟨⟨q.request.token, o, answer⟩, ?_, same, Except.ok.inj handled⟩
        simp only [answering, decoded, made, if_true, exchange, List.map_cons, List.map_nil,
          List.mem_singleton]

theorem Sound.host (sound : Sound p config key handler w) (faithful : w.Faithful (.host event)) :
    Sound p config key handler (w.step p (.host event)) := by
  have more : w.served ⊆ w.served ++ w.answering p event := List.subset_append_left ..
  refine ⟨sound.hosted.step event, sound.codec, sound.inMode, sound.call, ?_, sound.requests, ?_,
    fun d mem => (sound.concluded d mem).grow (List.Subset.refl _) more, sound.tokens⟩
  · intro octets mem token body read
    rcases List.mem_append.mp mem with old | new
    · exact (sound.replies octets old token body read).grow (List.Subset.refl _) more
    · exact (sound.explained faithful new read).grow (List.Subset.refl _)
        (List.subset_append_right ..)
  · intro a mem
    rcases List.mem_append.mp mem with old | new
    · exact sound.served a old
    · exact sound.answers faithful a new

/-- Every dialogue over a network that delivers what was sent is sound. -/
theorem Reachable.sound (reached : Reachable p config key handler w) :
    Sound p config key handler w := by
  induction reached with
  | start hosted endpoint peer =>
    exact ⟨hosted, rfl, by simp [Caller.InMode], by simp, by simp, by simp, by simp, by simp,
      fun _ => rfl⟩
  | step _ event faithful sound =>
    cases event with
    | ask wish token => exact sound.ask wish token
    | finish incoming outage => exact sound.finish faithful outage
    | host event => exact sound.host faithful

end Dialogue

end SecureChannel
