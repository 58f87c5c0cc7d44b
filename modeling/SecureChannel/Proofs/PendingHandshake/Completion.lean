import SecureChannel.Proofs.PendingHandshake.Naming
import SecureChannel.Service

/-!
# How a handshake ends on the server

A handshake either establishes a channel or leaves no trace. `sameTable_of_failure` is the second
half, for every way of serving a handshake: whatever goes wrong, the table of names, the channels
and the room that is left are what they were before.

The first half is about peers that have got their response. For them nothing should be left that can
go wrong. `established_iff_of_delivered` says when that is so: always, except that under the
transport scheme a peer which has no channel yet is refused if all names are in use. Its name is not
reserved, and that the registry is full is noticed only after delivery.
-/

namespace SecureChannel

open Registry PreparedResponse

variable {p : Primitives} {h : PendingHandshake} {r s : Registry} {tag : Option Bytes}
variable {reply : Bytes} {draws : Nat → Nat} {fresh : Bytes32} {response : PreparedResponse}
variable {now : Nat} {transport : Bytes → Delivery}

/-- There is a channel as the outcome of a handshake, and a look-up of its name finds just that
channel. -/
def Established (answer : Except ChannelError Handle) (r : Registry) : Prop :=
  ∃ handle channel, answer = .ok handle ∧ r.channel? handle = some channel ∧
    ∀ now, (r.lookup channel.id now).1 = .ok handle

theorem established_setLive (r : Registry) (id : ChannelId) (pair : CipherPair) (now : Nat) :
    Established (.ok (r.setLive id pair now).1) (r.setLive id pair now).2 := by
  refine ⟨_, .new id pair now, rfl, channel?_setLive r id pair now, ?_⟩
  intro later
  exact congrArg Prod.fst (lookup_of_live? (live?_setLive r id pair now) later)

namespace PreparedResponse

/-- A delivered response with a reserved name establishes its channel, whatever has become of the
registry in the meantime. -/
theorem established_of_held {res : Reservation} (naming : response.naming = .held res)
    (r : Registry) (now : Nat) :
    Established (response.settle r now .delivered).1 (response.settle r now .delivered).2 := by
  simp only [settle, establish, naming, commit]
  exact established_setLive r res.id response.pair now

/-- A delivered response that takes its name establishes its channel if the name is in use at that
moment, or if there is room for one more. -/
theorem established_iff_of_taken {id : ChannelId} (naming : response.naming = .taken id)
    (r : Registry) (now : Nat) :
    Established (response.settle r now .delivered).1 (response.settle r now .delivered).2 ↔
      ¬ (r.slots[id]? = none ∧ r.isFull = true) := by
  simp only [settle, establish, naming, rekey]
  constructor
  · rintro ⟨handle, channel, answer, -⟩ ⟨free, full⟩
    simp [contains_eq_false_iff.mpr free, full] at answer
  · intro room
    rw [if_neg (by simpa [contains_eq_false_iff] using room)]
    exact established_setLive r id response.pair now

/-- A response whose delivery fails, or whose name is refused afterwards, leaves no trace. -/
theorem Ready.sameTable_of_error (ready : response.Ready h r tag s) {delivery : Delivery}
    {e : ChannelError} (failure : (response.settle s now delivery).1 = .error e) :
    SameTable r (response.settle s now delivery).2 := by
  have abandoned : SameTable r (response.abandon s) := by
    cases ready with
    | held res naming granted => simpa only [abandon, naming] using granted.release
    | taken id naming _ _ same => simpa only [abandon, naming, same] using SameTable.refl r
  cases delivery with
  | failed error => exact abandoned
  | stalled => exact abandoned
  | delivered =>
    cases ready with
    | held res naming granted => simp [settle, establish, naming] at failure
    | taken id naming _ _ same =>
      subst same
      simp only [settle, establish, naming, rekey] at failure ⊢
      split at failure
      · next full =>
        rw [if_pos full]
        exact .refl s
      · simp at failure

theorem sameTable_of_deliver_error {prepared : Except ChannelError PreparedResponse × Registry}
    (sound : Prepared h r tag prepared) {e : ChannelError}
    (failure : (deliver prepared now transport).1.answer = .error e) :
    SameTable r (deliver prepared now transport).2 := by
  obtain ⟨e | response, s⟩ := prepared
  · exact sound
  · exact Ready.sameTable_of_error sound failure

end PreparedResponse

theorem PreparedResponse.prepared_of_sent
    {prepared : Except ChannelError PreparedResponse × Registry} {message : Bytes}
    (sent : (deliver prepared now transport).1.sent = some message) :
    ∃ response s, prepared = (.ok response, s) ∧ response.message = message := by
  obtain ⟨e | response, s⟩ := prepared
  · simp [deliver] at sent
  · exact ⟨response, s, rfl, by simpa [deliver] using sent⟩

namespace PendingHandshake

/-! ### Delivered responses -/

/-- A newcomer under the transport scheme finds all names in use. -/
def ArrivesAtFull (h : PendingHandshake) (r : Registry) (tag : Option Bytes) : Prop :=
  h.config.idScheme = .transport ∧ r.isFull = true ∧
    ∃ id, peerId tag = .ok id ∧ r.slots[id]? = none

/-- Preparing a response does not fill the registry up for a newcomer. -/
theorem Prepares.arrivesAtFull_iff (prepares : h.Prepares p r tag reply draws fresh response s) :
    h.ArrivesAtFull s tag ↔ h.ArrivesAtFull r tag := by
  rcases prepares.naming with ⟨scheme, -⟩ | ⟨scheme, -⟩
  · exact iff_of_false (fun arrives => scheme arrives.1) fun arrives => scheme arrives.1
  · cases prepares with
    | assigned random _ _ => simp [scheme] at random
    | bound binding _ _ => simp [scheme] at binding
    | named _ _ _ => rfl

/-- Whatever has become of the registry during the delivery, only a newcomer that finds all names in
use is refused. -/
theorem Prepares.established_iff (prepares : h.Prepares p r tag reply draws fresh response s)
    (later : Registry) (now : Nat) :
    Established (response.settle later now .delivered).1 (response.settle later now .delivered).2 ↔
      ¬ h.ArrivesAtFull later tag := by
  rcases prepares.naming with ⟨scheme, res, naming⟩ | ⟨scheme, id, named, naming⟩
  · apply iff_of_true (established_of_held naming later now)
    intro arrives
    exact scheme arrives.1
  · rw [established_iff_of_taken naming]
    apply not_congr
    constructor
    · rintro ⟨free, full⟩
      exact ⟨scheme, full, id, named, free⟩
    · rintro ⟨-, full, other, named', free⟩
      obtain rfl : id = other := Except.ok.inj (named.symm.trans named')
      exact ⟨free, full⟩

/-- Once a response is delivered, the channel is there and can be looked up, except for a newcomer
under the transport scheme that has found all names in use. Under a name that the application has
chosen there is no exception. Both hold as well if the registry is `later` after the delivery, since
others use it while the response is on its way. -/
theorem established_iff_of_delivered (p : Primitives) (h : PendingHandshake) (r later : Registry)
    (now : Nat) (tag : Option Bytes) (reply : Bytes) (draws : Nat → Nat) (fresh : Bytes32)
    (transport : Bytes → Delivery) {message : Bytes} (delivered : transport message = .delivered) :
    ((h.complete p r now tag reply draws fresh transport).1.sent = some message →
      (Established (h.complete p r now tag reply draws fresh transport).1.answer
          (h.complete p r now tag reply draws fresh transport).2 ↔ ¬ h.ArrivesAtFull r tag)) ∧
    (∀ id, (h.completeWithId p r now id reply fresh transport).1.sent = some message →
      Established (h.completeWithId p r now id reply fresh transport).1.answer
        (h.completeWithId p r now id reply fresh transport).2) ∧
    (∀ response s, h.prepare p r tag reply draws fresh = (.ok response, s) →
      (Established (response.settle later now .delivered).1
          (response.settle later now .delivered).2 ↔ ¬ h.ArrivesAtFull later tag)) ∧
    ∀ id response s, h.prepareWithId p r id reply fresh = (.ok response, s) →
      Established (response.settle later now .delivered).1
        (response.settle later now .delivered).2 := by
  refine ⟨?_, ?_, ?_, ?_⟩
  · intro sent
    obtain ⟨response, s, prepared, rfl⟩ := prepared_of_sent sent
    rw [complete, prepared]
    simp only [deliver, delivered]
    rw [(prepare_ok prepared).established_iff, (prepare_ok prepared).arrivesAtFull_iff]
  · intro id sent
    obtain ⟨response, s, prepared, rfl⟩ := prepared_of_sent sent
    obtain ⟨res, naming, -⟩ := prepareWithId_ok prepared
    rw [completeWithId, prepared]
    simp only [deliver, delivered]
    exact established_of_held naming s now
  · intro response s prepared
    exact (prepare_ok prepared).established_iff later now
  · intro id response s prepared
    obtain ⟨res, naming, -⟩ := prepareWithId_ok prepared
    exact established_of_held naming later now

/-- A valid configuration under which the transport tells peers apart, with room for one. -/
def oneRoom : Config :=
  { Config.default with idScheme := .transport, codec := .routing, maxSessions := 1 }

/-- The registry of such a server, after one peer has come. -/
def oneTaken : Registry :=
  ((Registry.new oneRoom.limits).setLive (.transport [1]) (.new default default .implicit) 0).2

/-- A peer of such a server gets as far as a prepared response. -/
theorem prepare_oneTaken (octets : Bytes) (tagged : octets = [1] ∨ octets = [2]) :
    ∃ (h : PendingHandshake) (message : Bytes) (pair : CipherPair), h.config = oneRoom ∧
      h.prepare .standard oneTaken (some octets) [] (fun _ => 0) default =
        (.ok ⟨message, .taken (.transport octets), pair, 5000⟩, oneTaken) := by
  have keyed : oneRoom.pattern.usesResponderStatic = true → (none : Option Bytes32) ≠ none := by
    decide
  have fits : FitsMessage [] := by decide
  obtain ⟨client, h, -, -, -, paired⟩ :=
    paired_of_fits Primitives.standard_sealing default keyed (by simp) fits
  have named : peerId (some octets) = .ok (.transport octets) := by
    rcases tagged with rfl | rfl <;> rfl
  obtain ⟨message, finished, responded⟩ :
      ∃ message finished, h.respond .standard default [] = .ok (message, finished) :=
    paired.respond_ok_iff.mpr fits
  refine ⟨h, message, finished.pair, paired.serverConfig, ?_⟩
  simp [prepare, paired.serverConfig, prepareTransport, named, responded, oneRoom, Config.default]

/-- A newcomer's handshake is finished by the message that the server delivers, and refused then. -/
theorem newcomer_refused_after_delivery :
    ∃ (h : PendingHandshake) (message : Bytes), oneRoom.validate = .ok () ∧ h.config = oneRoom ∧
      h.complete .standard oneTaken 0 (some [2]) [] (fun _ => 0) default (fun _ => .delivered) =
        (⟨some message, .error (.registryFull 1)⟩, oneTaken) := by
  obtain ⟨h, message, pair, config, prepared⟩ := prepare_oneTaken [2] (.inr rfl)
  have free : oneTaken.slots.contains (.transport [2]) = false := by
    rw [contains_eq_false_iff, oneTaken, getElem?_setLive]
    simp
  have full : oneTaken.isFull = true := by
    simp [oneTaken, setLive, Registry.new, isFull, oneRoom, Config.limits, Std.HashMap.size_insert]
  refine ⟨h, message, rfl, config, ?_⟩
  rw [complete, prepared]
  simp only [deliver, settle, establish, rekey, free, full]
  rfl

/-- A peer that has a channel gets another one in its place although there is no room for more. -/
theorem established_of_returning :
    ∃ (h : PendingHandshake) (message : Bytes),
      (h.complete .standard oneTaken 0 (some [1]) [] (fun _ => 0) default
        (fun _ => .delivered)).1.sent = some message ∧
      Established
        (h.complete .standard oneTaken 0 (some [1]) [] (fun _ => 0) default
          (fun _ => .delivered)).1.answer
        (h.complete .standard oneTaken 0 (some [1]) [] (fun _ => 0) default
          (fun _ => .delivered)).2 := by
  obtain ⟨h, message, pair, -, prepared⟩ := prepare_oneTaken [1] (.inl rfl)
  have sent : (h.complete .standard oneTaken 0 (some [1]) [] (fun _ => 0) default
      (fun _ => .delivered)).1.sent = some message := by
    rw [complete, prepared]
    rfl
  refine ⟨h, message, sent, ?_⟩
  apply ((established_iff_of_delivered .standard h oneTaken oneTaken 0 (some [1]) [] (fun _ => 0)
    default (fun _ => .delivered) rfl).1 sent).mpr
  rintro ⟨-, -, id, named, free⟩
  obtain rfl : .transport [1] = id := Except.ok.inj named
  rw [oneTaken, getElem?_setLive, if_pos rfl] at free
  cases free

/-! ### Failures -/

theorem sent_of_handled {s : Service} {request : Bytes} {draws : Nat → Nat} {fresh : Bytes32}
    {handle : Handle}
    (answer : (s.handleHandshake p now tag request draws fresh transport).1.answer = .ok handle) :
    ∃ message,
      (s.handleHandshake p now tag request draws fresh transport).1.sent = some message := by
  rw [Service.handleHandshake] at answer ⊢
  split at answer
  · cases answer
  · next pending _ =>
    simp only [complete] at answer ⊢
    generalize pending.prepare p s.registry tag (s.earlyReply pending.payload) draws fresh =
      prepared at answer ⊢
    obtain ⟨e | response, s⟩ := prepared
    · simp [deliver] at answer
    · exact ⟨response.message, rfl⟩

theorem complete_error (h : PendingHandshake) (reply : Bytes) {e : ChannelError}
    (failure : (h.complete p r now tag reply draws fresh transport).1.answer = .error e) :
    SameTable r (h.complete p r now tag reply draws fresh transport).2 :=
  sameTable_of_deliver_error prepare_prepared failure

theorem completeWithId_error (h : PendingHandshake) (id : ChannelId) (reply : Bytes)
    {e : ChannelError}
    (failure : (h.completeWithId p r now id reply fresh transport).1.answer = .error e) :
    SameTable r (h.completeWithId p r now id reply fresh transport).2 := by
  have prepared : Prepared h r none (h.prepareWithId p r id reply fresh) := prepareWithId_prepared
  exact sameTable_of_deliver_error prepared failure

/-- A request that cannot be read leaves the registry alone, too. -/
theorem handleHandshake_error (s : Service) (request : Bytes) {e : ChannelError}
    (failure : (s.handleHandshake p now tag request draws fresh transport).1.answer = .error e) :
    SameTable s.registry
      (s.handleHandshake p now tag request draws fresh transport).2.registry := by
  rw [Service.handleHandshake] at failure ⊢
  split at failure
  · exact .refl s.registry
  · next pending _ => exact pending.complete_error _ failure

theorem handshakeReply_error (s : Service) (request : Bytes) {e : ChannelError}
    (failure : (s.handshakeReply p now tag request draws fresh).1 = .error e) :
    SameTable s.registry (s.handshakeReply p now tag request draws fresh).2.registry := by
  have same : ∀ fault, (s.handleHandshake p now tag request draws fresh
      fun _ => .delivered).1.answer = .error fault → SameTable s.registry
        (s.handleHandshake p now tag request draws fresh fun _ => .delivered).2.registry := by
    intro fault failure
    exact handleHandshake_error s request failure
  have message : ∀ handle, (s.handleHandshake p now tag request draws fresh
      fun _ => .delivered).1.answer = .ok handle → ∃ message,
        (s.handleHandshake p now tag request draws fresh
          fun _ => .delivered).1.sent = some message := by
    intro handle answer
    exact sent_of_handled answer
  rw [Service.handshakeReply] at failure ⊢
  generalize s.handleHandshake p now tag request draws fresh (fun _ => .delivered) = result
    at failure same message ⊢
  obtain ⟨⟨sent, answer⟩, s'⟩ := result
  cases answer with
  | error fault => exact same fault rfl
  | ok handle =>
    obtain ⟨octets, rfl⟩ := message handle rfl
    simp at failure

/-- A handshake that fails leaves no trace, whichever way it is served and whatever was the matter:
the request, the peer's tag, the registry, the length of the reply or the transport. -/
theorem sameTable_of_failure (p : Primitives) (now : Nat) (tag : Option Bytes) (draws : Nat → Nat)
    (fresh : Bytes32) (transport : Bytes → Delivery) (e : ChannelError) :
    (∀ (h : PendingHandshake) r reply,
      (h.complete p r now tag reply draws fresh transport).1.answer = .error e →
        SameTable r (h.complete p r now tag reply draws fresh transport).2) ∧
    (∀ (h : PendingHandshake) r id reply,
      (h.completeWithId p r now id reply fresh transport).1.answer = .error e →
        SameTable r (h.completeWithId p r now id reply fresh transport).2) ∧
    (∀ config key r request,
      (serve p config key r now tag request draws fresh transport).1.answer = .error e →
        SameTable r (serve p config key r now tag request draws fresh transport).2) ∧
    (∀ (s : Service) request,
      (s.handleHandshake p now tag request draws fresh transport).1.answer = .error e →
        SameTable s.registry
          (s.handleHandshake p now tag request draws fresh transport).2.registry) ∧
    ∀ (s : Service) request, (s.handshakeReply p now tag request draws fresh).1 = .error e →
      SameTable s.registry (s.handshakeReply p now tag request draws fresh).2.registry := by
  refine ⟨?_, ?_, ?_, ?_, ?_⟩
  · intro h r reply failure
    exact h.complete_error reply failure
  · intro h r id reply failure
    exact h.completeWithId_error id reply failure
  · intro config key r request failure
    rw [serve] at failure ⊢
    split at failure
    · exact .refl r
    · next pending _ => exact pending.complete_error [] failure
  · intro s request failure
    exact handleHandshake_error s request failure
  · intro s request failure
    exact handshakeReply_error s request failure

/-- A returning peer whose response is lost keeps the channel that it had. -/
theorem sameTable_of_lost_response :
    ∃ h : PendingHandshake, (h.complete .standard oneTaken 0 (some [1]) [] (fun _ => 0) default
        (fun _ => .stalled)).1.answer = .error (.transport (.timeout 5000)) ∧
      SameTable oneTaken (h.complete .standard oneTaken 0 (some [1]) [] (fun _ => 0) default
        (fun _ => .stalled)).2 := by
  obtain ⟨h, message, pair, -, prepared⟩ := prepare_oneTaken [1] (.inl rfl)
  have failure : (h.complete .standard oneTaken 0 (some [1]) [] (fun _ => 0) default
      (fun _ => .stalled)).1.answer = .error (.transport (.timeout 5000)) := by
    rw [complete, prepared]
    rfl
  exact ⟨h, failure, (sameTable_of_failure .standard 0 (some [1]) (fun _ => 0) default
    (fun _ => .stalled) _).1 h oneTaken [] failure⟩

end PendingHandshake

end SecureChannel
