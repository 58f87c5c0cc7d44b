import SecureChannel.Proofs.Frame.Length
import SecureChannel.Proofs.Service.Running

/-!
# What serving a datagram can do

Whatever a datagram holds, serving it changes no more of the server than its registry, and that
evolves: no channel is lost, renamed or set back, and a new one numbers messages in the way of the
configuration.

Whatever is handed to the socket answers the request: with the key that was asked for, or with a
reply under the token of the request. A reply to a message that tells of success carries the sealed
answer of the application, and errors never look like success.
-/

namespace SecureChannel

open Registry

theorem ChannelError.outcome_ne_success (e : ChannelError) : e.outcome ≠ .success := by
  cases e <;> simp [ChannelError.outcome]

namespace DatagramServer

variable {p : Primitives} {s : Service} {now : Nat} {peer : Endpoint} {draws : Nat → Nat}
variable {fresh : Bytes32} {octets body : Bytes} {request frame : Frame} {token : Option Bytes}
variable {out : Outgoing} {socket : Frame → Delivery} {frames : List Frame}
variable {response : PreparedResponse} {delivery : Delivery}

/-! ### Answers -/

/-- The frame is what a request may be answered with: a key if it asks for one, or a reply under
its token. -/
inductive Answers (request : Frame) : Frame → Prop
  | key (asks : request = .keyRequest) (publicKey : Bytes) : Answers request (.key publicKey)
  | reply (outcome : Outcome) (body : Bytes) :
      Answers request (.reply request.token? outcome body)

/-- What a reply that tells of success says about the frame that it answers: it has the token of
the frame, and if that is a message, it carries the sealed answer. -/
structure Replies (p : Primitives) (s : Service) (now : Nat) (peer : Endpoint)
    (token : Option Bytes) (body : Bytes) (frame : Frame) : Prop where
  token : frame.token? = token
  message : ∀ requested query text, frame = .message requested query text →
    (s.handleMessage p now (inbound s.config.codec peer requested query text)).1 = .ok body

/-- The frame that is handed to the socket at once. -/
def Reaction.frame? (token : Option Bytes) : Reaction → Option Frame
  | .answer frame => frame
  | .respond response => some (replyTo token (.ok response.message))

theorem answers_replyTo (request : Frame) (answer : Except ChannelError Bytes) :
    Answers request (replyTo request.token? answer) := by
  cases answer <;> exact .reply _ _

/-- A request leads to nothing but answers to it. -/
theorem answers_of_dispatch
    (handed : (dispatch p s now peer draws fresh request).1.frame? request.token? = some frame) :
    Answers request frame := by
  cases request with
  | keyRequest =>
    simp only [dispatch, keyAnswer] at handed
    split at handed <;> cases handed
    · exact .key rfl _
    · exact .reply _ _
  | key _ | reply _ _ _ => cases handed
  | handshake token payload =>
    simp only [dispatch] at handed
    split at handed <;> cases handed <;> exact answers_replyTo (.handshake token payload) _
  | message token query text =>
    cases handed
    exact answers_replyTo (.message token query text) _
  | close token query text =>
    cases handed
    exact answers_replyTo (.close token query text) _

/-- What is sent after a response was handed to the socket tells of a failure. -/
theorem refusal_of_settle (refused : (settle s now token response delivery).1 = some frame) :
    ∃ e, frame = replyTo token (.error e) := by
  rw [settle] at refused
  split at refused
  · cases refused
    exact ⟨_, rfl⟩
  · cases refused

theorem replies_of_dispatch
    (handed : (dispatch p s now peer draws fresh frame).1.frame? frame.token? =
      some (.reply token .success body)) : Replies p s now peer token body frame := by
  constructor
  · cases answers_of_dispatch handed
    rfl
  · rintro requested query text rfl
    simp only [dispatch, Reaction.frame?, Option.some.injEq] at handed
    cases handled :
        (s.handleMessage p now (inbound s.config.codec peer requested query text)).1 with
    | error e =>
      rw [handled] at handed
      obtain ⟨-, outcome, -⟩ := Frame.reply.inj handed
      exact absurd outcome e.outcome_ne_success
    | ok sealed =>
      rw [handled] at handed
      obtain ⟨-, -, rfl⟩ := Frame.reply.inj handed
      rfl

/-! ### What is sent -/

theorem mem_leaving :
    out ∈ leaving peer socket frames ↔
      out.peer = peer ∧ out.frame ∈ frames ∧ socket out.frame = .delivered := by
  obtain ⟨target, frame⟩ := out
  simp only [leaving, List.mem_map, List.mem_filter, decide_eq_true_eq, Outgoing.mk.injEq]
  constructor
  · rintro ⟨_, ⟨mem, taken⟩, rfl, rfl⟩
    exact ⟨rfl, mem, taken⟩
  · rintro ⟨rfl, mem, taken⟩
    exact ⟨frame, ⟨mem, taken⟩, rfl, rfl⟩

theorem leaving_of_delivered (peer : Endpoint) (taken : socket frame = .delivered) :
    leaving peer socket [frame] = [⟨peer, frame⟩] := by
  simp [leaving, taken]

theorem length_leaving_le (peer : Endpoint) (socket : Frame → Delivery) (frames : List Frame) :
    (leaving peer socket frames).length ≤ frames.length := by
  rw [leaving, List.length_map]
  exact List.length_filter_le ..

/-- Every frame goes back to the peer that has sent the datagram, and answers its request. -/
theorem answers_of_handleDatagram
    (mem : out ∈ (handleDatagram p s now peer socket octets draws fresh).1) :
    out.peer = peer ∧
      ∃ request, Frame.decode octets = .ok request ∧ Answers request out.frame := by
  rw [handleDatagram] at mem
  cases decoded : Frame.decode octets with
  | error e =>
    rw [decoded] at mem
    cases mem
  | ok request =>
    have answers := @answers_of_dispatch p s now peer draws fresh request out.frame
    rw [decoded] at mem
    simp only at mem
    split at mem
    · next reply t dispatched =>
      obtain ⟨back, mem, -⟩ := mem_leaving.mp mem
      rw [dispatched] at answers
      exact ⟨back, request, rfl, answers (Option.mem_toList.mp mem)⟩
    · next response t dispatched =>
      obtain ⟨back, mem, -⟩ := mem_leaving.mp mem
      rw [dispatched] at answers
      refine ⟨back, request, rfl, ?_⟩
      rcases List.mem_cons.mp mem with first | refusal
      · exact answers (congrArg some first.symm)
      · obtain ⟨e, told⟩ := refusal_of_settle (Option.mem_toList.mp refusal)
        rw [told]
        exact answers_replyTo request _

theorem maxDatagram_le_maxPayload (peer : Endpoint) : maxDatagram ≤ peer.maxPayload := by
  cases peer with
  | v4 => exact Nat.le_refl _
  | v6 address =>
    rw [Endpoint.maxPayload]
    split <;> decide

/-- What can be read anywhere can be sent to every peer. -/
theorem delivery_of_fits (peer : Endpoint) (fits : frame.fits = true) :
    frame.delivery peer = .delivered :=
  if_pos (Nat.le_trans (of_decide_eq_true fits) (maxDatagram_le_maxPayload peer))

/-- Under a short token there is room for every error, and for short answers. -/
theorem fits_replyTo {requested : Bytes} {answer : Except ChannelError Bytes}
    (token : requested.length ≤ 255) (short : ∀ body, answer = .ok body → body.length ≤ 40000) :
    (replyTo (some requested) answer).fits = true := by
  cases answer with
  | ok body =>
    have := short body rfl
    exact Frame.fits_reply (by omega)
  | error e => exact Frame.fits_reply (by rw [List.length_nil]; omega)

theorem handleDatagram_message (p : Primitives) (s : Service) (now : Nat) (peer : Endpoint)
    (socket : Frame → Delivery) (token : Option Bytes) (query : Option String) (text : Bytes)
    (draws : Nat → Nat) (fresh : Bytes32) :
    handleDatagram p s now peer socket (Frame.message token query text).encode draws fresh =
      (leaving peer socket [replyTo token
        (s.handleMessage p now (inbound s.config.codec peer token query text)).1],
        (s.handleMessage p now (inbound s.config.codec peer token query text)).2) := by
  simp only [handleDatagram, Frame.decode_encode, dispatch, Option.toList_some]

/-- A request to close is answered with one reply, which is empty. -/
theorem handleDatagram_close (p : Primitives) (s : Service) (now : Nat) (peer : Endpoint)
    (socket : Frame → Delivery) (token : Option Bytes) (query : Option String) (text : Bytes)
    (draws : Nat → Nat) (fresh : Bytes32) :
    handleDatagram p s now peer socket (Frame.close token query text).encode draws fresh =
      (leaving peer socket [replyTo token
        ((s.handleClose p now (inbound s.config.codec peer token query text)).1.map fun _ => [])],
        (s.handleClose p now (inbound s.config.codec peer token query text)).2) := by
  simp only [handleDatagram, Frame.decode_encode, dispatch, Option.toList_some]

end DatagramServer

end SecureChannel
