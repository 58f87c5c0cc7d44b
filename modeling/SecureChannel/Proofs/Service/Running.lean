import SecureChannel.Proofs.Registry.Usage
import SecureChannel.Proofs.Service.Reception

/-!
# Handshakes that are not settled yet

A handshake is served in two parts. First the response is made ready, which may reserve a name, and
when the response was handed to the transport, the handshake is settled, which makes the channel or
gives the name back. `handleHandshake_eq` says that nothing else happens. In between the server may
be called with anything, so a `Running` server is one together with the handshakes that it has still
to settle.

`Held` is what keeps such a server from mixing up its names: under every scheme but that of the
transport each of these handshakes holds a name of its own, which no look-up finds, and which every
other call leaves reserved. So settling a handshake never takes a name away from a channel, except
under the transport scheme, where it is meant to.
-/

namespace SecureChannel

open Registry

/-- A response on its way, who has asked for it, and what the transport calls the peer. -/
structure Unsettled (α : Type) where
  asker : α
  tag : Option Bytes
  response : PreparedResponse

/-- A server, and the handshakes that it has still to settle. -/
structure Running (α : Type) where
  service : Service
  unsettled : List (Unsettled α)

namespace Running

variable {α : Type}

inductive Event (α : Type)
  /-- A handshake, as far as its response. -/
  | prepare (asker : α) (tag : Option Bytes) (request : Bytes) (draws : Nat → Nat)
      (fresh : Bytes32)
  /-- The response of one of the handshakes was handed to the transport. -/
  | settle (now index : Nat) (delivery : Delivery)
  | message (now : Nat) (m : Message)
  | close (now : Nat) (m : Message)
  | expire (now : Nat)

/-- Makes the response to a request ready, if there is one. -/
def prepare (p : Primitives) (w : Running α) (asker : α) (tag : Option Bytes) (request : Bytes)
    (draws : Nat → Nat) (fresh : Bytes32) : Except ChannelError PreparedResponse × Running α :=
  match w.service.prepareHandshake p tag request draws fresh with
  | (.error e, s) => (.error e, ⟨s, w.unsettled⟩)
  | (.ok response, s) => (.ok response, ⟨s, w.unsettled ++ [⟨asker, tag, response⟩]⟩)

/-- Settles one of the handshakes. -/
def settle (w : Running α) (now index : Nat) (delivery : Delivery) :
    Option (Unsettled α × Except ChannelError Handle) × Running α :=
  match w.unsettled[index]? with
  | none => (none, w)
  | some one =>
      let (answer, s) := w.service.settleHandshake now one.response delivery
      (some (one, answer), ⟨s, w.unsettled.eraseIdx index⟩)

def step (p : Primitives) (w : Running α) : Event α → Running α
  | .prepare asker tag request draws fresh => (w.prepare p asker tag request draws fresh).2
  | .settle now index delivery => (w.settle now index delivery).2
  | .message now m => { w with service := (w.service.handleMessage p now m).2 }
  | .close now m => { w with service := (w.service.handleClose p now m).2 }
  | .expire now => { w with service := (w.service.expireIdle now).2 }

end Running

namespace Registry

variable {r s : Registry} {id : ChannelId}

/-- Nothing has changed, but that a name may not be reserved any more. -/
structure Unreserves (r : Registry) (id : ChannelId) (s : Registry) : Prop where
  slots : ∀ other, id ≠ other → s.slots[other]? = r.slots[other]?
  live : ∀ other, s.live? other = r.live? other
  channels : s.channels = r.channels
  limits : s.limits = r.limits

theorem Unreserves.refl (r : Registry) (id : ChannelId) : Unreserves r id r :=
  ⟨fun _ _ => rfl, fun _ => rfl, rfl, rfl⟩

theorem Unreserves.evolves (unreserves : Unreserves r id s) : Evolves r s :=
  .of_channels_eq unreserves.channels fun id h live => by rwa [← unreserves.live id]

theorem unreserves_release (r : Registry) (res : Reservation) :
    Unreserves r res.id (r.release res) := by
  rw [release]
  split
  · next reserved =>
    refine ⟨?_, ?_, rfl, rfl⟩
    · intro other ne
      rw [getElem?_freeSlot, if_neg ne]
    · intro other
      rw [live?_freeSlot]
      split
      · next same =>
        subst same
        rw [live?_eq_none_of_reserved reserved]
      · rfl
  · exact .refl r res.id

theorem Grants.slots {res : Reservation} (granted : r.Grants res s) (other : ChannelId) :
    s.slots[other]? = if res.id = other then some .reserved else r.slots[other]? := by
  rw [granted.eq, getElem?_setSlot]

/-- A reserved name finds nothing, as it did when it was free. -/
theorem Grants.live? {res : Reservation} (granted : r.Grants res s) (other : ChannelId) :
    s.live? other = r.live? other := by
  by_cases same : res.id = other
  · subst same
    rw [live?_eq_none_of_free granted.free,
      live?_eq_none_of_reserved (by rw [granted.slots, if_pos rfl])]
  · simp only [Registry.live?, granted.slots, if_neg same]

/-- What is reserved stays reserved. -/
def KeepsReserved (r s : Registry) : Prop :=
  ∀ id : ChannelId, r.slots[id]? = some .reserved → s.slots[id]? = some .reserved

/-- What is about a live name leaves all reserved ones. -/
theorem Confined.keepsReserved {h : Handle} (confined : Confined id r s)
    (live : r.live? id = some h) : KeepsReserved r s := by
  intro other reserved
  rw [confined.slots other, reserved]
  rintro rfl
  rw [live?_eq_none_of_reserved reserved] at live
  cases live

theorem SameReserved.keepsReserved (same : SameReserved r s) : KeepsReserved r s :=
  fun id reserved => (same id).mpr reserved

end Registry

namespace Service

variable {p : Primitives} {s : Service} {now : Nat} {m : Message} {tag : Option Bytes}
variable {draws : Nat → Nat} {fresh : Bytes32} {request : Bytes} {response : PreparedResponse}
variable {delivery : Delivery} {r : Registry}

/-! ### The two parts of a handshake -/

/-- A handshake is served part by part, and nothing happens in between. -/
theorem handleHandshake_eq (p : Primitives) (s : Service) (now : Nat) (tag : Option Bytes)
    (request : Bytes) (draws : Nat → Nat) (fresh : Bytes32) (transport : Bytes → Delivery) :
    s.handleHandshake p now tag request draws fresh transport =
      match s.prepareHandshake p tag request draws fresh with
      | (.error e, t) => (⟨none, .error e⟩, t)
      | (.ok response, t) =>
          let settled := t.settleHandshake now response (transport response.message)
          (⟨some response.message, settled.1⟩, settled.2) := by
  rw [handleHandshake, prepareHandshake]
  cases PendingHandshake.accept p s.config s.key request with
  | error e => rfl
  | ok pending =>
    simp only [PendingHandshake.complete]
    rcases pending.prepare p s.registry tag (s.earlyReply pending.payload) draws fresh with
      ⟨e | response, r⟩ <;> rfl

/-- A response was made ready, with fresh directions. Under the transport scheme it is for the name
of the peer, and otherwise a free name was reserved for it. -/
structure Prepares (s : Service) (tag : Option Bytes) (response : PreparedResponse)
    (r : Registry) : Prop where
  fresh : ∃ send receive, response.pair = .new send receive s.config.nonceMode
  naming :
    (s.config.idScheme ≠ .transport ∧ ∃ res, response.naming = .held res ∧
      s.registry.Grants res r) ∨
    (s.config.idScheme = .transport ∧ ∃ id, PendingHandshake.peerId tag = .ok id ∧
      response.naming = .taken id ∧ r = s.registry)

theorem Prepares.live? (prepares : s.Prepares tag response r) (id : ChannelId) :
    r.live? id = s.registry.live? id := by
  rcases prepares.naming with ⟨-, res, -, granted⟩ | ⟨-, -, -, -, rfl⟩
  · exact granted.live? id
  · rfl

theorem Prepares.channels (prepares : s.Prepares tag response r) :
    r.channels = s.registry.channels := by
  rcases prepares.naming with ⟨-, res, -, granted⟩ | ⟨-, -, -, -, rfl⟩
  · rw [granted.eq, channels_setSlot]
  · rfl

theorem Prepares.limits (prepares : s.Prepares tag response r) :
    r.limits = s.registry.limits := by
  rcases prepares.naming with ⟨-, res, -, granted⟩ | ⟨-, -, -, -, rfl⟩
  · rw [granted.eq]
    rfl
  · rfl

theorem Prepares.evolves (prepares : s.Prepares tag response r) : Evolves s.registry r :=
  .of_channels_eq prepares.channels fun id h live => by rwa [← prepares.live? id]

theorem Prepares.keepsReserved (prepares : s.Prepares tag response r) :
    KeepsReserved s.registry r := by
  intro id reserved
  rcases prepares.naming with ⟨-, res, -, granted⟩ | ⟨-, -, -, -, rfl⟩
  · rw [granted.slots]
    split
    · rfl
    · exact reserved
  · exact reserved

/-- No response is made ready, and nothing has changed, or one is. -/
theorem prepareHandshake_cases (p : Primitives) (s : Service) (tag : Option Bytes)
    (request : Bytes) (draws : Nat → Nat) (fresh : Bytes32) :
    (∃ e r, s.prepareHandshake p tag request draws fresh = (.error e, { s with registry := r }) ∧
      SameTable s.registry r) ∨
    (∃ response r, s.prepareHandshake p tag request draws fresh =
        (.ok response, { s with registry := r }) ∧ s.Prepares tag response r) := by
  cases accepted : PendingHandshake.accept p s.config s.key request with
  | error e => exact .inl ⟨e, s.registry, by simp only [prepareHandshake, accepted], .refl _⟩
  | ok pending =>
    obtain ⟨config, mode⟩ := PendingHandshake.accept_ok accepted
    rcases prepared : pending.prepare p s.registry tag (s.earlyReply pending.payload) draws fresh
      with ⟨e | response, r⟩
    · refine .inl ⟨e, r, ?_, PendingHandshake.prepare_error prepared⟩
      simp only [prepareHandshake, accepted, prepared]
    · have prepares := PendingHandshake.prepare_ok prepared
      obtain ⟨send, receive, pair⟩ := prepares.pair
      refine .inr ⟨response, r, by simp only [prepareHandshake, accepted, prepared],
        ⟨send, receive, by rw [pair, mode]⟩, ?_⟩
      rw [← config]
      rcases prepares.naming with ⟨scheme, res, naming⟩ | ⟨scheme, id, named, naming⟩
      · cases prepares.ready with
        | held res naming granted => exact .inl ⟨scheme, res, naming, granted⟩
        | taken _ _ contrary _ _ => exact absurd contrary scheme
      · cases prepares.ready with
        | held _ contrary _ =>
          rw [naming] at contrary
          cases contrary
        | taken other naming _ named same => exact .inr ⟨scheme, other, named, naming, same⟩

/-- A handshake that is settled makes a channel under its name, or there is none, and the name is
not reserved any more. -/
theorem settleHandshake_cases (s : Service) (now : Nat) (response : PreparedResponse)
    (delivery : Delivery) :
    (∃ e r, s.settleHandshake now response delivery = (.error e, { s with registry := r }) ∧
      Unreserves s.registry response.naming.id r) ∨
    (∃ r, delivery = .delivered ∧ s.settleHandshake now response delivery =
        (.ok ⟨s.registry.channels.size⟩, { s with registry := r }) ∧
      s.registry.Opens response.naming.id response.pair now r) := by
  have abandoned : Unreserves s.registry response.naming.id (response.abandon s.registry) := by
    rw [PreparedResponse.abandon]
    cases response.naming with
    | held res => exact unreserves_release s.registry res
    | taken id => exact .refl _ id
  cases delivery with
  | failed e => exact .inl ⟨_, _, rfl, abandoned⟩
  | stalled => exact .inl ⟨_, _, rfl, abandoned⟩
  | delivered =>
    simp only [settleHandshake, PreparedResponse.settle, PreparedResponse.establish]
    cases response.naming with
    | held res => exact .inr ⟨_, trivial, rfl, opens_setLive ..⟩
    | taken id =>
      simp only [rekey]
      split
      · exact .inl ⟨_, _, rfl, .refl _ id⟩
      · exact .inr ⟨_, trivial, rfl, opens_setLive ..⟩

theorem opens_of_settle {h : Handle}
    (made : (s.settleHandshake now response delivery).1 = .ok h) :
    h = ⟨s.registry.channels.size⟩ ∧ s.registry.Opens response.naming.id response.pair now
      (s.settleHandshake now response delivery).2.registry := by
  rcases settleHandshake_cases s now response delivery with
    ⟨e, r, settled, -⟩ | ⟨r, -, settled, opens⟩
  · rw [settled] at made
    cases made
  · rw [settled] at made ⊢
    exact ⟨(Except.ok.inj made).symm, opens⟩

/-- A response that does not leave is given up, and nothing has changed. -/
theorem Prepares.abandoned (prepares : s.Prepares tag response r) (now : Nat)
    (failed : delivery ≠ .delivered) : ∃ e t, Service.settleHandshake { s with registry := r } now
      response delivery = (.error e, { s with registry := t }) ∧ SameTable s.registry t := by
  have same : SameTable s.registry (response.abandon r) := by
    rw [PreparedResponse.abandon]
    rcases prepares.naming with ⟨-, res, naming, granted⟩ | ⟨-, id, -, naming, rfl⟩
    · rw [naming]
      exact granted.release
    · rw [naming]
      exact .refl _
  cases delivery with
  | delivered => exact absurd rfl failed
  | failed e => exact ⟨_, _, rfl, same⟩
  | stalled => exact ⟨_, _, rfl, same⟩

/-! ### Requests in between -/

theorem keepsReserved_handleMessage (named : Named s.registry) (p : Primitives) (now : Nat)
    (m : Message) : KeepsReserved s.registry (s.handleMessage p now m).2.registry := by
  by_cases reached : ∃ h c ciphertext, Reaches s m h c ciphertext
  · obtain ⟨h, c, ciphertext, reaches⟩ := reached
    rcases handleMessage_cases p named now m with ⟨e, -, same⟩ | ⟨id, _, decoded, confined⟩
    · rw [same]
      exact fun _ reserved => reserved
    · obtain ⟨rfl, -⟩ := Prod.mk.inj (Except.ok.inj (decoded.symm.trans reaches.decoded))
      exact confined.keepsReserved reaches.live
  · rw [handleMessage_of_unreached named fun h c ciphertext reaches =>
      reached ⟨h, c, ciphertext, reaches⟩]
    exact fun _ reserved => reserved

theorem keepsReserved_handleClose (named : Named s.registry) (p : Primitives) (now : Nat)
    (m : Message) : KeepsReserved s.registry (s.handleClose p now m).2.registry := by
  by_cases reached : ∃ h c ciphertext, Reaches s m h c ciphertext
  · obtain ⟨h, c, ciphertext, reaches⟩ := reached
    rcases handleClose_cases p named now m with ⟨e, -, same⟩ | ⟨id, _, decoded, confined⟩
    · rw [same]
      exact fun _ reserved => reserved
    · obtain ⟨rfl, -⟩ := Prod.mk.inj (Except.ok.inj (decoded.symm.trans reaches.decoded))
      exact confined.keepsReserved reaches.live
  · rw [handleClose_of_unreached named fun h c ciphertext reaches =>
      reached ⟨h, c, ciphertext, reaches⟩]
    exact fun _ reserved => reserved

end Service

/-! ### Names that are held -/

/-- Under the transport scheme every response is for the name of its peer. Under every other scheme
it holds a name that is reserved, and that no other response holds. -/
structure Held {α : Type} (scheme : IdScheme) (r : Registry) (unsettled : List (Unsettled α)) :
    Prop where
  taken : scheme = .transport → ∀ one ∈ unsettled, ∃ id, one.response.naming = .taken id ∧
    PendingHandshake.peerId one.tag = .ok id
  reserved : scheme ≠ .transport → ∀ one ∈ unsettled, ∃ res, one.response.naming = .held res ∧
    r.slots[res.id]? = some .reserved
  distinct : scheme ≠ .transport →
    unsettled.Pairwise fun one other => one.response.naming.id ≠ other.response.naming.id

namespace Held

variable {α : Type} {scheme : IdScheme} {r s : Registry} {unsettled : List (Unsettled α)}
variable {index : Nat} {one : Unsettled α}

theorem nil (scheme : IdScheme) (r : Registry) : Held scheme r ([] : List (Unsettled α)) :=
  ⟨by simp, by simp, fun _ => .nil⟩

theorem keep (held : Held scheme r unsettled) (keeps : KeepsReserved r s) :
    Held scheme s unsettled := by
  refine ⟨held.taken, ?_, held.distinct⟩
  intro other one mem
  obtain ⟨res, naming, reserved⟩ := held.reserved other one mem
  exact ⟨res, naming, keeps res.id reserved⟩

/-- A name that was free is not one that is held. -/
theorem ne_of_free (held : Held scheme r unsettled) (other : scheme ≠ .transport) {id : ChannelId}
    (free : r.slots[id]? = none) : ∀ one ∈ unsettled, one.response.naming.id ≠ id := by
  intro one mem
  obtain ⟨res, naming, reserved⟩ := held.reserved other one mem
  rw [naming]
  rintro rfl
  rw [Naming.id] at free
  rw [free] at reserved
  cases reserved

theorem prepare {service : Service} (asker : α) {tag : Option Bytes} {response : PreparedResponse}
    (held : Held service.config.idScheme service.registry unsettled)
    (prepares : service.Prepares tag response r) :
    Held service.config.idScheme r (unsettled ++ [⟨asker, tag, response⟩]) := by
  have kept := held.keep prepares.keepsReserved
  rcases prepares.naming with ⟨other, res, naming, granted⟩ | ⟨scheme, id, named, naming, rfl⟩
  · refine ⟨fun scheme => absurd scheme other, ?_, ?_⟩
    · intro _ one mem
      rcases List.mem_append.mp mem with old | new
      · exact kept.reserved other one old
      · rw [List.mem_singleton.mp new]
        exact ⟨res, naming, by rw [granted.slots, if_pos rfl]⟩
    · intro _
      refine List.pairwise_append.mpr ⟨held.distinct other, List.pairwise_singleton .., ?_⟩
      intro one mem new mem'
      rw [List.mem_singleton.mp mem', naming]
      exact held.ne_of_free other granted.free one mem
  · refine ⟨?_, fun other => absurd scheme other, fun other => absurd scheme other⟩
    intro _ one mem
    rcases List.mem_append.mp mem with old | new
    · exact held.taken scheme one old
    · rw [List.mem_singleton.mp new]
      exact ⟨id, naming, named⟩

/-- The others hold other names. -/
theorem ne_of_mem_eraseIdx (held : Held scheme r unsettled) (other : scheme ≠ .transport)
    (inside : unsettled[index]? = some one) :
    ∀ two ∈ unsettled.eraseIdx index, two.response.naming.id ≠ one.response.naming.id := by
  intro two mem
  obtain ⟨j, ne, located⟩ := List.mem_eraseIdx_iff_getElem?.mp mem
  have distinct := List.pairwise_iff_getElem.mp (held.distinct other)
  obtain ⟨hi, rfl⟩ := List.getElem?_eq_some_iff.mp inside
  obtain ⟨hj, rfl⟩ := List.getElem?_eq_some_iff.mp located
  rcases Nat.lt_or_gt_of_ne ne with before | behind
  · exact distinct j index hj hi before
  · exact (distinct index j hi hj behind).symm

/-- What settling one of the handshakes does is about its own name. -/
theorem settle (held : Held scheme r unsettled) (inside : unsettled[index]? = some one)
    (slots : ∀ other, one.response.naming.id ≠ other → s.slots[other]? = r.slots[other]?) :
    Held scheme s (unsettled.eraseIdx index) := by
  refine ⟨?_, ?_, fun other => (held.distinct other).sublist (List.eraseIdx_sublist ..)⟩
  · intro transport two mem
    exact held.taken transport two (List.mem_of_mem_eraseIdx mem)
  · intro other two mem
    obtain ⟨res, naming, reserved⟩ := held.reserved other two (List.mem_of_mem_eraseIdx mem)
    have ne := held.ne_of_mem_eraseIdx other inside two mem
    rw [naming, Naming.id] at ne
    exact ⟨res, naming, by rw [slots _ ne.symm, reserved]⟩

/-- A name that is held by a response is not the name of a channel. -/
theorem live?_eq_none (held : Held scheme r unsettled) (other : scheme ≠ .transport)
    (mem : one ∈ unsettled) : r.live? one.response.naming.id = none := by
  obtain ⟨res, naming, reserved⟩ := held.reserved other one mem
  rw [naming]
  exact live?_eq_none_of_reserved reserved

end Held

/-! ### Every call -/

namespace Running

variable {α : Type} {p : Primitives} {w : Running α}

structure Sound (w : Running α) : Prop where
  named : Named w.service.registry
  fresh : ∀ one ∈ w.unsettled, ∃ send receive,
    one.response.pair = .new send receive w.service.config.nonceMode
  held : Held w.service.config.idScheme w.service.registry w.unsettled

theorem sound_start {s : Service} (named : Named s.registry) : Sound (⟨s, []⟩ : Running α) :=
  ⟨named, by simp, .nil _ _⟩

/-- A request is answered with an error, and nothing has changed, or a response is made ready. -/
theorem prepare_cases (p : Primitives) (w : Running α) (asker : α) (tag : Option Bytes)
    (request : Bytes) (draws : Nat → Nat) (fresh : Bytes32) :
    (∃ e r, w.prepare p asker tag request draws fresh =
        (.error e, { w with service := { w.service with registry := r } }) ∧
      SameTable w.service.registry r) ∨
    (∃ response r, w.prepare p asker tag request draws fresh =
        (.ok response,
          ⟨{ w.service with registry := r }, w.unsettled ++ [⟨asker, tag, response⟩]⟩) ∧
      w.service.Prepares tag response r) := by
  rcases Service.prepareHandshake_cases p w.service tag request draws fresh with
    ⟨e, r, prepared, same⟩ | ⟨response, r, prepared, prepares⟩
  · exact .inl ⟨e, r, by rw [prepare, prepared], same⟩
  · exact .inr ⟨response, r, by rw [prepare, prepared], prepares⟩

/-- There is no such handshake, or it fails, or there is a channel now. -/
theorem settle_cases (w : Running α) (now index : Nat) (delivery : Delivery) :
    (w.unsettled[index]? = none ∧ w.settle now index delivery = (none, w)) ∨
    (∃ one e r, w.unsettled[index]? = some one ∧
      w.settle now index delivery = (some (one, .error e),
        ⟨{ w.service with registry := r }, w.unsettled.eraseIdx index⟩) ∧
      Unreserves w.service.registry one.response.naming.id r) ∨
    (∃ one r, w.unsettled[index]? = some one ∧ delivery = .delivered ∧
      w.settle now index delivery = (some (one, .ok ⟨w.service.registry.channels.size⟩),
        ⟨{ w.service with registry := r }, w.unsettled.eraseIdx index⟩) ∧
      w.service.registry.Opens one.response.naming.id one.response.pair now r) := by
  cases inside : w.unsettled[index]? with
  | none => exact .inl ⟨rfl, by rw [settle, inside]⟩
  | some one =>
    rcases Service.settleHandshake_cases w.service now one.response delivery with
      ⟨e, r, settled, unreserves⟩ | ⟨r, delivered, settled, opens⟩
    · exact .inr (.inl ⟨one, e, r, rfl, by simp only [settle, inside, settled], unreserves⟩)
    · exact .inr (.inr
        ⟨one, r, rfl, delivered, by simp only [settle, inside, settled], opens⟩)

theorem step_service (p : Primitives) (w : Running α) (event : Event α) :
    ∃ r, (w.step p event).service = { w.service with registry := r } := by
  cases event with
  | prepare asker tag request draws fresh =>
    rcases w.prepare_cases p asker tag request draws fresh with
      ⟨e, r, prepared, -⟩ | ⟨response, r, prepared, -⟩
    · exact ⟨r, by rw [step, prepared]⟩
    · exact ⟨r, by rw [step, prepared]⟩
  | settle now index delivery =>
    rcases w.settle_cases now index delivery with
      ⟨-, settled⟩ | ⟨one, e, r, -, settled, -⟩ | ⟨one, r, -, -, settled, -⟩
    · exact ⟨w.service.registry, by rw [step, settled]⟩
    · exact ⟨r, by rw [step, settled]⟩
    · exact ⟨r, by rw [step, settled]⟩
  | message now m => exact Service.handleMessage_service p w.service now m
  | close now m => exact Service.handleClose_service p w.service now m
  | expire now => exact ⟨_, rfl⟩

theorem evolves_step (p : Primitives) (named : Named w.service.registry) (event : Event α) :
    Evolves w.service.registry (w.step p event).service.registry := by
  cases event with
  | prepare asker tag request draws fresh =>
    rcases w.prepare_cases p asker tag request draws fresh with
      ⟨e, r, prepared, same⟩ | ⟨response, r, prepared, prepares⟩
    · rw [step, prepared]
      exact .of_sameTable same
    · rw [step, prepared]
      exact prepares.evolves
  | settle now index delivery =>
    rcases w.settle_cases now index delivery with
      ⟨-, settled⟩ | ⟨one, e, r, -, settled, unreserves⟩ | ⟨one, r, -, -, settled, opens⟩
    · rw [step, settled]
      exact .refl _
    · rw [step, settled]
      exact unreserves.evolves
    · rw [step, settled]
      exact opens.confined.toEvolves
  | message now m => exact Service.evolves_handleMessage p named now m
  | close now m => exact Service.evolves_handleClose p named now m
  | expire now => exact evolves_expireIdle w.service.registry now

/-- A request that is served leaves everything that is on its way. -/
theorem Sound.called (sound : Sound w) {s : Service}
    (service : ∃ r, s = { w.service with registry := r })
    (evolves : Evolves w.service.registry s.registry)
    (keeps : KeepsReserved w.service.registry s.registry) : Sound { w with service := s } := by
  obtain ⟨r, rfl⟩ := service
  exact ⟨evolves.named sound.named, sound.fresh, sound.held.keep keeps⟩

theorem Sound.prepare (sound : Sound w) (p : Primitives) (asker : α) (tag : Option Bytes)
    (request : Bytes) (draws : Nat → Nat) (fresh : Bytes32) :
    Sound (w.prepare p asker tag request draws fresh).2 := by
  rcases w.prepare_cases p asker tag request draws fresh with
    ⟨e, r, prepared, same⟩ | ⟨response, r, prepared, prepares⟩
  · rw [prepared]
    exact sound.called ⟨r, rfl⟩ (.of_sameTable same) fun id reserved => by
      rw [same.slots, reserved]
  · rw [prepared]
    refine ⟨prepares.evolves.named sound.named, ?_, sound.held.prepare asker prepares⟩
    intro one mem
    rcases List.mem_append.mp mem with old | new
    · exact sound.fresh one old
    · rw [List.mem_singleton.mp new]
      exact prepares.fresh

theorem Sound.settle (sound : Sound w) (now index : Nat) (delivery : Delivery) :
    Sound (w.settle now index delivery).2 := by
  rcases w.settle_cases now index delivery with
    ⟨-, settled⟩ | ⟨one, e, r, inside, settled, unreserves⟩ | ⟨one, r, inside, -, settled, opens⟩
  · rw [settled]
    exact sound
  · rw [settled]
    exact ⟨unreserves.evolves.named sound.named,
      fun two mem => sound.fresh two (List.mem_of_mem_eraseIdx mem),
      sound.held.settle inside unreserves.slots⟩
  · rw [settled]
    exact ⟨opens.confined.named sound.named,
      fun two mem => sound.fresh two (List.mem_of_mem_eraseIdx mem),
      sound.held.settle inside opens.confined.slots⟩

theorem Sound.step (sound : Sound w) (p : Primitives) (event : Event α) :
    Sound (w.step p event) := by
  cases event with
  | prepare asker tag request draws fresh => exact sound.prepare p asker tag request draws fresh
  | settle now index delivery => exact sound.settle now index delivery
  | message now m =>
    exact sound.called (Service.handleMessage_service p w.service now m)
      (Service.evolves_handleMessage p sound.named now m)
      (Service.keepsReserved_handleMessage sound.named p now m)
  | close now m =>
    exact sound.called (Service.handleClose_service p w.service now m)
      (Service.evolves_handleClose p sound.named now m)
      (Service.keepsReserved_handleClose sound.named p now m)
  | expire now =>
    exact sound.called ⟨_, rfl⟩ (evolves_expireIdle w.service.registry now)
      (sameReserved_expireIdle now).keepsReserved

/-- No channel numbers messages in another way than the configuration says. -/
theorem Sound.inMode (sound : Sound w) (p : Primitives) (event : Event α)
    (inMode : InMode w.service.config.nonceMode w.service.registry) :
    InMode w.service.config.nonceMode (w.step p event).service.registry := by
  have evolves := evolves_step p sound.named event
  cases event with
  | prepare asker tag request draws fresh =>
    refine inMode.evolve evolves ?_
    rcases w.prepare_cases p asker tag request draws fresh with
      ⟨e, r, prepared, same⟩ | ⟨response, r, prepared, prepares⟩
    · rw [Running.step, prepared]
      exact congrArg Array.size same.channels
    · rw [Running.step, prepared]
      exact congrArg Array.size prepares.channels
  | settle now index delivery =>
    rcases w.settle_cases now index delivery with
      ⟨-, settled⟩ | ⟨one, e, r, -, settled, unreserves⟩ | ⟨one, r, inside, -, settled, opens⟩
    · rw [Running.step, settled]
      exact inMode
    · rw [Running.step, settled] at evolves ⊢
      exact inMode.evolve evolves (congrArg Array.size unreserves.channels)
    · rw [Running.step, settled]
      obtain ⟨send, receive, pair⟩ := sound.fresh one (List.mem_of_getElem? inside)
      exact opens.inMode inMode (pair ▸ CipherPair.inMode_new send receive _)
  | message now m => exact inMode.evolve evolves (Service.size_handleMessage ..)
  | close now m => exact inMode.evolve evolves (Service.size_handleClose ..)
  | expire now => exact inMode.evolve evolves (size_expireIdle w.service.registry now)

/-- Where a handshake is settled at once, all is as if nothing could happen in between. -/
theorem settle_prepare (p : Primitives) (w : Running α) (asker : α) (now : Nat)
    (tag : Option Bytes) (request : Bytes) (draws : Nat → Nat) (fresh : Bytes32)
    (transport : Bytes → Delivery) {response : PreparedResponse} {v : Running α}
    (prepared : w.prepare p asker tag request draws fresh = (.ok response, v)) :
    (v.settle now w.unsettled.length (transport response.message)).2 =
      { w with service :=
        (w.service.handleHandshake p now tag request draws fresh transport).2 } := by
  rw [prepare] at prepared
  rw [Service.handleHandshake_eq]
  split at prepared
  · cases prepared
  · next s made =>
    cases prepared
    simp [settle, List.eraseIdx_append_of_length_le]

end Running

end SecureChannel
