import SecureChannel.PendingHandshake
import SecureChannel.Proofs.Registry.Slots

/-!
# What preparing a response does to the registry

A response is made ready before it is delivered. `Prepares` lists the ways in which that happens,
one for each kind of scheme, and everything else is read off it. `Ready` is what matters for the
registry: under a scheme that holds a name for the handshake, one free name was reserved within the
limit; under the transport scheme nothing has changed. If no response can be made ready, whatever
was reserved on the way is free again. `Prepared` joins both answers.
-/

namespace SecureChannel

open Registry

variable {p : Primitives} {h : PendingHandshake} {r s : Registry} {tag : Option Bytes}
variable {reply : Bytes} {draws : Nat → Nat} {fresh : Bytes32} {response : PreparedResponse}

namespace PreparedResponse

/-- The registry `s` in which a response waits for its delivery, for a handshake that started with
the registry `r`. -/
inductive Ready (h : PendingHandshake) (r : Registry) (tag : Option Bytes)
    (response : PreparedResponse) (s : Registry) : Prop
  | held (res : Reservation) (naming : response.naming = .held res) (granted : r.Grants res s)
  | taken (id : ChannelId) (naming : response.naming = .taken id)
      (scheme : h.config.idScheme = .transport) (named : PendingHandshake.peerId tag = .ok id)
      (same : s = r)

def Prepared (h : PendingHandshake) (r : Registry) (tag : Option Bytes) :
    Except ChannelError PreparedResponse × Registry → Prop
  | (.ok response, s) => response.Ready h r tag s
  | (.error _, s) => SameTable r s

end PreparedResponse

open PreparedResponse

namespace PendingHandshake

/-- How a response is made ready, and the registry in which it waits. -/
inductive Prepares (p : Primitives) (h : PendingHandshake) (r : Registry) (tag : Option Bytes)
    (reply : Bytes) (draws : Nat → Nat) (fresh : Bytes32) :
    PreparedResponse → Registry → Prop
  /-- A name is drawn and reserved, and the response starts with it. -/
  | assigned {res : Reservation} {s : Registry} {message : Bytes} {finished : Noise.Finished}
      (random : h.config.idScheme = .random16 ∨ h.config.idScheme = .random32)
      (allocated : r.allocate h.config.idScheme draws = (.ok res, s))
      (responded : h.respond p fresh (res.id.toBytes ++ reply) = .ok (message, finished)) :
      Prepares p h r tag reply draws fresh
        ⟨message, .held res, finished.pair, h.config.handshakeTimeout⟩ s
  /-- The name that follows from the response is reserved. -/
  | bound {res : Reservation} {s : Registry} {message : Bytes} {finished : Noise.Finished}
      (scheme : h.config.idScheme = .binding)
      (responded : h.respond p fresh reply = .ok (message, finished))
      (reserved : r.reserve (.binding finished.hash) = (.ok res, s)) :
      Prepares p h r tag reply draws fresh
        ⟨message, .held res, finished.pair, h.config.handshakeTimeout⟩ s
  /-- The transport names the peer, and nothing is reserved. -/
  | named {id : ChannelId} {message : Bytes} {finished : Noise.Finished}
      (scheme : h.config.idScheme = .transport) (named : peerId tag = .ok id)
      (responded : h.respond p fresh reply = .ok (message, finished)) :
      Prepares p h r tag reply draws fresh
        ⟨message, .taken id, finished.pair, h.config.handshakeTimeout⟩ r

theorem prepareAssigned_ok {res : Reservation}
    (answer : h.prepareAssigned p r res reply fresh = (.ok response, s)) :
    s = r ∧ ∃ message finished,
      h.respond p fresh (res.id.toBytes ++ reply) = .ok (message, finished) ∧
      response = ⟨message, .held res, finished.pair, h.config.handshakeTimeout⟩ := by
  rw [prepareAssigned] at answer
  split at answer
  · cases answer
  · next message finished responded =>
    cases answer
    exact ⟨rfl, message, finished, responded, rfl⟩

theorem prepareAssigned_error {res : Reservation} {e : ChannelError}
    (answer : h.prepareAssigned p r res reply fresh = (.error e, s)) : s = r.release res := by
  rw [prepareAssigned] at answer
  split at answer
  · cases answer
    rfl
  · cases answer

theorem prepare_ok (answer : h.prepare p r tag reply draws fresh = (.ok response, s)) :
    h.Prepares p r tag reply draws fresh response s := by
  have allocated : h.config.idScheme = .random16 ∨ h.config.idScheme = .random32 →
      h.prepareAllocated p r reply draws fresh = (.ok response, s) →
      h.Prepares p r tag reply draws fresh response s := by
    intro random answer
    rw [prepareAllocated] at answer
    split at answer
    · cases answer
    · next res t granted =>
      obtain ⟨rfl, message, finished, responded, rfl⟩ := prepareAssigned_ok answer
      exact .assigned random granted responded
  rw [prepare] at answer
  split at answer
  · next scheme => exact allocated (.inl scheme) answer
  · next scheme => exact allocated (.inr scheme) answer
  · next scheme =>
    rw [prepareBinding] at answer
    split at answer
    · cases answer
    · next message finished responded =>
      split at answer
      · cases answer
      · next res t reserved =>
        cases answer
        exact .bound scheme responded reserved
  · next scheme =>
    rw [prepareTransport] at answer
    split at answer
    · cases answer
    · next id named =>
      split at answer
      · cases answer
      · next message finished responded =>
        cases answer
        exact .named scheme named responded

/-- A reservation that turns out to be of no use leaves nothing behind. -/
theorem prepare_error {e : ChannelError}
    (answer : h.prepare p r tag reply draws fresh = (.error e, s)) : SameTable r s := by
  have allocated :
      h.prepareAllocated p r reply draws fresh = (.error e, s) → SameTable r s := by
    intro answer
    rw [prepareAllocated] at answer
    split at answer
    · next refused =>
      cases answer
      rw [allocate_error refused]
      exact .refl r
    · next granted =>
      rw [prepareAssigned_error answer]
      exact (allocate_ok granted).1.release
  rw [prepare] at answer
  split at answer
  · exact allocated answer
  · exact allocated answer
  · rw [prepareBinding] at answer
    split at answer
    · cases answer
      exact .refl r
    · split at answer
      · next refused =>
        cases answer
        rw [reserve_error refused]
        exact .refl r
      · cases answer
  · rw [prepareTransport] at answer
    split at answer
    · cases answer
      exact .refl r
    · split at answer
      · cases answer
        exact .refl r
      · cases answer

theorem Prepares.ready (prepares : h.Prepares p r tag reply draws fresh response s) :
    response.Ready h r tag s := by
  cases prepares with
  | assigned random allocated responded => exact .held _ rfl (allocate_ok allocated).1
  | bound scheme responded reserved => exact .held _ rfl (reserve_ok reserved).2
  | named scheme named responded => exact .taken _ rfl scheme named rfl

/-- Under the transport scheme a response takes the name of the peer; under every other scheme it
holds a reserved one. -/
theorem Prepares.naming (prepares : h.Prepares p r tag reply draws fresh response s) :
    (h.config.idScheme ≠ .transport ∧ ∃ res, response.naming = .held res) ∨
      (h.config.idScheme = .transport ∧ ∃ id, peerId tag = .ok id ∧
        response.naming = .taken id) := by
  cases prepares with
  | assigned random allocated responded =>
    refine .inl ⟨?_, _, rfl⟩
    rcases random with scheme | scheme <;> simp [scheme]
  | bound scheme responded reserved => exact .inl ⟨by simp [scheme], _, rfl⟩
  | named scheme named responded => exact .inr ⟨scheme, _, named, rfl⟩

theorem prepare_prepared : Prepared h r tag (h.prepare p r tag reply draws fresh) := by
  rcases answer : h.prepare p r tag reply draws fresh with ⟨e | response, s⟩
  · exact prepare_error answer
  · exact (prepare_ok answer).ready

/-- A name that the application has chosen is reserved before the response is written. Only a scheme
that assigns names lets the application choose one, so the name is never taken from a channel. -/
theorem prepareWithId_ok {id : ChannelId}
    (answer : h.prepareWithId p r id reply fresh = (.ok response, s)) :
    ∃ res, response.naming = .held res ∧ r.Grants res s := by
  rw [prepareWithId] at answer
  split at answer
  · cases answer
  · split at answer
    · cases answer
    · next res t reserved =>
      obtain ⟨rfl, _, _, -, rfl⟩ := prepareAssigned_ok answer
      exact ⟨res, rfl, (reserve_ok reserved).2⟩

theorem prepareWithId_error {id : ChannelId} {e : ChannelError}
    (answer : h.prepareWithId p r id reply fresh = (.error e, s)) : SameTable r s := by
  rw [prepareWithId] at answer
  split at answer
  · cases answer
    exact .refl r
  · split at answer
    · next refused =>
      cases answer
      rw [reserve_error refused]
      exact .refl r
    · next reserved =>
      rw [prepareAssigned_error answer]
      exact (reserve_ok reserved).2.release

theorem prepareWithId_prepared {id : ChannelId} :
    Prepared h r tag (h.prepareWithId p r id reply fresh) := by
  rcases answer : h.prepareWithId p r id reply fresh with ⟨e | response, s⟩
  · exact prepareWithId_error answer
  · obtain ⟨res, naming, granted⟩ := prepareWithId_ok answer
    exact .held res naming granted

end PendingHandshake

end SecureChannel
