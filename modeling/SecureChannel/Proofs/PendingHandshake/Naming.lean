import SecureChannel.Proofs.Codec.Names
import SecureChannel.Proofs.PendingHandshake.Agreement
import SecureChannel.Proofs.PendingHandshake.Preparation

/-!
# Both ends learn the same name

The server names a channel while it prepares the response; the client learns the name from the front
of the reply, from the transcript digest or from the tag of the transport. `Says` joins the two: the
response that was prepared is one from which every client of the same configuration learns the name
that the server has in mind, and is left with the application's reply.

A response is prepared whenever the registry has room for the name and the message has room for the
reply. What is behind these two conditions differs from scheme to scheme.
-/

namespace SecureChannel

open Registry PreparedResponse Noise

variable {p : Primitives} {h : PendingHandshake} {r s : Registry} {tag : Option Bytes}
variable {reply message : Bytes} {draws : Nat → Nat} {fresh : Bytes32} {id : ChannelId}
variable {response : PreparedResponse} {finished : Finished}

/-- A reply that a response has room for, with an assigned name in front of it. -/
def FitsResponse (scheme : IdScheme) (reply : Bytes) : Prop :=
  Party.keyLength + (scheme.assignedLength.getD 0 + reply.length) + Party.tagLength ≤
    Party.maxMessage

theorem assignedLength_le (scheme : IdScheme) : scheme.assignedLength.getD 0 ≤ 4 := by
  cases scheme <;> decide

theorem length_toBytes_of_assigned (scheme : id.scheme = .random16 ∨ id.scheme = .random32) :
    id.scheme.assignedLength = some id.toBytes.length := by
  cases id with
  | short n => simp [ChannelId.scheme, IdScheme.assignedLength, ChannelId.toBytes]
  | long n => simp [ChannelId.scheme, IdScheme.assignedLength, ChannelId.toBytes]
  | binding digest => simp [ChannelId.scheme] at scheme
  | transport tag => simp [ChannelId.scheme] at scheme

theorem fitsMessage_append_iff (scheme : id.scheme = .random16 ∨ id.scheme = .random32) :
    FitsMessage (id.toBytes ++ reply) ↔ FitsResponse id.scheme reply := by
  rw [FitsMessage, FitsResponse, length_toBytes_of_assigned scheme, List.length_append]
  rfl

/-- What a client makes of a prepared response. -/
structure PreparedResponse.Says (p : Primitives) (h : PendingHandshake) (tag : Option Bytes)
    (reply : Bytes) (fresh : Bytes32) (response : PreparedResponse) : Prop where
  admissible : response.naming.id.Admissible
  scheme : response.naming.id.scheme = h.config.idScheme
  /-- The message carries some payload, from which a client gets the name and the reply. -/
  read : ∃ payload finished, h.respond p fresh payload = .ok (response.message, finished) ∧
    response.pair = finished.pair ∧
    ∀ client : ClientHandshake, client.config = h.config → ∀ pair remote,
      client.name ⟨pair, finished.hash, remote⟩ payload tag = .ok (response.naming.id, reply)

/-- The payload of a response is as long as the reply and the name in front of it. -/
theorem ClientHandshake.length_of_name {client : ClientHandshake} {payload : Bytes}
    (name : client.name finished payload tag = .ok (id, reply)) :
    payload.length = client.config.idScheme.assignedLength.getD 0 + reply.length := by
  simp only [ClientHandshake.name] at name
  cases scheme : client.config.idScheme with
  | random16 | random32 =>
    simp only [scheme] at name
    split at name
    · next answer split =>
      obtain rfl := Except.ok.inj name
      exact ChannelId.length_of_splitAssigned split
    · cases name
  | binding =>
    simp only [scheme] at name
    obtain ⟨-, rfl⟩ := Prod.mk.inj (Except.ok.inj name)
    exact (Nat.zero_add _).symm
  | transport =>
    simp only [scheme] at name
    split at name
    · cases name
    · split at name
      · obtain ⟨-, rfl⟩ := Prod.mk.inj (Except.ok.inj name)
        exact (Nat.zero_add _).symm
      · cases name

namespace PendingHandshake

/-- The name of a peer is its tag, if that is neither empty nor too long. -/
theorem peerId_ok_iff : peerId tag = .ok id ↔ ∃ octets, tag = some octets ∧
    ChannelId.decode .transport octets = .ok id := by
  simp only [peerId]
  cases tag with
  | none => simp
  | some octets => cases read : ChannelId.decode .transport octets <;> simp [read]

/-- From every response that is made ready, a client learns its name and the reply. -/
theorem Prepares.informs (prepares : h.Prepares p r tag reply draws fresh response s) :
    response.Says p h tag reply fresh := by
  cases prepares with
  | @assigned res t message finished random allocated responded =>
    obtain ⟨-, i, -, drawn⟩ := allocate_ok allocated
    obtain ⟨scheme, admissible⟩ := ChannelId.admissible_ofDraw drawn
    refine ⟨admissible, scheme, _, finished, responded, rfl, ?_⟩
    intro client same pair remote
    have split := ChannelId.splitAssigned_toBytes admissible
      (length_toBytes_of_assigned (scheme ▸ random)) reply
    rw [scheme, ← same] at split
    rw [← same] at random
    rcases random with random | random <;> simp only [ClientHandshake.name, random] at split ⊢ <;>
      simp [split, Naming.id]
  | @bound res t message finished scheme responded reserved =>
    obtain ⟨rfl, -⟩ := reserve_ok reserved
    refine ⟨ChannelId.admissible_binding _, scheme.symm, reply, finished, responded, rfl, ?_⟩
    intro client same pair remote
    simp [ClientHandshake.name, same, scheme, Naming.id]
  | @named id message finished scheme named responded =>
    obtain ⟨octets, rfl, read⟩ := peerId_ok_iff.mp named
    obtain ⟨of, admissible⟩ := ChannelId.admissible_of_decode read
    refine ⟨admissible, of.trans scheme.symm, reply, finished, responded, rfl, ?_⟩
    intro client same pair remote
    simp [ClientHandshake.name, same, scheme, read, Naming.id]

/-- The registry has a name for the handshake: a draw hits a free one, or the transcript digest is
free, or the transport names the peer at all. -/
def NameFree (p : Primitives) (h : PendingHandshake) (r : Registry) (tag : Option Bytes)
    (reply : Bytes) (draws : Nat → Nat) (fresh : Bytes32) : Prop :=
  match h.config.idScheme with
  | .random16 | .random32 => ∃ i < maxDraws, ∃ id,
      ChannelId.ofDraw h.config.idScheme (draws i) = .ok id ∧ r.slots[id]? = none
  | .binding => ∀ message finished, h.respond p fresh reply = .ok (message, finished) →
      r.slots[ChannelId.binding finished.hash]? = none
  | .transport => ∃ id, peerId tag = .ok id

theorem ofDraw_isOk {scheme : IdScheme} (random : scheme = .random16 ∨ scheme = .random32)
    (n : Nat) : ∃ id, ChannelId.ofDraw scheme n = .ok id := by
  rcases random with rfl | rfl <;> exact ⟨_, rfl⟩

theorem Prepares.nameFree (prepares : h.Prepares p r tag reply draws fresh response s) :
    h.NameFree p r tag reply draws fresh := by
  rw [NameFree]
  cases prepares with
  | assigned random allocated responded =>
    obtain ⟨granted, i, few, hit⟩ := allocate_ok allocated
    rcases random with scheme | scheme <;> rw [scheme] at hit ⊢ <;>
      exact ⟨i, few, _, hit, granted.free⟩
  | bound scheme responded reserved =>
    rw [scheme]
    intro message finished responded'
    obtain ⟨rfl, rfl⟩ := Prod.mk.inj (Except.ok.inj (responded.symm.trans responded'))
    obtain ⟨rfl, granted⟩ := reserve_ok reserved
    exact granted.free
  | named scheme named responded =>
    rw [scheme]
    exact ⟨_, named⟩

/-- There is a response if the registry has room and a name, and the message has room. -/
theorem prepare_isOk
    (responds : ∀ payload, FitsMessage payload →
      ∃ message finished, h.respond p fresh payload = .ok (message, finished))
    (fits : FitsResponse h.config.idScheme reply) (room : r.isFull = false)
    (free : h.NameFree p r tag reply draws fresh) :
    ∃ response s, h.prepare p r tag reply draws fresh = (.ok response, s) := by
  have assigned : h.config.idScheme = .random16 ∨ h.config.idScheme = .random32 →
      (∃ i < maxDraws, ∃ id,
        ChannelId.ofDraw h.config.idScheme (draws i) = .ok id ∧ r.slots[id]? = none) →
      ∃ response s, h.prepareAllocated p r reply draws fresh = (.ok response, s) := by
    rintro random ⟨i, few, id, hit, free⟩
    obtain ⟨drawn, found⟩ := drawFree_isOk (ofDraw_isOk random) few
      (by rwa [Nat.zero_add]) free
    obtain ⟨-, j, -, draw⟩ := drawFree_ok found
    obtain ⟨scheme, -⟩ := ChannelId.admissible_ofDraw draw
    rw [← scheme] at fits random
    obtain ⟨message, finished, responded⟩ :=
      responds (drawn.toBytes ++ reply) ((fitsMessage_append_iff random).mpr fits)
    simp [prepareAllocated, allocate, room, found, prepareAssigned, responded]
  have unassigned : h.config.idScheme.assignedLength = none → FitsMessage reply := by
    intro none
    simpa [FitsMessage, FitsResponse, none] using fits
  rw [NameFree] at free
  rw [prepare]
  cases scheme : h.config.idScheme with
  | random16 =>
    simp only [scheme] at assigned free ⊢
    exact assigned (.inl trivial) free
  | random32 =>
    simp only [scheme] at assigned free ⊢
    exact assigned (.inr trivial) free
  | binding =>
    simp only [scheme] at free ⊢
    obtain ⟨message, finished, responded⟩ := responds reply (unassigned (by rw [scheme]; rfl))
    simp [prepareBinding, responded, reserve_eq_ok (free message finished responded) room]
  | transport =>
    simp only [scheme] at free ⊢
    obtain ⟨id, named⟩ := free
    obtain ⟨message, finished, responded⟩ := responds reply (unassigned (by rw [scheme]; rfl))
    simp [prepareTransport, named, responded]

end PendingHandshake

end SecureChannel
