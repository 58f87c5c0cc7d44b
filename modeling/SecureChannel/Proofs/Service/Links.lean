import SecureChannel.Proofs.Registry.Departures
import SecureChannel.Proofs.Service.World

/-!
# The channels of clients and those of the server

`Links` says that clients and a registry belong together: no two clients have one name, and the name
of each stands for a channel that is linked with the client's. What a request does to the registry
is about one channel, so the others stay linked: after an exchange on one of them, when one of them
was closed, and when another one was made.
-/

namespace SecureChannel.World

open Registry

variable {r s : Registry} {clients : List ClientChannel} {client client' : ClientChannel}
variable {index : Nat} {h : Handle} {channel channel' : Channel}

/-- The names of clients differ, and stand for the other ends of their channels. -/
structure Links (r : Registry) (clients : List ClientChannel) : Prop where
  distinct : clients.Pairwise fun one other => one.id ≠ other.id
  linked : ∀ client ∈ clients, ∃ h channel, r.live? client.id = some h ∧
    r.channel? h = some channel ∧ Linked client channel

/-- Both ends of a channel that was just made are linked. -/
theorem linked_new {up down : Bytes32} {mode : NonceMode} {now : Nat}
    (pair : client.pair = .new up down mode) :
    Linked client (.new client.id (.new down up mode) now) := by
  refine ⟨rfl, ?_, ?_, ?_⟩
  · rw [pair]
    exact CipherState.inStep_new up mode
  · rw [pair]
    exact CipherState.inStep_new down mode
  · rw [pair]
    exact UInt64.le_refl 0

/-- Two clients never share the handle of a channel. -/
theorem Links.handle_ne (links : Links r clients) (found : r.channel? h = some channel)
    (name : channel.id = client.id) {other : ClientChannel} (mem : other ∈ clients)
    (ne : other.id ≠ client.id) : ∃ h' channel', h' ≠ h ∧ r.live? other.id = some h' ∧
      r.channel? h' = some channel' ∧ Linked other channel' := by
  obtain ⟨h', channel', live, found', linked⟩ := links.linked other mem
  refine ⟨h', channel', ?_, live, found', linked⟩
  rintro rfl
  obtain rfl : channel = channel' := Option.some.inj (found.symm.trans found')
  exact ne (linked.name.symm.trans name)

/-- All but one of the clients have other names than that one. -/
theorem Links.ne_of_ne (links : Links r clients) (inside : clients[index]? = some client) {j : Nat}
    {other : ClientChannel} (located : clients[j]? = some other) (ne : index ≠ j) :
    other.id ≠ client.id := by
  have distinct := List.pairwise_iff_getElem.mp links.distinct
  obtain ⟨hi, rfl⟩ := List.getElem?_eq_some_iff.mp inside
  obtain ⟨hj, rfl⟩ := List.getElem?_eq_some_iff.mp located
  rcases Nat.lt_or_gt_of_ne ne with before | behind
  · exact (distinct index j hi hj before).symm
  · exact distinct j index hj hi behind

/-- The clients after one of them was replaced: that one, and all that have another name. -/
theorem Links.mem_set (links : Links r clients) (inside : clients[index]? = some client)
    {one : ClientChannel} (mem : one ∈ clients.set index client') :
    one = client' ∨ (one ∈ clients ∧ one.id ≠ client.id) := by
  obtain ⟨j, located⟩ := List.getElem?_of_mem mem
  rw [List.getElem?_set] at located
  split at located
  · split at located
    · exact .inl (Option.some.inj located).symm
    · cases located
  · next ne => exact .inr ⟨List.mem_of_getElem? located, links.ne_of_ne inside located ne⟩

theorem map_id_set (inside : clients[index]? = some client) (same : client'.id = client.id) :
    (clients.set index client').map ClientChannel.id = clients.map ClientChannel.id := by
  obtain ⟨hi, rfl⟩ := List.getElem?_eq_some_iff.mp inside
  have hi' : index < (clients.map ClientChannel.id).length := by rwa [List.length_map]
  rw [List.map_set, same, ← List.getElem_map ClientChannel.id (h := hi')]
  exact List.set_getElem_self hi'

/-- After an exchange on one channel all clients are linked again. -/
theorem Links.update (links : Links r clients) (inside : clients[index]? = some client)
    (live : r.live? client.id = some h) (found : r.channel? h = some channel)
    (name : channel.id = client.id) (updates : r.Updates h channel' s)
    (linked : Linked client' channel') (same : client'.id = client.id) :
    Links s (clients.set index client') := by
  constructor
  · have distinct := links.distinct
    rw [← List.pairwise_map (f := ClientChannel.id) (R := (· ≠ ·))] at distinct ⊢
    rwa [map_id_set inside same]
  · intro one mem
    rcases links.mem_set inside mem with rfl | ⟨mem, ne⟩
    · exact ⟨h, channel', by rw [updates.live?, same, live], updates.changed, linked⟩
    · obtain ⟨h', other, ne', live', found', linked'⟩ := links.handle_ne found name mem ne
      exact ⟨h', other, by rw [updates.live?, live'], by rw [updates.kept h' ne', found'], linked'⟩

/-- A client joins under a new name. -/
theorem Links.join (links : Links r clients) {pair : CipherPair} {now : Nat}
    (opens : r.Opens client.id pair now s) (other : ∀ one ∈ clients, one.id ≠ client.id)
    (linked : Linked client (.new client.id pair now)) : Links s (clients ++ [client]) := by
  constructor
  · rw [List.pairwise_append]
    exact ⟨links.distinct, List.pairwise_singleton .., by simpa using other⟩
  · intro one mem
    rcases List.mem_append.mp mem with old | new
    · obtain ⟨h, channel, live, found, linked⟩ := links.linked one old
      exact ⟨h, channel, (opens.live?_of_ne (other one old).symm).trans live,
        opens.channel?_of_some found, linked⟩
    · rw [List.mem_singleton.mp new]
      exact ⟨_, _, opens.live?, opens.channel?, linked⟩

theorem Links.of_sameTable (links : Links r clients) (same : SameTable r s) : Links s clients := by
  refine ⟨links.distinct, ?_⟩
  intro one mem
  obtain ⟨h, channel, live, found, linked⟩ := links.linked one mem
  refine ⟨h, channel, ?_, by rwa [Registry.channel?, same.channels], linked⟩
  rw [live?_eq_some_iff] at live ⊢
  rw [same.slots, live]

end SecureChannel.World
