import SecureChannel.Proofs.Registry.Slots

/-!
# What the operations of a registry do to its channels

Channels are only ever added or changed one at a time. `Opens` is the view of the first: one name
stands for a new channel, and everything else is as before. `Updates` is the view of the second: no
name changes, and one channel is another one now.
-/

namespace SecureChannel.Registry

variable {r s t : Registry} {id : ChannelId} {h : Handle} {c d : Channel} {pair : CipherPair}
variable {now : Nat}

/-- A new channel is live under a name, whatever the name stood for. -/
structure Opens (r : Registry) (id : ChannelId) (pair : CipherPair) (now : Nat) (s : Registry) :
    Prop where
  slots : ∀ other : ChannelId, s.slots[other]? =
    if id = other then some (.live ⟨r.channels.size⟩) else r.slots[other]?
  channels : s.channels = r.channels.push (.new id pair now)
  limits : s.limits = r.limits

theorem opens_setLive (r : Registry) (id : ChannelId) (pair : CipherPair) (now : Nat) :
    r.Opens id pair now (r.setLive id pair now).2 :=
  ⟨fun other => getElem?_setLive r id other pair now, rfl, rfl⟩

/-- A reservation on the way to the channel leaves nothing of its own. -/
theorem Grants.opens {res : Reservation} (granted : r.Grants res s) (pair : CipherPair)
    (now : Nat) : r.Opens res.id pair now (s.commit res pair now).2 := by
  obtain ⟨-, -, rfl⟩ := granted
  refine ⟨?_, rfl, rfl⟩
  intro other
  rw [commit, getElem?_setLive, getElem?_setSlot]
  by_cases same : res.id = other
  · rw [if_pos same, if_pos same]
    rfl
  · rw [if_neg same, if_neg same, if_neg same]

theorem Opens.live? (opens : r.Opens id pair now s) : s.live? id = some ⟨r.channels.size⟩ := by
  rw [live?_eq_some_iff, opens.slots, if_pos rfl]

theorem Opens.channel? (opens : r.Opens id pair now s) :
    s.channel? ⟨r.channels.size⟩ = some (.new id pair now) := by
  rw [Registry.channel?, opens.channels]
  exact Array.getElem?_push_size

/-- A channel that was there is still there. -/
theorem Opens.channel?_of_some (opens : r.Opens id pair now s) (found : r.channel? h = some c) :
    s.channel? h = some c := by
  rw [Registry.channel?] at found ⊢
  have inside : h.index < r.channels.size := by
    obtain ⟨inside, -⟩ := Array.getElem?_eq_some_iff.mp found
    exact inside
  rw [opens.channels, Array.getElem?_push_lt inside, ← found, Array.getElem?_eq_getElem inside]

theorem Opens.size_le (opens : r.Opens id pair now s) : s.slots.size ≤ r.slots.size + 1 := by
  have same : s.slots.Equiv (r.slots.insert id (.live ⟨r.channels.size⟩)) := by
    apply Std.HashMap.Equiv.of_forall_getElem?_eq
    intro other
    rw [opens.slots, Std.HashMap.getElem?_insert]
    simp
  rw [same.size_eq]
  exact Std.HashMap.size_insert_le

/-- A name other than the new one stands for what it stood for. -/
theorem Opens.live?_of_ne (opens : r.Opens id pair now s) {other : ChannelId} (ne : id ≠ other) :
    s.live? other = r.live? other := by
  simp only [Registry.live?]
  rw [opens.slots, if_neg ne]

/-- The channel of a handle is `c` now; nothing else has changed. -/
structure Updates (r : Registry) (h : Handle) (c : Channel) (s : Registry) : Prop where
  slots : s.slots = r.slots
  changed : s.channel? h = some c
  kept : ∀ other, other ≠ h → s.channel? other = r.channel? other
  limits : s.limits = r.limits

theorem updates_modifyChannel (found : r.channel? h = some c) (f : Channel → Channel) :
    r.Updates h (f c) (r.modifyChannel h f) := by
  rw [channel?] at found
  refine ⟨rfl, ?_, ?_, rfl⟩
  · simp [channel?, modifyChannel, Array.getElem?_modify, found]
  · intro other ne
    have ne : h.index ≠ other.index := by
      intro same
      exact ne (congrArg Handle.mk same.symm)
    simp [channel?, modifyChannel, Array.getElem?_modify, ne]

theorem Updates.trans (first : r.Updates h c s) (second : s.Updates h d t) : r.Updates h d t :=
  ⟨second.slots.trans first.slots, second.changed,
    fun other ne => (second.kept other ne).trans (first.kept other ne),
    second.limits.trans first.limits⟩

theorem Updates.live? (updates : r.Updates h c s) (id : ChannelId) : s.live? id = r.live? id := by
  simp only [Registry.live?]
  rw [updates.slots]

theorem step_eq {α : Type} {f : Channel → Except ChannelError α × Channel}
    (found : r.channel? h = some c) :
    (r.step h f).1 = (f c).1 ∧ r.Updates h (f c).2 (r.step h f).2 := by
  rw [step, found]
  exact ⟨rfl, updates_modifyChannel found fun _ => (f c).2⟩

/-- A channel that opens a message becomes the channel with its receiving direction moved on. -/
theorem decrypt_eq {p : Primitives} {ad ciphertext plaintext : Bytes} {decrypter : CipherState}
    (found : r.channel? h = some c) (now : Nat)
    (opened : c.pair.decrypter.decrypt p ad ciphertext = .ok (plaintext, decrypter)) :
    ∃ s d, r.decrypt p h now ad ciphertext = (.ok plaintext, s) ∧ r.Updates h d s ∧
      d.id = c.id ∧ d.pair = { c.pair with decrypter := decrypter } := by
  obtain ⟨answer, updates⟩ := step_eq (f := fun c => c.decrypt p now ad ciphertext) found
  simp only [Channel.decrypt, opened] at answer updates
  exact ⟨_, _, Prod.ext answer rfl, updates, rfl, rfl⟩

end SecureChannel.Registry
