import SecureChannel.Proofs.CipherState.Spending
import SecureChannel.Proofs.Registry.Channels

/-!
# What an operation of a registry cannot touch

Whatever happens in a registry, no channel is lost, renamed or set back: `Evolves` says so, and also
that a name stands for a channel only if it did before or the channel has that name. So in a
registry that starts empty, every name stands for a channel of that name, which is what `Named`
means.

Most operations are about one name. `Confined` says that such an operation leaves every other name
and every channel of another name as they were.
-/

namespace SecureChannel

structure Channel.Advances (c d : Channel) : Prop where
  id : d.id = c.id
  encrypter : c.pair.encrypter.Advances d.pair.encrypter
  decrypter : c.pair.decrypter.Advances d.pair.decrypter

theorem Channel.Advances.refl (c : Channel) : c.Advances c :=
  ⟨rfl, .refl _, .refl _⟩

theorem Channel.Advances.trans {c d e : Channel} (first : c.Advances d) (second : d.Advances e) :
    c.Advances e :=
  ⟨second.id.trans first.id, first.encrypter.trans second.encrypter,
    first.decrypter.trans second.decrypter⟩

theorem Channel.Advances.of_pair {c d : Channel} (id : d.id = c.id) (pair : d.pair = c.pair) :
    c.Advances d := by
  refine ⟨id, ?_, ?_⟩ <;> rw [pair] <;> exact .refl _

/-- Sealing a message advances the channel, or nothing happens. -/
theorem Channel.advances_encrypt (p : Primitives) (c : Channel) (now : Nat)
    (ad plaintext : Bytes) : c.Advances (c.encrypt p now ad plaintext).2 := by
  rw [Channel.encrypt]
  split
  · next sealed encrypter sent =>
    exact ⟨rfl, (CipherState.sealed_of_encrypt sent).advances, .refl _⟩
  · exact .refl c

/-- Opening a message advances the channel, or nothing happens. -/
theorem Channel.advances_decrypt (p : Primitives) (c : Channel) (now : Nat)
    (ad ciphertext : Bytes) : c.Advances (c.decrypt p now ad ciphertext).2 := by
  rw [Channel.decrypt]
  split
  · next plaintext decrypter opened =>
    exact ⟨rfl, .refl _, (CipherState.opened_of_decrypt opened).advances⟩
  · exact .refl c

namespace Registry

variable {p : Primitives} {r s t : Registry} {id other : ChannelId} {h : Handle} {c d : Channel}
variable {pair : CipherPair} {now : Nat} {ad ciphertext : Bytes}

/-- Every name stands for a channel that has the name. -/
def Named (r : Registry) : Prop :=
  ∀ id h, r.live? id = some h → ∃ c, r.channel? h = some c ∧ c.id = id

theorem named_new (limits : Limits) : Named (.new limits) := by
  intro id h live
  rw [live?_eq_none_of_free (slots_new limits id)] at live
  cases live

structure Evolves (r s : Registry) : Prop where
  channels : ∀ h c, r.channel? h = some c → ∃ d, s.channel? h = some d ∧ c.Advances d
  live : ∀ id h, s.live? id = some h →
    r.live? id = some h ∨ ∃ d, s.channel? h = some d ∧ d.id = id

theorem Evolves.refl (r : Registry) : Evolves r r :=
  ⟨fun _ c found => ⟨c, found, .refl c⟩, fun _ _ live => .inl live⟩

theorem Evolves.trans (first : Evolves r s) (second : Evolves s t) : Evolves r t := by
  constructor
  · intro h c found
    obtain ⟨d, found', advances⟩ := first.channels h c found
    obtain ⟨e, found'', advances'⟩ := second.channels h d found'
    exact ⟨e, found'', advances.trans advances'⟩
  · intro id h live
    rcases second.live id h live with live' | named
    · rcases first.live id h live' with live'' | ⟨d, found, name⟩
      · exact .inl live''
      · obtain ⟨e, found', advances⟩ := second.channels h d found
        exact .inr ⟨e, found', advances.id.trans name⟩
    · exact .inr named

theorem Evolves.named (evolves : Evolves r s) (named : Named r) : Named s := by
  intro id h live
  rcases evolves.live id h live with live | found
  · obtain ⟨c, found, name⟩ := named id h live
    obtain ⟨d, found', advances⟩ := evolves.channels h c found
    exact ⟨d, found', advances.id.trans name⟩
  · exact found

/-- Where channels stay as they are and names are at most given up, the registry evolves. -/
theorem Evolves.of_channels_eq (channels : s.channels = r.channels)
    (live : ∀ id h, s.live? id = some h → r.live? id = some h) : Evolves r s := by
  refine ⟨?_, fun id h found => .inl (live id h found)⟩
  intro h c found
  refine ⟨c, ?_, .refl c⟩
  rwa [channel?, channels]

theorem Evolves.of_sameTable (same : SameTable r s) : Evolves r s := by
  refine .of_channels_eq same.channels ?_
  intro id h live
  simpa only [live?, same.slots] using live

theorem channels_expireIdle (r : Registry) (now : Nat) :
    (r.expireIdle now).2.channels = r.channels := by
  rw [expireIdle]
  split <;> rfl

/-- What is live after idle channels were dropped was live before. -/
theorem live?_of_expireIdle (live : (r.expireIdle now).2.live? id = some h) :
    r.live? id = some h := by
  rw [expireIdle] at live
  split at live
  · exact live
  · rw [live?_eq_some_iff] at live ⊢
    simp only [Std.HashMap.getElem?_filter', Option.filter_eq_some_iff] at live
    exact live.1

theorem evolves_expireIdle (r : Registry) (now : Nat) : Evolves r (r.expireIdle now).2 :=
  .of_channels_eq (channels_expireIdle r now) fun _ _ live => live?_of_expireIdle live

/-- What happens is about one name and the channels of that name. -/
structure Confined (id : ChannelId) (r s : Registry) : Prop extends Evolves r s where
  slots : ∀ other, id ≠ other → s.slots[other]? = r.slots[other]?
  kept : ∀ h c, r.channel? h = some c → id ≠ c.id → s.channel? h = some c

theorem Confined.refl (id : ChannelId) (r : Registry) : Confined id r r :=
  ⟨.refl r, fun _ _ => rfl, fun _ _ found _ => found⟩

theorem Confined.trans (first : Confined id r s) (second : Confined id s t) : Confined id r t :=
  ⟨first.toEvolves.trans second.toEvolves,
    fun other ne => (second.slots other ne).trans (first.slots other ne),
    fun h c found ne => second.kept h c (first.kept h c found ne) ne⟩

theorem Confined.of_sameTable (same : SameTable r s) : Confined id r s := by
  refine ⟨.of_sameTable same, fun other _ => same.slots other, ?_⟩
  intro h c found _
  rwa [channel?, same.channels]

/-- The channels after a new one was made are the new one and those that were there before. -/
theorem Opens.channel?_cases (opens : r.Opens id pair now s) (found : s.channel? h = some c) :
    h = ⟨r.channels.size⟩ ∨ r.channel? h = some c := by
  rw [Registry.channel?, opens.channels, Array.getElem?_push] at found
  split at found
  · next last => exact .inl (congrArg Handle.mk last)
  · exact .inr found

/-- A new channel takes no more than its name. -/
theorem Opens.confined (opens : r.Opens id pair now s) : Confined id r s := by
  refine ⟨⟨?_, ?_⟩, ?_, ?_⟩
  · intro h c found
    exact ⟨c, opens.channel?_of_some found, .refl c⟩
  · intro other h live
    by_cases same : id = other
    · subst same
      obtain rfl : ⟨r.channels.size⟩ = h := Option.some.inj (opens.live?.symm.trans live)
      exact .inr ⟨_, opens.channel?, rfl⟩
    · exact .inl (by rwa [← opens.live?_of_ne same])
  · intro other ne
    rw [opens.slots, if_neg ne]
  · intro h c found _
    exact opens.channel?_of_some found

/-- A channel that advances is the only one that changes. -/
theorem Updates.confined (updates : r.Updates h d s) (found : r.channel? h = some c)
    (advances : c.Advances d) : Confined c.id r s := by
  refine ⟨⟨?_, fun id h live => .inl (by rwa [← updates.live?])⟩, ?_, ?_⟩
  · intro one e found'
    by_cases same : one = h
    · subst same
      obtain rfl : c = e := Option.some.inj (found.symm.trans found')
      exact ⟨d, updates.changed, advances⟩
    · exact ⟨e, by rw [updates.kept one same, found'], .refl e⟩
  · intro other _
    rw [updates.slots]
  · intro one e found' ne
    rw [updates.kept one, found']
    rintro rfl
    exact ne (congrArg Channel.id (Option.some.inj (found.symm.trans found')))

theorem confined_freeSlot (id : ChannelId) (r : Registry) : Confined id r (r.freeSlot id) := by
  refine ⟨.of_channels_eq rfl ?_, ?_, fun _ _ found _ => found⟩
  · intro other h live
    rw [live?_eq_some_iff, getElem?_freeSlot] at live
    split at live
    · cases live
    · rwa [live?_eq_some_iff]
  · intro other ne
    rw [getElem?_freeSlot, if_neg ne]

theorem confined_remove (id : ChannelId) (r : Registry) : Confined id r (r.remove id).2 := by
  rw [remove]
  split
  · exact confined_freeSlot id r
  · exact .refl id r

theorem confined_removeChannel (found : r.channel? h = some c) :
    Confined c.id r (r.removeChannel h).2 := by
  rw [removeChannel]
  simp only [found]
  split
  · exact confined_freeSlot c.id r
  · exact .refl _ r

theorem confined_recordFailure (found : r.channel? h = some c) :
    Confined c.id r (r.recordFailure h).2 := by
  rw [recordFailure]
  simp only [found]
  have counted := updates_modifyChannel found fun d =>
    { d with authFailures := c.authFailures + 1 }
  have confined := counted.confined found (.of_pair rfl rfl)
  split
  · exact confined
  · have removed := confined_removeChannel counted.changed
    exact confined.trans removed

/-- A look-up finds a channel of the name, and the channel counts it as use. -/
theorem lookup_ok (named : Named r) (answer : r.lookup id now = (.ok h, s)) :
    ∃ c, r.live? id = some h ∧ r.channel? h = some c ∧ c.id = id ∧
      r.Updates h (c.touch now) s := by
  rw [lookup] at answer
  split at answer
  · next live =>
    cases answer
    obtain ⟨c, found, name⟩ := named _ _ live
    exact ⟨c, live, found, name, updates_modifyChannel found fun c => c.touch now⟩
  · cases answer

theorem lookup_error {e : ChannelError} (answer : r.lookup id now = (.error e, s)) : s = r := by
  rw [lookup] at answer
  split at answer
  · cases answer
  · exact (Prod.mk.inj answer).2.symm

theorem confined_encrypt (p : Primitives) (found : r.channel? h = some c) (now : Nat)
    (ad plaintext : Bytes) : Confined c.id r (r.encrypt p h now ad plaintext).2 :=
  (step_eq (f := fun c => c.encrypt p now ad plaintext) found).2.confined found
    (c.advances_encrypt p now ad plaintext)

theorem confined_decrypt (p : Primitives) (found : r.channel? h = some c) (now : Nat)
    (ad ciphertext : Bytes) : Confined c.id r (r.decrypt p h now ad ciphertext).2 :=
  (step_eq (f := fun c => c.decrypt p now ad ciphertext) found).2.confined found
    (c.advances_decrypt p now ad ciphertext)

/-! ### Only handshakes make channels -/

def InMode (mode : NonceMode) (r : Registry) : Prop :=
  ∀ h c, r.channel? h = some c → c.pair.InMode mode

theorem inMode_new (limits : Limits) (mode : NonceMode) : InMode mode (.new limits) := by
  intro h c found
  simp [Registry.new, channel?] at found

theorem InMode.evolve {mode : NonceMode} (inMode : InMode mode r) (evolves : Evolves r s)
    (size : s.channels.size = r.channels.size) : InMode mode s := by
  intro h d found
  have inside : h.index < r.channels.size := by
    rw [← size]
    exact (Array.getElem?_eq_some_iff.mp found).1
  have old := Array.getElem?_eq_getElem inside
  obtain ⟨d', found', advances⟩ := evolves.channels h _ old
  obtain rfl : d = d' := Option.some.inj (found.symm.trans found')
  obtain ⟨encrypter, decrypter⟩ := inMode h _ old
  exact ⟨advances.encrypter.mode.trans encrypter, advances.decrypter.mode.trans decrypter⟩

theorem Opens.inMode {mode : NonceMode} (opens : r.Opens id pair now s) (inMode : InMode mode r)
    (fresh : pair.InMode mode) : InMode mode s := by
  intro h c found
  rcases opens.channel?_cases found with rfl | old
  · obtain rfl := Option.some.inj (opens.channel?.symm.trans found)
    exact fresh
  · exact inMode h c old

@[simp] theorem size_modifyChannel (r : Registry) (h : Handle) (f : Channel → Channel) :
    (r.modifyChannel h f).channels.size = r.channels.size := by
  simp [modifyChannel]

@[simp] theorem size_step {α : Type} (r : Registry) (h : Handle)
    (f : Channel → Except ChannelError α × Channel) :
    (r.step h f).2.channels.size = r.channels.size := by
  rw [step]
  split
  · rfl
  · exact size_modifyChannel ..

@[simp] theorem size_lookup (r : Registry) (id : ChannelId) (now : Nat) :
    (r.lookup id now).2.channels.size = r.channels.size := by
  rw [lookup]
  split
  · exact size_modifyChannel ..
  · rfl

@[simp] theorem size_remove (r : Registry) (id : ChannelId) :
    (r.remove id).2.channels.size = r.channels.size := by
  rw [remove]
  split <;> rfl

@[simp] theorem size_removeChannel (r : Registry) (h : Handle) :
    (r.removeChannel h).2.channels.size = r.channels.size := by
  rw [removeChannel]
  split
  · rfl
  · split <;> rfl

@[simp] theorem size_recordFailure (r : Registry) (h : Handle) :
    (r.recordFailure h).2.channels.size = r.channels.size := by
  rw [recordFailure]
  split
  · rfl
  · dsimp only
    split <;> simp

@[simp] theorem size_expireIdle (r : Registry) (now : Nat) :
    (r.expireIdle now).2.channels.size = r.channels.size := by
  rw [expireIdle]
  split <;> rfl

end Registry

end SecureChannel
