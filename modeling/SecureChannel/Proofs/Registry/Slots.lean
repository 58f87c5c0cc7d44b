import SecureChannel.Registry

/-!
# What the operations of a registry do to its names

The view of a registry is its table of slots, looked up name by name. Each operation that may be
refused has a lemma for either answer: a refusal changes nothing, and a reservation that is granted
turns one free name into a reserved one, within the limit.

`SameTable` says that two registries cannot be told apart by any operation: the same names stand for
the same channels, and the channels are in the same state. The order in which a table happens to
store its names is no part of it.
-/

namespace SecureChannel.Registry

variable {r s : Registry} {id other : ChannelId} {res : Reservation} {h : Handle}

/-- Two registries hold the same names for the same channels in the same states. -/
structure SameTable (r s : Registry) : Prop where
  slots : ∀ id : ChannelId, s.slots[id]? = r.slots[id]?
  /-- As many names are in use, so there is room for as many more. -/
  size : s.slots.size = r.slots.size
  channels : s.channels = r.channels
  limits : s.limits = r.limits

theorem SameTable.refl (r : Registry) : SameTable r r :=
  ⟨fun _ => rfl, rfl, rfl, rfl⟩

@[simp] theorem slots_new (limits : Limits) (id : ChannelId) :
    (Registry.new limits).slots[id]? = none := by
  simp [Registry.new]

theorem contains_eq_false_iff : r.slots.contains id = false ↔ r.slots[id]? = none := by
  rw [Std.HashMap.contains_eq_isSome_getElem?]
  cases r.slots[id]? <;> simp

theorem live?_eq_none_of_reserved (reserved : r.slots[id]? = some .reserved) :
    r.live? id = none := by
  simp [live?, reserved]

theorem live?_eq_none_of_free (free : r.slots[id]? = none) : r.live? id = none := by
  simp [live?, free]

/-- The answer to a request for a name: `s` is `r` with a free name reserved. The limit was not
reached before, so it is kept afterwards. -/
structure Grants (r : Registry) (res : Reservation) (s : Registry) : Prop where
  free : r.slots[res.id]? = none
  room : r.isFull = false
  eq : s = r.setSlot res.id .reserved

theorem reserve_ok (answer : r.reserve id = (.ok res, s)) : res = ⟨id⟩ ∧ r.Grants res s := by
  rw [reserve] at answer
  split at answer
  · simp at answer
  · next absent =>
    split at answer
    · simp at answer
    · next room =>
      obtain ⟨rfl, rfl⟩ : ⟨id⟩ = res ∧ r.setSlot id .reserved = s := by simpa using answer
      exact ⟨rfl, contains_eq_false_iff.mp (by simpa using absent), by simpa using room, rfl⟩

theorem reserve_error {e : ChannelError} (answer : r.reserve id = (.error e, s)) : s = r := by
  rw [reserve] at answer
  split at answer
  · exact (Prod.mk.inj answer).2.symm
  · split at answer
    · exact (Prod.mk.inj answer).2.symm
    · simp at answer

/-- A free name can be reserved as long as the limit is not reached. -/
theorem reserve_eq_ok (free : r.slots[id]? = none) (room : r.isFull = false) :
    r.reserve id = (.ok ⟨id⟩, r.setSlot id .reserved) := by
  simp [reserve, contains_eq_false_iff.mpr free, room]

theorem drawFree_ok {scheme : IdScheme} {draws : Nat → Nat} {first attempts : Nat}
    (answer : r.drawFree scheme draws first attempts = .ok id) :
    r.slots[id]? = none ∧ ∃ i < first + attempts, ChannelId.ofDraw scheme (draws i) = .ok id := by
  induction attempts generalizing first with
  | zero => simp [drawFree] at answer
  | succ attempts ih =>
    rw [drawFree] at answer
    split at answer
    · simp at answer
    · next drawn hdrawn =>
      split at answer
      · obtain ⟨free, i, few, hit⟩ := ih answer
        exact ⟨free, i, by omega, hit⟩
      · next absent =>
        obtain rfl : drawn = id := by simpa using answer
        exact ⟨contains_eq_false_iff.mp (by simpa using absent), first, by omega, hdrawn⟩

/-- A draw that hits a free name ends the search for one, unless an earlier draw has. -/
theorem drawFree_isOk {scheme : IdScheme} {draws : Nat → Nat} {first attempts i : Nat}
    (numbered : ∀ n, ∃ id, ChannelId.ofDraw scheme n = .ok id) (hi : i < attempts)
    (hdraw : ChannelId.ofDraw scheme (draws (first + i)) = .ok id) (free : r.slots[id]? = none) :
    ∃ id', r.drawFree scheme draws first attempts = .ok id' := by
  induction attempts generalizing first i with
  | zero => omega
  | succ attempts ih =>
    obtain ⟨drawn, hdrawn⟩ := numbered (draws first)
    rw [drawFree]
    simp only [hdrawn]
    split
    · next used =>
      cases i with
      | zero =>
        rw [Nat.add_zero, hdrawn] at hdraw
        obtain rfl : drawn = id := by simpa using hdraw
        rw [contains_eq_false_iff.mpr free] at used
        simp at used
      | succ i => exact ih (by omega : i < attempts) (by rwa [Nat.add_right_comm, Nat.add_assoc])
    · exact ⟨drawn, rfl⟩

theorem allocate_ok {scheme : IdScheme} {draws : Nat → Nat}
    (answer : r.allocate scheme draws = (.ok res, s)) :
    r.Grants res s ∧ ∃ i < maxDraws, ChannelId.ofDraw scheme (draws i) = .ok res.id := by
  rw [allocate] at answer
  split at answer
  · simp at answer
  · next room =>
    split at answer
    · simp at answer
    · next drawn hdrawn =>
      obtain ⟨rfl, rfl⟩ : ⟨drawn⟩ = res ∧ r.setSlot drawn .reserved = s := by simpa using answer
      obtain ⟨free, i, few, hit⟩ := drawFree_ok hdrawn
      exact ⟨⟨free, by simpa using room, rfl⟩, i, by omega, hit⟩

theorem allocate_error {scheme : IdScheme} {draws : Nat → Nat} {e : ChannelError}
    (answer : r.allocate scheme draws = (.error e, s)) : s = r := by
  rw [allocate] at answer
  split at answer
  · exact (Prod.mk.inj answer).2.symm
  · split at answer
    · exact (Prod.mk.inj answer).2.symm
    · simp at answer

/-- Giving up a reservation that was just granted undoes it. -/
theorem Grants.release (granted : r.Grants res s) : SameTable r (s.release res) := by
  obtain ⟨free, -, rfl⟩ := granted
  have reserved : (r.setSlot res.id .reserved).slots[res.id]? = some .reserved := by
    simp [getElem?_setSlot]
  have absent : res.id ∉ r.slots := by
    rw [Std.HashMap.mem_iff_isSome_getElem?, free]
    simp
  rw [Registry.release]
  rw [if_pos reserved]
  refine ⟨?_, ?_, rfl, rfl⟩
  · intro id
    rw [getElem?_freeSlot, getElem?_setSlot]
    by_cases same : res.id = id
    · rw [if_pos same, ← same, free]
    · rw [if_neg same, if_neg same]
  · simp [freeSlot, setSlot, Std.HashMap.size_erase, Std.HashMap.size_insert, absent]

/-- A name that a channel was made live under is found, and the channel is the new one. -/
theorem live?_setLive (r : Registry) (id : ChannelId) (pair : CipherPair) (now : Nat) :
    (r.setLive id pair now).2.live? id = some (r.setLive id pair now).1 := by
  rw [live?_eq_some_iff, getElem?_setLive, if_pos rfl]

theorem lookup_of_live? (live : r.live? id = some h) (now : Nat) :
    r.lookup id now = (.ok h, r.modifyChannel h fun c => c.touch now) := by
  simp [lookup, live]

theorem live?_of_lookup {now : Nat} (answer : (r.lookup id now).1 = .ok h) :
    r.live? id = some h := by
  rw [lookup] at answer
  split at answer
  · next live =>
    cases answer
    exact live
  · cases answer

theorem live?_of_remove (answer : (r.remove id).1 = .ok h) : r.live? id = some h := by
  rw [remove] at answer
  split at answer
  · next live =>
    cases answer
    exact live
  · cases answer

end SecureChannel.Registry
