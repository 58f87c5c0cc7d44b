import SecureChannel.Proofs.Registry.Slots

/-!
# A registry in use

`Usage` is a registry together with the reservations that were granted and are outstanding: neither
committed nor dropped. `Usage.step` makes one call of the registry's interface, with any name, any
handle and any outstanding reservation. Calls that are refused change nothing here.

`Tracked` ties the two parts together: the reserved names are those of the outstanding reservations,
and no name has two. Every call keeps it except a re-keying of a reserved name, which takes the name
whatever it stands for.
-/

namespace SecureChannel.Registry

/-- A call of a registry, or the use of a channel through a handle. Only outstanding reservations
can be committed or dropped. -/
inductive Call
  | allocate (scheme : IdScheme) (draws : Nat → Nat)
  | reserve (id : ChannelId)
  | register (id : ChannelId) (pair : CipherPair) (now : Nat)
  | rekey (id : ChannelId) (pair : CipherPair) (now : Nat)
  | lookup (id : ChannelId) (now : Nat)
  | remove (id : ChannelId)
  | removeChannel (h : Handle)
  | expireIdle (now : Nat)
  | recordFailure (h : Handle)
  | commit (res : Reservation) (pair : CipherPair) (now : Nat)
  | drop (res : Reservation)
  | encrypt (h : Handle) (now : Nat) (ad plaintext : Bytes)
  | decrypt (h : Handle) (now : Nat) (ad ciphertext : Bytes)

/-- A registry and the outstanding reservations. -/
structure Usage where
  registry : Registry
  held : List Reservation

namespace Usage

def start (limits : Limits) : Usage := ⟨.new limits, []⟩

def granted (u : Usage) : Call → Option Reservation
  | .allocate scheme draws => (u.registry.allocate scheme draws).1.toOption
  | .reserve id => (u.registry.reserve id).1.toOption
  | _ => none

def consumed (u : Usage) : Call → Option Reservation
  | .commit res _ _ | .drop res => if res ∈ u.held then some res else none
  | _ => none

def registryAfter (p : Primitives) (u : Usage) : Call → Registry
  | .allocate scheme draws => (u.registry.allocate scheme draws).2
  | .reserve id => (u.registry.reserve id).2
  | .register id pair now => (u.registry.register id pair now).2
  | .rekey id pair now => (u.registry.rekey id pair now).2
  | .lookup id now => (u.registry.lookup id now).2
  | .remove id => (u.registry.remove id).2
  | .removeChannel h => (u.registry.removeChannel h).2
  | .expireIdle now => (u.registry.expireIdle now).2
  | .recordFailure h => (u.registry.recordFailure h).2
  | .commit res pair now =>
      if res ∈ u.held then (u.registry.commit res pair now).2 else u.registry
  | .drop res => if res ∈ u.held then u.registry.release res else u.registry
  | .encrypt h now ad plaintext => (u.registry.encrypt p h now ad plaintext).2
  | .decrypt h now ad ciphertext => (u.registry.decrypt p h now ad ciphertext).2

def heldAfter (u : Usage) : Call → List Reservation
  | .commit res _ _ | .drop res => u.held.erase res
  | call => (u.granted call).toList ++ u.held

def step (p : Primitives) (u : Usage) (call : Call) : Usage :=
  ⟨u.registryAfter p call, u.heldAfter call⟩

/-- A condition on calls holds at every call of a run. -/
def Along (p : Primitives) (condition : Usage → Call → Prop) : Usage → List Call → Prop
  | _, [] => True
  | u, call :: calls => condition u call ∧ Along p condition (u.step p call) calls

/-- The reserved names are the names of the outstanding reservations, one each. -/
structure Tracked (u : Usage) : Prop where
  distinct : u.held.Nodup
  reserved : ∀ id, u.registry.slots[id]? = some .reserved ↔ ⟨id⟩ ∈ u.held

theorem tracked_start (limits : Limits) : Tracked (start limits) :=
  ⟨.nil, fun id => by simp [start]⟩

end Usage

variable {r s : Registry} {id : ChannelId} {res : Reservation} {h : Handle}

/-- The same names are reserved in both registries. -/
def SameReserved (r s : Registry) : Prop :=
  ∀ id : ChannelId, s.slots[id]? = some .reserved ↔ r.slots[id]? = some .reserved

theorem SameReserved.of_slots_eq (same : s.slots = r.slots) : SameReserved r s := by
  intro id
  rw [same]

theorem SameReserved.trans {t : Registry} (first : SameReserved r s) (second : SameReserved s t) :
    SameReserved r t := by
  intro id
  exact (second id).trans (first id)

theorem sameReserved_freeSlot (live : r.live? id = some h) : SameReserved r (r.freeSlot id) := by
  intro other
  rw [getElem?_freeSlot]
  split
  · next same => simp [← same, (live?_eq_some_iff ..).mp live]
  · rfl

/-- A channel may be made live under any name but a reserved one. -/
theorem sameReserved_setLive (pair : CipherPair) (now : Nat)
    (unreserved : r.slots[id]? ≠ some .reserved) :
    SameReserved r (r.setLive id pair now).2 := by
  intro other
  rw [getElem?_setLive]
  split
  · next same => simpa [← same] using unreserved
  · rfl

theorem sameReserved_register (id : ChannelId) (pair : CipherPair) (now : Nat) :
    SameReserved r (r.register id pair now).2 := by
  rw [register]
  split
  · next e s refused => exact .of_slots_eq (by rw [reserve_error refused])
  · next res s answer =>
    obtain ⟨rfl, free, -, rfl⟩ := reserve_ok answer
    intro other
    simp only [commit]
    rw [getElem?_setLive, getElem?_setSlot]
    split
    · next same => simp [← same, free]
    · rfl

theorem sameReserved_rekey (pair : CipherPair) (now : Nat)
    (unreserved : r.slots[id]? ≠ some .reserved) :
    SameReserved r (r.rekey id pair now).2 := by
  rw [rekey]
  split
  · exact .of_slots_eq rfl
  · exact sameReserved_setLive pair now unreserved

theorem sameReserved_lookup (id : ChannelId) (now : Nat) :
    SameReserved r (r.lookup id now).2 := by
  rw [lookup]
  split <;> exact .of_slots_eq rfl

theorem sameReserved_remove (id : ChannelId) : SameReserved r (r.remove id).2 := by
  rw [remove]
  split
  · next live => exact sameReserved_freeSlot live
  · exact .of_slots_eq rfl

theorem sameReserved_removeChannel (h : Handle) : SameReserved r (r.removeChannel h).2 := by
  rw [removeChannel]
  split
  · exact .of_slots_eq rfl
  · split
    · next live => exact sameReserved_freeSlot live
    · exact .of_slots_eq rfl

theorem sameReserved_recordFailure (h : Handle) : SameReserved r (r.recordFailure h).2 := by
  rw [recordFailure]
  split
  · exact .of_slots_eq rfl
  · dsimp only
    split
    · exact .of_slots_eq rfl
    · exact SameReserved.trans (.of_slots_eq rfl) (sameReserved_removeChannel h)

theorem sameReserved_expireIdle (now : Nat) : SameReserved r (r.expireIdle now).2 := by
  rw [expireIdle]
  split
  · exact .of_slots_eq rfl
  · intro id
    simp only [Std.HashMap.getElem?_filter', Option.filter_eq_some_iff]
    constructor
    · intro kept
      exact kept.1
    · intro reserved
      exact ⟨reserved, rfl⟩

theorem slots_step {α : Type} (f : Channel → Except ChannelError α × Channel) :
    (r.step h f).2.slots = r.slots := by
  rw [Registry.step]
  split <;> rfl

namespace Usage

variable {p : Primitives} {u : Usage}

/-- A call that neither grants nor uses up a reservation keeps the track if it reserves and frees
no reserved name. -/
theorem Tracked.of_sameReserved (tracked : Tracked u) {s : Registry}
    (same : SameReserved u.registry s) : Tracked ⟨s, u.held⟩ :=
  ⟨tracked.distinct, fun id => (same id).trans (tracked.reserved id)⟩

theorem Tracked.grant (tracked : Tracked u) (granted : u.registry.Grants res s) :
    Tracked ⟨s, res :: u.held⟩ := by
  obtain ⟨free, -, rfl⟩ := granted
  have fresh : res ∉ u.held := by
    intro held
    have reserved := (tracked.reserved res.id).mpr held
    simp [free] at reserved
  refine ⟨List.nodup_cons.mpr ⟨fresh, tracked.distinct⟩, ?_⟩
  intro id
  show (u.registry.setSlot res.id .reserved).slots[id]? = some .reserved ↔ _
  rw [getElem?_setSlot, List.mem_cons]
  split
  · next same => simp [← same]
  · next differs =>
    have : (⟨id⟩ : Reservation) ≠ res := by
      intro same
      exact differs (by rw [← same])
    simp [this, tracked.reserved]

/-- Both ways of asking for a reservation: it is granted, or nothing changes. -/
theorem Tracked.answered (tracked : Tracked u) {answer : Except ChannelError Reservation × Registry}
    (granted : ∀ {res s}, answer = (.ok res, s) → u.registry.Grants res s)
    (refused : ∀ {e s}, answer = (.error e, s) → s = u.registry) :
    Tracked ⟨answer.2, answer.1.toOption.toList ++ u.held⟩ := by
  obtain ⟨e | res, s⟩ := answer
  · obtain rfl := refused rfl
    exact tracked
  · exact tracked.grant (granted rfl)

/-- Both ways of using up a reservation: its name is not reserved afterwards, and no other name is
touched. -/
theorem Tracked.consume (tracked : Tracked u) (own : s.slots[res.id]? ≠ some .reserved)
    (others : ∀ id, res.id ≠ id → s.slots[id]? = u.registry.slots[id]?) :
    Tracked ⟨s, u.held.erase res⟩ := by
  refine ⟨tracked.distinct.erase res, ?_⟩
  intro id
  show s.slots[id]? = some .reserved ↔ _
  rw [tracked.distinct.mem_erase_iff]
  by_cases same : res.id = id
  · subst same
    simp [own]
  · have : (⟨id⟩ : Reservation) ≠ res := by
      intro equal
      exact same (by rw [← equal])
    simp [this, others id same, tracked.reserved]

theorem Tracked.commit (tracked : Tracked u) (res : Reservation) (pair : CipherPair) (now : Nat) :
    Tracked ⟨(u.registry.commit res pair now).2, u.held.erase res⟩ := by
  apply tracked.consume
  · simp [Registry.commit, getElem?_setLive]
  · intro id differs
    rw [Registry.commit, getElem?_setLive, if_neg differs]

theorem Tracked.release (tracked : Tracked u) (held : res ∈ u.held) :
    Tracked ⟨u.registry.release res, u.held.erase res⟩ := by
  have reserved := (tracked.reserved res.id).mpr held
  rw [Registry.release, if_pos reserved]
  apply tracked.consume
  · simp [getElem?_freeSlot]
  · intro id differs
    rw [getElem?_freeSlot, if_neg differs]

/-- A call takes a reserved name if it re-keys it. -/
def Trespasses (u : Usage) (call : Call) : Prop :=
  ∃ id pair now, call = .rekey id pair now ∧ ⟨id⟩ ∈ u.held

/-- Every call but a re-keying of a reserved name keeps the track. -/
theorem Tracked.step (tracked : Tracked u) {call : Call} (respectful : ¬ Trespasses u call) :
    Tracked (u.step p call) := by
  cases call with
  | allocate scheme draws =>
    exact tracked.answered (fun answer => (allocate_ok answer).1) allocate_error
  | reserve id => exact tracked.answered (fun answer => (reserve_ok answer).2) reserve_error
  | register id pair now => exact tracked.of_sameReserved (sameReserved_register id pair now)
  | rekey id pair now =>
    have unreserved : u.registry.slots[id]? ≠ some .reserved := by
      intro reserved
      exact respectful ⟨id, pair, now, rfl, (tracked.reserved id).mp reserved⟩
    exact tracked.of_sameReserved (sameReserved_rekey pair now unreserved)
  | lookup id now => exact tracked.of_sameReserved (sameReserved_lookup id now)
  | remove id => exact tracked.of_sameReserved (sameReserved_remove id)
  | removeChannel h => exact tracked.of_sameReserved (sameReserved_removeChannel h)
  | expireIdle now => exact tracked.of_sameReserved (sameReserved_expireIdle now)
  | recordFailure h => exact tracked.of_sameReserved (sameReserved_recordFailure h)
  | commit res pair now =>
    by_cases held : res ∈ u.held
    · simpa only [Usage.step, registryAfter, heldAfter, if_pos held] using
        tracked.commit res pair now
    · simpa only [Usage.step, registryAfter, heldAfter, if_neg held,
        List.erase_of_not_mem held] using tracked
  | drop res =>
    by_cases held : res ∈ u.held
    · simpa only [Usage.step, registryAfter, heldAfter, if_pos held] using tracked.release held
    · simpa only [Usage.step, registryAfter, heldAfter, if_neg held,
        List.erase_of_not_mem held] using tracked
  | encrypt h now ad plaintext =>
    exact tracked.of_sameReserved (.of_slots_eq (slots_step fun c => c.encrypt p now ad plaintext))
  | decrypt h now ad ciphertext =>
    exact tracked.of_sameReserved (.of_slots_eq (slots_step fun c => c.decrypt p now ad ciphertext))

end Usage

end SecureChannel.Registry
