import SecureChannel.Proofs.Codec.Names
import SecureChannel.Proofs.Registry.Usage

/-!
# Names do not leak

A registry never has more names in use than its limit allows. Reserving looks at the limit, and so
does re-keying a name that is not in use; committing a reservation does not. It need not, because
the reservation has been counted since it was granted. That holds as long as the reserved names are
those of the outstanding reservations, so the bound and the track of the reservations are kept
together.

`Disciplined` is how a server uses its registry: it re-keys names that a transport gives, and asks
for reservations of all other names. Under this discipline no reserved name is ever re-keyed.
-/

namespace SecureChannel.Registry

variable {r s : Registry} {id : ChannelId} {res : Reservation} {h : Handle}

def reservedNames (r : Registry) : List ChannelId :=
  (r.slots.toList.filter fun entry => !entry.2.isLive).map Prod.fst

theorem mem_reservedNames : id ∈ r.reservedNames ↔ r.slots[id]? = some .reserved := by
  rw [reservedNames, List.mem_map]
  constructor
  · rintro ⟨⟨name, slot⟩, mem, rfl⟩
    rw [List.mem_filter, Std.HashMap.mem_toList_iff_getElem?_eq_some] at mem
    obtain ⟨found, unused⟩ := mem
    cases slot with
    | reserved => exact found
    | live h => simp [Slot.isLive] at unused
  · intro found
    refine ⟨(id, .reserved), ?_, rfl⟩
    rw [List.mem_filter, Std.HashMap.mem_toList_iff_getElem?_eq_some]
    exact ⟨found, rfl⟩

theorem nodup_reservedNames (r : Registry) : r.reservedNames.Nodup := by
  rw [reservedNames, List.Nodup, List.pairwise_map]
  apply List.Pairwise.filter
  apply Std.HashMap.distinct_keys_toList.imp
  intro one other differ
  simpa using differ

/-- Every name in use is either live or reserved. -/
theorem liveCount_add_length_reservedNames (r : Registry) :
    r.liveCount + r.reservedNames.length = r.slots.size := by
  rw [liveCount, reservedNames, List.length_map, ← List.countP_eq_length_filter,
    ← Std.HashMap.length_toList, List.length_eq_countP_add_countP fun entry => entry.2.isLive]
  simp

/-! ### The limit -/

/-- An operation leaves the limit alone, and within it as many names in use as there were. -/
structure KeepsLimit (r s : Registry) : Prop where
  limits : s.limits = r.limits
  size : r.slots.size ≤ r.limits.maxSessions → s.slots.size ≤ r.limits.maxSessions

theorem KeepsLimit.refl (r : Registry) : KeepsLimit r r :=
  ⟨rfl, fun fits => fits⟩

theorem KeepsLimit.trans {t : Registry} (first : KeepsLimit r s) (second : KeepsLimit s t) :
    KeepsLimit r t := by
  refine ⟨second.limits.trans first.limits, ?_⟩
  intro fits
  rw [← first.limits]
  apply second.size
  rw [first.limits]
  exact first.size fits

theorem KeepsLimit.of_size_le (limits : s.limits = r.limits)
    (le : s.slots.size ≤ r.slots.size) : KeepsLimit r s :=
  ⟨limits, fun fits => Nat.le_trans le fits⟩

theorem keepsLimit_freeSlot (r : Registry) (id : ChannelId) : KeepsLimit r (r.freeSlot id) :=
  .of_size_le rfl Std.HashMap.size_erase_le

theorem keepsLimit_modifyChannel (r : Registry) (h : Handle) (f : Channel → Channel) :
    KeepsLimit r (r.modifyChannel h f) :=
  .of_size_le rfl (Nat.le_refl _)

/-- What a name stands for may change without further ado if the name is in use, or if there is
room for one more. -/
theorem keepsLimit_insert {slot : Slot} {channels : Array Channel}
    (room : r.slots[id]? ≠ none ∨ r.isFull = false) :
    KeepsLimit r { r with slots := r.slots.insert id slot, channels := channels } := by
  refine ⟨rfl, ?_⟩
  intro fits
  show (r.slots.insert id slot).size ≤ r.limits.maxSessions
  rw [Std.HashMap.size_insert]
  split
  · exact fits
  · next absent =>
    rcases room with used | room
    · rw [Std.HashMap.mem_iff_isSome_getElem?, Option.isSome_iff_ne_none] at absent
      exact absurd used absent
    · rw [isFull, decide_eq_false_iff_not] at room
      omega

theorem Grants.keepsLimit (granted : r.Grants res s) : KeepsLimit r s := by
  obtain ⟨-, room, rfl⟩ := granted
  exact keepsLimit_insert (.inr room)

/-- Committing does not look at the limit. A name that is in use does not need it to. -/
theorem keepsLimit_commit (used : r.slots[res.id]? ≠ none) (pair : CipherPair) (now : Nat) :
    KeepsLimit r (r.commit res pair now).2 :=
  keepsLimit_insert (.inl used)

theorem keepsLimit_release (r : Registry) (res : Reservation) :
    KeepsLimit r (r.release res) := by
  rw [release]
  split
  · exact keepsLimit_freeSlot r res.id
  · exact .refl r

theorem keepsLimit_allocate (r : Registry) (scheme : IdScheme) (draws : Nat → Nat) :
    KeepsLimit r (r.allocate scheme draws).2 := by
  rcases answer : r.allocate scheme draws with ⟨e | res, s⟩
  · rw [allocate_error answer]
    exact .refl r
  · exact (allocate_ok answer).1.keepsLimit

theorem keepsLimit_reserve (r : Registry) (id : ChannelId) : KeepsLimit r (r.reserve id).2 := by
  rcases answer : r.reserve id with ⟨e | res, s⟩
  · rw [reserve_error answer]
    exact .refl r
  · exact (reserve_ok answer).2.keepsLimit

theorem keepsLimit_register (r : Registry) (id : ChannelId) (pair : CipherPair) (now : Nat) :
    KeepsLimit r (r.register id pair now).2 := by
  rw [register]
  split
  · next e s refused =>
    rw [reserve_error refused]
    exact .refl r
  · next res s answer =>
    have granted := (reserve_ok answer).2
    have used : s.slots[res.id]? ≠ none := by
      rw [granted.eq, getElem?_setSlot, if_pos rfl]
      simp
    exact granted.keepsLimit.trans (keepsLimit_commit used pair now)

theorem keepsLimit_rekey (r : Registry) (id : ChannelId) (pair : CipherPair) (now : Nat) :
    KeepsLimit r (r.rekey id pair now).2 := by
  rw [rekey]
  split
  · exact .refl r
  · next taken =>
    apply keepsLimit_insert
    cases slot : r.slots[id]? with
    | some _ => exact .inl (by simp)
    | none =>
      rw [contains_eq_false_iff.mpr slot] at taken
      exact .inr (by simpa using taken)

theorem keepsLimit_lookup (r : Registry) (id : ChannelId) (now : Nat) :
    KeepsLimit r (r.lookup id now).2 := by
  rw [lookup]
  split
  · next h _ => exact keepsLimit_modifyChannel r h fun c => c.touch now
  · exact .refl r

theorem keepsLimit_remove (r : Registry) (id : ChannelId) : KeepsLimit r (r.remove id).2 := by
  rw [remove]
  split
  · exact keepsLimit_freeSlot r id
  · exact .refl r

theorem keepsLimit_removeChannel (r : Registry) (h : Handle) :
    KeepsLimit r (r.removeChannel h).2 := by
  rw [removeChannel]
  split
  · exact .refl r
  · next c _ =>
    split
    · exact keepsLimit_freeSlot r c.id
    · exact .refl r

theorem keepsLimit_recordFailure (r : Registry) (h : Handle) :
    KeepsLimit r (r.recordFailure h).2 := by
  rw [recordFailure]
  split
  · exact .refl r
  · dsimp only
    split
    · exact keepsLimit_modifyChannel r h _
    · exact (keepsLimit_modifyChannel r h _).trans (keepsLimit_removeChannel _ h)

theorem keepsLimit_expireIdle (r : Registry) (now : Nat) : KeepsLimit r (r.expireIdle now).2 := by
  rw [expireIdle]
  split
  · exact .refl r
  · exact .of_size_le rfl Std.HashMap.size_filter_le_size

theorem keepsLimit_step {α : Type} (r : Registry) (h : Handle)
    (f : Channel → Except ChannelError α × Channel) : KeepsLimit r (r.step h f).2 := by
  rw [Registry.step]
  split
  · exact .refl r
  · exact keepsLimit_modifyChannel r h _

namespace Usage

variable {p : Primitives} {u : Usage} {call : Call} {limits : Limits}

/-- Only the names that a transport gives are re-keyed, and only other names are reserved. -/
def Disciplined : Call → Prop
  | .allocate scheme _ => scheme ≠ .transport
  | .reserve id => id.scheme ≠ .transport
  | .register id _ _ => id.scheme ≠ .transport
  | .rekey id _ _ => id.scheme = .transport
  | _ => True

def run (p : Primitives) (u : Usage) (calls : List Call) : Usage :=
  calls.foldl (step p) u

/-- Names are on track and within the limit, and no transport's name is reserved. -/
structure Bounded (limits : Limits) (u : Usage) : Prop where
  tracked : Tracked u
  assigned : ∀ res ∈ u.held, res.id.scheme ≠ .transport
  unchanged : u.registry.limits = limits
  size : u.registry.slots.size ≤ limits.maxSessions

theorem bounded_start (limits : Limits) : Bounded limits (start limits) where
  tracked := tracked_start limits
  assigned := by simp [start]
  unchanged := rfl
  size := by simp [start, Registry.new]

/-- A reservation that is granted is for the name that was asked for, or for one that was drawn. -/
theorem scheme_of_granted (disciplined : Disciplined call) (granted : u.granted call = some res) :
    res.id.scheme ≠ .transport := by
  cases call with
  | allocate scheme draws =>
    cases answer : u.registry.allocate scheme draws with
    | mk answered s =>
      cases answered with
      | error e => simp [Usage.granted, answer, Except.toOption] at granted
      | ok given =>
        obtain rfl : given = res := by simpa [Usage.granted, answer, Except.toOption] using granted
        obtain ⟨-, i, -, drawn⟩ := allocate_ok answer
        rw [(ChannelId.admissible_ofDraw drawn).1]
        exact disciplined
  | reserve id =>
    cases answer : u.registry.reserve id with
    | mk answered s =>
      cases answered with
      | error e => simp [Usage.granted, answer, Except.toOption] at granted
      | ok given =>
        obtain rfl : given = res := by simpa [Usage.granted, answer, Except.toOption] using granted
        obtain ⟨rfl, -⟩ := reserve_ok answer
        exact disciplined
  | _ => cases granted

/-- What is outstanding behind a call was outstanding before it, or has just been granted. -/
theorem mem_heldAfter_cases (mem : res ∈ u.heldAfter call) :
    res ∈ u.held ∨ u.granted call = some res := by
  cases call with
  | commit other pair now => exact .inl (List.mem_of_mem_erase mem)
  | drop other => exact .inl (List.mem_of_mem_erase mem)
  | _ =>
    rcases List.mem_append.mp mem with granted | held
    · exact .inr (Option.mem_toList.mp granted)
    · exact .inl held

/-- Every call keeps the limit, as long as the reserved names are those of the outstanding
reservations. -/
theorem Tracked.keepsLimit (tracked : Tracked u) (p : Primitives) (call : Call) :
    KeepsLimit u.registry (u.registryAfter p call) := by
  cases call with
  | allocate scheme draws => exact keepsLimit_allocate _ scheme draws
  | reserve id => exact keepsLimit_reserve _ id
  | register id pair now => exact keepsLimit_register _ id pair now
  | rekey id pair now => exact keepsLimit_rekey _ id pair now
  | lookup id now => exact keepsLimit_lookup _ id now
  | remove id => exact keepsLimit_remove _ id
  | removeChannel h => exact keepsLimit_removeChannel _ h
  | expireIdle now => exact keepsLimit_expireIdle _ now
  | recordFailure h => exact keepsLimit_recordFailure _ h
  | commit res pair now =>
    rw [registryAfter]
    split
    · next held =>
      have used : u.registry.slots[res.id]? ≠ none := by
        rw [(tracked.reserved res.id).mpr held]
        simp
      exact keepsLimit_commit used pair now
    · exact .refl _
  | drop res =>
    rw [registryAfter]
    split
    · exact keepsLimit_release _ res
    · exact .refl _
  | encrypt h now ad plaintext => exact keepsLimit_step _ h fun c => c.encrypt p now ad plaintext
  | decrypt h now ad ciphertext => exact keepsLimit_step _ h fun c => c.decrypt p now ad ciphertext

/-- A disciplined call never takes a reserved name. -/
theorem Bounded.respectful (bounded : Bounded limits u) (disciplined : Disciplined call) :
    ¬ Trespasses u call := by
  rintro ⟨id, pair, now, rfl, held⟩
  exact bounded.assigned ⟨id⟩ held disciplined

theorem Bounded.step (bounded : Bounded limits u) (disciplined : Disciplined call) :
    Bounded limits (u.step p call) := by
  have keeps := bounded.tracked.keepsLimit p call
  refine ⟨bounded.tracked.step (bounded.respectful disciplined), ?_, ?_, ?_⟩
  · intro res mem
    rcases mem_heldAfter_cases mem with held | granted
    · exact bounded.assigned res held
    · exact scheme_of_granted disciplined granted
  · exact keeps.limits.trans bounded.unchanged
  · have size := keeps.size (by rw [bounded.unchanged]; exact bounded.size)
    rwa [bounded.unchanged] at size

theorem Bounded.run (bounded : Bounded limits u) {calls : List Call}
    (disciplined : ∀ call ∈ calls, Disciplined call) : Bounded limits (run p u calls) := by
  induction calls generalizing u with
  | nil => exact bounded
  | cons call calls ih =>
    rw [List.forall_mem_cons] at disciplined
    exact ih (bounded.step disciplined.1) disciplined.2

/-- The reserved names, one by one, are the names of the outstanding reservations. -/
theorem Tracked.reservedNames_perm (tracked : Tracked u) :
    u.registry.reservedNames.Perm (u.held.map Reservation.id) := by
  have distinct : (u.held.map Reservation.id).Nodup := by
    rw [List.Nodup, List.pairwise_map]
    apply tracked.distinct.imp
    intro one other differ same
    exact differ (congrArg Reservation.mk same)
  rw [List.perm_ext_iff_of_nodup (nodup_reservedNames _) distinct]
  intro id
  rw [mem_reservedNames, tracked.reserved, List.mem_map]
  constructor
  · intro held
    exact ⟨⟨id⟩, held, rfl⟩
  · rintro ⟨res, held, rfl⟩
    exact held

/-- Whatever calls a server makes, from an empty registry on, and however the handshakes that make
them are interleaved: the live and the reserved names together never exceed the limit, the reserved
names are those of the outstanding reservations, a name that is drawn is neither zero nor in use,
and a reserved name can be neither looked up nor removed. -/
theorem bounded_of_disciplined (p : Primitives) (limits : Limits) (calls : List Call)
    (disciplined : ∀ call ∈ calls, Disciplined call) :
    ((run p (start limits) calls).registry.liveCount +
        (run p (start limits) calls).registry.reservedNames.length ≤ limits.maxSessions) ∧
    (run p (start limits) calls).held.Nodup ∧
    (run p (start limits) calls).registry.reservedNames.Perm
      ((run p (start limits) calls).held.map Reservation.id) ∧
    (∀ scheme draws res,
      ((run p (start limits) calls).registry.allocate scheme draws).1 = .ok res →
        res.id.isReserved = false ∧ (run p (start limits) calls).registry.slots[res.id]? = none) ∧
    ∀ res ∈ (run p (start limits) calls).held, ∀ now,
      (run p (start limits) calls).registry.lookup res.id now =
        (.error (.unknownChannel res.id), (run p (start limits) calls).registry) ∧
      (run p (start limits) calls).registry.remove res.id =
        (.error (.unknownChannel res.id), (run p (start limits) calls).registry) := by
  have bounded := (bounded_start limits).run (p := p) disciplined
  refine ⟨?_, bounded.tracked.distinct, bounded.tracked.reservedNames_perm, ?_, ?_⟩
  · rw [liveCount_add_length_reservedNames]
    exact bounded.size
  · intro scheme draws res granted
    obtain ⟨answered, i, -, drawn⟩ := allocate_ok (Prod.ext granted rfl)
    exact ⟨(ChannelId.admissible_ofDraw drawn).2.1, answered.free⟩
  · intro res held now
    have hidden : (run p (start limits) calls).registry.live? res.id = none :=
      live?_eq_none_of_reserved ((bounded.tracked.reserved res.id).mpr held)
    rw [lookup, remove, hidden]
    exact ⟨rfl, rfl⟩

/-- Three handshakes at a server that has room for two: the third one is refused, and the first is
given up after a while. -/
def threeHandshakes : List Call :=
  [.allocate .random16 (fun _ => 6), .rekey (.transport [1]) (.new default default .implicit) 0,
    .reserve (.binding default), .expireIdle 1, .drop ⟨.short 7⟩, .reserve (.binding default)]

theorem bounded_threeHandshakes :
    (∀ call ∈ threeHandshakes, Disciplined call) ∧
    ∀ u, u = run .standard (start ⟨2, none, 0⟩) threeHandshakes →
      u.registry.liveCount + u.registry.reservedNames.length ≤ 2 ∧ u.held.Nodup ∧
        u.registry.reservedNames.Perm (u.held.map Reservation.id) := by
  have disciplined : ∀ call ∈ threeHandshakes, Disciplined call := by
    simp [threeHandshakes, Disciplined, ChannelId.scheme]
  refine ⟨disciplined, ?_⟩
  rintro u rfl
  obtain ⟨bound, distinct, same, -, -⟩ :=
    bounded_of_disciplined .standard ⟨2, none, 0⟩ threeHandshakes disciplined
  exact ⟨bound, distinct, same⟩

end Usage

end SecureChannel.Registry
