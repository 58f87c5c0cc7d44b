import SecureChannel.Proofs.Registry.Capacity
import SecureChannel.Proofs.Registry.Departures

/-!
# Channels that have lost their name

A handle may be kept for as long as one likes, also when its channel has lost its name, and the name
may then stand for another channel. `stale_handles_harmless` says that nothing comes of that: a
clean-up through a handle frees at most the name that stands for that very channel, a reservation
that is given up frees no channel's name, and a channel that was live and is not so any more is
never found again, by whatever name.

Nothing is asked of the calls: names may be re-keyed while they are reserved, and any reservation
may be committed over the channel that has taken its name. What carries the argument is that a new
channel gets a handle that no channel had before. `Retires` states it for one call: of the channels
that were there, none is live afterwards that was not live before.
-/

namespace SecureChannel.Registry

variable {p : Primitives} {r s t : Registry} {id : ChannelId} {h one : Handle} {c : Channel}
variable {res : Reservation} {pair : CipherPair} {now : Nat}

/-- Channels may lose their names, and only new channels get one. -/
structure Retires (r s : Registry) : Prop extends Evolves r s where
  old : ∀ h c, r.channel? h = some c → ∀ id, s.live? id = some h → r.live? id = some h

theorem Retires.refl (r : Registry) : Retires r r :=
  ⟨.refl r, fun _ _ _ _ live => live⟩

theorem Retires.trans (first : Retires r s) (second : Retires s t) : Retires r t := by
  refine ⟨first.toEvolves.trans second.toEvolves, ?_⟩
  intro h c found id live
  obtain ⟨d, found', -⟩ := first.channels h c found
  exact first.old h c found id (second.old h d found' id live)

/-- Where channels stay as they are, names can only be given up. -/
theorem Retires.of_channels_eq (channels : s.channels = r.channels)
    (live : ∀ id h, s.live? id = some h → r.live? id = some h) : Retires r s :=
  ⟨.of_channels_eq channels live, fun h _ _ id found => live id h found⟩

/-- A channel that was live and is not so any more stays that way. -/
theorem Retires.not_isLive (retires : Retires r s) (found : r.channel? h = some c)
    (dead : ¬ r.IsLive h) : ¬ s.IsLive h := by
  rintro ⟨id, live⟩
  exact dead ⟨id, retires.old h c found id live⟩

theorem retires_freeSlot (r : Registry) (id : ChannelId) : Retires r (r.freeSlot id) := by
  refine .of_channels_eq rfl ?_
  intro other h live
  rw [live?_freeSlot] at live
  split at live
  · cases live
  · exact live

theorem Opens.retires (opens : r.Opens id pair now s) : Retires r s := by
  refine ⟨opens.confined.toEvolves, ?_⟩
  intro h c found other live
  by_cases same : id = other
  · subst same
    obtain rfl : ⟨r.channels.size⟩ = h := Option.some.inj (opens.live?.symm.trans live)
    obtain ⟨inside, -⟩ := Array.getElem?_eq_some_iff.mp found
    exact absurd inside (Nat.lt_irrefl _)
  · rwa [← opens.live?_of_ne same]

theorem Grants.retires (granted : r.Grants res s) : Retires r s := by
  obtain ⟨-, -, rfl⟩ := granted
  refine .of_channels_eq rfl ?_
  intro other h live
  rw [live?_eq_some_iff, getElem?_setSlot] at live
  split at live
  · cases live
  · rwa [live?_eq_some_iff]

theorem channel?_modifyChannel (r : Registry) (h one : Handle) (f : Channel → Channel) :
    (r.modifyChannel h f).channel? one =
      if one = h then (r.channel? one).map f else r.channel? one := by
  have index : h.index = one.index ↔ one = h := by
    rw [Handle.mk.injEq, eq_comm]
  simp only [channel?, modifyChannel, Array.getElem?_modify, index]

/-- Changing a channel gives no name to anyone. -/
theorem retires_modifyChannel (r : Registry) (h : Handle) {f : Channel → Channel}
    (advances : ∀ c, r.channel? h = some c → c.Advances (f c)) :
    Retires r (r.modifyChannel h f) := by
  refine ⟨⟨?_, fun _ _ live => .inl live⟩, fun _ _ _ _ live => live⟩
  intro one c found
  rw [channel?_modifyChannel]
  split
  · next same =>
    subst same
    exact ⟨f c, by rw [found]; rfl, advances c found⟩
  · exact ⟨c, found, .refl c⟩

/-! ### One call -/

/-- Both ways of asking for a reservation: it is granted, or nothing changes. -/
theorem retires_answer {answer : Except ChannelError Reservation × Registry}
    (granted : ∀ {res s}, answer = (.ok res, s) → r.Grants res s)
    (refused : ∀ {e s}, answer = (.error e, s) → s = r) : Retires r answer.2 := by
  obtain ⟨e | res, s⟩ := answer
  · obtain rfl := refused rfl
    exact .refl _
  · exact (granted rfl).retires

theorem retires_register (r : Registry) (id : ChannelId) (pair : CipherPair) (now : Nat) :
    Retires r (r.register id pair now).2 := by
  rw [register]
  split
  · next refused =>
    rw [reserve_error refused]
    exact .refl r
  · next answer => exact ((reserve_ok answer).2.opens pair now).retires

theorem retires_rekey (r : Registry) (id : ChannelId) (pair : CipherPair) (now : Nat) :
    Retires r (r.rekey id pair now).2 := by
  rw [rekey]
  split
  · exact .refl r
  · exact (opens_setLive r id pair now).retires

theorem retires_lookup (r : Registry) (id : ChannelId) (now : Nat) :
    Retires r (r.lookup id now).2 := by
  rw [lookup]
  split
  · exact retires_modifyChannel r _ fun _ _ => .of_pair rfl rfl
  · exact .refl r

theorem retires_remove (r : Registry) (id : ChannelId) : Retires r (r.remove id).2 := by
  rw [remove]
  split
  · exact retires_freeSlot r id
  · exact .refl r

theorem retires_removeChannel (r : Registry) (h : Handle) : Retires r (r.removeChannel h).2 := by
  rw [removeChannel]
  split
  · exact .refl r
  · split
    · exact retires_freeSlot r _
    · exact .refl r

theorem retires_recordFailure (r : Registry) (h : Handle) : Retires r (r.recordFailure h).2 := by
  rw [recordFailure]
  split
  · exact .refl r
  · next c found =>
    have counted := retires_modifyChannel r h
      (f := fun d => { d with authFailures := c.authFailures + 1 }) fun _ _ => .of_pair rfl rfl
    dsimp only
    split
    · exact counted
    · exact counted.trans (retires_removeChannel _ h)

theorem retires_expireIdle (r : Registry) (now : Nat) : Retires r (r.expireIdle now).2 :=
  .of_channels_eq (channels_expireIdle r now) fun _ _ live => live?_of_expireIdle live

theorem retires_release (r : Registry) (res : Reservation) : Retires r (r.release res) := by
  rw [release]
  split
  · exact retires_freeSlot r res.id
  · exact .refl r

theorem retires_step {α : Type} (r : Registry) (h : Handle)
    {f : Channel → Except ChannelError α × Channel}
    (advances : ∀ c : Channel, c.Advances (f c).2) : Retires r (r.step h f).2 := by
  rw [step]
  split
  · exact .refl r
  · next c found =>
    refine retires_modifyChannel r h ?_
    intro d there
    obtain rfl := Option.some.inj (found.symm.trans there)
    exact advances c

/-- A reservation that is given up frees the name of no channel. -/
theorem live?_release (r : Registry) (res : Reservation) (id : ChannelId) :
    (r.release res).live? id = r.live? id := by
  rw [release]
  split
  · next reserved =>
    rw [live?_freeSlot]
    split
    · next same =>
      subst same
      exact (live?_eq_none_of_reserved reserved).symm
    · rfl
  · rfl

/-! ### Cleaning up through a handle -/

/-- What a clean-up through the handle `h` may do: it says that it has freed a name exactly if it
has, and the name stood for the channel of the handle. No other channel has changed. -/
structure CleansUp (r : Registry) (h : Handle) (freed : Bool) (s : Registry) : Prop where
  slots : ∀ id : ChannelId, s.slots[id]? =
    if freed = true ∧ r.slots[id]? = some (.live h) then none else r.slots[id]?
  answer : freed = true ↔ ∃ id : ChannelId, r.slots[id]? = some (.live h) ∧ s.slots[id]? = none
  kept : ∀ other, other ≠ h → s.channel? other = r.channel? other

theorem CleansUp.of_slots_eq (slots : s.slots = r.slots)
    (kept : ∀ other, other ≠ h → s.channel? other = r.channel? other) :
    CleansUp r h false s := by
  refine ⟨fun id => by simp [slots], ?_, kept⟩
  constructor
  · intro freed
    cases freed
  · rintro ⟨id, live, free⟩
    rw [slots, live] at free
    cases free

/-- The one name that stands for the channel is freed. -/
theorem cleansUp_freeSlot (named : Named r) (found : r.channel? h = some c)
    (live : r.live? c.id = some h) : CleansUp r h true (r.freeSlot c.id) := by
  have own : ∀ id, r.slots[id]? = some (.live h) ↔ c.id = id := by
    intro id
    constructor
    · intro slot
      obtain ⟨d, there, name⟩ := named id h ((live?_eq_some_iff r id h).mpr slot)
      rw [← name, Option.some.inj (found.symm.trans there)]
    · rintro rfl
      exact (live?_eq_some_iff r c.id h).mp live
  refine ⟨?_, ⟨fun _ => ⟨c.id, (own c.id).mpr rfl, ?_⟩, fun _ => rfl⟩, fun _ _ => rfl⟩
  · intro id
    simp only [getElem?_freeSlot, own, true_and]
  · rw [getElem?_freeSlot, if_pos rfl]

theorem removeChannel_cleansUp (named : Named r) (h : Handle) :
    ((r.removeChannel h).1 = true ↔ r.IsLive h) ∧
      CleansUp r h (r.removeChannel h).1 (r.removeChannel h).2 := by
  rw [removeChannel]
  cases found : r.channel? h with
  | none =>
    refine ⟨?_, .of_slots_eq rfl fun _ _ => rfl⟩
    constructor
    · intro freed
      cases freed
    · intro live
      obtain ⟨c, there⟩ := live.found named
      rw [found] at there
      cases there
  | some c =>
    rw [isLive_iff named found]
    by_cases live : r.live? c.id = some h
    · simp only [if_pos live]
      exact ⟨iff_of_true trivial live, cleansUp_freeSlot named found live⟩
    · simp only [if_neg live]
      exact ⟨iff_of_false (by simp) live, .of_slots_eq rfl fun _ _ => rfl⟩

/-- Counting a refusal frees the name of a live channel at the limit. -/
theorem recordFailure_cleansUp (named : Named r) (h : Handle) :
    ((r.recordFailure h).1 = true ↔ r.IsLive h ∧
        ∃ c, r.channel? h = some c ∧ Exhausts r.limits (c.authFailures + 1)) ∧
      CleansUp r h (r.recordFailure h).1 (r.recordFailure h).2 := by
  rw [recordFailure]
  cases found : r.channel? h with
  | none =>
    refine ⟨?_, .of_slots_eq rfl fun _ _ => rfl⟩
    simp
  | some c =>
    have counted := updates_modifyChannel found fun d =>
      { d with authFailures := c.authFailures + 1 }
    have named' := (counted.confined found (.of_pair rfl rfl)).toEvolves.named named
    obtain ⟨removes, cleansUp⟩ := removeChannel_cleansUp named' h
    rw [isLive_congr counted.live?] at removes
    dsimp only
    rw [counted.limits]
    split
    · next few =>
      have stays := not_exhausts_iff.mpr few
      refine ⟨iff_of_false (by simp) ?_, .of_slots_eq rfl counted.kept⟩
      rintro ⟨-, d, there, exhausts⟩
      obtain rfl := Option.some.inj there
      exact stays exhausts
    · next reached =>
      have exhausts := Classical.not_not.mp (mt not_exhausts_iff.mp reached)
      refine ⟨removes.trans (by simp [exhausts]), ⟨cleansUp.slots, cleansUp.answer, ?_⟩⟩
      intro other ne
      rw [cleansUp.kept other ne, counted.kept other ne]

namespace Usage

variable {u : Usage}

theorem retires_registryAfter (p : Primitives) (u : Usage) (call : Call) :
    Retires u.registry (u.step p call).registry := by
  cases call with
  | allocate scheme draws =>
    exact retires_answer (fun answer => (allocate_ok answer).1) allocate_error
  | reserve id => exact retires_answer (fun answer => (reserve_ok answer).2) reserve_error
  | register id pair now => exact retires_register u.registry id pair now
  | rekey id pair now => exact retires_rekey u.registry id pair now
  | lookup id now => exact retires_lookup u.registry id now
  | remove id => exact retires_remove u.registry id
  | removeChannel h => exact retires_removeChannel u.registry h
  | expireIdle now => exact retires_expireIdle u.registry now
  | recordFailure h => exact retires_recordFailure u.registry h
  | commit res pair now =>
    simp only [Usage.step, registryAfter]
    split
    · exact (opens_setLive u.registry res.id pair now).retires
    · exact .refl _
  | drop res =>
    simp only [Usage.step, registryAfter]
    split
    · exact retires_release u.registry res
    · exact .refl _
  | encrypt h now ad plaintext =>
    exact retires_step u.registry h fun c => c.advances_encrypt p now ad plaintext
  | decrypt h now ad ciphertext =>
    exact retires_step u.registry h fun c => c.advances_decrypt p now ad ciphertext

theorem retires_run (p : Primitives) (u : Usage) (calls : List Call) :
    Retires u.registry (run p u calls).registry := by
  induction calls generalizing u with
  | nil => exact .refl _
  | cons call calls ih => exact (retires_registryAfter p u call).trans (ih _)

/-- However a registry was called, its names stand for channels of these names. -/
theorem named_run (p : Primitives) (limits : Limits) (calls : List Call) :
    Named (run p (start limits) calls).registry :=
  (retires_run p (start limits) calls).toEvolves.named (named_new limits)

theorem run_append (p : Primitives) (u : Usage) (calls more : List Call) :
    run p u (calls ++ more) = run p (run p u calls) more :=
  List.foldl_append

/-- However a registry was called, a clean-up through a handle, however old, frees at most the name
that stands for the very channel of the handle, and says truly whether it has; a reservation that is
given up leaves every channel its name; and no name is the name of a channel that was live at one
time and was not so later. -/
theorem stale_handles_harmless (p : Primitives) (limits : Limits) (calls : List Call) :
    (∀ h, CleansUp (run p (start limits) calls).registry h
        ((run p (start limits) calls).registry.removeChannel h).1
        ((run p (start limits) calls).registry.removeChannel h).2 ∧
      CleansUp (run p (start limits) calls).registry h
        ((run p (start limits) calls).registry.recordFailure h).1
        ((run p (start limits) calls).registry.recordFailure h).2 ∧
      (((run p (start limits) calls).registry.removeChannel h).1 = true ↔
        (run p (start limits) calls).registry.IsLive h) ∧
      (((run p (start limits) calls).registry.recordFailure h).1 = true ↔
        (run p (start limits) calls).registry.IsLive h ∧
          ∃ c, (run p (start limits) calls).registry.channel? h = some c ∧
            Exhausts (run p (start limits) calls).registry.limits (c.authFailures + 1))) ∧
    (∀ res id, ((run p (start limits) calls).registry.release res).live? id =
      (run p (start limits) calls).registry.live? id) ∧
    ∀ h, (run p (start limits) calls).registry.IsLive h →
      ∀ more, ¬ (run p (start limits) (calls ++ more)).registry.IsLive h →
        ∀ rest id now,
          ((run p (start limits) (calls ++ more ++ rest)).registry.lookup id now).1 ≠ .ok h ∧
          ((run p (start limits) (calls ++ more ++ rest)).registry.remove id).1 ≠ .ok h := by
  have named := named_run p limits calls
  refine ⟨?_, live?_release _, ?_⟩
  · intro h
    obtain ⟨removes, cleansUp⟩ := removeChannel_cleansUp named h
    obtain ⟨counts, cleansUp'⟩ := recordFailure_cleansUp named h
    exact ⟨cleansUp, cleansUp', removes, counts⟩
  · intro h live more dead rest id now
    obtain ⟨c, found⟩ := live.found named
    obtain ⟨d, there, -⟩ := (retires_run p (run p (start limits) calls) more).channels h c found
    rw [← run_append] at there
    have gone := (retires_run p _ rest).not_isLive there dead
    rw [← run_append] at gone
    constructor
    · intro found
      exact gone ⟨id, live?_of_lookup found⟩
    · intro found
      exact gone ⟨id, live?_of_remove found⟩

/-- A peer that has shaken hands at a given time. -/
def rekeyed (now : Nat) : Call :=
  .rekey (.transport [1]) (.new default default .implicit) now

/-- A peer shakes hands twice. The channel of the first handshake is replaced, and it is not found
again, not even after the second one is gone and the peer has shaken hands once more. -/
theorem stale_handles_harmless_rekeyed :
    (run .standard (start Config.default.limits) [rekeyed 0]).registry.IsLive ⟨0⟩ ∧
    ¬ (run .standard (start Config.default.limits) ([rekeyed 0] ++ [rekeyed 1])).registry.IsLive
      ⟨0⟩ ∧
    ∀ id now, ((run .standard (start Config.default.limits) ([rekeyed 0] ++ [rekeyed 1] ++
      [.remove (.transport [1]), rekeyed 2])).registry.lookup id now).1 ≠ .ok ⟨0⟩ := by
  have room : (Registry.new Config.default.limits).isFull = false := by
    simp [isFull, Registry.new, Config.limits, Config.default]
  have first : (run .standard (start Config.default.limits) [rekeyed 0]).registry =
      ((Registry.new Config.default.limits).setLive (.transport [1])
        (.new default default .implicit) 0).2 := by
    simp [run, Usage.step, registryAfter, start, rekeyed, rekey, room]
  have live : (run .standard (start Config.default.limits) [rekeyed 0]).registry.IsLive ⟨0⟩ := by
    rw [first]
    exact ⟨.transport [1], live?_setLive ..⟩
  have dead : ¬ (run .standard (start Config.default.limits)
      ([rekeyed 0] ++ [rekeyed 1])).registry.IsLive ⟨0⟩ := by
    have named := named_run .standard Config.default.limits [rekeyed 0]
    have found : (run .standard (start Config.default.limits) [rekeyed 0]).registry.channel? ⟨0⟩ =
        some (.new (.transport [1]) (.new default default .implicit) 0) := by
      rw [first]
      exact channel?_setLive ..
    have second : (run .standard (start Config.default.limits)
        ([rekeyed 0] ++ [rekeyed 1])).registry =
          ((run .standard (start Config.default.limits) [rekeyed 0]).registry.setLive
            (.transport [1]) (.new default default .implicit) 1).2 := by
      rw [run_append]
      generalize run .standard (start Config.default.limits) [rekeyed 0] = u at first
      have used : u.registry.slots.contains (.transport [1]) = true := by
        simp [first, Std.HashMap.contains_eq_isSome_getElem?, getElem?_setLive]
      simp [run, Usage.step, registryAfter, rekeyed, rekey, used]
    rw [second, (opens_setLive ..).isLive_iff named found]
    rintro ⟨-, ne⟩
    exact ne rfl
  refine ⟨live, dead, ?_⟩
  intro id now
  exact ((stale_handles_harmless .standard Config.default.limits [rekeyed 0]).2.2 ⟨0⟩ live
    [rekeyed 1] dead [.remove (.transport [1]), rekeyed 2] id now).1

end Usage

end SecureChannel.Registry
