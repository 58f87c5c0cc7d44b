import SecureChannel.Proofs.Registry.Usage

/-!
# Reservations are exclusive

From the moment a reservation is granted until it is committed or dropped, its name should be out of
reach: no other call makes a channel live under it, no second reservation of it is granted, and the
channel that is committed in the end takes the place of no other. `Respects` says this of one call.

All calls respect the outstanding reservations but one. Re-keying replaces what it finds under a
name, and does not look whether that is a channel or a reservation. A run is exclusive exactly if it
re-keys no name while that is reserved.
-/

namespace SecureChannel.Registry.Usage

variable {p : Primitives} {u : Usage} {call : Call} {res : Reservation}

/-- A call leaves the reservations of others alone. -/
structure Respects (p : Primitives) (u : Usage) (call : Call) : Prop where
  hidden : ∀ res ∈ u.held, u.consumed call ≠ some res →
    (u.step p call).registry.live? res.id = none
  single : ∀ res ∈ u.held, u.granted call ≠ some res
  undisplaced : ∀ res pair now, call = .commit res pair now → res ∈ u.held →
    u.registry.live? res.id = none

theorem mem_heldAfter (held : res ∈ u.held) (kept : u.consumed call ≠ some res) :
    res ∈ u.heldAfter call := by
  have erased : ∀ other, (if other ∈ u.held then some other else none) ≠ some res →
      res ∈ u.held.erase other := by
    intro other differs
    apply (List.mem_erase_of_ne ?_).mpr held
    intro same
    apply differs
    rw [← same, if_pos held]
  cases call with
  | commit other pair now => exact erased other kept
  | drop other => exact erased other kept
  | _ => exact List.mem_append_right _ held

/-- A granted reservation is the first of those outstanding afterwards. -/
theorem heldAfter_of_granted (granted : u.granted call = some res) :
    u.heldAfter call = res :: u.held := by
  cases call <;> simp_all [Usage.granted, Usage.heldAfter]

/-- As long as names are on track, a call that does not take a reserved name respects all
reservations: they are still on track afterwards. -/
theorem Tracked.respects (tracked : Tracked u) (respectful : ¬ Trespasses u call) :
    Respects p u call := by
  have after := tracked.step (p := p) respectful
  refine ⟨?_, ?_, ?_⟩
  · intro res held kept
    exact live?_eq_none_of_reserved ((after.reserved res.id).mpr (mem_heldAfter held kept))
  · intro res held granted
    have distinct : (res :: u.held).Nodup := heldAfter_of_granted granted ▸ after.distinct
    exact (List.nodup_cons.mp distinct).1 held
  · intro res pair now _ held
    exact live?_eq_none_of_reserved ((tracked.reserved res.id).mpr held)

/-- Re-keying a reserved name always succeeds, and a channel is live under it at once. -/
theorem Tracked.trespass (tracked : Tracked u) (trespass : Trespasses u call) :
    ¬ Respects p u call := by
  rintro ⟨hidden, -, -⟩
  obtain ⟨id, pair, now, rfl, held⟩ := trespass
  have reserved := (tracked.reserved id).mpr held
  have used : u.registry.slots.contains id = true := by
    simp [Std.HashMap.contains_eq_isSome_getElem?, reserved]
  have absent := hidden ⟨id⟩ held (by simp [consumed])
  simp [Usage.step, registryAfter, rekey, used, live?_setLive] at absent

/-- A run of calls on any names, handles and reservations, from an empty registry on, respects
every reservation as long as it is outstanding if and only if it never re-keys a name that is
reserved at that moment. -/
theorem respects_iff_no_trespass (p : Primitives) (limits : Limits) (calls : List Call) :
    Along p (Respects p) (start limits) calls ↔
      Along p (fun u call => ¬ Trespasses u call) (start limits) calls := by
  have run : ∀ u, Tracked u → (Along p (Respects p) u calls ↔
      Along p (fun u call => ¬ Trespasses u call) u calls) := by
    induction calls with
    | nil =>
      intro u tracked
      exact Iff.rfl
    | cons call calls ih =>
      intro u tracked
      constructor
      · rintro ⟨respects, rest⟩
        have respectful : ¬ Trespasses u call := by
          intro trespass
          exact tracked.trespass trespass respects
        exact ⟨respectful, (ih _ (tracked.step respectful)).mp rest⟩
      · rintro ⟨respectful, rest⟩
        exact ⟨tracked.respects respectful, (ih _ (tracked.step respectful)).mpr rest⟩
  exact run _ (tracked_start limits)

/-- A run that is not exclusive: a name is reserved and re-keyed, and what was reserved is then
committed over the channel that has taken its name. -/
theorem rekey_takes_reserved_name :
    ¬ Along .standard (Respects .standard) (start Config.default.limits)
      [.reserve (.transport [1]),
        .rekey (.transport [1]) (.new default default .implicit) 0,
        .commit ⟨.transport [1]⟩ (.new default default .implicit) 0] := by
  rintro ⟨-, ⟨hidden, -, -⟩, -⟩
  have room : (Registry.new Config.default.limits).isFull = false := by
    simp [isFull, Registry.new, Config.limits, Config.default]
  have absent := hidden ⟨.transport [1]⟩
    (by simp [Usage.step, heldAfter, granted, start, reserve_eq_ok, room, Except.toOption])
    (by simp [consumed])
  simp [Usage.step, registryAfter, start, reserve_eq_ok, room, rekey, setSlot, live?_setLive]
    at absent

end SecureChannel.Registry.Usage
