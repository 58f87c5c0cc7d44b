import SecureChannel.Proofs.Registry.Retirement

/-!
# Channels that nobody uses

A channel is used when it is made, when a look-up finds it, and when it seals or opens a message.
`Usage.uses` is the record of that over a run, written down from the answers alone: which channel a
call has used, and when. A message that is refused is no use of its channel, nor is anything else
that a server does about it.

`dated_run` says that the time kept in a channel is the latest one in the record, as long as the
clock does not go back. With `expires_expireIdle`, which says what dropping idle channels does to
the names, this is `expireIdle_of_run`: exactly the channels whose latest use is more than the
timeout ago are dropped, and they are counted. A channel that was used exactly the timeout ago
stays.

Reserved names have no channel and are never idle. What else frees them is in `Usage`.
-/

namespace SecureChannel.Registry

variable {p : Primitives} {r s t : Registry} {id : ChannelId} {h : Handle} {c d : Channel}
variable {pair : CipherPair} {now timeout : Nat} {idle : Handle → Prop}

/-! ### What is dropped -/

/-- The channels for which `idle` holds are dropped and counted. Every other channel keeps its name,
reserved names stay reserved, and no channel changes, dropped or not. -/
structure Expires (r : Registry) (idle : Handle → Prop) (count : Nat) (s : Registry) : Prop where
  counted : ∃ gone : List Handle, gone.Nodup ∧ (∀ h, h ∈ gone ↔ r.IsLive h ∧ idle h) ∧
    count = gone.length
  live : ∀ id h, s.live? id = some h ↔ r.live? id = some h ∧ ¬ idle h
  reserved : SameReserved r s
  channels : s.channels = r.channels
  limits : s.limits = r.limits

/-- Only what is said about live channels matters. -/
theorem Expires.congr {other : Handle → Prop} {count : Nat} (expires : Expires r idle count s)
    (same : ∀ h, r.IsLive h → (idle h ↔ other h)) : Expires r other count s := by
  obtain ⟨gone, distinct, mem, length⟩ := expires.counted
  refine ⟨⟨gone, distinct, ?_, length⟩, ?_, expires.reserved, expires.channels, expires.limits⟩
  · intro h
    rw [mem h]
    exact and_congr_right (same h)
  · intro id h
    rw [expires.live id h]
    apply and_congr_right
    intro live
    rw [same h ⟨id, live⟩]

/-- Where nothing is idle, nothing is dropped. -/
theorem expires_none (r : Registry) (none : ∀ h, ¬ idle h) : Expires r idle 0 r := by
  refine ⟨⟨[], .nil, ?_, rfl⟩, ?_, .of_slots_eq rfl, rfl, rfl⟩
  · intro h
    simp [none h]
  · intro id h
    simp [none h]

/-- The channel that a slot holds, if it was idle for too long. -/
def idle? (r : Registry) (timeout now : Nat) (slot : Slot) : Option Handle :=
  match slot with
  | .reserved => none
  | .live h => if r.isIdle timeout now (.live h) then some h else none

theorem idle?_eq_some_iff {slot : Slot} :
    r.idle? timeout now slot = some h ↔ slot = .live h ∧ r.isIdle timeout now slot = true := by
  cases slot with
  | reserved => simp [idle?]
  | live one =>
    simp only [idle?, Option.ite_none_right_eq_some, Option.some.injEq, Slot.live.injEq]
    exact and_comm

theorem isSome_idle? (slot : Slot) :
    (r.idle? timeout now slot).isSome = r.isIdle timeout now slot := by
  cases slot with
  | reserved => rfl
  | live h => cases idle : r.isIdle timeout now (.live h) <;> simp [idle?, idle]

theorem isIdle_live_iff : r.isIdle timeout now (.live h) = true ↔
    ∃ c, r.channel? h = some c ∧ timeout < c.idleFor now := by
  rw [isIdle]
  cases r.channel? h <;> simp

/-- The channels that were idle for too long, in the order of the table. -/
def idleHandles (r : Registry) (timeout now : Nat) : List Handle :=
  r.slots.toList.filterMap fun entry => r.idle? timeout now entry.2

theorem mem_idleHandles : h ∈ r.idleHandles timeout now ↔
    r.IsLive h ∧ ∃ c, r.channel? h = some c ∧ timeout < c.idleFor now := by
  rw [idleHandles, List.mem_filterMap, ← isIdle_live_iff]
  constructor
  · rintro ⟨⟨id, slot⟩, mem, idle⟩
    obtain ⟨rfl, idle⟩ := idle?_eq_some_iff.mp idle
    rw [Std.HashMap.mem_toList_iff_getElem?_eq_some, ← live?_eq_some_iff] at mem
    exact ⟨⟨id, mem⟩, idle⟩
  · rintro ⟨⟨id, live⟩, idle⟩
    refine ⟨(id, .live h), ?_, idle?_eq_some_iff.mpr ⟨rfl, idle⟩⟩
    rwa [Std.HashMap.mem_toList_iff_getElem?_eq_some, ← live?_eq_some_iff]

/-- A channel has one name, so it is counted once. -/
theorem nodup_idleHandles (named : Named r) : (r.idleHandles timeout now).Nodup := by
  rw [idleHandles, List.Nodup, List.pairwise_filterMap]
  apply Std.HashMap.distinct_keys_toList.imp_of_mem
  -- Two entries for one channel would be two names of it.
  rintro ⟨id, slot⟩ ⟨other, slot'⟩ mem mem' differ h idle _ idle' rfl
  obtain ⟨rfl, -⟩ := idle?_eq_some_iff.mp idle
  obtain ⟨rfl, -⟩ := idle?_eq_some_iff.mp idle'
  rw [Std.HashMap.mem_toList_iff_getElem?_eq_some, ← live?_eq_some_iff] at mem mem'
  obtain ⟨c, found, name⟩ := named id h mem
  obtain ⟨d, there, name'⟩ := named other h mem'
  obtain rfl : c = d := Option.some.inj (found.symm.trans there)
  simp [← name, ← name'] at differ

/-- A table shrinks by the slots that are taken out of it. -/
theorem size_sub_size_filter (slots : Std.HashMap ChannelId Slot) (drop : Slot → Bool) :
    slots.size - (slots.filter fun _ slot => !drop slot).size =
      slots.toList.countP fun entry => drop entry.2 := by
  rw [← Std.HashMap.length_toList, ← Std.HashMap.length_toList,
    Std.HashMap.toList_filter.length_eq, ← List.countP_eq_length_filter,
    List.length_eq_countP_add_countP fun entry : ChannelId × Slot => drop entry.2]
  simp

theorem expires_expireIdle (named : Named r) (now : Nat) :
    Expires r (fun h => ∃ timeout, r.limits.idleTimeout = some timeout ∧
        ∃ c, r.channel? h = some c ∧ timeout < c.idleFor now)
      (r.expireIdle now).1 (r.expireIdle now).2 := by
  cases limited : r.limits.idleTimeout with
  | none =>
    simp only [expireIdle, limited]
    exact expires_none r (by simp)
  | some timeout =>
    have idle : ∀ h, (∃ T, some timeout = some T ∧ ∃ c, r.channel? h = some c ∧
        T < c.idleFor now) ↔ r.isIdle timeout now (.live h) = true := by
      intro h
      simp [isIdle_live_iff]
    refine ⟨⟨r.idleHandles timeout now, nodup_idleHandles named, ?_, ?_⟩, ?_,
      sameReserved_expireIdle now, channels_expireIdle r now, limits_expireIdle r now⟩
    · intro h
      rw [idle, mem_idleHandles, isIdle_live_iff]
    · simp only [expireIdle, limited]
      rw [size_sub_size_filter, idleHandles, List.length_filterMap_eq_countP]
      simp only [isSome_idle?]
    · intro id h
      rw [idle]
      simp only [expireIdle, limited, live?_eq_some_iff, Std.HashMap.getElem?_filter',
        Option.filter_eq_some_iff, Bool.not_eq_true', Bool.not_eq_true]

/-! ### What a call does to the times of last use -/

/-- The channel that is used, if any, was last used at that time. Every other channel was there
before, and was last used when it was. -/
structure Touches (r : Registry) (use : Option (Handle × Nat)) (s : Registry) : Prop where
  used : ∀ h time, use = some (h, time) → ∃ c, s.channel? h = some c ∧ c.lastUsed = time
  kept : ∀ h d, s.channel? h = some d → (∀ time, use ≠ some (h, time)) →
    ∃ c, r.channel? h = some c ∧ c.lastUsed = d.lastUsed

theorem Touches.of_channels_eq (channels : s.channels = r.channels) : Touches r none s := by
  refine ⟨by simp, ?_⟩
  intro h d found _
  rw [channel?, channels] at found
  exact ⟨d, found, rfl⟩

theorem Touches.refl (r : Registry) : Touches r none r :=
  .of_channels_eq rfl

/-- Names have no part in it. -/
theorem Touches.channels_eq {use : Option (Handle × Nat)} (touches : Touches r use s)
    (channels : t.channels = s.channels) : Touches r use t := by
  have same : ∀ h, t.channel? h = s.channel? h := by
    intro h
    rw [channel?, channels, ← channel?]
  refine ⟨?_, ?_⟩
  · intro h time use
    rw [same]
    exact touches.used h time use
  · intro h d found
    rw [same] at found
    exact touches.kept h d found

theorem Touches.of_modifyChannel {f : Channel → Channel}
    (same : ∀ c, (f c).lastUsed = c.lastUsed) : Touches r none (r.modifyChannel h f) := by
  refine ⟨by simp, ?_⟩
  intro one d found _
  rw [channel?_modifyChannel] at found
  split at found
  · obtain ⟨c, there, rfl⟩ := Option.map_eq_some_iff.mp found
    exact ⟨c, there, (same c).symm⟩
  · exact ⟨d, found, rfl⟩

theorem Touches.of_updates (updates : r.Updates h d s) :
    Touches r (some (h, d.lastUsed)) s := by
  constructor
  · intro one time same
    cases same
    exact ⟨d, updates.changed, rfl⟩
  · intro one e found other
    have ne : one ≠ h := by
      rintro rfl
      exact other d.lastUsed rfl
    rw [updates.kept one ne] at found
    exact ⟨e, found, rfl⟩

/-- A channel that is made is used. -/
theorem Opens.touches (opens : r.Opens id pair now s) :
    Touches r (some (⟨r.channels.size⟩, now)) s := by
  constructor
  · intro h time same
    cases same
    exact ⟨_, opens.channel?, rfl⟩
  · intro h d found other
    rcases opens.channel?_cases found with rfl | old
    · exact absurd rfl (other now)
    · exact ⟨d, old, rfl⟩

theorem Grants.channels {res : Reservation} (granted : r.Grants res s) :
    s.channels = r.channels := by
  rw [granted.eq, channels_setSlot]

/-- Both ways of asking for a reservation use no channel. -/
theorem touches_answer {answer : Except ChannelError Reservation × Registry}
    (granted : ∀ {res s}, answer = (.ok res, s) → r.Grants res s)
    (refused : ∀ {e s}, answer = (.error e, s) → s = r) : Touches r none answer.2 := by
  obtain ⟨e | res, s⟩ := answer
  · obtain rfl := refused rfl
    exact .refl _
  · exact .of_channels_eq (granted rfl).channels

theorem touches_register (r : Registry) (id : ChannelId) (pair : CipherPair) (now : Nat) :
    Touches r ((r.register id pair now).1.toOption.map (·, now)) (r.register id pair now).2 := by
  rw [register]
  split
  · next refused =>
    rw [reserve_error refused]
    exact .refl r
  · next res s answer =>
    have granted := (reserve_ok answer).2
    have opens := granted.opens pair now
    have fresh : (s.commit res pair now).1 = ⟨r.channels.size⟩ := by
      rw [← granted.channels]
      rfl
    simp only [Except.toOption, Option.map_some, fresh]
    exact opens.touches

theorem touches_rekey (r : Registry) (id : ChannelId) (pair : CipherPair) (now : Nat) :
    Touches r ((r.rekey id pair now).1.toOption.map (·, now)) (r.rekey id pair now).2 := by
  rw [rekey]
  split
  · exact .refl r
  · exact (opens_setLive r id pair now).touches

theorem touches_lookup (named : Named r) (id : ChannelId) (now : Nat) :
    Touches r ((r.lookup id now).1.toOption.map (·, now)) (r.lookup id now).2 := by
  rw [lookup]
  split
  · next h live =>
    obtain ⟨c, found, -⟩ := named id h live
    exact .of_updates (updates_modifyChannel found fun c => c.touch now)
  · exact .refl r

/-- A channel that does a step is used if the step succeeds. -/
theorem touches_step {α : Type} (r : Registry) (h : Handle) (now : Nat)
    {f : Channel → Except ChannelError α × Channel}
    (succeeds : ∀ c a d, f c = (.ok a, d) → d.lastUsed = now)
    (fails : ∀ c e d, f c = (.error e, d) → d = c) :
    Touches r ((r.step h f).1.toOption.map fun _ => (h, now)) (r.step h f).2 := by
  cases found : r.channel? h with
  | none =>
    rw [Registry.step, found]
    exact .refl r
  | some c =>
    obtain ⟨answer, updates⟩ := step_eq (f := f) found
    rw [answer]
    rcases result : f c with ⟨e | a, d⟩
    · -- The channel is put back as it was.
      rw [result, fails c e d result] at updates
      refine ⟨by simp [Except.toOption], ?_⟩
      intro one e found' _
      by_cases same : one = h
      · subst same
        obtain rfl : c = e := Option.some.inj (updates.changed.symm.trans found')
        exact ⟨c, found, rfl⟩
      · rw [updates.kept one same] at found'
        exact ⟨e, found', rfl⟩
    · rw [result] at updates
      rw [← succeeds c a d result]
      exact .of_updates updates

theorem touches_encrypt (p : Primitives) (r : Registry) (h : Handle) (now : Nat)
    (ad plaintext : Bytes) :
    Touches r ((r.encrypt p h now ad plaintext).1.toOption.map fun _ => (h, now))
      (r.encrypt p h now ad plaintext).2 := by
  apply touches_step
  · intro c a d sealed
    rw [Channel.encrypt] at sealed
    split at sealed <;> cases sealed
    rfl
  · intro c e d refused
    rw [Channel.encrypt] at refused
    split at refused <;> cases refused
    rfl

theorem channel_of_decrypt_error {ad ciphertext : Bytes} {e : ChannelError}
    (refused : c.decrypt p now ad ciphertext = (.error e, d)) : d = c := by
  rw [Channel.decrypt] at refused
  split at refused <;> cases refused
  rfl

theorem modifyChannel_self (found : r.channel? h = some c) :
    (r.modifyChannel h fun _ => c) = r := by
  have same : r.channels.modify h.index (fun _ => c) = r.channels := by
    apply Array.ext_getElem?
    intro i
    rw [Array.getElem?_modify]
    split
    · next index =>
      rw [channel?, index] at found
      rw [found, Option.map_some]
    · rfl
  rw [modifyChannel, same]

theorem decrypt_of_error {ad ciphertext : Bytes} {e : ChannelError}
    (refused : (r.decrypt p h now ad ciphertext).1 = .error e) :
    (r.decrypt p h now ad ciphertext).2 = r := by
  rw [decrypt, Registry.step] at refused ⊢
  cases found : r.channel? h with
  | none => rfl
  | some c =>
    rw [found] at refused
    have stays : (c.decrypt p now ad ciphertext).2 = c :=
      channel_of_decrypt_error (Prod.ext refused rfl)
    dsimp only
    rw [stays, modifyChannel_self found]

theorem touches_decrypt (p : Primitives) (r : Registry) (h : Handle) (now : Nat)
    (ad ciphertext : Bytes) :
    Touches r ((r.decrypt p h now ad ciphertext).1.toOption.map fun _ => (h, now))
      (r.decrypt p h now ad ciphertext).2 := by
  apply touches_step
  · intro c a d opened
    rw [Channel.decrypt] at opened
    split at opened <;> cases opened
    rfl
  · intro c e d refused
    exact channel_of_decrypt_error refused

theorem touches_remove (r : Registry) (id : ChannelId) : Touches r none (r.remove id).2 := by
  rw [remove]
  split <;> exact .of_channels_eq rfl

theorem channels_removeChannel (r : Registry) (h : Handle) :
    (r.removeChannel h).2.channels = r.channels := by
  rw [removeChannel]
  split
  · rfl
  · split <;> rfl

theorem touches_removeChannel (r : Registry) (h : Handle) :
    Touches r none (r.removeChannel h).2 :=
  .of_channels_eq (channels_removeChannel r h)

/-- A refusal is counted, which is no use. -/
theorem touches_recordFailure (r : Registry) (h : Handle) :
    Touches r none (r.recordFailure h).2 := by
  rw [recordFailure]
  split
  · exact .refl r
  · next c _ =>
    have counted : Touches r none
        (r.modifyChannel h fun d => { d with authFailures := c.authFailures + 1 }) :=
      .of_modifyChannel fun _ => rfl
    dsimp only
    split
    · exact counted
    · exact counted.channels_eq (channels_removeChannel _ h)

theorem touches_release (r : Registry) (res : Reservation) : Touches r none (r.release res) := by
  rw [release]
  split <;> exact .of_channels_eq rfl

/-! ### Runs -/

def Call.time? : Call → Option Nat
  | .register _ _ now | .rekey _ _ now | .lookup _ now | .expireIdle now | .commit _ _ now
  | .encrypt _ now _ _ | .decrypt _ now _ _ => some now
  | .allocate _ _ | .reserve _ | .remove _ | .removeChannel _ | .recordFailure _ | .drop _ => none

/-- The clock does not go back from call to call. -/
def OnClock (calls : List Call) : Prop :=
  (calls.filterMap Call.time?).Pairwise (· ≤ ·)

theorem onClock_cons {call : Call} {calls : List Call} : OnClock (call :: calls) ↔
    (∀ later ∈ calls, ∀ time, call.time? = some time → ∀ next, later.time? = some next →
      time ≤ next) ∧ OnClock calls := by
  rw [OnClock, OnClock, List.pairwise_filterMap, List.pairwise_filterMap, List.pairwise_cons]

/-- The latest use of a channel in a record of uses. -/
def LatestUse (record : List (Handle × Nat)) (h : Handle) (time : Nat) : Prop :=
  (h, time) ∈ record ∧ ∀ other, (h, other) ∈ record → other ≤ time

theorem LatestUse.unique {record : List (Handle × Nat)} {time other : Nat}
    (latest : LatestUse record h time) (latest' : LatestUse record h other) : time = other :=
  Nat.le_antisymm (latest'.2 time latest.1) (latest.2 other latest'.1)

/-- The time in each channel is that of its latest use. -/
def Dated (record : List (Handle × Nat)) (r : Registry) : Prop :=
  ∀ h c, r.channel? h = some c → LatestUse record h c.lastUsed

theorem dated_new (limits : Limits) : Dated [] (.new limits) := by
  intro h c found
  simp [channel?, Registry.new] at found

/-- A use that is not earlier than any in the record is the latest of its channel. -/
theorem Dated.touches {record : List (Handle × Nat)} {use : Option (Handle × Nat)}
    (dated : Dated record r) (touches : Touches r use s)
    (later : ∀ h time, use = some (h, time) → ∀ one other, (one, other) ∈ record → other ≤ time) :
    Dated (record ++ use.toList) s := by
  intro h d found
  by_cases used : ∃ time, use = some (h, time)
  · obtain ⟨time, rfl⟩ := used
    obtain ⟨e, there, rfl⟩ := touches.used h time rfl
    obtain rfl : d = e := Option.some.inj (found.symm.trans there)
    refine ⟨by simp, ?_⟩
    intro other mem
    rcases List.mem_append.mp mem with earlier | own
    · exact later h d.lastUsed rfl h other earlier
    · obtain rfl : other = d.lastUsed := by simpa using own
      exact Nat.le_refl _
  · have unused : ∀ time, use ≠ some (h, time) := by
      intro time same
      exact used ⟨time, same⟩
    obtain ⟨c, there, same⟩ := touches.kept h d found unused
    obtain ⟨mem, latest⟩ := dated h c there
    rw [← same]
    refine ⟨List.mem_append_left _ mem, ?_⟩
    intro other mem
    rcases List.mem_append.mp mem with earlier | own
    · exact latest other earlier
    · exact absurd (Option.mem_toList.mp own) (unused other)

namespace Usage

variable {u : Usage} {call : Call} {calls : List Call} {time : Nat}

/-- The channel that a call uses, if it does, and when: the one that it makes or finds, or the one
that it seals or opens a message with. -/
def used (p : Primitives) (u : Usage) : Call → Option (Handle × Nat)
  | .register id pair now => (u.registry.register id pair now).1.toOption.map (·, now)
  | .rekey id pair now => (u.registry.rekey id pair now).1.toOption.map (·, now)
  | .lookup id now => (u.registry.lookup id now).1.toOption.map (·, now)
  | .commit res pair now =>
      if res ∈ u.held then some ((u.registry.commit res pair now).1, now) else none
  | .encrypt h now ad plaintext =>
      (u.registry.encrypt p h now ad plaintext).1.toOption.map fun _ => (h, now)
  | .decrypt h now ad ciphertext =>
      (u.registry.decrypt p h now ad ciphertext).1.toOption.map fun _ => (h, now)
  | .allocate _ _ | .reserve _ | .remove _ | .removeChannel _ | .expireIdle _ | .recordFailure _
  | .drop _ => none

/-- The record of a run: every use of a channel, and when. -/
def uses (p : Primitives) : Usage → List Call → List (Handle × Nat)
  | _, [] => []
  | u, call :: calls => (u.used p call).toList ++ uses p (u.step p call) calls

theorem time?_of_used (use : u.used p call = some (h, time)) : call.time? = some time := by
  cases call with
  | commit res pair now =>
    simp only [used, Option.ite_none_right_eq_some, Option.some.injEq, Prod.mk.injEq] at use
    rw [← use.2.2]
    rfl
  | register | rekey | lookup | encrypt | decrypt =>
    obtain ⟨_, -, same⟩ := Option.map_eq_some_iff.mp use
    rw [← (Prod.mk.inj same).2]
    rfl
  | allocate | reserve | remove | removeChannel | expireIdle | recordFailure | drop => cases use

theorem touches_registryAfter (named : Named u.registry) (p : Primitives) (call : Call) :
    Touches u.registry (u.used p call) (u.step p call).registry := by
  cases call with
  | allocate scheme draws =>
    exact touches_answer (fun answer => (allocate_ok answer).1) allocate_error
  | reserve id => exact touches_answer (fun answer => (reserve_ok answer).2) reserve_error
  | register id pair now => exact touches_register u.registry id pair now
  | rekey id pair now => exact touches_rekey u.registry id pair now
  | lookup id now => exact touches_lookup named id now
  | remove id => exact touches_remove u.registry id
  | removeChannel h => exact touches_removeChannel u.registry h
  | expireIdle now => exact .of_channels_eq (channels_expireIdle u.registry now)
  | recordFailure h => exact touches_recordFailure u.registry h
  | commit res pair now =>
    simp only [Usage.step, registryAfter, used]
    split
    · exact (opens_setLive u.registry res.id pair now).touches
    · exact .refl _
  | drop res =>
    simp only [Usage.step, registryAfter, used]
    split
    · exact touches_release u.registry res
    · exact .refl _
  | encrypt h now ad plaintext => exact touches_encrypt p u.registry h now ad plaintext
  | decrypt h now ad ciphertext => exact touches_decrypt p u.registry h now ad ciphertext

/-- Along a run, the record and the times in the channels grow together, as long as nothing in the
record is later than a call that is still to come. -/
theorem dated_run_from {record : List (Handle × Nat)} (dated : Dated record u.registry)
    (named : Named u.registry) (clock : OnClock calls)
    (past : ∀ one earlier, (one, earlier) ∈ record → ∀ call ∈ calls, ∀ time,
      call.time? = some time → earlier ≤ time) :
    Dated (record ++ uses p u calls) (run p u calls).registry := by
  induction calls generalizing u record with
  | nil =>
    rw [uses, List.append_nil]
    exact dated
  | cons call calls ih =>
    -- The record grows by what this call has used, and the clock puts that before the rest.
    obtain ⟨next, clock⟩ := onClock_cons.mp clock
    have touched : Dated (record ++ (u.used p call).toList) (u.step p call).registry := by
      refine dated.touches (touches_registryAfter named p call) ?_
      intro h time use one earlier mem
      exact past one earlier mem call List.mem_cons_self time (time?_of_used use)
    have named := (retires_registryAfter p u call).toEvolves.named named
    rw [uses, ← List.append_assoc]
    refine ih touched named clock ?_
    intro one earlier mem later mem' time same
    rcases List.mem_append.mp mem with old | own
    · exact past one earlier old later (List.mem_cons_of_mem call mem') time same
    · exact next later mem' earlier (time?_of_used (Option.mem_toList.mp own)) time same

/-- However a registry was called, each of its channels keeps the time of its latest use. -/
theorem dated_run (p : Primitives) (limits : Limits) (clock : OnClock calls) :
    Dated (uses p (start limits) calls) (run p (start limits) calls).registry := by
  refine dated_run_from (u := start limits) (dated_new limits) (named_new limits) clock ?_
  intro one earlier mem
  cases mem

theorem limits_registryAfter (p : Primitives) (u : Usage) (call : Call) :
    (u.step p call).registry.limits = u.registry.limits := by
  cases call with
  | allocate scheme draws => exact (keepsLimit_allocate u.registry scheme draws).limits
  | reserve id => exact (keepsLimit_reserve u.registry id).limits
  | register id pair now => exact (keepsLimit_register u.registry id pair now).limits
  | rekey id pair now => exact (keepsLimit_rekey u.registry id pair now).limits
  | lookup id now => exact (keepsLimit_lookup u.registry id now).limits
  | remove id => exact (keepsLimit_remove u.registry id).limits
  | removeChannel h => exact (keepsLimit_removeChannel u.registry h).limits
  | expireIdle now => exact limits_expireIdle u.registry now
  | recordFailure h => exact (keepsLimit_recordFailure u.registry h).limits
  | commit res pair now =>
    simp only [Usage.step, registryAfter]
    split
    · rfl
    · rfl
  | drop res =>
    simp only [Usage.step, registryAfter]
    split
    · exact (keepsLimit_release u.registry res).limits
    · rfl
  | encrypt h now ad plaintext =>
    exact (keepsLimit_step u.registry h fun c => c.encrypt p now ad plaintext).limits
  | decrypt h now ad ciphertext =>
    exact (keepsLimit_step u.registry h fun c => c.decrypt p now ad ciphertext).limits

theorem limits_run (p : Primitives) (u : Usage) (calls : List Call) :
    (run p u calls).registry.limits = u.registry.limits := by
  induction calls generalizing u with
  | nil => rfl
  | cons call calls ih => exact (ih (u.step p call)).trans (limits_registryAfter p u call)

/-- However a registry was called, on a clock that does not go back: every channel has a latest use.
Dropping idle channels drops exactly those that are live and were last used longer ago than the
timeout, and returns how many these are; all other live channels keep their names, reserved names
stay reserved, and without a timeout nothing happens at all. A message that is refused makes no
difference to what is dropped, also if it came through a handle that is not live any more. -/
theorem expireIdle_of_run (p : Primitives) (limits : Limits) (calls : List Call)
    (clock : OnClock calls) :
    (∀ h, (run p (start limits) calls).registry.IsLive h →
      ∃ time, LatestUse (uses p (start limits) calls) h time) ∧
    ∀ now,
      Expires (run p (start limits) calls).registry
        (fun h => ∃ timeout, limits.idleTimeout = some timeout ∧
          ∃ time, LatestUse (uses p (start limits) calls) h time ∧ time + timeout < now)
        ((run p (start limits) calls).registry.expireIdle now).1
        ((run p (start limits) calls).registry.expireIdle now).2 ∧
      (limits.idleTimeout = none → (run p (start limits) calls).registry.expireIdle now =
        (0, (run p (start limits) calls).registry)) ∧
      ∀ h time ad ciphertext e,
        ((run p (start limits) calls).registry.decrypt p h time ad ciphertext).1 = .error e →
          ((run p (start limits) calls).registry.decrypt p h time ad ciphertext).2.expireIdle now =
            (run p (start limits) calls).registry.expireIdle now := by
  have named := named_run p limits calls
  have dated := dated_run p limits clock
  have same : (run p (start limits) calls).registry.limits = limits := limits_run p _ calls
  constructor
  · intro h live
    obtain ⟨c, found⟩ := live.found named
    exact ⟨c.lastUsed, dated h c found⟩
  · intro now
    refine ⟨?_, ?_, ?_⟩
    · apply (expires_expireIdle named now).congr
      intro h live
      obtain ⟨c, found⟩ := live.found named
      have latest := dated h c found
      rw [same]
      apply exists_congr
      intro timeout
      apply and_congr_right
      intro _
      -- The channel keeps the time of its latest use, and the difference to that time is cut off
      -- at zero, below every timeout.
      constructor
      · rintro ⟨d, there, idle⟩
        obtain rfl : c = d := Option.some.inj (found.symm.trans there)
        exact ⟨c.lastUsed, latest, by rw [Channel.idleFor] at idle; omega⟩
      · rintro ⟨time, latest', idle⟩
        obtain rfl := latest.unique latest'
        exact ⟨c, found, by rw [Channel.idleFor]; omega⟩
    · intro unlimited
      rw [expireIdle, same, unlimited]
    · intro h time ad ciphertext e refused
      rw [decrypt_of_error refused]

/-- A peer that shakes hands, and of which only a message that is refused is heard after that. -/
def silent : List Call :=
  [rekeyed 0, .decrypt ⟨0⟩ 4 [] []]

/-- With a timeout of five milliseconds, the channel of such a peer is still there after five
milliseconds, and it is dropped after six. -/
theorem expireIdle_of_run_silent :
    OnClock silent ∧
    ∀ u, u = run .standard (start ⟨1, some 5, 0⟩) silent →
      (u.registry.expireIdle 5).1 = 0 ∧
      (u.registry.expireIdle 5).2.live? (.transport [1]) = some ⟨0⟩ ∧
      (u.registry.expireIdle 6).1 = 1 ∧
      (u.registry.expireIdle 6).2.live? (.transport [1]) = none := by
  have clock : OnClock silent := by
    simp [OnClock, silent, rekeyed, Call.time?]
  refine ⟨clock, ?_⟩
  rintro u rfl
  have answer : (start ⟨1, some 5, 0⟩).registry.rekey (.transport [1])
      (.new default default .implicit) 0 =
        (.ok ⟨0⟩, (setLive (.new ⟨1, some 5, 0⟩) (.transport [1])
          (.new default default .implicit) 0).2) := by
    simp [start, rekey, Registry.new, isFull, setLive]
  generalize opened : (setLive (.new ⟨1, some 5, 0⟩) (.transport [1])
    (.new default default .implicit) 0).2 = r at answer
  have found : r.channel? ⟨0⟩ =
      some (.new (.transport [1]) (.new default default .implicit) 0) := by
    rw [← opened]
    exact channel?_setLive ..
  have refused : (r.decrypt .standard ⟨0⟩ 4 [] []).1 =
      .error (.ofCipher .authenticationFailure) := by
    rw [decrypt, (step_eq found).1]
    rfl
  have record : uses .standard (start ⟨1, some 5, 0⟩) silent = [(⟨0⟩, 0)] := by
    simp [silent, uses, used, rekeyed, step, registryAfter, answer, refused, Except.toOption]
  have after : (run .standard (start ⟨1, some 5, 0⟩) silent).registry = r := by
    simp [silent, run, step, registryAfter, rekeyed, answer, decrypt_of_error refused]
  have live : r.live? (.transport [1]) = some ⟨0⟩ := by
    rw [← opened]
    exact live?_setLive ..
  obtain ⟨-, expires⟩ := expireIdle_of_run .standard ⟨1, some 5, 0⟩ silent clock
  have late : ∀ h now, (∃ timeout, some 5 = some timeout ∧
      ∃ time, LatestUse [(⟨0⟩, 0)] h time ∧ time + timeout < now) ↔ h = ⟨0⟩ ∧ 5 < now := by
    intro h now
    constructor
    · rintro ⟨timeout, same, time, ⟨mem, -⟩, idle⟩
      obtain ⟨rfl, rfl⟩ : h = ⟨0⟩ ∧ time = 0 := by simpa using mem
      cases same
      exact ⟨rfl, by omega⟩
    · rintro ⟨rfl, idle⟩
      exact ⟨5, rfl, 0, ⟨by simp, by simp⟩, by omega⟩
  simp only [after, record, late] at expires ⊢
  have stays := (expires 5).1
  have goes := (expires 6).1
  simp only [Nat.lt_irrefl, and_false, Nat.lt_succ_self, and_true] at stays goes
  refine ⟨?_, ?_, ?_, ?_⟩
  · obtain ⟨gone, -, mem, count⟩ := stays.counted
    have none : gone = [] := List.eq_nil_iff_forall_not_mem.mpr (by simp [mem])
    rw [count, none, List.length_nil]
  · rw [stays.live]
    exact ⟨live, not_false⟩
  · obtain ⟨gone, distinct, mem, count⟩ := goes.counted
    have one : gone.Perm [⟨0⟩] := by
      rw [List.perm_ext_iff_of_nodup distinct (by simp)]
      intro h
      rw [mem, List.mem_singleton]
      constructor
      · exact And.right
      · rintro rfl
        exact ⟨⟨_, live⟩, rfl⟩
    rw [count, one.length_eq, List.length_singleton]
  · rw [Option.eq_none_iff_forall_ne_some]
    intro h live'
    rw [goes.live, live] at live'
    exact live'.2 (Option.some.inj live'.1).symm

end Usage

end SecureChannel.Registry
