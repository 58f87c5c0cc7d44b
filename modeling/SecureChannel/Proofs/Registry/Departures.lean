import SecureChannel.Proofs.Registry.Locality

/-!
# How a channel loses its name

A channel is live as long as a look-up can find it. A live channel has one name, and it is gone with
that name, so every operation has a condition under which a given channel is gone afterwards:

* a channel that refuses a message is gone if that was one refusal too many in a row;
* a channel that was idle for too long is gone when idle channels are dropped;
* a channel is gone when a new one takes its name.

`Changes` is what the operations about one channel do: the channel has changed, its name is free
under the given condition, and everything else is as before. `Leaves` says the same about what is
live in place of what is in the slots.
-/

namespace SecureChannel.Registry

variable {r s t : Registry} {id : ChannelId} {h one : Handle} {c d : Channel} {pair : CipherPair}
variable {now : Nat} {gone : Prop}

def IsLive (r : Registry) (h : Handle) : Prop :=
  ∃ id, r.live? id = some h

/-- A channel that is there is live under its own name or not at all. -/
theorem isLive_iff (named : Named r) (found : r.channel? h = some c) :
    r.IsLive h ↔ r.live? c.id = some h := by
  constructor
  · rintro ⟨id, live⟩
    obtain ⟨d, there, rfl⟩ := named id h live
    obtain rfl : c = d := Option.some.inj (found.symm.trans there)
    exact live
  · intro live
    exact ⟨c.id, live⟩

theorem IsLive.found (named : Named r) (live : r.IsLive h) : ∃ c, r.channel? h = some c := by
  obtain ⟨id, live⟩ := live
  obtain ⟨c, found, -⟩ := named id h live
  exact ⟨c, found⟩

theorem isLive_congr (same : ∀ id, s.live? id = r.live? id) : s.IsLive h ↔ r.IsLive h := by
  simp only [IsLive, same]

/-- The channel of a handle is `d` now, and it is not live any more if `gone`. Nothing else has
changed. -/
structure Leaves (r : Registry) (h : Handle) (d : Channel) (gone : Prop) (s : Registry) : Prop where
  changed : s.channel? h = some d
  kept : ∀ other, other ≠ h → s.channel? other = r.channel? other
  live : ∀ one, s.IsLive one ↔ r.IsLive one ∧ ¬ (one = h ∧ gone)
  limits : s.limits = r.limits

/-- A channel that has only changed is not gone. -/
theorem Updates.leaves (updates : r.Updates h d s) (stays : ¬ gone) : Leaves r h d gone s := by
  refine ⟨updates.changed, updates.kept, ?_, updates.limits⟩
  intro one
  rw [isLive_congr updates.live?]
  simp [stays]

theorem Leaves.updates (leaves : Leaves r h c gone s) (updates : s.Updates h d t) :
    Leaves r h d gone t := by
  refine ⟨updates.changed, ?_, ?_, updates.limits.trans leaves.limits⟩
  · intro other ne
    rw [updates.kept other ne, leaves.kept other ne]
  · intro one
    rw [isLive_congr updates.live?, leaves.live]

theorem live?_freeSlot (r : Registry) (id other : ChannelId) :
    (r.freeSlot id).live? other = if id = other then none else r.live? other := by
  simp only [live?, getElem?_freeSlot]
  split <;> simp_all

/-- One refusal more ends a channel if there is a limit and the channel has reached it. -/
def Exhausts (limits : Limits) (failures : UInt32) : Prop :=
  limits.maxAuthFailures ≠ 0 ∧ limits.maxAuthFailures ≤ failures

theorem not_exhausts_iff {limits : Limits} {failures : UInt32} : ¬ Exhausts limits failures ↔
    limits.maxAuthFailures = 0 ∨ failures < limits.maxAuthFailures := by
  rw [Exhausts, Classical.not_and_iff_not_or_not, Classical.not_not, UInt32.not_le]

/-! ### The slots behind a change -/

/-- The channel of a handle is `d` now, and if `gone`, its name is free. Nothing else has changed:
this is `Leaves` with the slots themselves in place of what is live. -/
structure Changes (r : Registry) (h : Handle) (d : Channel) (gone : Prop) (s : Registry) :
    Prop where
  changed : s.channel? h = some d
  kept : ∀ other, other ≠ h → s.channel? other = r.channel? other
  freed : gone → s.slots[d.id]? = none
  slots : ∀ id : ChannelId, ¬ (gone ∧ id = d.id) → s.slots[id]? = r.slots[id]?
  limits : s.limits = r.limits

theorem Updates.changes (updates : r.Updates h d s) (stays : ¬ gone) : Changes r h d gone s := by
  refine ⟨updates.changed, updates.kept, fun lost => absurd lost stays, ?_, updates.limits⟩
  intro id _
  rw [updates.slots]

theorem Changes.of_updates (updates : r.Updates h c s) (changes : Changes s h d gone t) :
    Changes r h d gone t := by
  refine ⟨changes.changed, ?_, changes.freed, ?_, changes.limits.trans updates.limits⟩
  · intro other ne
    rw [changes.kept other ne, updates.kept other ne]
  · intro id stays
    rw [changes.slots id stays, updates.slots]

/-- A channel that keeps its name is live as before. -/
theorem Changes.live? (changes : Changes r h d gone s) (stays : ¬ gone) (id : ChannelId) :
    s.live? id = r.live? id := by
  simp only [Registry.live?, changes.slots id fun lost => stays lost.1]

/-- A channel whose name is freed is not live any more, since it has no other name. -/
theorem Changes.leaves (changes : Changes r h d gone s) (named : Named r)
    (found : r.channel? h = some c) (name : d.id = c.id) (live : r.live? c.id = some h) :
    Leaves r h d gone s := by
  refine ⟨changes.changed, changes.kept, ?_, changes.limits⟩
  intro one
  constructor
  · rintro ⟨id, stays⟩
    -- A name that was freed finds nothing, so this is another one, and it stood for `one` before.
    have other : ¬ (gone ∧ id = d.id) := by
      rintro ⟨lost, rfl⟩
      rw [live?_eq_none_of_free (changes.freed lost)] at stays
      cases stays
    have before : r.live? id = some one := by
      rwa [Registry.live?, changes.slots id other] at stays
    refine ⟨⟨id, before⟩, ?_⟩
    rintro ⟨rfl, lost⟩
    obtain ⟨e, there, rfl⟩ := named id one before
    obtain rfl : c = e := Option.some.inj (found.symm.trans there)
    exact other ⟨lost, name.symm⟩
  · rintro ⟨⟨id, before⟩, stays⟩
    refine ⟨id, ?_⟩
    rw [Registry.live?, changes.slots id]
    · exact before
    · rintro ⟨lost, rfl⟩
      rw [name] at before
      exact stays ⟨Option.some.inj (before.symm.trans live), lost⟩

theorem changes_removeChannel (found : r.channel? h = some c) (live : r.live? c.id = some h)
    (lost : gone) :
    (r.removeChannel h).1 = true ∧ Changes r h c gone (r.removeChannel h).2 := by
  simp only [removeChannel, found, live, if_true]
  refine ⟨trivial, found, fun _ _ => rfl, fun _ => ?_, ?_, rfl⟩
  · rw [getElem?_freeSlot, if_pos rfl]
  · intro id stays
    rw [getElem?_freeSlot, if_neg]
    rintro rfl
    exact stays ⟨lost, rfl⟩

theorem changes_recordFailure (found : r.channel? h = some c) (live : r.live? c.id = some h) :
    Changes r h { c with authFailures := c.authFailures + 1 }
      (Exhausts r.limits (c.authFailures + 1)) (r.recordFailure h).2 := by
  have counted := updates_modifyChannel found fun d =>
    { d with authFailures := c.authFailures + 1 }
  have same : (r.modifyChannel h fun d => { d with authFailures := c.authFailures + 1 }).limits =
      r.limits := counted.limits
  rw [recordFailure]
  simp only [found, same]
  split
  · next few => exact counted.changes (not_exhausts_iff.mpr few)
  · next reached =>
    have exhausts := Classical.not_not.mp (mt not_exhausts_iff.mp reached)
    have live' := (counted.live? c.id).trans live
    exact .of_updates counted (changes_removeChannel counted.changed live' exhausts).2

/-- Exactly the channels that were idle for too long are dropped. -/
theorem isLive_expireIdle (found : r.channel? h = some c) :
    (r.expireIdle now).2.IsLive h ↔
      r.IsLive h ∧ ¬ ∃ timeout, r.limits.idleTimeout = some timeout ∧ timeout < c.idleFor now := by
  rw [expireIdle]
  split
  · next unlimited => simp [unlimited]
  · next timeout limited =>
    have idle : r.isIdle timeout now (.live h) = decide (timeout < c.idleFor now) := by
      simp [isIdle, found]
    simp only [IsLive, live?_eq_some_iff, Std.HashMap.getElem?_filter',
      Option.filter_eq_some_iff, idle, limited]
    simp

theorem limits_expireIdle (r : Registry) (now : Nat) : (r.expireIdle now).2.limits = r.limits := by
  rw [expireIdle]
  split <;> rfl

/-- A channel is gone when a new one takes its name. -/
theorem Opens.isLive_iff (opens : r.Opens id pair now s) (named : Named r)
    (found : r.channel? h = some c) : s.IsLive h ↔ r.IsLive h ∧ c.id ≠ id := by
  have old : h ≠ ⟨r.channels.size⟩ := by
    rintro rfl
    obtain ⟨inside, -⟩ := Array.getElem?_eq_some_iff.mp found
    exact Nat.lt_irrefl _ inside
  constructor
  · rintro ⟨other, live⟩
    by_cases same : id = other
    · subst same
      exact absurd (Option.some.inj (live.symm.trans opens.live?)) old
    · rw [opens.live?_of_ne same] at live
      obtain ⟨d, there, rfl⟩ := named other h live
      obtain rfl : c = d := Option.some.inj (found.symm.trans there)
      exact ⟨⟨c.id, live⟩, Ne.symm same⟩
  · rintro ⟨live, ne⟩
    rw [Registry.isLive_iff named found] at live
    exact ⟨c.id, by rwa [opens.live?_of_ne ne.symm]⟩

end SecureChannel.Registry
