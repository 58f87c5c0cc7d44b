import SecureChannel.Proofs.ReplayWindow.Freshness

/-!
# A window and the numbers it has accepted

The rule that a window implements speaks of all numbers accepted so far: `FreshAfter` says which
numbers are fresh after a list of others. A window keeps only the highest of them and 128 bits.
`Remembers` is the invariant that ties the two together, and `fresh_iff` says that nothing is lost:
a window that remembers a list answers by the rule, for every number and every history.

The one exception is a history that contains the largest 64-bit number, where the lower edge of the
window cannot be found. No direction of a channel accepts that number.
-/

namespace SecureChannel.ReplayWindow

variable {w : ReplayWindow} {accepted : List UInt64} {n top : UInt64}

/-- A number is fresh after the numbers in a list if there are none, if it lies above all of them,
or if it is not one of them and lies less than `size` below the highest. -/
def FreshAfter (size : Nat) (accepted : List UInt64) (n : UInt64) : Prop :=
  accepted = [] ∨ (∀ k ∈ accepted, k < n) ∨
    n ∉ accepted ∧ ∃ top ∈ accepted, (∀ k ∈ accepted, k ≤ top) ∧ top.toNat - n.toNat < size

/-- A requested size is moved to the nearest one from 1 to 128. -/
theorem toNat_clampSize (size : UInt64) : (clampSize size).toNat = min (max size.toNat 1) 128 := by
  rw [clampSize, maxSize]
  split
  · next low =>
    rw [UInt64.lt_iff_toNat_lt] at low
    change 1 = _
    change size.toNat < 1 at low
    omega
  · next positive =>
    rw [UInt64.lt_iff_toNat_lt] at positive
    change ¬ size.toNat < 1 at positive
    split
    · next high =>
      rw [UInt64.lt_iff_toNat_lt] at high
      change 128 < size.toNat at high
      change 128 = _
      omega
    · next fits =>
      rw [UInt64.lt_iff_toNat_lt] at fits
      change ¬ 128 < size.toNat at fits
      omega

/-! ### The invariant -/

/-- The window knows the highest of the accepted numbers, and its bits say which of the numbers
less than 128 below it were accepted. -/
structure Remembers (w : ReplayWindow) (accepted : List UInt64) : Prop where
  empty : w.latest = none → accepted = []
  highest : ∀ top, w.latest = some top → top ∈ accepted ∧ ∀ k ∈ accepted, k ≤ top
  bits : ∀ top n, w.latest = some top → n ≤ top → top.toNat - n.toNat < 128 →
    (w.seen.getLsbD (top.toNat - n.toNat) = true ↔ n ∈ accepted)

theorem remembers_ofSize (size : UInt64) : Remembers (ofSize size) [] := by
  constructor <;> simp [ofSize]

theorem remembers_of_latest (latest : w.latest = some top) (mem : top ∈ accepted)
    (highest : ∀ k ∈ accepted, k ≤ top)
    (bits : ∀ n, n ≤ top → top.toNat - n.toNat < 128 →
      (w.seen.getLsbD (top.toNat - n.toNat) = true ↔ n ∈ accepted)) : Remembers w accepted := by
  constructor
  · intro none
    rw [latest] at none
    cases none
  · intro other found
    obtain rfl : top = other := Option.some.inj (latest.symm.trans found)
    exact ⟨mem, highest⟩
  · intro other n found
    obtain rfl : top = other := Option.some.inj (latest.symm.trans found)
    exact bits n

theorem Remembers.mark_first (remembers : Remembers w accepted) (latest : w.latest = none)
    (n : UInt64) : Remembers (w.mark n) (accepted ++ [n]) := by
  obtain rfl := remembers.empty latest
  have marked : (w.mark n).latest = some n := by simp [ReplayWindow.mark, latest]
  have seen : (w.mark n).seen = 1 := by simp [ReplayWindow.mark, latest]
  apply remembers_of_latest marked
  · simp
  · simp
  · intro k le near
    rw [UInt64.le_iff_toNat_le] at le
    have same : n.toNat - k.toNat = 0 ↔ k = n := by
      rw [← UInt64.toNat_inj]
      omega
    rw [seen, getLsbD_first]
    simp [same]

theorem Remembers.mark_above (remembers : Remembers w accepted) (latest : w.latest = some top)
    (above : top < n) : Remembers (w.mark n) (accepted ++ [n]) := by
  have marked : (w.mark n).latest = some n := by simp [ReplayWindow.mark, latest, above]
  obtain ⟨-, highest⟩ := remembers.highest top latest
  have up : top.toNat < n.toNat := UInt64.lt_iff_toNat_lt.mp above
  apply remembers_of_latest marked
  · simp
  · intro k mem
    rcases List.mem_append.mp mem with old | new
    · exact UInt64.le_of_lt (UInt64.lt_of_le_of_lt (highest k old) above)
    · exact UInt64.le_of_eq (List.mem_singleton.mp new)
  · intro k le near
    rw [seen_mark_of_above latest above near, List.mem_append, List.mem_singleton]
    rw [UInt64.le_iff_toNat_le] at le
    by_cases new : k = n
    · simp [new]
    · have apart : n.toNat - k.toNat ≠ 0 := by
        intro none
        apply new
        rw [← UInt64.toNat_inj]
        omega
      simp only [new, apart, false_or, or_false]
      by_cases reached : n.toNat - top.toNat ≤ n.toNat - k.toNat
      · -- The bit of an old number has moved up by as much as the highest number.
        have shifted : n.toNat - k.toNat - (n.toNat - top.toNat) = top.toNat - k.toNat := by omega
        have old : k ≤ top := by
          rw [UInt64.le_iff_toNat_le]
          omega
        rw [shifted, remembers.bits top k latest old (by omega)]
        simp [reached]
      · simp only [reached, false_and, false_iff]
        intro old
        have := UInt64.le_iff_toNat_le.mp (highest k old)
        omega

theorem Remembers.mark_le (remembers : Remembers w accepted) (latest : w.latest = some top)
    (le : n ≤ top) : Remembers (w.mark n) (accepted ++ [n]) := by
  have notAbove : ¬ top < n := UInt64.not_lt.mpr le
  have marked : (w.mark n).latest = some top := by simp [ReplayWindow.mark, latest, notAbove]
  obtain ⟨mem, highest⟩ := remembers.highest top latest
  apply remembers_of_latest marked
  · exact List.mem_append_left _ mem
  · intro k mem
    rcases List.mem_append.mp mem with old | new
    · exact highest k old
    · rwa [List.mem_singleton.mp new]
  · intro k kle near
    have same : top.toNat - k.toNat = top.toNat - n.toNat ↔ k = n := by
      rw [UInt64.le_iff_toNat_le] at le kle
      rw [← UInt64.toNat_inj]
      omega
    rw [seen_mark_of_le latest le near, remembers.bits top k latest kle near, List.mem_append,
      List.mem_singleton, same]

/-- Marking a number adds it to what the window remembers. -/
theorem Remembers.mark (remembers : Remembers w accepted) (n : UInt64) :
    Remembers (w.mark n) (accepted ++ [n]) := by
  cases latest : w.latest with
  | none => exact remembers.mark_first latest n
  | some top =>
    by_cases above : top < n
    · exact remembers.mark_above latest above
    · exact remembers.mark_le latest (UInt64.not_lt.mp above)

/-- A window that remembers what was accepted answers by the rule. -/
theorem Remembers.fresh_iff (remembers : Remembers w accepted)
    (below : ∀ k ∈ accepted, k.toNat < 18446744073709551615) :
    w.fresh n = true ↔ FreshAfter w.size.toNat accepted n := by
  cases latest : w.latest with
  | none =>
    rw [fresh_of_latest_none latest, remembers.empty latest]
    simp [FreshAfter]
  | some top =>
    obtain ⟨mem, highest⟩ := remembers.highest top latest
    have last := below top mem
    have small := w.size_bounds.2
    rw [← Bool.not_eq_false, fresh_eq_false_iff latest]
    by_cases above : top < n
    · have up := UInt64.lt_iff_toNat_lt.mp above
      have all : ∀ k ∈ accepted, k < n :=
        fun k old => UInt64.lt_of_le_of_lt (highest k old) above
      constructor
      · intro _
        exact .inr (.inl all)
      · intro _
        omega
    · have le : n ≤ top := UInt64.not_lt.mp above
      have nle := UInt64.le_iff_toNat_le.mp le
      constructor
      · intro notStale
        have near : top.toNat - n.toNat < w.size.toNat := by
          apply Nat.lt_of_not_le
          intro behind
          exact notStale ⟨nle, .inl (by omega)⟩
        refine .inr (.inr ⟨?_, top, mem, highest, near⟩)
        intro old
        exact notStale ⟨nle, .inr ((remembers.bits top n latest le (by omega)).mpr old)⟩
      · rintro (none | all | ⟨new, high, old, highest', near⟩) ⟨-, stale⟩
        · rw [none] at mem
          cases mem
        · exact above (all top mem)
        · have same : high = top := UInt64.le_antisymm (highest high old) (highest' top mem)
          subst same
          rcases stale with behind | marked
          · omega
          · exact new ((remembers.bits high n latest le (by omega)).mp marked)

end SecureChannel.ReplayWindow
