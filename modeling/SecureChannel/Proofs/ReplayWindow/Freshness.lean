import SecureChannel.ReplayWindow

/-!
# A number is accepted once

Two facts make a window good against replays. A number that was accepted is not fresh afterwards,
and a number that is not fresh never becomes fresh again, whatever else is accepted. Both hold for
every window, also at the upper end of the numbers, where the lower edge of the window stays behind
because the sum that finds it stops at the largest word.
-/

namespace SecureChannel.ReplayWindow

variable {w : ReplayWindow} {n k top : UInt64}

theorem toNat_saturatingAdd (a b : UInt64) :
    (saturatingAdd a b).toNat = min (a.toNat + b.toNat) 18446744073709551615 := by
  rw [saturatingAdd]
  split
  · next fits =>
    change a.toNat + b.toNat < 18446744073709551616 at fits
    rw [UInt64.toNat_add]
    omega
  · next large =>
    change ¬ a.toNat + b.toNat < 18446744073709551616 at large
    change 18446744073709551615 = _
    omega

/-- What makes a number fresh, said with the distances that index the bitmap. -/
theorem fresh_eq_false_iff (latest : w.latest = some top) :
    w.fresh n = false ↔ n.toNat ≤ top.toNat ∧
      (min (n.toNat + w.size.toNat) 18446744073709551615 ≤ top.toNat ∨
        w.seen.getLsbD (top.toNat - n.toNat) = true) := by
  rw [fresh, latest]
  simp only [UInt64.lt_iff_toNat_lt, UInt64.le_iff_toNat_le, toNat_saturatingAdd]
  split
  · next above => simp; omega
  · next below =>
    have le : n ≤ top := by
      rw [UInt64.le_iff_toNat_le]
      omega
    rw [UInt64.toNat_sub_of_le top n le]
    split
    · next behind => simp [behind]; omega
    · next inside => simp [inside]; omega

theorem fresh_of_latest_none (latest : w.latest = none) : w.fresh n = true := by
  rw [fresh, latest]

@[simp] theorem size_mark (w : ReplayWindow) (n : UInt64) : (w.mark n).size = w.size := by
  rw [mark]
  split
  · rfl
  · split <;> rfl

/-! ### The bitmap -/

/-- A bitmap that holds the highest number alone. -/
theorem getLsbD_first (i : Nat) : (1 : BitVec 128).getLsbD i = decide (i = 0) := by
  show (1#128).getLsbD i = _
  rw [BitVec.getLsbD_one]
  simp

/-- A number above all others takes the first place, and the rest of the bitmap moves up. -/
theorem seen_mark_of_above (latest : w.latest = some top) (above : top < n) {i : Nat}
    (inside : i < 128) :
    (w.mark n).seen.getLsbD i = true ↔
      i = 0 ∨ n.toNat - top.toNat ≤ i ∧ w.seen.getLsbD (i - (n.toNat - top.toNat)) = true := by
  have up : top.toNat < n.toNat := UInt64.lt_iff_toNat_lt.mp above
  have le : top ≤ n := UInt64.le_of_lt above
  simp only [mark, latest, if_pos above, UInt64.toNat_sub_of_le n top le]
  split
  · next far =>
    have beyond : ¬ n.toNat - top.toNat ≤ i := by omega
    simp only [getLsbD_first, beyond, decide_eq_true_eq, false_and, or_false]
  · next near =>
    rw [BitVec.getLsbD_or, BitVec.getLsbD_shiftLeft, getLsbD_first]
    by_cases reached : n.toNat - top.toNat ≤ i
    · have notBefore : ¬ i < n.toNat - top.toNat := by omega
      simp only [inside, reached, notBefore, decide_true, decide_false, Bool.not_false,
        Bool.true_and, Bool.or_eq_true, decide_eq_true_eq, true_and]
      exact Or.comm
    · have before : i < n.toNat - top.toNat := by omega
      simp only [inside, reached, before, decide_true, Bool.not_true, Bool.and_false,
        Bool.false_and, Bool.false_or, decide_eq_true_eq, false_and, or_false]

/-- A number that is not above the highest one gets the bit of its distance. -/
theorem seen_mark_of_le (latest : w.latest = some top) (le : n ≤ top) {i : Nat}
    (inside : i < 128) :
    (w.mark n).seen.getLsbD i = true ↔
      w.seen.getLsbD i = true ∨ i = top.toNat - n.toNat := by
  have notAbove : ¬ top < n := UInt64.not_lt.mpr le
  have single : (BitVec.ofNat 128 (1 <<< (top.toNat - n.toNat))).getLsbD i =
      decide (i = top.toNat - n.toNat) := by
    rw [BitVec.getLsbD_ofNat, Nat.one_shiftLeft, Nat.testBit_two_pow]
    simp [inside, eq_comm]
  simp only [mark, latest, if_neg notAbove, UInt64.toNat_sub_of_le top n le, BitVec.getLsbD_or,
    BitVec.natCast_eq_ofNat, single, Bool.or_eq_true, decide_eq_true_eq]

/-! ### Freshness is lost for good -/

theorem fresh_mark_self (isFresh : w.fresh n = true) : (w.mark n).fresh n = false := by
  cases latest : w.latest with
  | none =>
    have marked : (w.mark n).latest = some n := by simp [mark, latest]
    rw [fresh_eq_false_iff marked]
    exact ⟨Nat.le_refl _, .inr (by simp [mark, latest])⟩
  | some top =>
    by_cases above : top < n
    · have marked : (w.mark n).latest = some n := by simp [mark, latest, above]
      rw [fresh_eq_false_iff marked]
      refine ⟨Nat.le_refl _, .inr ?_⟩
      rw [seen_mark_of_above latest above (by omega)]
      exact .inl (Nat.sub_self _)
    · have marked : (w.mark n).latest = some top := by simp [mark, latest, above]
      have le : n ≤ top := UInt64.not_lt.mp above
      have old : ¬ w.fresh n = false := by simp [isFresh]
      rw [fresh_eq_false_iff latest] at old
      rw [fresh_eq_false_iff marked, size_mark, ← UInt64.le_iff_toNat_le]
      refine ⟨le, .inr ?_⟩
      -- The number lies inside the window, so its distance is a position in the bitmap.
      have small := w.size_bounds.2
      have := top.toNat_lt
      rw [UInt64.le_iff_toNat_le] at le
      have inside : top.toNat - n.toNat < 128 := by omega
      rw [seen_mark_of_le latest (UInt64.not_lt.mp above) inside]
      exact .inr rfl

/-- What was not fresh is not fresh after a number was accepted. -/
theorem fresh_mark_of_not_fresh (n : UInt64) (stale : w.fresh k = false) :
    (w.mark n).fresh k = false := by
  cases latest : w.latest with
  | none => simp [fresh_of_latest_none latest] at stale
  | some top =>
    rw [fresh_eq_false_iff latest] at stale
    obtain ⟨below, seen⟩ := stale
    by_cases above : top < n
    · have marked : (w.mark n).latest = some n := by simp [mark, latest, above]
      have up : top.toNat < n.toNat := UInt64.lt_iff_toNat_lt.mp above
      rw [fresh_eq_false_iff marked, size_mark]
      refine ⟨by omega, ?_⟩
      by_cases behind : min (k.toNat + w.size.toNat) 18446744073709551615 ≤ n.toNat
      · exact .inl behind
      · -- Inside the moved window the bit of the number has moved with it.
        have small := w.size_bounds.2
        have := n.toNat_lt
        have bit : w.seen.getLsbD (top.toNat - k.toNat) = true := by
          rcases seen with old | bit
          · omega
          · exact bit
        have shifted : n.toNat - k.toNat - (n.toNat - top.toNat) = top.toNat - k.toNat := by omega
        have inside : n.toNat - k.toNat < 128 := by omega
        refine .inr ((seen_mark_of_above latest above inside).mpr (.inr ⟨by omega, ?_⟩))
        rwa [shifted]
    · have marked : (w.mark n).latest = some top := by simp [mark, latest, above]
      rw [fresh_eq_false_iff marked, size_mark]
      refine ⟨below, ?_⟩
      rcases seen with old | bit
      · exact .inl old
      · have inside := BitVec.lt_of_getLsbD bit
        exact .inr ((seen_mark_of_le latest (UInt64.not_lt.mp above) inside).mpr (.inl bit))

end SecureChannel.ReplayWindow
