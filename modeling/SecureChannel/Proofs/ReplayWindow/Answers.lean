import SecureChannel.Proofs.ReplayWindow.History

/-!
# What a window answers, over all 64-bit numbers

A window is shown any numbers one after the other, the largest 64-bit number among them.
`answer_iff_freshAfter` says what it answers to the next one, with no window in it: the number is
accepted exactly if it is fresh after the numbers accepted so far and the largest number is not one
of these. Asking without accepting gives the same answer, a refusal leaves the window as it was, and
`highest` is the highest number accepted.

Once the largest number was accepted, no number is fresh any more, not even one that lies inside the
window and was never shown: the sum that finds the lower edge stops at the largest number, so the
edge seems to have been passed by all of them. `refuses_inside_window` is such a number.
-/

namespace SecureChannel.ReplayWindow

variable {w : ReplayWindow} {accepted numbers : List UInt64} {n size : UInt64}

def largest : UInt64 := 18446744073709551615

/-! ### Numbers shown to a window -/

def shown (w : ReplayWindow) (numbers : List UInt64) : ReplayWindow :=
  numbers.foldl (fun w n => (w.accept n).2) w

/-- The numbers that a window accepts of those that it is shown. -/
def acceptedOf (w : ReplayWindow) : List UInt64 → List UInt64
  | [] => []
  | n :: numbers =>
      (if (w.accept n).1 then [n] else []) ++ (w.accept n).2.acceptedOf numbers

theorem accept_fst (w : ReplayWindow) (n : UInt64) : (w.accept n).1 = w.fresh n := by
  cases fresh : w.fresh n <;> simp [accept, fresh]

theorem accept_of_not_fresh (stale : w.fresh n = false) : w.accept n = (false, w) := by
  rw [accept, if_neg (Bool.eq_false_iff.mp stale)]

theorem accept_of_fresh (fresh : w.fresh n = true) : w.accept n = (true, w.mark n) := by
  rw [accept, if_pos fresh]

/-- A number that is shown is added to what the window remembers if it is accepted. -/
theorem Remembers.accept (remembers : w.Remembers accepted) (n : UInt64) :
    (w.accept n).2.Remembers (accepted ++ if (w.accept n).1 then [n] else []) := by
  cases fresh : w.fresh n with
  | false =>
    rw [accept_of_not_fresh fresh]
    simpa using remembers
  | true =>
    rw [accept_of_fresh fresh]
    exact remembers.mark n

theorem size_accept (w : ReplayWindow) (n : UInt64) : (w.accept n).2.size = w.size := by
  rw [ReplayWindow.accept]
  split
  · exact size_mark w n
  · rfl

/-- A window remembers the numbers that it accepted, whatever it was shown. -/
theorem Remembers.shown (remembers : w.Remembers accepted) (numbers : List UInt64) :
    (w.shown numbers).Remembers (accepted ++ w.acceptedOf numbers) := by
  induction numbers generalizing w accepted with
  | nil => simpa [ReplayWindow.shown, acceptedOf] using remembers
  | cons n numbers ih =>
    have rest := ih (remembers.accept n)
    rwa [List.append_assoc] at rest

theorem size_shown (w : ReplayWindow) (numbers : List UInt64) :
    (w.shown numbers).size = w.size := by
  induction numbers generalizing w with
  | nil => rfl
  | cons n numbers ih => exact (ih (w.accept n).2).trans (size_accept w n)

/-! ### The rule -/

theorem eq_largest_iff : n = largest ↔ 18446744073709551615 ≤ n.toNat := by
  have top : largest.toNat = 18446744073709551615 := rfl
  have := n.toNat_lt
  rw [← UInt64.toNat_inj]
  omega

/-- Nothing is fresh once the largest number is the highest. -/
theorem fresh_of_latest_largest (latest : w.latest = some largest) : w.fresh n = false := by
  have top : largest.toNat = 18446744073709551615 := rfl
  have := n.toNat_lt
  rw [fresh_eq_false_iff latest]
  omega

/-- A window that remembers what was accepted answers by the rule as long as the largest number was
not accepted, and refuses everything afterwards. -/
theorem Remembers.fresh_iff_of_any (remembers : w.Remembers accepted) :
    w.fresh n = true ↔ FreshAfter w.size.toNat accepted n ∧ largest ∉ accepted := by
  by_cases reached : largest ∈ accepted
  · have latest : w.latest = some largest := by
      cases latest : w.latest with
      | none =>
        rw [remembers.empty latest] at reached
        cases reached
      | some top =>
        have le := (remembers.highest top latest).2 largest reached
        exact congrArg some (eq_largest_iff.mpr (UInt64.le_iff_toNat_le.mp le))
    simp [fresh_of_latest_largest latest, reached]
  · have below : ∀ k ∈ accepted, k.toNat < 18446744073709551615 := by
      intro k mem
      apply Nat.lt_of_not_le
      intro atLeast
      exact reached (eq_largest_iff.mpr atLeast ▸ mem)
    simp [remembers.fresh_iff below, reached]

/-- The highest number that a window reports is the highest one it accepted, or zero. -/
theorem Remembers.highest_eq (remembers : w.Remembers accepted) :
    accepted = [] ∧ w.highest = 0 ∨ w.highest ∈ accepted ∧ ∀ k ∈ accepted, k ≤ w.highest := by
  rw [ReplayWindow.highest]
  cases latest : w.latest with
  | none => exact .inl ⟨remembers.empty latest, rfl⟩
  | some top => exact .inr (remembers.highest top latest)

/-- What a window answers to a number after it has accepted others. -/
structure AnswersByRule (size : Nat) (accepted : List UInt64) (w : ReplayWindow) (n : UInt64) :
    Prop where
  /-- It accepts the number if that is fresh and the largest number was not accepted. -/
  answer : (w.accept n).1 = true ↔ FreshAfter size accepted n ∧ largest ∉ accepted
  asked : w.fresh n = (w.accept n).1
  refusal : (w.accept n).1 = false → (w.accept n).2 = w
  /-- The number that is reported is the highest one that was accepted, or zero. -/
  highest : accepted = [] ∧ w.highest = 0 ∨ w.highest ∈ accepted ∧ ∀ k ∈ accepted, k ≤ w.highest

/-- Whatever numbers a window of the nearest possible size was shown, it answers by the rule. -/
theorem answer_iff_freshAfter (size : UInt64) (numbers : List UInt64) (n : UInt64) :
    AnswersByRule (min (max size.toNat 1) 128) ((ofSize size).acceptedOf numbers)
      ((ofSize size).shown numbers) n := by
  have remembers := (remembers_ofSize size).shown numbers
  have sized : ((ofSize size).shown numbers).size.toNat = min (max size.toNat 1) 128 := by
    rw [size_shown, size_ofSize, toNat_clampSize]
  refine ⟨?_, (accept_fst _ n).symm, ?_, remembers.highest_eq⟩
  · rw [accept_fst, ← sized]
    exact remembers.fresh_iff_of_any
  · intro refused
    rw [accept_fst] at refused
    rw [accept_of_not_fresh refused]

/-- Behind the largest number, the one just below it lies inside the window and was never shown, but
it is refused. -/
theorem refuses_inside_window :
    FreshAfter 64 ((ofSize 64).acceptedOf [largest]) (largest - 1) ∧
      (((ofSize 64).shown [largest]).accept (largest - 1)).1 = false := by
  have only : (ofSize 64).acceptedOf [largest] = [largest] := rfl
  rw [only]
  refine ⟨.inr (.inr ⟨by decide, largest, ?_, ?_, by decide⟩), rfl⟩
  · simp
  · simp

end SecureChannel.ReplayWindow
