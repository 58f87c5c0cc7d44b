/-!
# Runs that stop at the first fault

How a run of steps that may fail succeeds, in terms of its steps.
-/

namespace SecureChannel

/-- Two steps succeed if the first one does, and the second one does with its result. -/
theorem bind_eq_ok_iff {ε α β : Type} {first : Except ε α} {second : α → Except ε β} {b : β} :
    (first >>= second) = .ok b ↔ ∃ a, first = .ok a ∧ second a = .ok b := by
  cases first with
  | error e => simp [bind, Except.bind]
  | ok a => simp [bind, Except.bind]

theorem map_eq_ok_iff {ε α β : Type} {result : Except ε α} {f : α → β} {b : β} :
    result.map f = .ok b ↔ ∃ a, result = .ok a ∧ f a = b := by
  cases result <;> simp [Except.map]

/-- What is made of a result has nothing to do with a fault. -/
theorem map_eq_error_iff {ε α β : Type} {result : Except ε α} {f : α → β} {e : ε} :
    result.map f = .error e ↔ result = .error e := by
  cases result <;> simp [Except.map]

theorem lift_state_eq {ε σ α : Type} (step : StateM σ α) (s : σ) :
    (liftM step : ExceptT ε (StateM σ) α) s = (.ok (step s).1, (step s).2) := rfl

/-- Of two steps on a state the second one is taken only if the first one succeeds, and then on the
state that the first one has left. -/
theorem bind_state_eq {ε σ α β : Type} (first : ExceptT ε (StateM σ) α)
    (second : α → ExceptT ε (StateM σ) β) (s : σ) :
    (first >>= second) s =
      match first s with
      | (.ok a, t) => second a t
      | (.error e, t) => (.error e, t) := by
  simp only [bind, ExceptT.bind, ExceptT.mk, StateT.bind]
  cases first s with
  | mk result t => cases result <;> rfl

/-- If two steps that succeed one after the other can be exchanged, then so can all of a run. -/
theorem foldlM_perm {ε α σ : Type} {step : σ → α → Except ε σ}
    (exchange : ∀ {s t u a b}, step s a = .ok t → step t b = .ok u →
      ∃ t', step s b = .ok t' ∧ step t' a = .ok u)
    {one two : List α} (perm : one.Perm two) {s u : σ} (run : one.foldlM step s = .ok u) :
    two.foldlM step s = .ok u := by
  induction perm generalizing s with
  | nil => exact run
  | cons a _ ih =>
    rw [List.foldlM_cons, bind_eq_ok_iff] at run ⊢
    obtain ⟨t, taken, run⟩ := run
    exact ⟨t, taken, ih run⟩
  | swap a b rest =>
    simp only [List.foldlM_cons, bind_eq_ok_iff] at run ⊢
    obtain ⟨t, first, next, second, run⟩ := run
    obtain ⟨t', second, first⟩ := exchange first second
    exact ⟨t', second, next, first, run⟩
  | trans _ _ ih ih' => exact ih' (ih run)

end SecureChannel
