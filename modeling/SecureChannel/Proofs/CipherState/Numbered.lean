import SecureChannel.Proofs.CipherState.Runs
import SecureChannel.Proofs.ReplayWindow.History

/-!
# Receivers of numbered messages

A receiver with explicit nonces decides about a ciphertext by its window, after any run of calls
with any octets. `answer_iff_fresh` says what that comes to, with no window in it: the ciphertext is
accepted exactly if it is long enough, its number is fresh after the numbers accepted so far, and
the cipher opens the rest. Everything else is refused, the reason says why, and the refusal leaves
no trace in any later answer. So no number is accepted twice, and a text that was sealed under the
key is opened as long as its number is fresh, whatever else the receiver was shown.

`Numbered` is the invariant that carries the proof through a run: the receiver's window remembers
the accepted numbers.
-/

namespace SecureChannel.CipherState

open ReplayWindow

variable {p : Primitives} {s t : CipherState} {key : Bytes32} {window n : UInt64}
variable {accepted : List UInt64} {ad ciphertext plaintext : Bytes}

/-- The numbers under which a receiver accepts ciphertexts in a run. -/
def acceptedNumbers (p : Primitives) (s : CipherState) (calls : List Call) : List UInt64 :=
  (s.openings p calls).map fun o => statedNumber o.ciphertext

/-- A receiver has accepted the given numbers, each of them once. -/
structure Numbered (key : Bytes32) (window : UInt64) (s : CipherState) (accepted : List UInt64) :
    Prop where
  key : s.key = key
  window : ∃ w, s.window = some w ∧ w.size = clampSize window ∧ w.Remembers accepted
  usable : lastNonce ∉ accepted
  distinct : accepted.Nodup

theorem numbered_new (key : Bytes32) (window : UInt64) :
    Numbered key window (.new key (.explicit window)) [] where
  key := rfl
  window := ⟨.ofSize window, rfl, rfl, remembers_ofSize window⟩
  usable := by simp
  distinct := .nil

theorem not_mem_of_freshAfter {size : Nat} (fresh : FreshAfter size accepted n) :
    n ∉ accepted := by
  rcases fresh with rfl | above | ⟨new, -⟩
  · simp
  · intro mem
    exact UInt64.lt_irrefl n (above n mem)
  · exact new

theorem Numbered.below (numbered : Numbered key window s accepted) :
    ∀ k ∈ accepted, k.toNat < 18446744073709551615 := by
  intro k mem
  have ne : k ≠ lastNonce := by
    rintro rfl
    exact numbered.usable mem
  have ne' : k.toNat ≠ 18446744073709551615 := by
    intro last
    exact ne (UInt64.toNat_inj.mp last)
  have := k.toNat_lt
  omega

theorem Numbered.fresh_iff (numbered : Numbered key window s accepted) {w : ReplayWindow}
    (found : s.window = some w) :
    w.fresh n = true ↔ FreshAfter (min (max window.toNat 1) 128) accepted n := by
  obtain ⟨w', found', size, remembers⟩ := numbered.window
  obtain rfl : w = w' := Option.some.inj (found.symm.trans found')
  rw [remembers.fresh_iff numbered.below, size, toNat_clampSize]

/-- What such a receiver accepts. -/
theorem Numbered.decrypt_ok_iff (numbered : Numbered key window s accepted) :
    (∃ t, s.decrypt p ad ciphertext = .ok (plaintext, t)) ↔
      24 ≤ ciphertext.length ∧ statedNumber ciphertext ≠ lastNonce ∧
        FreshAfter (min (max window.toNat 1) 128) accepted (statedNumber ciphertext) ∧
        Opens p key (statedNumber ciphertext) ad (ciphertext.drop 8) plaintext := by
  obtain ⟨w, found, -⟩ := numbered.window
  simp only [decrypt_of_explicit found, decryptStated_ok_iff, numbered.key,
    numbered.fresh_iff found]
  constructor
  · rintro ⟨t, enough, usable, fresh, opens, -⟩
    exact ⟨enough, usable, fresh, opens⟩
  · rintro ⟨enough, usable, fresh, opens⟩
    exact ⟨_, enough, usable, fresh, opens, rfl⟩

/-- Why such a receiver refuses. -/
theorem Numbered.decrypt_error (numbered : Numbered key window s accepted) {e : CipherError}
    (refused : s.decrypt p ad ciphertext = .error e) :
    (e = .replay (statedNumber ciphertext) ↔ 24 ≤ ciphertext.length ∧
      (¬ FreshAfter (min (max window.toNat 1) 128) accepted (statedNumber ciphertext) ∨
        statedNumber ciphertext = lastNonce)) ∧
      (e ≠ .replay (statedNumber ciphertext) → e = .authenticationFailure) := by
  obtain ⟨w, found, -⟩ := numbered.window
  rw [decrypt_of_explicit found] at refused
  have reason := decryptStated_error refused
  rw [← numbered.fresh_iff found, Bool.not_eq_true, or_comm]
  by_cases named : 24 ≤ ciphertext.length ∧
      (statedNumber ciphertext = lastNonce ∨ w.fresh (statedNumber ciphertext) = false)
  · obtain rfl := reason.trans (if_pos named)
    simp [named]
  · obtain rfl := reason.trans (if_neg named)
    simp [named]

theorem Numbered.open (numbered : Numbered key window s accepted)
    (opened : s.decrypt p ad ciphertext = .ok (plaintext, t)) :
    Numbered key window t (accepted ++ [statedNumber ciphertext]) := by
  obtain ⟨-, usable, fresh, -⟩ := numbered.decrypt_ok_iff.mp ⟨t, opened⟩
  have new := not_mem_of_freshAfter fresh
  obtain ⟨w, found, size, remembers⟩ := numbered.window
  rw [decrypt_of_explicit found, decryptStated_ok_iff] at opened
  obtain ⟨-, -, -, -, rfl⟩ := opened
  refine ⟨numbered.key, ⟨_, rfl, ?_, remembers.mark _⟩, ?_, ?_⟩
  · rw [size_mark, size]
  · rw [List.mem_append, List.mem_singleton]
    rintro (old | last)
    · exact numbered.usable old
    · exact usable last.symm
  · rw [List.nodup_append]
    refine ⟨numbered.distinct, List.pairwise_singleton .., ?_⟩
    intro k old other mem same
    rw [List.mem_singleton.mp mem] at same
    exact new (same ▸ old)

/-- Every run leaves a receiver that has accepted the numbers of its openings. -/
theorem numbered_shownAll (p : Primitives) (key : Bytes32) (window : UInt64) (calls : List Call) :
    Numbered key window ((CipherState.new key (.explicit window)).shownAll p calls)
      ((CipherState.new key (.explicit window)).acceptedNumbers p calls) := by
  apply openings_induction (P := fun s openings =>
    Numbered key window s (openings.map fun o => statedNumber o.ciphertext))
  · exact numbered_new key window
  · intro s t before c plaintext numbered opened
    rw [List.map_append]
    exact numbered.open opened

/-- A text that was sealed with a stated number is opened under that number. -/
theorem opens_of_made (sealing : p.Sealing) {e : Seal} (made : e.Made p)
    (explicit : e.sender.isExplicit = true) :
    24 ≤ e.ciphertext.length ∧ statedNumber e.ciphertext ≠ lastNonce ∧
      Opens p e.sender.key (statedNumber e.ciphertext) e.ad (e.ciphertext.drop 8) e.plaintext := by
  obtain ⟨after, sent⟩ := made
  obtain ⟨below, short, written, -⟩ := encrypt_ok_iff.mp sent
  rw [if_pos explicit] at written
  have number : statedNumber e.ciphertext = e.sender.nonce := by
    rw [← written, statedNumber_append]
  have body : e.ciphertext.drop 8 =
      p.encrypt e.sender.key e.sender.nonce e.ad e.plaintext := by
    rw [← written, List.drop_left' (Bytes.length_ofUInt64 _)]
  have opens : e.sender.openAt p e.sender.nonce e.ad
      (p.encrypt e.sender.key e.sender.nonce e.ad e.plaintext) = .ok e.plaintext :=
    openAt_encrypt sealing short
  refine ⟨?_, ?_, ?_⟩
  · rw [← written, List.length_append, Bytes.length_ofUInt64, sealing.length_encrypt]
    omega
  · rw [number]
    exact below
  · rw [number, body]
    exact openAt_ok_iff.mp opens

/-- A receiver of numbered messages accepts exactly the authentic messages with a fresh number, and
names the number of every other one that is long enough and not fresh. A refusal does not change any
later answer, no number is accepted twice, and a text that was sealed under the key is opened as
long as its number is fresh. -/
theorem answer_iff_fresh (p : Primitives) (key : Bytes32) (window : UInt64) (calls : List Call)
    (c : Call) :
    let s := CipherState.new key (.explicit window)
    let n := statedNumber c.octets
    let accepted := s.acceptedNumbers p calls
    let fresh := FreshAfter (min (max window.toNat 1) 128) accepted n
    (∀ plaintext, (s.shownAll p calls).answer p c = .ok plaintext ↔
      24 ≤ c.octets.length ∧ n ≠ lastNonce ∧ fresh ∧
        Opens p key n c.ad (c.octets.drop 8) plaintext) ∧
    (∀ e, (s.shownAll p calls).answer p c = .error e →
      (e = .replay n ↔ 24 ≤ c.octets.length ∧ (¬ fresh ∨ n = lastNonce)) ∧
      (e ≠ .replay n → e = .authenticationFailure) ∧
      ∀ later next, (s.shownAll p (calls ++ c :: later)).answer p next =
        (s.shownAll p (calls ++ later)).answer p next) ∧
    accepted.Nodup ∧
    (p.Sealing → ∀ sealed : Seal, sealed.Made p → sealed.sender.key = key →
      sealed.sender.isExplicit = true → sealed.call = c → fresh →
        (s.shownAll p calls).answer p c = .ok sealed.plaintext) := by
  intro s n accepted fresh
  have numbered := numbered_shownAll p key window calls
  have accepts : ∀ plaintext, (s.shownAll p calls).answer p c = .ok plaintext ↔
      24 ≤ c.octets.length ∧ n ≠ lastNonce ∧ fresh ∧
        Opens p key n c.ad (c.octets.drop 8) plaintext := by
    intro plaintext
    rw [answer_ok_iff]
    exact numbered.decrypt_ok_iff
  refine ⟨accepts, ?_, numbered.distinct, ?_⟩
  · intro e refused
    have refused := answer_error_iff.mp refused
    obtain ⟨replay, other⟩ := numbered.decrypt_error refused
    refine ⟨replay, other, ?_⟩
    intro later next
    rw [shownAll_append, shownAll_append]
    change ((((s.shownAll p calls).shown p c).shownAll p later).answer p next) = _
    rw [shown_of_error refused]
  · rintro sealing sealed made rfl explicit rfl isFresh
    obtain ⟨enough, usable, opens⟩ := opens_of_made sealing made explicit
    exact (accepts sealed.plaintext).mpr ⟨enough, usable, isFresh, opens⟩

end SecureChannel.CipherState
