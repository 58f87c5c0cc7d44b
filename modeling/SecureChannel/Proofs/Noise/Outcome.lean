import SecureChannel.Proofs.Noise.Agreement

/-!
# What a finished handshake leaves

However the messages of a handshake came about, what it leaves on either side is a pair of fresh
directions in the mode that was asked for at the start. Beside its payload, a message has room for
two keys and a tag at most.
-/

namespace SecureChannel.Noise

variable {p : Primitives} {mode : NonceMode} {i i' : Initiator} {r r' : Responder}
variable {fresh : Bytes32} {payload message : Bytes} {finished : Finished}

theorem Party.finish_ok {party : Party} (done : party.finish p mode = .ok finished) :
    ∃ send receive, finished.pair = .new send receive mode := by
  rw [Party.finish] at done
  split at done
  · cases done
  · cases done
    split <;> exact ⟨_, _, rfl⟩

theorem Responder.writeResponse_ok
    (answer : r.writeResponse p fresh payload = .ok (message, finished)) :
    ∃ send receive, finished.pair = .new send receive r.mode := by
  obtain ⟨party, -, done⟩ := Responder.writeResponse_ok_iff.mp answer
  exact Party.finish_ok done

theorem Initiator.readResponse_ok (answer : i.readResponse p message = .ok (payload, finished)) :
    ∃ send receive, finished.pair = .new send receive i.mode := by
  obtain ⟨party, -, done⟩ := Initiator.readResponse_ok_iff.mp answer
  exact Party.finish_ok done

/-! ### How long a message is -/

theorem Pattern.count_e {pattern : Pattern} {tokens : List Token}
    (mem : tokens ∈ pattern.messages) : tokens.count .e = 1 := by
  cases pattern <;>
    simp only [Pattern.messages, List.mem_cons, List.not_mem_nil, or_false] at mem <;>
    rcases mem with rfl | rfl <;> rfl

/-- The ephemeral keys are all that stands before the payload. -/
theorem Party.writeTokens_ok {tokens : List Token} {out out' : Bytes} {party party' : Party}
    (written : tokens.foldlM (writeToken p fresh) (out, party) = .ok (out', party')) :
    out'.length = out.length + keyLength * tokens.count .e ∧ Kept party party' := by
  induction tokens generalizing out party with
  | nil =>
    obtain ⟨rfl, rfl⟩ := Prod.mk.inj (Except.ok.inj written)
    exact ⟨rfl, .refl party⟩
  | cons token tokens ih =>
    rw [List.foldlM_cons, bind_eq_ok_iff] at written
    obtain ⟨⟨middle, next⟩, step, rest⟩ := written
    obtain ⟨length, kept⟩ := ih rest
    refine ⟨?_, (kept_writeToken step).trans kept⟩
    rw [length, List.count_cons]
    by_cases ephemeral : token = .e
    · subst ephemeral
      obtain ⟨rfl, -⟩ := Prod.mk.inj (Except.ok.inj step)
      simp only [List.length_append, Bytes32.length_toBytes, keyLength, beq_self_eq_true, if_true]
      omega
    · obtain ⟨-, -, rfl, -⟩ := writeToken_of_ne_e ephemeral step
      simp [ephemeral]

/-- A message that was written is a key with the payload behind it. There was room for both, and
for a tag. -/
theorem Party.written_of_write {party party' : Party}
    (written : party.write p fresh payload = .ok (message, party')) :
    ∃ (head : Bytes) (next : Party), head.length = keyLength ∧
      message = head ++ (next.symmetric.encryptAndHash p payload).1 ∧ FitsMessage payload ∧
      Kept party party' := by
  obtain ⟨tokens, head, next, -, listed, writes, fits, rfl, rfl⟩ := write_ok_iff.mp written
  obtain ⟨length, kept⟩ := writeTokens_ok writes
  rw [Pattern.count_e (List.mem_of_getElem? listed)] at length
  have length : head.length = keyLength := length.trans (Nat.zero_add _)
  rw [length] at fits
  exact ⟨head, next, length, rfl, fits,
    ⟨kept.pattern, kept.role, kept.localStatic, kept.remoteStatic⟩⟩

theorem Party.length_of_write {party party' : Party} (sealing : p.Sealing)
    (written : party.write p fresh payload = .ok (message, party')) :
    message.length ≤ 2 * keyLength + payload.length + tagLength := by
  obtain ⟨head, next, front, rfl, -⟩ := written_of_write written
  have body := Symmetric.length_encryptAndHash_le sealing next.symmetric payload
  rw [List.length_append, front]
  omega

theorem Initiator.length_writeRequest_le (sealing : p.Sealing)
    (answer : i.writeRequest p fresh payload = .ok (message, i')) :
    message.length ≤ 2 * Party.keyLength + payload.length + Party.tagLength :=
  Party.length_of_write sealing (Initiator.writeRequest_ok_iff.mp answer).1

theorem Responder.length_writeResponse_le (sealing : p.Sealing)
    (answer : r.writeResponse p fresh payload = .ok (message, finished)) :
    message.length ≤ 2 * Party.keyLength + payload.length + Party.tagLength := by
  obtain ⟨party, written, -⟩ := Responder.writeResponse_ok_iff.mp answer
  exact Party.length_of_write sealing written

end SecureChannel.Noise
