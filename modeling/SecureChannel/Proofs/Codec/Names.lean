import SecureChannel.ChannelId
import SecureChannel.Proofs.Bytes.Numbers

/-!
# Names on the wire

The octets of a name stand for that name under its own scheme, and what is read is always a name
that may be used: no reserved number, and no tag that is empty or too long.
-/

namespace SecureChannel.ChannelId

/-- A name that a channel can have. -/
def Admissible (id : ChannelId) : Prop :=
  id.isReserved = false ∧
    ∀ tag, id = transport tag → 1 ≤ tag.length ∧ tag.length ≤ maxTransportLength

@[simp] theorem admissible_binding (digest : Bytes32) : (binding digest).Admissible :=
  ⟨rfl, by simp⟩

theorem Admissible.length_toBytes_le {id : ChannelId} (admissible : id.Admissible) :
    id.toBytes.length ≤ maxTransportLength := by
  cases id with
  | short n => simp [toBytes, maxTransportLength]
  | long n => simp [toBytes, maxTransportLength]
  | binding digest => simp [toBytes, maxTransportLength]
  | transport tag => exact (admissible.2 tag rfl).2

theorem decode_ok_iff {scheme : IdScheme} {bytes : Bytes} {id : ChannelId} :
    decode scheme bytes = .ok id ↔ ofBytes scheme bytes = .ok id ∧ id.isReserved = false := by
  cases read : ofBytes scheme bytes with
  | error e => simp [decode, read, bind, Except.bind]
  | ok other =>
    cases reserved : other.isReserved with
    | true =>
      simp only [decode, read, reserved, bind, Except.bind, if_true, throw, throwThe,
        MonadExceptOf.throw, reduceCtorEq, Except.ok.injEq, false_iff, not_and]
      rintro rfl
      simp [reserved]
    | false =>
      simp only [decode, read, reserved, bind, Except.bind, Bool.false_eq_true, if_false, pure,
        Except.pure, Except.ok.injEq, iff_self_and]
      rintro rfl
      exact reserved

theorem ofBytes_toBytes {id : ChannelId} (admissible : id.Admissible) :
    ofBytes id.scheme id.toBytes = .ok id := by
  cases id with
  | short n =>
    have small : n.toNat < Nat.pow 256 2 := n.toNat_lt
    simp only [scheme, toBytes, ofBytes, Bytes.length_ofNatBE, if_true, Bytes.toNatBE_ofNatBE]
    rw [Nat.mod_eq_of_lt small, UInt16.ofNat_toNat]
  | long n =>
    have small : n.toNat < Nat.pow 256 4 := n.toNat_lt
    simp only [scheme, toBytes, ofBytes, Bytes.length_ofNatBE, if_true, Bytes.toNatBE_ofNatBE]
    rw [Nat.mod_eq_of_lt small, UInt32.ofNat_toNat]
  | binding digest => simp [scheme, toBytes, ofBytes]
  | transport tag =>
    obtain ⟨nonempty, short⟩ := admissible.2 tag rfl
    have length : ¬ (tag.length = 0 ∨ maxTransportLength < tag.length) := by omega
    exact if_neg length

theorem decode_toBytes {id : ChannelId} (admissible : id.Admissible) :
    decode id.scheme id.toBytes = .ok id :=
  decode_ok_iff.mpr ⟨ofBytes_toBytes admissible, admissible.1⟩

/-- What is read under a scheme is a name of that scheme that may be used. -/
theorem admissible_of_decode {scheme : IdScheme} {bytes : Bytes} {id : ChannelId}
    (read : decode scheme bytes = .ok id) : id.scheme = scheme ∧ id.Admissible := by
  obtain ⟨read, fair⟩ := decode_ok_iff.mp read
  cases scheme with
  | random16 | random32 | binding =>
    simp only [ofBytes] at read
    split at read
    · obtain rfl := Except.ok.inj read
      exact ⟨rfl, fair, by simp⟩
    · cases read
  | transport =>
    simp only [ofBytes] at read
    split at read
    · cases read
    · next length =>
      obtain rfl := Except.ok.inj read
      refine ⟨rfl, fair, ?_⟩
      rintro tag ⟨⟩
      omega

/-- Under the transport scheme octets name themselves. -/
theorem decode_transport_iff {octets : Bytes} {id : ChannelId} :
    decode .transport octets = .ok id ↔
      id = transport octets ∧ 1 ≤ octets.length ∧ octets.length ≤ maxTransportLength := by
  rw [decode_ok_iff, ofBytes]
  split
  · simp only [reduceCtorEq, false_and, false_iff]
    omega
  · next length =>
    constructor
    · rintro ⟨read, -⟩
      exact ⟨(Except.ok.inj read).symm, by omega, by omega⟩
    · rintro ⟨rfl, -⟩
      exact ⟨rfl, rfl⟩

theorem admissible_ofDraw {scheme : IdScheme} {draw : Nat} {id : ChannelId}
    (drawn : ofDraw scheme draw = .ok id) : id.scheme = scheme ∧ id.Admissible := by
  cases scheme with
  | random16 =>
    obtain rfl := Except.ok.inj drawn
    refine ⟨rfl, decide_eq_false ?_, by simp⟩
    intro zero
    have := congrArg UInt16.toNat zero
    rw [UInt16.toNat_ofNat', UInt16.toNat_zero, UInt16.size] at this
    omega
  | random32 =>
    obtain rfl := Except.ok.inj drawn
    refine ⟨rfl, decide_eq_false ?_, by simp⟩
    intro zero
    have := congrArg UInt32.toNat zero
    rw [UInt32.toNat_ofNat', UInt32.toNat_zero, UInt32.size] at this
    omega
  | binding | transport => cases drawn

/-- An assigned name in front of a reply is split off again. -/
theorem splitAssigned_toBytes {id : ChannelId} (admissible : id.Admissible)
    (assigned : id.scheme.assignedLength = some id.toBytes.length) (reply : Bytes) :
    splitAssigned id.scheme (id.toBytes ++ reply) = .ok (id, reply) := by
  have long : ¬ (id.toBytes ++ reply).length < id.toBytes.length := by
    rw [List.length_append]
    exact Nat.not_lt.mpr (Nat.le_add_right ..)
  simp only [splitAssigned, assigned, long, if_false, List.take_left, List.drop_left,
    decode_toBytes admissible, bind, Except.bind, pure, Except.pure]

/-- What is split off a reply is as long as the scheme says. -/
theorem length_of_splitAssigned {scheme : IdScheme} {payload rest : Bytes} {id : ChannelId}
    (answer : splitAssigned scheme payload = .ok (id, rest)) :
    payload.length = scheme.assignedLength.getD 0 + rest.length := by
  cases length : scheme.assignedLength with
  | none =>
    simp only [splitAssigned, length] at answer
    cases answer
  | some n =>
    simp only [splitAssigned, length, bind, Except.bind] at answer
    split at answer
    · cases answer
    · next long =>
      cases read : decode scheme (payload.take n) with
      | error e =>
        rw [read] at answer
        cases answer
      | ok other =>
        rw [read] at answer
        obtain ⟨-, rfl⟩ := Prod.mk.inj (Except.ok.inj answer)
        simp only [Option.getD_some, List.length_drop]
        omega

end SecureChannel.ChannelId
