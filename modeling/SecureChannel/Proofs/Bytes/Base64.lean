import SecureChannel.Bytes.Base64
import SecureChannel.Proofs.Bytes.Text

/-!
# Base64 texts are read back

Three octets become four values below 64 and are joined again; one or two octets that are left over
become two or three values whose last one ends in zero bits. Each value is written as a symbol,
which is never the padding, so reading stops where writing has stopped.
-/

namespace SecureChannel.Base64

variable {form : Form} {offset : Nat}

namespace Form

set_option maxRecDepth 10000 in
/-- A symbol stands for the value that it was chosen for, and is ASCII, but neither the padding nor
the separator of a query. -/
theorem symbol_spec (form : Form) : ∀ v : UInt8, v < 64 →
    form.value? (form.symbol v) = some v ∧ form.symbol v ≠ pad ∧ form.symbol v < 128 ∧
      form.symbol v ≠ 38 := by
  cases form <;> decide

/-- What may stand in a text of this form. -/
def Written (form : Form) (c : UInt8) : Prop :=
  (∃ v < 64, c = form.symbol v) ∨ (form = .standard ∧ c = pad)

theorem written_symbol {v : UInt8} (small : v < 64) : form.Written (form.symbol v) :=
  .inl ⟨v, small, rfl⟩

theorem written_of_mem_fill {missing : Nat} : ∀ c ∈ form.fill missing, form.Written c := by
  cases form with
  | url => simp [fill]
  | standard => exact fun c mem => .inr ⟨rfl, List.eq_of_mem_replicate mem⟩

theorem Written.lt {c : UInt8} (written : form.Written c) : c < 128 := by
  rcases written with ⟨v, small, rfl⟩ | ⟨-, rfl⟩
  · obtain ⟨-, -, ascii, -⟩ := form.symbol_spec v small
    exact ascii
  · decide

end Form

/-! ### The values of three octets -/

private theorem or_lt {a b : UInt8} (ha : a < 64) (hb : b < 64) : a ||| b < 64 := by
  rw [UInt8.lt_iff_toNat_lt] at *
  rw [UInt8.toNat_or]
  exact Nat.or_lt_two_pow (n := 6) ha hb

set_option maxRecDepth 10000 in
/-- The parts of an octet that become values, or parts of values. -/
theorem part_lt : ∀ a : UInt8, a >>> 2 < 64 ∧ (a &&& 3) <<< 4 < 64 ∧ a >>> 4 < 64 ∧
    (a &&& 15) <<< 2 < 64 ∧ a >>> 6 < 64 ∧ a &&& 63 < 64 := by
  decide

set_option maxRecDepth 10000 in
/-- Two parts of an octet are put together again, wherever it was divided. -/
theorem parts_join : ∀ a : UInt8, a >>> 2 <<< 2 ||| (a &&& 3) <<< 4 >>> 4 = a ∧
    a >>> 4 <<< 4 ||| (a &&& 15) <<< 2 >>> 2 = a ∧ a >>> 6 <<< 6 ||| a &&& 63 = a := by
  decide

set_option maxRecDepth 10000 in
/-- What is shifted out of a value leaves nothing. -/
theorem part_gone : ∀ a : UInt8, a >>> 4 >>> 4 = 0 ∧ (a &&& 3) <<< 4 <<< 4 = 0 ∧
    a >>> 6 >>> 2 = 0 ∧ (a &&& 15) <<< 2 <<< 6 = 0 ∧ (a &&& 3) <<< 4 &&& 15 = 0 ∧
      (a &&& 15) <<< 2 &&& 3 = 0 := by
  decide

theorem first_lt (a : UInt8) : a >>> 2 < 64 := (part_lt a).1

theorem second_lt (a b : UInt8) : (a &&& 3) <<< 4 ||| b >>> 4 < 64 :=
  or_lt (part_lt a).2.1 (part_lt b).2.2.1

theorem third_lt (b c : UInt8) : (b &&& 15) <<< 2 ||| c >>> 6 < 64 :=
  or_lt (part_lt b).2.2.2.1 (part_lt c).2.2.2.2.1

theorem fourth_lt (c : UInt8) : c &&& 63 < 64 := (part_lt c).2.2.2.2.2

/-- The octets that three octets were divided into are joined to the same octets. -/
theorem join_values (a b c : UInt8) :
    join (a >>> 2) ((a &&& 3) <<< 4 ||| b >>> 4) ((b &&& 15) <<< 2 ||| c >>> 6) (c &&& 63) =
      [a, b, c] := by
  obtain ⟨first, -, -⟩ := parts_join a
  obtain ⟨-, second, -⟩ := parts_join b
  obtain ⟨-, -, third⟩ := parts_join c
  obtain ⟨-, goneA, -⟩ := part_gone a
  obtain ⟨goneB, -, -, goneB', -⟩ := part_gone b
  obtain ⟨-, -, goneC, -⟩ := part_gone c
  simp only [join, UInt8.shiftRight_or, UInt8.shiftLeft_or, goneA, goneB, goneB', goneC,
    UInt8.or_zero, UInt8.zero_or, first, second, third]

/-! ### Reading -/

theorem valueAt_symbol {v : UInt8} (small : v < 64) :
    valueAt form offset (form.symbol v) = .ok v := by
  rw [valueAt, (form.symbol_spec v small).1]

theorem lastValues_symbol {before : List UInt8} {v : UInt8} {rest : Bytes} (small : v < 64) :
    lastValues form offset before (form.symbol v :: rest) =
      lastValues form offset (before ++ [v]) rest := by
  obtain ⟨value, unpadded, -⟩ := form.symbol_spec v small
  rw [lastValues, if_neg unpadded, value]

/-- The padding ends the values, and completes their group. -/
theorem lastValues_fill (form : Form) (offset : Nat) {before : List UInt8}
    (enough : 2 ≤ before.length) (missing : Nat) :
    ∃ padding, lastValues form offset before (form.fill missing) = .ok (before, padding) ∧
      (before.length + missing = 4 → form.complete before.length padding = true) := by
  cases form with
  | url => exact ⟨0, rfl, fun _ => rfl⟩
  | standard =>
    refine ⟨missing, ?_, fun whole => by simp [Form.complete, whole]⟩
    cases missing with
    | zero => rfl
    | succ missing =>
      have pads : (List.replicate missing pad).all (· = pad) = true := by simp
      simp only [Form.fill, List.replicate_succ, lastValues, if_neg (Nat.not_lt.mpr enough), pads,
        if_true, List.length_replicate]

/-- The octets of one group are read back, whether the group is full or not. -/
theorem decodeLast_encodeBytes (bytes : Bytes) (nonempty : bytes ≠ [])
    (short : bytes.length ≤ 3) :
    decodeLast form offset (encodeBytes form bytes) = .ok bytes := by
  match bytes with
  | [a] =>
    obtain ⟨-, small, -⟩ := part_lt a
    obtain ⟨-, -, -, -, zeros, -⟩ := part_gone a
    have joined : join (a >>> 2) ((a &&& 3) <<< 4) 0 0 = [a, 0, 0] := by
      simpa using join_values a 0 0
    have enough : 2 ≤ [a >>> 2, (a &&& 3) <<< 4].length := Nat.le_refl 2
    obtain ⟨padding, ends, complete⟩ := lastValues_fill form offset enough 2
    have values : lastValues form offset [] (encodeBytes form [a]) =
        .ok ([a >>> 2, (a &&& 3) <<< 4], padding) := by
      rw [encodeBytes, lastValues_symbol (first_lt a), lastValues_symbol small]
      exact ends
    have whole : form.complete 2 padding = true := complete rfl
    simp [decodeLast, values, whole, zeros, joined, bind, Except.bind, pure, Except.pure]
  | [a, b] =>
    obtain ⟨-, -, -, small, -⟩ := part_lt b
    obtain ⟨-, -, -, -, -, zeros⟩ := part_gone b
    have joined : join (a >>> 2) ((a &&& 3) <<< 4 ||| b >>> 4) ((b &&& 15) <<< 2) 0 =
        [a, b, 0] := by
      simpa using join_values a b 0
    have enough : 2 ≤ [a >>> 2, (a &&& 3) <<< 4 ||| b >>> 4, (b &&& 15) <<< 2].length :=
      Nat.le_succ 2
    obtain ⟨padding, ends, complete⟩ := lastValues_fill form offset enough 1
    have values : lastValues form offset [] (encodeBytes form [a, b]) =
        .ok ([a >>> 2, (a &&& 3) <<< 4 ||| b >>> 4, (b &&& 15) <<< 2], padding) := by
      rw [encodeBytes, lastValues_symbol (first_lt a), lastValues_symbol (second_lt a b),
        lastValues_symbol small]
      exact ends
    have whole : form.complete 3 padding = true := complete rfl
    simp [decodeLast, values, whole, zeros, joined, bind, Except.bind, pure, Except.pure]
  | [a, b, c] =>
    have values : lastValues form offset [] (encodeBytes form [a, b, c]) = .ok
        ([a >>> 2, (a &&& 3) <<< 4 ||| b >>> 4, (b &&& 15) <<< 2 ||| c >>> 6, c &&& 63], 0) := by
      rw [encodeBytes, lastValues_symbol (first_lt a), lastValues_symbol (second_lt a b),
        lastValues_symbol (third_lt b c), lastValues_symbol (fourth_lt c)]
      rfl
    have whole : form.complete 4 0 = true := by cases form <;> rfl
    simp [decodeLast, values, whole, join_values, bind, Except.bind, pure, Except.pure]

theorem encodeBytes_ne_nil (form : Form) {bytes : Bytes} (nonempty : bytes ≠ []) :
    encodeBytes form bytes ≠ [] := by
  match bytes with
  | [_] | [_, _] | _ :: _ :: _ :: _ => simp [encodeBytes]

/-- Groups are read back from the front. Only the last one is looked at in one go. -/
theorem decodeGroups_encodeBytes (form : Form) (offset : Nat) (bytes : Bytes) :
    decodeGroups form offset (encodeBytes form bytes) = .ok bytes := by
  induction bytes using encodeBytes.induct generalizing offset with
  | case1 a b c rest ih =>
    by_cases last : rest = []
    · subst last
      exact decodeLast_encodeBytes [a, b, c] (by simp) (by simp)
    · obtain ⟨e, tail, more⟩ := List.exists_cons_of_ne_nil (encodeBytes_ne_nil form last)
      have ih := ih (offset + 4)
      rw [more] at ih
      simp only [encodeBytes, more, decodeGroups, valueAt_symbol (first_lt a),
        valueAt_symbol (second_lt a b), valueAt_symbol (third_lt b c), valueAt_symbol (fourth_lt c),
        ih, join_values, bind, Except.bind, pure, Except.pure]
      rfl
  | case2 a b => cases form <;> exact decodeLast_encodeBytes [a, b] (by simp) (by simp)
  | case3 a => cases form <;> exact decodeLast_encodeBytes [a] (by simp) (by simp)
  | case4 => rfl

/-- No text is one symbol longer than full groups. -/
theorem length_encodeBytes (bytes : Bytes) : (encodeBytes form bytes).length % 4 ≠ 1 := by
  induction bytes using encodeBytes.induct with
  | case1 a b c rest ih =>
    simp only [encodeBytes, List.length_cons]
    omega
  | case2 a b => cases form <;> simp [encodeBytes, Form.fill]
  | case3 a => cases form <;> simp [encodeBytes, Form.fill]
  | case4 => simp [encodeBytes]

theorem written_of_mem_encodeBytes {bytes : Bytes} :
    ∀ c ∈ encodeBytes form bytes, form.Written c := by
  induction bytes using encodeBytes.induct with
  | case1 a b c rest ih =>
    simp only [encodeBytes, List.forall_mem_cons]
    exact ⟨Form.written_symbol (first_lt a), Form.written_symbol (second_lt a b),
      Form.written_symbol (third_lt b c), Form.written_symbol (fourth_lt c), ih⟩
  | case2 a b =>
    obtain ⟨-, -, -, small, -⟩ := part_lt b
    simp only [encodeBytes, List.forall_mem_cons]
    exact ⟨Form.written_symbol (first_lt a), Form.written_symbol (second_lt a b),
      Form.written_symbol small, Form.written_of_mem_fill⟩
  | case3 a =>
    obtain ⟨-, small, -⟩ := part_lt a
    simp only [encodeBytes, List.forall_mem_cons]
    exact ⟨Form.written_symbol (first_lt a), Form.written_symbol small,
      Form.written_of_mem_fill⟩
  | case4 => simp [encodeBytes]

theorem decodeBytes_encodeBytes (bytes : Bytes) :
    decodeBytes form (encodeBytes form bytes) = .ok bytes := by
  rw [decodeBytes]
  split
  · next none =>
    rw [List.getLast?_eq_none_iff] at none
    rw [← decodeGroups_encodeBytes form 0 bytes, none]
    rfl
  · rw [if_neg fun stray => length_encodeBytes bytes stray.1]
    exact decodeGroups_encodeBytes form 0 bytes

@[simp] theorem ofText_encode (bytes : Bytes) :
    Bytes.ofText (encode form bytes) = encodeBytes form bytes := by
  rw [encode, Bytes.ofText_ofList]
  exact Bytes.flatMap_utf8EncodeChar_ofNat fun c mem => (written_of_mem_encodeBytes c mem).lt

theorem decode_encode (form : Form) (bytes : Bytes) :
    decode form (encode form bytes) = .ok bytes := by
  rw [decode, ofText_encode, decodeBytes_encodeBytes]

end SecureChannel.Base64
