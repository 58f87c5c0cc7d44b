import SecureChannel.Proofs.Bytes.Canonical

/-!
# Which texts are base64

A text that is read is that of values below 64, symbol by symbol, and of the padding that its form
asks for. The values are in groups of four; a last group of two or three has no bits but those of
whole octets, and a single value is never left over. Each such text stands for octets, and they have
no other text: reading and writing are inverse to each other between octets and these texts. So
no other padding, no bit that would be dropped, no symbol of the other form and no blank is read.
-/

namespace SecureChannel.Base64

variable {form : Form} {values : List UInt8} {text : Bytes}

/-- The values of whole octets, four for three of them. What is left over are two or three values,
whose unused bits are zero. -/
def WholeOctets : List UInt8 → Prop
  | _ :: _ :: _ :: _ :: rest => WholeOctets rest
  | [_, _, c] => c &&& 3 = 0
  | [_, b] => b &&& 15 = 0
  | [_] => False
  | [] => True

/-- The text is that of the values: the symbol of each, and the padding of the last group. -/
structure Form.Spells (form : Form) (values : List UInt8) (text : Bytes) : Prop where
  small : ∀ v ∈ values, v < 64
  whole : WholeOctets values
  written : text = values.map form.symbol ++ form.fill ((4 - values.length % 4) % 4)

/-- Four values more are four symbols more. -/
theorem Form.Spells.group {a b c d : UInt8} (ha : a < 64) (hb : b < 64) (hc : c < 64) (hd : d < 64)
    (spells : form.Spells values text) :
    form.Spells (a :: b :: c :: d :: values)
      (form.symbol a :: form.symbol b :: form.symbol c :: form.symbol d :: text) where
  small := by
    simp only [List.forall_mem_cons]
    exact ⟨ha, hb, hc, hd, spells.small⟩
  whole := spells.whole
  written := by
    have same : (a :: b :: c :: d :: values).length % 4 = values.length % 4 :=
      Nat.add_mod_right values.length 4
    rw [same, spells.written]
    rfl

/-- What is written are values of whole octets. -/
theorem exists_spells (form : Form) (bytes : Bytes) :
    ∃ values, form.Spells values (encodeBytes form bytes) := by
  induction bytes using encodeBytes.induct with
  | case1 a b c rest ih =>
    obtain ⟨values, spells⟩ := ih
    exact ⟨_, spells.group (first_lt a) (second_lt a b) (third_lt b c) (fourth_lt c)⟩
  | case2 a b =>
    obtain ⟨-, -, -, small, -⟩ := part_lt b
    obtain ⟨-, -, -, -, -, zeros⟩ := part_gone b
    refine ⟨[a >>> 2, (a &&& 3) <<< 4 ||| b >>> 4, (b &&& 15) <<< 2], ?_, zeros, rfl⟩
    simpa using ⟨first_lt a, second_lt a b, small⟩
  | case3 a =>
    obtain ⟨-, small, -⟩ := part_lt a
    obtain ⟨-, -, -, -, zeros, -⟩ := part_gone a
    refine ⟨[a >>> 2, (a &&& 3) <<< 4], ?_, zeros, rfl⟩
    simpa using ⟨first_lt a, small⟩
  | case4 =>
    refine ⟨[], by simp, trivial, ?_⟩
    cases form <;> rfl

/-- Values of whole octets are written for these octets. -/
theorem exists_encodeBytes (spells : form.Spells values text) :
    ∃ bytes, encodeBytes form bytes = text := by
  obtain ⟨small, whole, rfl⟩ := spells
  induction values using WholeOctets.induct with
  | case1 a b c d rest ih =>
    simp only [List.forall_mem_cons] at small
    obtain ⟨ha, hb, hc, hd, small⟩ := small
    obtain ⟨bytes, written⟩ := ih small whole
    refine ⟨join a b c d ++ bytes, ?_⟩
    have same : (a :: b :: c :: d :: rest).length % 4 = rest.length % 4 :=
      Nat.add_mod_right rest.length 4
    rw [encodeBytes_join ha hb hc hd, written, same]
    rfl
  | case2 a b c =>
    simp only [List.forall_mem_cons] at small
    obtain ⟨ha, hb, hc, -⟩ := small
    exact ⟨_, encodeBytes_join_three ha hb hc whole⟩
  | case3 a b =>
    simp only [List.forall_mem_cons] at small
    obtain ⟨ha, hb, -⟩ := small
    exact ⟨_, encodeBytes_join_two ha hb whole⟩
  | case4 => exact absurd whole id
  | case5 =>
    refine ⟨[], ?_⟩
    cases form <;> rfl

/-- In either form, what is written for octets is read as these octets; a text is read as octets
only if it is what is written for them; and the texts that are read at all are those of values of
whole octets, with just the padding of the form. -/
theorem decode_inverse (form : Form) :
    (∀ bytes, decode form (encode form bytes) = .ok bytes) ∧
    (∀ text bytes, decode form text = .ok bytes ↔ text = encode form bytes) ∧
    ∀ text, (∃ bytes, decode form text = .ok bytes) ↔
      ∃ values, form.Spells values (Bytes.ofText text) := by
  refine ⟨decode_encode form, fun text bytes => decode_ok_iff, ?_⟩
  intro text
  constructor
  · rintro ⟨bytes, read⟩
    rw [decode_ok_iff.mp read, ofText_encode]
    exact exists_spells form bytes
  · rintro ⟨values, spells⟩
    obtain ⟨bytes, written⟩ := exists_encodeBytes spells
    refine ⟨bytes, ?_⟩
    rw [decode, ← written, decodeBytes_encodeBytes]

set_option maxRecDepth 4000 in
example : ∀ text ∈ ["QQ", "QQ=", "QQ===", "QR==", " QQ==", "QQ==\n", "_w==", "Q"],
    (decode .standard text).toBool = false := by decide

set_option maxRecDepth 4000 in
example : ∀ text ∈ ["QQ==", "QR", "QQ ", "/w", "Q"],
    (decode .url text).toBool = false := by decide

end SecureChannel.Base64
