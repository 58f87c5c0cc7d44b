import SecureChannel.Bytes.Hex
import SecureChannel.Proofs.Bytes.Text
import SecureChannel.Proofs.Checked
import SecureChannel.Text.Blank

/-!
# Hexadecimal texts are read back

An octet is divided into two values below sixteen. Each of them has a digit that is ASCII and no
blank, so a text of digits is read back, also after blanks around it were dropped.

Reading takes digits of either case. Writing chooses the lowercase ones, so a text of digits is read
as the octets that are written as the text in lowercase, and no other text is read.
-/

namespace SecureChannel.Hex

set_option maxRecDepth 10000 in
/-- The halves of an octet are values of digits, and make up the octet. -/
theorem halves_spec : ∀ b : UInt8, b >>> 4 < 16 ∧ b &&& 15 < 16 ∧
    (b >>> 4) <<< 4 ||| b &&& 15 = b := by
  decide

set_option maxRecDepth 10000 in
/-- A digit is ASCII and no blank, and stands for the value that it was chosen for. -/
theorem digit_spec : ∀ v : UInt8, v < 16 → (digit v).toNat < 128 ∧
    Text.isBlank (digit v) = false ∧ value? (UInt8.ofNat (digit v).toNat) = some v := by
  decide

theorem ofText_encode (bytes : Bytes) :
    Bytes.ofText (encode bytes) = (digits bytes).map fun c => UInt8.ofNat c.toNat := by
  rw [encode, Bytes.ofText_ofList, digits]
  induction bytes with
  | nil => rfl
  | cons b rest ih =>
    obtain ⟨high, low, -⟩ := halves_spec b
    obtain ⟨asciiHigh, -, -⟩ := digit_spec _ high
    obtain ⟨asciiLow, -, -⟩ := digit_spec _ low
    simp only [List.flatMap_cons, List.cons_append, List.nil_append, List.map_cons, ih,
      Bytes.utf8EncodeChar_of_lt asciiHigh, Bytes.utf8EncodeChar_of_lt asciiLow]

theorem decodePairs_digits (position : Nat) (bytes : Bytes) :
    decodePairs position ((digits bytes).map fun c => UInt8.ofNat c.toNat) = .ok bytes := by
  induction bytes generalizing position with
  | nil => rfl
  | cons b rest ih =>
    obtain ⟨high, low, whole⟩ := halves_spec b
    obtain ⟨-, -, valueHigh⟩ := digit_spec _ high
    obtain ⟨-, -, valueLow⟩ := digit_spec _ low
    have more := ih (position + 2)
    rw [digits] at more ⊢
    simp only [List.flatMap_cons, List.cons_append, List.nil_append, List.map_cons, decodePairs,
      valueHigh, valueLow, more, bind, Except.bind, pure, Except.pure, whole]

theorem length_digits (bytes : Bytes) : (digits bytes).length = 2 * bytes.length := by
  rw [digits]
  induction bytes with
  | nil => rfl
  | cons b rest ih =>
    rw [List.flatMap_cons, List.length_append, ih, List.length_cons, List.length_cons,
      List.length_cons, List.length_nil]
    omega

theorem length_encode (bytes : Bytes) : (encode bytes).toList.length = 2 * bytes.length := by
  rw [encode, String.toList_ofList, length_digits]

theorem decode_encode (bytes : Bytes) : decode (Bytes.ofText (encode bytes)) = .ok bytes := by
  have even : ((digits bytes).map fun c => UInt8.ofNat c.toNat).length % 2 = 0 := by
    rw [List.length_map, length_digits]
    omega
  rw [decode, ofText_encode, if_pos even, decodePairs_digits]

theorem not_blank_of_mem_digits {bytes : Bytes} :
    ∀ c ∈ digits bytes, Text.isBlank c = false := by
  intro c mem
  obtain ⟨b, -, either⟩ := List.mem_flatMap.mp mem
  obtain ⟨high, low, -⟩ := halves_spec b
  simp only [List.mem_cons, List.not_mem_nil, or_false] at either
  rcases either with rfl | rfl
  · exact (digit_spec _ high).2.1
  · exact (digit_spec _ low).2.1

/-! ### Which texts are read -/

def IsDigit (c : Char) : Prop :=
  ('0' ≤ c ∧ c ≤ '9') ∨ ('a' ≤ c ∧ c ≤ 'f') ∨ ('A' ≤ c ∧ c ≤ 'F')

instance : DecidablePred IsDigit := fun _ => inferInstanceAs (Decidable (_ ∨ _ ∨ _))

set_option maxRecDepth 10000 in
private theorem value?_all : ∀ octet : UInt8, (value? octet).all (fun v =>
    v < 16 && octet < 128 && decide (IsDigit (Char.ofNat octet.toNat)) &&
      (Char.ofNat octet.toNat).toLower == digit v) = true := by
  decide

/-- What has a value is a digit, and in lowercase the one that is written for the value. -/
theorem value?_spec {octet v : UInt8} (found : value? octet = some v) :
    ((v < 16 ∧ octet < 128) ∧ IsDigit (Char.ofNat octet.toNat)) ∧
      (Char.ofNat octet.toNat).toLower = digit v := by
  simpa [found] using value?_all octet

theorem IsDigit.lt {c : Char} (isDigit : IsDigit c) : c.toNat < 128 := by
  rcases isDigit with ⟨-, last⟩ | ⟨-, last⟩ | ⟨-, last⟩
  all_goals exact Nat.lt_of_le_of_lt (UInt32.le_iff_toNat_le.mp last) (by decide)

set_option maxRecDepth 10000 in
private theorem exists_value_octet : ∀ octet : UInt8, IsDigit (Char.ofNat octet.toNat) →
    (value? octet).isSome = true := by
  decide

theorem IsDigit.exists_value {c : Char} (isDigit : IsDigit c) :
    ∃ v, value? (UInt8.ofNat c.toNat) = some v := by
  have small : c.toNat < 256 := Nat.lt_trans isDigit.lt (by decide)
  have same : Char.ofNat (UInt8.ofNat c.toNat).toNat = c := by
    rw [UInt8.toNat_ofNat', Nat.mod_eq_of_lt small, Char.ofNat_toNat]
  exact Option.isSome_iff_exists.mp (exists_value_octet _ (same.symm ▸ isDigit))

set_option maxRecDepth 10000 in
/-- The halves of an octet that is put together are the values. -/
theorem half_spec : ∀ v : UInt8, v < 16 → v <<< 4 >>> 4 = v ∧ v >>> 4 = 0 ∧ v <<< 4 &&& 15 = 0 ∧
    v &&& 15 = v := by
  decide

theorem digits_cons {high low : UInt8} (hh : high < 16) (hl : low < 16) (rest : Bytes) :
    digits ((high <<< 4 ||| low) :: rest) = digit high :: digit low :: digits rest := by
  obtain ⟨own, -, gone, -⟩ := half_spec high hh
  obtain ⟨-, gone', -, own'⟩ := half_spec low hl
  rw [digits, List.flatMap_cons, UInt8.shiftRight_or, Bytes.or_and, own, gone, own', gone',
    UInt8.or_zero, UInt8.zero_or]
  rfl

/-- What is read consists of digits, which are in lowercase those that are written. -/
theorem decodePairs_ok {position : Nat} {octets bytes : Bytes} (even : octets.length % 2 = 0)
    (read : decodePairs position octets = .ok bytes) :
    (∀ octet ∈ octets, octet < 128 ∧ IsDigit (Char.ofNat octet.toNat)) ∧
      digits bytes = octets.map fun octet => (Char.ofNat octet.toNat).toLower := by
  induction position, octets using decodePairs.induct generalizing bytes with
  | case1 position high low rest noHigh => simp [decodePairs, noHigh] at read
  | case2 position high low rest h noLow foundHigh => simp [decodePairs, foundHigh, noLow] at read
  | case3 position high low rest h l foundLow foundHigh ih =>
    simp only [decodePairs, foundHigh, foundLow, bind_eq_ok_iff, pure, Except.pure] at read
    obtain ⟨more, others, whole⟩ := read
    cases whole
    have evenRest : rest.length % 2 = 0 := (Nat.add_mod_right rest.length 2).symm.trans even
    obtain ⟨isDigits, written⟩ := ih evenRest others
    obtain ⟨⟨⟨hh, asciiHigh⟩, digitHigh⟩, lowerHigh⟩ := value?_spec foundHigh
    obtain ⟨⟨⟨hl, asciiLow⟩, digitLow⟩, lowerLow⟩ := value?_spec foundLow
    rw [digits_cons hh hl, written, List.map_cons, List.map_cons, lowerHigh, lowerLow]
    refine ⟨?_, rfl⟩
    simp only [List.forall_mem_cons]
    exact ⟨⟨asciiHigh, digitHigh⟩, ⟨asciiLow, digitLow⟩, isDigits⟩
  | case4 octets position short =>
    rcases octets with _ | ⟨high, _ | ⟨low, rest⟩⟩
    · cases read
      exact ⟨by simp, rfl⟩
    · cases even
    · exact absurd rfl (short high low rest)

theorem exists_decodePairs (position : Nat) {octets : Bytes}
    (valued : ∀ octet ∈ octets, ∃ v, value? octet = some v) :
    ∃ bytes, decodePairs position octets = .ok bytes := by
  induction position, octets using decodePairs.induct with
  | case1 position high low rest noHigh =>
    obtain ⟨v, found⟩ := valued high (.head _)
    cases noHigh.symm.trans found
  | case2 position high low rest h noLow foundHigh =>
    obtain ⟨v, found⟩ := valued low (.tail _ (.head _))
    cases noLow.symm.trans found
  | case3 position high low rest h l foundLow foundHigh ih =>
    obtain ⟨more, others⟩ := ih fun octet mem => valued octet (.tail _ (.tail _ mem))
    refine ⟨(h <<< 4 ||| l) :: more, ?_⟩
    simp only [decodePairs, foundHigh, foundLow, others]
    rfl
  | case4 octets position short =>
    refine ⟨[], ?_⟩
    rw [decodePairs]
    exact short

/-- An even number of digits is read. -/
theorem exists_decode {text : String} (even : text.toList.length % 2 = 0)
    (isDigits : ∀ c ∈ text.toList, IsDigit c) :
    ∃ bytes, decode (Bytes.ofText text) = .ok bytes := by
  rw [Bytes.ofText_of_lt fun c mem => (isDigits c mem).lt, decode, List.length_map, if_pos even]
  apply exists_decodePairs
  intro octet mem
  obtain ⟨c, isOne, rfl⟩ := List.mem_map.mp mem
  exact (isDigits c isOne).exists_value

theorem encode_inj {bytes other : Bytes} : encode bytes = encode other ↔ bytes = other := by
  constructor
  · intro same
    have read := decode_encode bytes
    rw [same, decode_encode] at read
    exact (Except.ok.inj read).symm
  · exact congrArg encode

/-- The texts that are read are those of digits, each as the octets that are written as the text in
lowercase. -/
theorem decode_ok_iff {text : String} {bytes : Bytes} :
    decode (Bytes.ofText text) = .ok bytes ↔
      (∀ c ∈ text.toList, IsDigit c) ∧ encode bytes = text.toLower := by
  have reads : ∀ {bytes}, decode (Bytes.ofText text) = .ok bytes →
      (∀ c ∈ text.toList, IsDigit c) ∧ encode bytes = text.toLower := by
    intro bytes read
    rw [decode] at read
    split at read
    · next even =>
      obtain ⟨isDigits, written⟩ := decodePairs_ok even read
      have characters := Bytes.toList_of_lt fun octet mem => (isDigits octet mem).1
      constructor
      · rw [characters]
        intro c mem
        obtain ⟨octet, isOne, rfl⟩ := List.mem_map.mp mem
        exact (isDigits octet isOne).2
      · rw [encode, written, ← String.toList_inj, String.toList_ofList, Bytes.toList_toLower,
          characters, List.map_map]
        rfl
    · cases read
  constructor
  · exact reads
  · rintro ⟨isDigits, written⟩
    have even : text.toList.length % 2 = 0 := by
      rw [← Bytes.length_toLower, ← written, length_encode]
      exact Nat.mul_mod_right 2 _
    -- Whatever is read is written like the octets in question.
    obtain ⟨other, read⟩ := exists_decode even isDigits
    rw [read, encode_inj.mp ((reads read).2.trans written.symm)]

end SecureChannel.Hex
