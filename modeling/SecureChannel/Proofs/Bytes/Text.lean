import SecureChannel.Bytes

/-!
# Texts and their octets

The octets of a text are those of its characters one after the other. An octet below 128 stands for
the character of that number and occurs in no longer form, which is why formats with ASCII
delimiters can be read octet by octet.
-/

namespace SecureChannel.Bytes

/-- A statement about one octet is decided octet by octet. -/
instance decidableForallOctet (P : UInt8 → Prop) [DecidablePred P] : Decidable (∀ a, P a) :=
  decidable_of_iff (∀ v : BitVec 8, P ⟨v⟩) ⟨fun all a => all a.toBitVec, fun all v => all ⟨v⟩⟩

theorem or_and (a b mask : UInt8) : (a ||| b) &&& mask = a &&& mask ||| b &&& mask := by
  rw [← UInt8.toBitVec_inj]
  simp only [UInt8.toBitVec_and, UInt8.toBitVec_or]
  exact BitVec.and_or_distrib_right

theorem ofText_eq (text : String) : ofText text = text.toList.flatMap String.utf8EncodeChar := by
  rw [ofText, String.toUTF8_eq_toByteArray, ← String.utf8Encode_toList, List.utf8Encode]
  simp

@[simp] theorem ofText_ofList (characters : List Char) :
    ofText (String.ofList characters) = characters.flatMap String.utf8EncodeChar := by
  rw [ofText_eq, String.toList_ofList]

@[simp] theorem ofText_append (one other : String) :
    ofText (one ++ other) = ofText one ++ ofText other := by
  simp [ofText_eq]

@[simp] theorem toText?_ofText (text : String) : toText? (ofText text) = some text := by
  rw [toText?, ofText]
  rw [Array.toArray_toList]
  exact dif_pos text.isValidUTF8

theorem ofText_inj {one other : String} : ofText one = ofText other ↔ one = other := by
  constructor
  · intro same
    have texts := congrArg toText? same
    rw [toText?_ofText, toText?_ofText] at texts
    exact Option.some.inj texts
  · exact congrArg ofText

theorem utf8EncodeChar_of_lt {c : Char} (ascii : c.toNat < 128) :
    String.utf8EncodeChar c = [UInt8.ofNat c.toNat] := by
  rw [String.utf8EncodeChar]
  exact if_pos (Nat.le_of_lt_succ ascii)

/-- A character that is not ASCII has no ASCII octet. -/
theorem le_of_mem_utf8EncodeChar {c : Char} (wide : 128 ≤ c.toNat) {octet : UInt8}
    (mem : octet ∈ String.utf8EncodeChar c) : 128 ≤ octet.toNat := by
  have notAscii : ¬ c.val.toNat ≤ 127 := by
    change 128 ≤ c.val.toNat at wide
    omega
  simp only [String.utf8EncodeChar, if_neg notAscii] at mem
  split at mem
  · simp only [List.mem_cons, List.not_mem_nil, or_false] at mem
    rcases mem with rfl | rfl <;> simp <;> omega
  · split at mem
    · simp only [List.mem_cons, List.not_mem_nil, or_false] at mem
      rcases mem with rfl | rfl | rfl <;> simp <;> omega
    · simp only [List.mem_cons, List.not_mem_nil, or_false] at mem
      rcases mem with rfl | rfl | rfl | rfl <;> simp <;> omega

theorem toNat_ofNat {n : Nat} (ascii : n < 128) : (Char.ofNat n).toNat = n := by
  have valid : n.isValidChar := .inl (Nat.lt_trans ascii (by decide))
  rw [Char.ofNat, dif_pos valid]
  rfl

/-- Octets below 128, taken for the characters of these numbers. -/
theorem flatMap_utf8EncodeChar_ofNat {octets : Bytes} (ascii : ∀ c ∈ octets, c < 128) :
    (octets.map fun c => Char.ofNat c.toNat).flatMap String.utf8EncodeChar = octets := by
  induction octets with
  | nil => rfl
  | cons c rest ih =>
    have small : c.toNat < 128 := UInt8.lt_iff_toNat_lt.mp (ascii c (.head _))
    have number : (Char.ofNat c.toNat).toNat = c.toNat := toNat_ofNat small
    rw [List.map_cons, List.flatMap_cons, ih fun c mem => ascii c (.tail _ mem),
      utf8EncodeChar_of_lt (by rwa [number]), number, UInt8.ofNat_toNat]
    rfl

/-- A text whose octets are ASCII consists of the characters of these numbers. -/
theorem toList_of_lt {text : String} (ascii : ∀ octet ∈ ofText text, octet < 128) :
    text.toList = (ofText text).map fun octet => Char.ofNat octet.toNat := by
  rw [← String.ofList_inj, String.ofList_toList, ← ofText_inj, ofText_ofList,
    flatMap_utf8EncodeChar_ofNat ascii]

/-- A text of ASCII characters has an octet for each of them. -/
theorem ofText_of_lt {text : String} (ascii : ∀ c ∈ text.toList, c.toNat < 128) :
    ofText text = text.toList.map fun c => UInt8.ofNat c.toNat := by
  rw [ofText_eq]
  generalize text.toList = characters at ascii
  induction characters with
  | nil => rfl
  | cons c rest ih =>
    rw [List.forall_mem_cons] at ascii
    rw [List.flatMap_cons, utf8EncodeChar_of_lt ascii.1, ih ascii.2]
    rfl

theorem toList_toLower (text : String) : text.toLower.toList = text.toList.map Char.toLower :=
  String.toList_map

theorem length_toLower (text : String) : text.toLower.toList.length = text.toList.length := by
  rw [toList_toLower, List.length_map]

/-! ### Parts -/

/-- What is divided at a separator has no separator left in its parts. -/
theorem not_mem_of_mem_splitOn {α : Type} [BEq α] [LawfulBEq α] {separator : α} {whole : List α} :
    ∀ part ∈ whole.splitOn separator, separator ∉ part := by
  induction whole with
  | nil => simp
  | cons x rest ih =>
    rw [List.splitOn_cons_eq_if_modifyHead]
    split
    · simpa using ih
    · next other =>
      have distinct : separator ≠ x := fun same => other (beq_iff_eq.mpr same.symm)
      obtain ⟨part, parts, shape⟩ := List.exists_cons_of_ne_nil (List.splitOn_ne_nil separator rest)
      rw [shape] at ih ⊢
      simpa [distinct] using ih

/-! ### Lengths -/

/-- No character takes up more than four octets. -/
theorem length_ofText_le (text : String) : (ofText text).length ≤ 4 * text.toList.length := by
  rw [ofText_eq]
  induction text.toList with
  | nil => exact Nat.le_refl 0
  | cons c characters ih =>
    have four : (String.utf8EncodeChar c).length ≤ 4 := by
      rw [String.length_utf8EncodeChar]
      exact c.utf8Size_le_four
    rw [List.flatMap_cons, List.length_append, List.length_cons]
    omega

/-- Between the parts there is one octet each. -/
theorem length_intercalate {separator : String} (one : (ofText separator).length = 1)
    (part : String) (parts : List String) :
    (ofText (separator.intercalate (part :: parts))).length =
      ((part :: parts).flatMap ofText).length + parts.length := by
  induction parts generalizing part with
  | nil => simp
  | cons next more ih =>
    rw [String.intercalate_cons_cons, ofText_append, ofText_append, List.length_append,
      List.length_append, one, ih]
    simp only [List.flatMap_cons, List.length_append, List.length_cons]
    omega

theorem length_intercalate_le {separator : String} (one : (ofText separator).length = 1)
    (parts : List String) :
    (ofText (separator.intercalate parts)).length ≤
      (parts.flatMap ofText).length + parts.length := by
  cases parts with
  | nil => exact Nat.zero_le _
  | cons part parts =>
    rw [length_intercalate one, List.length_cons]
    omega

end SecureChannel.Bytes
