import SecureChannel.Proofs.Bytes.Hex
import SecureChannel.StaticKey

/-!
# Key texts

A key is written as digits, none of which is a blank, so dropping the blanks around a key leaves it
as it is. What a key text says is the key that was written.
-/

namespace SecureChannel

theorem Text.dropWhile_isBlank {cs : List Char} (plain : ∀ c ∈ cs, isBlank c = false) :
    cs.dropWhile isBlank = cs := by
  cases cs with
  | nil => rfl
  | cons c rest => exact List.dropWhile_cons_of_neg (by simp [plain c (.head _)])

def Text.Blank (text : String) : Prop :=
  ∀ c ∈ text.toList, isBlank c = true

/-- One text is the other one with blanks at its ends. -/
def Text.Pads (padded text : String) : Prop :=
  ∃ lead trail, Blank lead ∧ Blank trail ∧ padded = lead ++ text ++ trail

theorem Text.pads_self (text : String) : Pads text text :=
  ⟨"", "", by simp [Blank], by simp [Blank], by simp⟩

/-- A text without blanks is what is left of it with blanks at its ends. -/
theorem Text.trim_of_pads {padded text : String} (pads : Pads padded text)
    (plain : ∀ c ∈ text.toList, isBlank c = false) : trim padded = text := by
  obtain ⟨lead, trail, before, behind, rfl⟩ := pads
  have ends : ((text.toList ++ trail.toList).reverse.dropWhile isBlank).reverse =
      text.toList := by
    have reversed : ∀ c ∈ text.toList.reverse, isBlank c = false := by simpa using plain
    rw [List.reverse_append, List.dropWhile_append_of_pos (by simpa [Blank] using behind),
      dropWhile_isBlank reversed, List.reverse_reverse]
  rw [trim, trimChars, String.toList_append, String.toList_append, List.append_assoc,
    List.dropWhile_append_of_pos before]
  cases characters : text.toList with
  | nil =>
    have all : (trail.toList ++ []).dropWhile isBlank = [] := List.dropWhile_append_of_pos behind
    rw [List.append_nil] at all
    rw [List.nil_append, all, ← text.ofList_toList, characters]
    rfl
  | cons c rest =>
    have stops : isBlank c = false := plain c (by simp [characters])
    rw [List.cons_append, List.dropWhile_cons_of_neg (by simp [stops]), ← List.cons_append,
      ← characters, ends, String.ofList_toList]

theorem trim_encode {padded : String} {bytes : Bytes}
    (pads : Text.Pads padded (Hex.encode bytes)) : Text.trim padded = Hex.encode bytes := by
  refine Text.trim_of_pads pads ?_
  rw [Hex.encode, String.toList_ofList]
  exact Hex.not_blank_of_mem_digits

theorem decodeKey_encode (key : Bytes32) : decodeKey (Hex.encode key.toBytes) = .ok key := by
  rw [decodeKey, Hex.decode_encode]
  simp

/-- The text of a public key is that of this key. -/
theorem PublicKey.parse_toText (key : PublicKey) : parse key.toText = .ok key := by
  rw [parse, toText, decodeKey_encode]

/-- The text of the private half gives back both halves. -/
theorem StaticKey.parse_privateText (p : Primitives) (privateKey : Bytes32) :
    parse p (ofPrivate p privateKey).privateText = .ok (ofPrivate p privateKey) := by
  rw [parse, privateText, decodeKey_encode]
  rfl

/-! ### Which texts are keys -/

def IsKeyText (text : String) : Prop :=
  text.toList.length = 64 ∧ ∀ c ∈ text.toList, Hex.IsDigit c

theorem Bytes32.ofBytes?_eq_some_iff {bytes : Bytes} {key : Bytes32} :
    ofBytes? bytes = some key ↔ bytes = key.toBytes := by
  constructor
  · intro found
    rw [ofBytes?] at found
    split at found
    · cases found
      rfl
    · cases found
  · rintro rfl
    exact ofBytes?_toBytes key

theorem decodeKey_ok_iff {text : String} {key : Bytes32} :
    decodeKey text = .ok key ↔ Hex.decode (Bytes.ofText text) = .ok key.toBytes := by
  rw [decodeKey]
  cases Hex.decode (Bytes.ofText text) with
  | error fault => simp
  | ok octets =>
    simp only [Except.ok.injEq, ← Bytes32.ofBytes?_eq_some_iff]
    cases Bytes32.ofBytes? octets <;> simp

theorem PublicKey.parse_ok_iff {text : String} {key : PublicKey} :
    parse text = .ok key ↔ decodeKey text = .ok key.point := by
  rw [parse]
  cases decodeKey text with
  | error fault => simp
  | ok point =>
    constructor
    · rintro ⟨⟩
      rfl
    · rintro ⟨⟩
      rfl

/-- A text is read as the key that is written as the text in lowercase. -/
theorem PublicKey.parse_ok_iff_toText {text : String} {key : PublicKey} :
    parse text = .ok key ↔ IsKeyText text ∧ key.toText = text.toLower := by
  rw [parse_ok_iff, decodeKey_ok_iff, Hex.decode_ok_iff, IsKeyText, and_assoc]
  constructor
  · rintro ⟨isDigits, written⟩
    refine ⟨?_, isDigits, written⟩
    rw [← Bytes.length_toLower, ← written, Hex.length_encode, key.point.length_toBytes]
  · rintro ⟨-, isDigits, written⟩
    exact ⟨isDigits, written⟩

theorem PublicKey.exists_parse_iff {text : String} :
    (∃ key, parse text = .ok key) ↔ IsKeyText text := by
  constructor
  · rintro ⟨key, read⟩
    exact (parse_ok_iff_toText.mp read).1
  · rintro ⟨length, isDigits⟩
    obtain ⟨bytes, read⟩ := Hex.exists_decode (by rw [length]) isDigits
    have written := (Hex.decode_ok_iff.mp read).2
    rw [← Bytes.length_toLower, ← written, Hex.length_encode] at length
    have whole : bytes.length = 32 := by omega
    exact ⟨⟨bytes, whole⟩, parse_ok_iff.mpr (decodeKey_ok_iff.mpr read)⟩

end SecureChannel
