import SecureChannel.Json.Printer
import SecureChannel.Json.Token
import SecureChannel.Proofs.Bytes.Text

/-!
# How a text can be spelled

In a string a character can stand for itself, if it is none that has to be escaped. It can be an
escape of one letter, if it is one of eight. And every character can be given by number: in four
hexadecimal digits of either case, or, above `0xFFFF`, as a pair of such numbers. `Spells` is the
choice of one of these ways for each character of a text.

Reading takes every spelling back to the text, and what is written is one of the spellings: each
character that needs no escape stands for itself.
-/

namespace SecureChannel.Json

open Bytes

/-! ### Spellings -/

/-- An octet writes a hexadecimal digit, in either case. -/
def IsHexDigit (octet : UInt8) (value : Nat) : Prop :=
  value < 16 ∧ (octet = UInt8.ofNat (hexDigit value).toNat ∨
    octet = UInt8.ofNat (hexDigit value).toUpper.toNat)

/-- Octets are an escape by number: a backslash, the letter `u` and four digits. -/
inductive IsUnitEscape : Nat → Bytes → Prop
  | mk {w x y z : UInt8} {a b c d : Nat} (first : IsHexDigit w a) (second : IsHexDigit x b)
      (third : IsHexDigit y c) (fourth : IsHexDigit z d) :
      IsUnitEscape (((a * 16 + b) * 16 + c) * 16 + d) [92, 117, w, x, y, z]

/-- The escapes of one letter, and the characters that they stand for. -/
def shortEscapes : List (UInt8 × Char) :=
  [(34, '"'), (92, '\\'), (47, '/'), (98, '\x08'), (102, '\x0c'), (110, '\n'), (114, '\r'),
    (116, '\t')]

/-- Octets stand for a character in a string. -/
inductive SpellsChar : Char → Bytes → Prop
  | plain {c : Char} (printable : 32 ≤ c.toNat) (quote : c ≠ '"') (backslash : c ≠ '\\') :
      SpellsChar c (String.utf8EncodeChar c)
  | short {c : Char} {letter : UInt8} (listed : (letter, c) ∈ shortEscapes) :
      SpellsChar c [92, letter]
  | unit {c : Char} {octets : Bytes} (written : IsUnitEscape c.toNat octets) : SpellsChar c octets
  | pair {c : Char} {high low : Nat} {first second : Bytes} (writtenHigh : IsUnitEscape high first)
      (writtenLow : IsUnitEscape low second) (highHalf : 0xd800 ≤ high ∧ high ≤ 0xdbff)
      (lowHalf : 0xdc00 ≤ low ∧ low ≤ 0xdfff)
      (number : c.toNat = 0x10000 + (high - 0xd800) * 0x400 + (low - 0xdc00)) :
      SpellsChar c (first ++ second)

/-- Octets stand for characters in a string, one after the other. -/
inductive SpellsChars : List Char → Bytes → Prop
  | nil : SpellsChars [] []
  | cons {c : Char} {characters : List Char} {first rest : Bytes} (head : SpellsChar c first)
      (tail : SpellsChars characters rest) : SpellsChars (c :: characters) (first ++ rest)

/-- Octets are a string that stands for a text: its characters between quotes. -/
inductive Spells : String → Bytes → Prop
  | mk {text : String} {octets : Bytes} (inside : SpellsChars text.toList octets) :
      Spells text (34 :: (octets ++ [34]))

variable {before rest octets : Bytes} {c : Char} {text : String} {code value : Nat}

/-! ### Reading a spelling -/

namespace Content

/-- The content of which the given octets were read, and nothing is pending. -/
def read (octets : Bytes) : Content := ⟨octets.reverse, true, none⟩

@[simp] theorem push_read (before octets : Bytes) :
    (read before).push octets = read (before ++ octets.reverse) := by
  simp [push, read]

@[simp] theorem toText?_read (text : String) : (read (ofText text)).toText? = some text := by
  simp [toText?, read]

end Content

/-- An octet that stands for itself in a string. -/
def Plain (octet : UInt8) : Prop := 32 ≤ octet.toNat ∧ octet ≠ 34 ∧ octet ≠ 92

theorem lexString_quote (s : Content) : lexString s (34 :: rest) = some (s.toText?, rest) := by
  rw [lexString.eq_def]
  rfl

theorem lexString_plain (plain : ∀ octet ∈ octets, Plain octet) :
    lexString (.read before) (octets ++ rest) = lexString (.read (before ++ octets)) rest := by
  induction octets generalizing before with
  | nil => simp
  | cons octet octets ih =>
    obtain ⟨printable, quote, backslash⟩ := plain octet (.head _)
    have notControl : ¬ octet < 32 := by
      rw [UInt8.lt_iff_toNat_lt]
      exact Nat.not_lt.mpr printable
    rw [List.cons_append, lexString.eq_def]
    simp only [if_neg quote, if_neg backslash, if_neg notControl]
    rw [Content.push_read, ih fun octet mem => plain octet (.tail _ mem)]
    simp

/-- A character that needs no escape has no octet with a meaning of its own. -/
theorem plain_of_mem_utf8EncodeChar (printable : 32 ≤ c.toNat) (quote : c ≠ '"')
    (backslash : c ≠ '\\') : ∀ octet ∈ String.utf8EncodeChar c, Plain octet := by
  intro octet mem
  by_cases ascii : c.toNat < 128
  · rw [utf8EncodeChar_of_lt ascii, List.mem_singleton] at mem
    have number : octet.toNat = c.toNat := by
      rw [mem, UInt8.toNat_ofNat']
      omega
    refine ⟨by omega, ?_, ?_⟩
    · rintro rfl
      exact quote (Char.toNat_inj.mp number.symm)
    · rintro rfl
      exact backslash (Char.toNat_inj.mp number.symm)
  · have wide := le_of_mem_utf8EncodeChar (Nat.not_lt.mp ascii) mem
    refine ⟨by omega, ?_, ?_⟩ <;> rintro rfl <;> exact absurd wide (by decide)

/-- An escape of one letter is the octet of its character. -/
theorem simpleEscape?_of_listed : ∀ entry ∈ shortEscapes, entry.1 ≠ 117 ∧
    ∃ octet, simpleEscape? entry.1 = some octet ∧ String.utf8EncodeChar entry.2 = [octet] := by
  simp only [shortEscapes, List.forall_mem_cons, List.not_mem_nil, false_implies, implies_true,
    and_true]
  refine ⟨?_, ?_, ?_, ?_, ?_, ?_, ?_, ?_⟩ <;> exact ⟨by decide, _, rfl, rfl⟩

theorem lexString_short {letter : UInt8} (listed : (letter, c) ∈ shortEscapes) :
    lexString (.read before) (92 :: letter :: rest) =
      lexString (.read (before ++ String.utf8EncodeChar c)) rest := by
  obtain ⟨notUnit, octet, value, written⟩ := simpleEscape?_of_listed _ listed
  have backslash : (92 : UInt8) ≠ 34 := by decide
  rw [lexString.eq_def]
  simp only [if_neg backslash, if_true, if_neg notUnit, value, Content.push_read,
    List.reverse_singleton]
  exact congrArg (fun octets => lexString (.read (before ++ octets)) rest) written.symm

theorem hexValue?_hexDigit : ∀ value < 16,
    hexValue? (UInt8.ofNat (hexDigit value).toNat) = some value ∧
      hexValue? (UInt8.ofNat (hexDigit value).toUpper.toNat) = some value := by
  decide

theorem IsHexDigit.hexValue? {octet : UInt8} (digit : IsHexDigit octet value) :
    hexValue? octet = some value := by
  obtain ⟨small, rfl | rfl⟩ := digit
  · exact (hexValue?_hexDigit value small).1
  · exact (hexValue?_hexDigit value small).2

/-- An escape by number appends its unit. -/
theorem lexString_unit (s : Content) (written : IsUnitEscape code octets) :
    lexString s (octets ++ rest) = lexString (s.pushUnit code) rest := by
  obtain ⟨first, second, third, fourth⟩ := written
  have backslash : (92 : UInt8) ≠ 34 := by decide
  rw [lexString.eq_def]
  simp only [List.cons_append, List.nil_append, if_neg backslash, if_true, hex4?,
    first.hexValue?, second.hexValue?, third.hexValue?, fourth.hexValue?, bind, Option.bind, pure]

theorem utf8_toNat (c : Char) : utf8 c.toNat = String.utf8EncodeChar c := by
  rw [utf8, Char.ofNat_toNat, ofText_eq, String.toList_singleton, List.flatMap_singleton]

/-- The number of a character is not half of a surrogate pair. -/
theorem not_surrogate (c : Char) :
    isHighSurrogate c.toNat = false ∧ isLowSurrogate c.toNat = false := by
  have valid : c.toNat < 0xd800 ∨ 0xdfff < c.toNat ∧ c.toNat < 0x110000 := c.valid
  simp only [isHighSurrogate, isLowSurrogate, Bool.and_eq_false_iff, decide_eq_false_iff_not]
  omega

theorem lexString_number (written : IsUnitEscape c.toNat octets) :
    lexString (.read before) (octets ++ rest) =
      lexString (.read (before ++ String.utf8EncodeChar c)) rest := by
  obtain ⟨notHigh, notLow⟩ := not_surrogate c
  rw [lexString_unit _ written, Content.pushUnit]
  simp only [notHigh, notLow, Bool.false_eq_true, if_false, Content.push_read, utf8_toNat,
    List.reverse_reverse]

/-- Two halves of a surrogate pair are one character. -/
theorem lexString_pair {high low : Nat} {first second : Bytes}
    (writtenHigh : IsUnitEscape high first) (writtenLow : IsUnitEscape low second)
    (highHalf : 0xd800 ≤ high ∧ high ≤ 0xdbff) (lowHalf : 0xdc00 ≤ low ∧ low ≤ 0xdfff)
    (number : c.toNat = 0x10000 + (high - 0xd800) * 0x400 + (low - 0xdc00)) :
    lexString (.read before) (first ++ second ++ rest) =
      lexString (.read (before ++ String.utf8EncodeChar c)) rest := by
  have isHigh : isHighSurrogate high = true := by simp [isHighSurrogate, highHalf]
  have isLow : isLowSurrogate low = true := by simp [isLowSurrogate, lowHalf]
  have notHigh : isHighSurrogate low = false := by
    simp only [isHighSurrogate, Bool.and_eq_false_iff, decide_eq_false_iff_not]
    omega
  have started : (Content.read before).pushUnit high = ⟨before.reverse, true, some high⟩ := by
    simp [Content.pushUnit, isHigh, Content.read]
  rw [List.append_assoc, lexString_unit _ writtenHigh, lexString_unit _ writtenLow, started]
  simp only [Content.pushUnit, notHigh, isLow, Bool.false_eq_true, if_false, if_true, ← number,
    utf8_toNat]
  rw [Content.read, List.reverse_append]

theorem SpellsChar.lexString (spells : SpellsChar c octets) (before rest : Bytes) :
    lexString (.read before) (octets ++ rest) =
      lexString (.read (before ++ String.utf8EncodeChar c)) rest := by
  cases spells with
  | plain printable quote backslash =>
    exact lexString_plain (plain_of_mem_utf8EncodeChar printable quote backslash)
  | short listed => exact lexString_short listed
  | unit written => exact lexString_number written
  | pair writtenHigh writtenLow highHalf lowHalf number =>
    exact lexString_pair writtenHigh writtenLow highHalf lowHalf number

/-- The characters between quotes are read up to the closing quote. -/
theorem SpellsChars.lexString {characters : List Char} (spells : SpellsChars characters octets)
    (before rest : Bytes) :
    lexString (.read before) (octets ++ 34 :: rest) =
      some ((Content.read (before ++ characters.flatMap String.utf8EncodeChar)).toText?, rest) := by
  induction spells generalizing before with
  | nil => simp [lexString_quote]
  | cons head tail ih =>
    rw [List.append_assoc, head.lexString, ih, List.flatMap_cons, List.append_assoc]

/-! ### The spelling that is written -/

theorem isHexDigit_hexDigit {value : Nat} (small : value < 16) :
    IsHexDigit (UInt8.ofNat (hexDigit value).toNat) value :=
  ⟨small, .inl rfl⟩

theorem hexDigit_lt : ∀ value < 16, (hexDigit value).toNat < 128 := by
  decide

/-- A control character is written by number. -/
theorem spellsChar_control (control : c.toNat < 32) :
    SpellsChar c (['\\', 'u', '0', '0', hexDigit (c.toNat / 16), hexDigit (c.toNat % 16)].flatMap
      String.utf8EncodeChar) := by
  have high : c.toNat / 16 < 16 := by omega
  have low : c.toNat % 16 < 16 := by omega
  have escaped : ['\\', 'u', '0', '0', hexDigit (c.toNat / 16), hexDigit (c.toNat % 16)].flatMap
      String.utf8EncodeChar = [92, 117, 48, 48, UInt8.ofNat (hexDigit (c.toNat / 16)).toNat,
        UInt8.ofNat (hexDigit (c.toNat % 16)).toNat] := by
    simp only [List.flatMap_cons, List.flatMap_nil, utf8EncodeChar_of_lt (hexDigit_lt _ high),
      utf8EncodeChar_of_lt (hexDigit_lt _ low)]
    rfl
  have zero : IsHexDigit 48 0 := isHexDigit_hexDigit (by decide)
  have number : ((0 * 16 + 0) * 16 + c.toNat / 16) * 16 + c.toNat % 16 = c.toNat := by omega
  have written := IsUnitEscape.mk zero zero (isHexDigit_hexDigit high) (isHexDigit_hexDigit low)
  rw [number] at written
  rw [escaped]
  exact .unit written

/-- A character is written as one of its spellings. -/
theorem spellsChar_escapeChar (c : Char) :
    SpellsChar c ((escapeChar c).flatMap String.utf8EncodeChar) := by
  rw [escapeChar]
  split
  · next quote =>
    subst quote
    exact .short (by simp [shortEscapes])
  rename_i quote
  split
  · next backslash =>
    subst backslash
    exact .short (by simp [shortEscapes])
  rename_i backslash
  split
  · next backspace =>
    obtain rfl : c = '\x08' := Char.toNat_inj.mp backspace
    exact .short (by simp [shortEscapes])
  split
  · next formFeed =>
    obtain rfl : c = '\x0c' := Char.toNat_inj.mp formFeed
    exact .short (by simp [shortEscapes])
  split
  · next lineFeed =>
    subst lineFeed
    exact .short (by simp [shortEscapes])
  split
  · next carriageReturn =>
    subst carriageReturn
    exact .short (by simp [shortEscapes])
  split
  · next tab =>
    subst tab
    exact .short (by simp [shortEscapes])
  split
  · next control => exact spellsChar_control control
  · next printable =>
    rw [List.flatMap_singleton]
    exact .plain (Nat.not_lt.mp printable) quote backslash

theorem ofText_printText (text : String) : ofText (printText text) =
    34 :: ((text.toList.flatMap escapeChar).flatMap String.utf8EncodeChar ++ [34]) := by
  rw [printText, ofText_ofList, List.flatMap_append, List.flatMap_cons]
  rfl

/-- A text is written as one of its spellings. -/
theorem spells_printText (text : String) : Spells text (ofText (printText text)) := by
  rw [ofText_printText]
  refine .mk ?_
  induction text.toList with
  | nil => exact .nil
  | cons c characters ih =>
    rw [List.flatMap_cons, List.flatMap_append]
    exact .cons (spellsChar_escapeChar c) ih

end SecureChannel.Json
