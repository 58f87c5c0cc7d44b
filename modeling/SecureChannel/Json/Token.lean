import SecureChannel.Bytes
import SecureChannel.Json.Number

/-!
# Lexical structure of JSON

A document is a sequence of octets. `lex` divides it into tokens and drops the four kinds of blanks
between them. Where no token begins, the sequence ends with `invalid`, so that whoever reads tokens
in order meets the fault only after everything in front of it.

The content of a string token is absent when the string is closed and well formed but does not
stand for Unicode text: its octets are not UTF-8, or an escape names half of a surrogate pair. Such
a string may be skipped but not read.
-/

namespace SecureChannel.Json

inductive Token
  | openObject
  | closeObject
  | openArray
  | closeArray
  | colon
  | comma
  | null
  | bool (value : Bool)
  | number (value : Number)
  | text (content : Option String)
  | invalid
deriving DecidableEq

def hexValue? (c : UInt8) : Option Nat :=
  if 48 ≤ c ∧ c ≤ 57 then some (c.toNat - 48)
  else if 97 ≤ c ∧ c ≤ 102 then some (c.toNat - 87)
  else if 65 ≤ c ∧ c ≤ 70 then some (c.toNat - 55)
  else none

def hex4? (a b c d : UInt8) : Option Nat := do
  let a ← hexValue? a
  let b ← hexValue? b
  let c ← hexValue? c
  let d ← hexValue? d
  return ((a * 16 + b) * 16 + c) * 16 + d

def simpleEscape? (c : UInt8) : Option UInt8 :=
  if c = 34 ∨ c = 92 ∨ c = 47 then some c
  else if c = 98 then some 8
  else if c = 102 then some 12
  else if c = 110 then some 10
  else if c = 114 then some 13
  else if c = 116 then some 9
  else none

/-- The octets of the character with the given number. -/
def utf8 (code : Nat) : Bytes :=
  Bytes.ofText (String.singleton (Char.ofNat code))

/-- Whether a number is the first half of a surrogate pair. -/
def isHighSurrogate (code : Nat) : Bool := 0xd800 ≤ code && code ≤ 0xdbff

/-- Whether a number is the second half of a surrogate pair. -/
def isLowSurrogate (code : Nat) : Bool := 0xdc00 ≤ code && code ≤ 0xdfff

/-- The part of a string that was read so far. -/
structure Content where
  /-- Its octets, last first. -/
  reversed : Bytes
  /-- No half of a surrogate pair stands alone in it. -/
  valid : Bool
  /-- The first half of a surrogate pair, if that was read last. -/
  high : Option Nat

namespace Content

def empty : Content := ⟨[], true, none⟩

/-- Appends octets, last first; a first half that was read last stays alone. -/
def push (s : Content) (octets : Bytes) : Content :=
  ⟨octets ++ s.reversed, s.valid && s.high.isNone, none⟩

/-- Appends the unit named by an escape, which may complete a surrogate pair. -/
def pushUnit (s : Content) (code : Nat) : Content :=
  if isHighSurrogate code then ⟨s.reversed, s.valid && s.high.isNone, some code⟩
  else if isLowSurrogate code then
    match s.high with
    | some high =>
        let pair := 0x10000 + (high - 0xd800) * 0x400 + (code - 0xdc00)
        ⟨(utf8 pair).reverse ++ s.reversed, s.valid, none⟩
    | none => ⟨s.reversed, false, none⟩
  else s.push (utf8 code).reverse

def toText? (s : Content) : Option String :=
  if s.valid && s.high.isNone then Bytes.toText? s.reversed.reverse else none

end Content

/-- The content of a string behind its opening quote, and what follows the closing one. -/
def lexString (s : Content) : Bytes → Option (Option String × Bytes)
  | [] => none
  | c :: rest =>
      if c = 34 then some (s.toText?, rest)
      else if c = 92 then
        match rest with
        | [] => none
        | escape :: rest =>
            if escape = 117 then
              match rest with
              | w :: x :: y :: z :: rest =>
                  match hex4? w x y z with
                  | some code => lexString (s.pushUnit code) rest
                  | none => none
              | _ => none
            else
              match simpleEscape? escape with
              | some octet => lexString (s.push [octet]) rest
              | none => none
      else if c < 32 then none
      else lexString (s.push [c]) rest

def isDigit (c : UInt8) : Bool := 48 ≤ c && c ≤ 57

def decimal (digits : Bytes) : Nat :=
  digits.foldl (fun n c => 10 * n + (c.toNat - 48)) 0

/-- The fraction of a number, if a point comes next: its digits and the rest. -/
def lexFraction : Bytes → Option (Bytes × Bytes)
  | 46 :: rest =>
      let (digits, rest) := rest.span isDigit
      if digits.isEmpty then none else some (digits, rest)
  | rest => some ([], rest)

/-- The digits of an exponent whose sign has been read. -/
def lexExponentDigits (negative : Bool) (text : Bytes) : Option (Option Int × Bytes) :=
  let (digits, rest) := text.span isDigit
  if digits.isEmpty then none
  else some (some (if negative then -(decimal digits : Int) else decimal digits), rest)

/-- The exponent of a number, if one comes next. -/
def lexExponent : Bytes → Option (Option Int × Bytes)
  | c :: rest =>
      if c = 101 ∨ c = 69 then
        match rest with
        | 43 :: rest => lexExponentDigits false rest
        | 45 :: rest => lexExponentDigits true rest
        | rest => lexExponentDigits false rest
      else some (none, c :: rest)
  | [] => some (none, [])

/-- The digits in front of the point: a zero alone, or digits that start with another. -/
def lexWhole : Bytes → Option (Bytes × Bytes)
  | 48 :: rest => some ([48], rest)
  | text =>
      let (digits, rest) := text.span isDigit
      if digits.isEmpty then none else some (digits, rest)

/-- A number, after its sign. -/
def lexNumber (negative : Bool) (text : Bytes) : Option (Token × Bytes) := do
  let (digits, rest) ← lexWhole text
  let (fraction, rest) ← lexFraction rest
  let (exponent, rest) ← lexExponent rest
  let number : Number :=
    { negative := negative
      whole := fraction.isEmpty && exponent.isNone
      coefficient := decimal (digits ++ fraction)
      scale := exponent.getD 0 - fraction.length }
  return (.number number, rest)

/-- The token that starts with the given octet. -/
def lexFrom (c : UInt8) (rest : Bytes) : Option (Token × Bytes) :=
  if c = 123 then some (.openObject, rest)
  else if c = 125 then some (.closeObject, rest)
  else if c = 91 then some (.openArray, rest)
  else if c = 93 then some (.closeArray, rest)
  else if c = 58 then some (.colon, rest)
  else if c = 44 then some (.comma, rest)
  else if c = 34 then (lexString .empty rest).map fun (content, rest) => (.text content, rest)
  else if c = 45 then lexNumber true rest
  else if isDigit c then lexNumber false (c :: rest)
  else
    match c, rest with
    | 110, 117 :: 108 :: 108 :: rest => some (.null, rest)
    | 116, 114 :: 117 :: 101 :: rest => some (.bool true, rest)
    | 102, 97 :: 108 :: 115 :: 101 :: rest => some (.bool false, rest)
    | _, _ => none

def isSpace (c : UInt8) : Bool := c = 32 || c = 9 || c = 10 || c = 13

/-- Tokens for as many octets as there is fuel; `before` holds the tokens so far, last first. -/
def lexAll (before : List Token) : (fuel : Nat) → Bytes → List Token
  | _, [] => before.reverse
  | 0, _ => (Token.invalid :: before).reverse
  | fuel + 1, c :: rest =>
      if isSpace c then lexAll before fuel rest
      else
        match lexFrom c rest with
        | some (token, rest) => lexAll (token :: before) fuel rest
        | none => (Token.invalid :: before).reverse

def lex (document : Bytes) : List Token :=
  lexAll [] document.length document

end SecureChannel.Json
