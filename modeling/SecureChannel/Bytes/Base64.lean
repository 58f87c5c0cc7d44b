import SecureChannel.Bytes

/-!
# Base64 in two forms

`Form.standard` is the alphabet with `+` and `/` whose last group is always filled up with `=`;
`Form.url` is the alphabet with `-` and `_` and never carries `=`. Both are canonical: the bits of
the last symbol that belong to no octet have to be zero.

Reading works on the octets of the text. All groups of four but the last must consist of symbols
alone; the last group carries the padding and is looked at in one go. Positions in a fault are
octet positions in the text. A text whose length leaves one symbol over is looked at from its end
first, so that a stray final octet is named before anything that precedes it.
-/

namespace SecureChannel.Base64

inductive Form
  | standard
  | url
deriving DecidableEq

inductive Fault
  | symbol (found : UInt8) (offset : Nat)
  | length (symbols : Nat)
  | lastSymbol (found : UInt8) (offset : Nat)
  | padding
deriving DecidableEq

namespace Form

def name : Form → String
  | standard => "base64"
  | url => "base64url"

end Form

namespace Fault

def message : Fault → String
  | symbol found offset => s!"Invalid symbol {found}, offset {offset}."
  | length symbols => s!"Invalid input length: {symbols}"
  | lastSymbol found offset => s!"Invalid last symbol {found}, offset {offset}."
  | padding => "Invalid padding"

/-- The wording of a fault where a protocol asks for the given form. -/
def protocolMessage (fault : Fault) (form : Form) : String :=
  s!"protocol error: invalid {form.name}: {fault.message}"

end Fault

def pad : UInt8 := 61

namespace Form

/-- The two symbols in which the alphabets differ. -/
def last : Form → UInt8 × UInt8
  | standard => (43, 47)
  | url => (45, 95)

def symbol (form : Form) (value : UInt8) : UInt8 :=
  if value < 26 then value + 65
  else if value < 52 then value + 71
  else if value < 62 then value - 4
  else if value = 62 then form.last.1
  else form.last.2

def value? (form : Form) (c : UInt8) : Option UInt8 :=
  if 65 ≤ c ∧ c ≤ 90 then some (c - 65)
  else if 97 ≤ c ∧ c ≤ 122 then some (c - 71)
  else if 48 ≤ c ∧ c ≤ 57 then some (c + 4)
  else if c = form.last.1 then some 62
  else if c = form.last.2 then some 63
  else none

/-- The padding that completes a group with `missing` absent symbols. -/
def fill (form : Form) (missing : Nat) : Bytes :=
  match form with
  | standard => List.replicate missing pad
  | url => []

end Form

/-- The symbols of a sequence of octets: four for three, and two or three for what is left. -/
def encodeBytes (form : Form) : Bytes → Bytes
  | a :: b :: c :: rest =>
      form.symbol (a >>> 2) :: form.symbol ((a &&& 3) <<< 4 ||| b >>> 4) ::
        form.symbol ((b &&& 15) <<< 2 ||| c >>> 6) :: form.symbol (c &&& 63) ::
          encodeBytes form rest
  | [a, b] =>
      form.symbol (a >>> 2) :: form.symbol ((a &&& 3) <<< 4 ||| b >>> 4) ::
        form.symbol ((b &&& 15) <<< 2) :: form.fill 1
  | [a] => form.symbol (a >>> 2) :: form.symbol ((a &&& 3) <<< 4) :: form.fill 2
  | [] => []

def encode (form : Form) (bytes : Bytes) : String :=
  String.ofList ((encodeBytes form bytes).map fun c => Char.ofNat c.toNat)

/-- The three octets of a group of four values. -/
def join (a b c d : UInt8) : Bytes :=
  [a <<< 2 ||| b >>> 4, b <<< 4 ||| c >>> 2, c <<< 6 ||| d]

/-- The values of the symbols before the padding in the last group, which starts at `offset`;
`before` are the values read so far. -/
def lastValues (form : Form) (offset : Nat) (before : List UInt8) :
    Bytes → Except Fault (List UInt8 × Nat)
  | [] => .ok (before, 0)
  | c :: rest =>
      if c = pad then
        if before.length < 2 then .error (.symbol c (offset + before.length))
        else if rest.all (· = pad) then .ok (before, rest.length + 1)
        else .error (.symbol pad (offset + before.length))
      else
        match form.value? c with
        | none => .error (.symbol c (offset + before.length))
        | some v => lastValues form offset (before ++ [v]) rest

/-- Whether a last group with so many symbols and so many `=` is complete in this form. -/
def Form.complete (form : Form) (symbols padding : Nat) : Bool :=
  match form with
  | .standard => (symbols + padding) % 4 = 0
  | .url => padding = 0

/-- The octets of the last group, whose first octet of text stands at `offset`. -/
def decodeLast (form : Form) (offset : Nat) (text : Bytes) : Except Fault Bytes := do
  let (values, padding) ← lastValues form offset [] text
  if values.length < 2 then throw (.length (offset + values.length))
  if !form.complete values.length padding then throw .padding
  let final := text.getD (values.length - 1) pad
  match values with
  | [a, b] =>
      if b &&& 15 = 0 then return (join a b 0 0).take 1
      else throw (.lastSymbol final (offset + 1))
  | [a, b, c] =>
      if c &&& 3 = 0 then return (join a b c 0).take 2
      else throw (.lastSymbol final (offset + 2))
  | a :: b :: c :: d :: _ => return join a b c d
  | _ => throw .padding

def valueAt (form : Form) (offset : Nat) (c : UInt8) : Except Fault UInt8 :=
  match form.value? c with
  | some v => .ok v
  | none => .error (.symbol c offset)

/-- The octets of all groups; the first octet of text stands at `offset`. -/
def decodeGroups (form : Form) (offset : Nat) : Bytes → Except Fault Bytes
  | a :: b :: c :: d :: e :: rest => do
      let va ← valueAt form offset a
      let vb ← valueAt form (offset + 1) b
      let vc ← valueAt form (offset + 2) c
      let vd ← valueAt form (offset + 3) d
      return join va vb vc vd ++ (← decodeGroups form (offset + 4) (e :: rest))
  | [] => .ok []
  | last => decodeLast form offset last

def decodeBytes (form : Form) (text : Bytes) : Except Fault Bytes :=
  match text.getLast? with
  | none => .ok []
  | some c =>
      if text.length % 4 = 1 ∧ c ≠ pad ∧ form.value? c = none then
        .error (.symbol c (text.length - 1))
      else decodeGroups form 0 text

def decode (form : Form) (text : String) : Except Fault Bytes :=
  decodeBytes form (Bytes.ofText text)

end SecureChannel.Base64
