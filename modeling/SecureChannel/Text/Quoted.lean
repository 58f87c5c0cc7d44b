import SecureChannel.Bytes

/-!
# Quoted characters and texts

Messages show a single character between single quotes and a text between double quotes. Tab, line
feed, carriage return, the null character, the backslash and the quote in use are written with a
backslash; other characters without a shape of their own are written as `\u` with their number in
braces.
-/

namespace SecureChannel.Text

/-- Ranges of characters that are written by number: controls, format characters, blanks other
than the space, combining marks, surrogates' neighbours and private use. -/
def unshown : List (Nat × Nat) :=
  [(0x00, 0x1f), (0x7f, 0xa0), (0xad, 0xad), (0x300, 0x36f), (0x483, 0x489), (0x591, 0x5bd),
    (0x600, 0x605), (0x1680, 0x1680), (0x2000, 0x200f), (0x2028, 0x202f), (0x205f, 0x206f),
    (0x20d0, 0x20f0), (0x3000, 0x3000), (0xd800, 0xf8ff), (0xfe00, 0xfe0f), (0xfe20, 0xfe2f),
    (0xfeff, 0xfeff), (0xfff0, 0xfffb), (0xfffe, 0xffff), (0xe0000, 0x10ffff)]

def isShown (c : Char) : Bool :=
  !unshown.any fun (low, high) => low ≤ c.toNat && c.toNat ≤ high

/-- One character inside quotes of the given kind. -/
def quoteChar (quote : Char) (c : Char) : List Char :=
  if c = Char.ofNat 0 then ['\\', '0']
  else if c = '\t' then ['\\', 't']
  else if c = '\r' then ['\\', 'r']
  else if c = '\n' then ['\\', 'n']
  else if c = '\\' || c = quote then ['\\', c]
  else if isShown c then [c]
  else ['\\', 'u', Char.ofNat 123] ++ Nat.toDigits 16 c.toNat ++ [Char.ofNat 125]

def quotedChar (c : Char) : String :=
  let quote := Char.ofNat 39
  String.ofList (quote :: quoteChar quote c ++ [quote])

def quoted (text : String) : String :=
  String.ofList ('"' :: text.toList.flatMap (quoteChar '"') ++ ['"'])

end SecureChannel.Text
