import SecureChannel.Bytes.Base64

/-!
# Writing JSON

Documents are written without blanks. In a string the quote, the backslash and the control
characters are escaped, five of these with a letter and the others by number; every other character
stands for itself. Byte strings are written as base64 text.
-/

namespace SecureChannel.Json

def hexDigit (n : Nat) : Char :=
  if n < 10 then Char.ofNat (48 + n) else Char.ofNat (87 + n)

/-- A character as it stands in a string. -/
def escapeChar (c : Char) : List Char :=
  if c = '"' then ['\\', '"']
  else if c = '\\' then ['\\', '\\']
  else if c.toNat = 8 then ['\\', 'b']
  else if c.toNat = 12 then ['\\', 'f']
  else if c = '\n' then ['\\', 'n']
  else if c = '\r' then ['\\', 'r']
  else if c = '\t' then ['\\', 't']
  else if c.toNat < 32 then ['\\', 'u', '0', '0', hexDigit (c.toNat / 16), hexDigit (c.toNat % 16)]
  else [c]

def printText (text : String) : String :=
  String.ofList ('"' :: text.toList.flatMap escapeChar ++ ['"'])

def printBytes (bytes : Bytes) : String :=
  printText (Base64.encode .standard bytes)

/-- An object whose members are given as keys and written values. -/
def printObject (members : List (String × String)) : String :=
  let written := members.map fun (key, value) => printText key ++ ":" ++ value
  "\x7b" ++ ",".intercalate written ++ "\x7d"

end SecureChannel.Json
