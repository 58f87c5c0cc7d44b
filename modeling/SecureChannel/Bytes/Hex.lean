import SecureChannel.Bytes
import SecureChannel.Text.Quoted

/-!
# Hexadecimal text

Octets are written as two lowercase digits each. Reading accepts digits of either case, requires an
even number of them, and names the first octet of the text that is not a digit together with its
place. The parity is looked at first.
-/

namespace SecureChannel.Hex

inductive Fault
  | oddLength
  | character (found : UInt8) (position : Nat)
deriving DecidableEq

namespace Fault

/-- The wording of a fault; an octet is shown as the character of its number. -/
def message : Fault → String
  | oddLength => "Odd number of digits"
  | character found position =>
      let shown := Text.quotedChar (Char.ofNat found.toNat)
      s!"Invalid character {shown} at position {position}"

end Fault

def digit (value : UInt8) : Char :=
  if value < 10 then Char.ofNat (48 + value.toNat) else Char.ofNat (87 + value.toNat)

def value? (c : UInt8) : Option UInt8 :=
  if 48 ≤ c ∧ c ≤ 57 then some (c - 48)
  else if 97 ≤ c ∧ c ≤ 102 then some (c - 87)
  else if 65 ≤ c ∧ c ≤ 70 then some (c - 55)
  else none

def digits (bytes : Bytes) : List Char :=
  bytes.flatMap fun b : UInt8 => [digit (b >>> 4), digit (b &&& 15)]

def encode (bytes : Bytes) : String :=
  String.ofList (digits bytes)

/-- One octet for each pair of digits, the first of which stands at `position`. -/
def decodePairs (position : Nat) : Bytes → Except Fault Bytes
  | high :: low :: rest =>
      match value? high, value? low with
      | none, _ => .error (.character high position)
      | some _, none => .error (.character low (position + 1))
      | some h, some l => do
          let bytes ← decodePairs (position + 2) rest
          return (h <<< 4 ||| l) :: bytes
  | _ => .ok []

def decode (text : Bytes) : Except Fault Bytes :=
  if text.length % 2 = 0 then decodePairs 0 text else .error .oddLength

end SecureChannel.Hex
