import SecureChannel.Bytes

/-!
# Text from any octets

Output for people has to be text whatever the octets are. Octets that are UTF-8 stand for their
characters. Where they are not, each longest run of octets that begins a character without ending it
becomes one replacement character, and so does each octet that begins no character.
-/

namespace SecureChannel.Text

/-- The ranges of the octets behind a leading one, or nothing if it leads none. -/
def continuations (lead : UInt8) : List (UInt8 × UInt8) :=
  if lead < 0xc2 then []
  else if lead ≤ 0xdf then [(0x80, 0xbf)]
  else if lead = 0xe0 then [(0xa0, 0xbf), (0x80, 0xbf)]
  else if lead = 0xed then [(0x80, 0x9f), (0x80, 0xbf)]
  else if lead ≤ 0xef then [(0x80, 0xbf), (0x80, 0xbf)]
  else if lead = 0xf0 then [(0x90, 0xbf), (0x80, 0xbf), (0x80, 0xbf)]
  else if lead ≤ 0xf3 then [(0x80, 0xbf), (0x80, 0xbf), (0x80, 0xbf)]
  else if lead = 0xf4 then [(0x80, 0x8f), (0x80, 0xbf), (0x80, 0xbf)]
  else []

/-- The octets at the front that lie in the ranges, one after the other. -/
def inRanges : List (UInt8 × UInt8) → Bytes → Bytes
  | (low, high) :: ranges, b :: rest =>
      if low ≤ b ∧ b ≤ high then b :: inRanges ranges rest else []
  | _, _ => []

/-- The bits of a leading octet that belong to the character, if so many octets follow. -/
def leadBits (lead : UInt8) (following : Nat) : Nat :=
  if following = 0 then lead.toNat
  else if following = 1 then (lead &&& 0x1f).toNat
  else if following = 2 then (lead &&& 0x0f).toNat
  else (lead &&& 0x07).toNat

/-- The character that stands in the place of octets that are none. -/
def replacement : Char := Char.ofNat 0xfffd

/-- The first character, and how many octets behind the first belong to it. -/
def lossyChar (lead : UInt8) (rest : Bytes) : Char × Nat :=
  let ranges := continuations lead
  let taken := inRanges ranges rest
  if taken.length < ranges.length || (ranges.isEmpty && 0x80 ≤ lead) then
    (replacement, taken.length)
  else
    let code := taken.foldl (fun n b => n * 64 + (b &&& 0x3f).toNat) (leadBits lead taken.length)
    (Char.ofNat code, taken.length)

/-- One character for each unit of fuel, as long as octets remain. -/
def lossyChars : (fuel : Nat) → Bytes → List Char
  | fuel + 1, lead :: rest =>
      let (c, count) := lossyChar lead rest
      c :: lossyChars fuel (rest.drop count)
  | _, _ => []

def lossy (octets : Bytes) : String :=
  String.ofList (lossyChars octets.length octets)

end SecureChannel.Text
