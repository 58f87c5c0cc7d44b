/-!
# Bytes

Every message, key and tag of the library is a finite sequence of octets, kept as a plain list so
that splitting and joining are the list operations. This module holds the readings of such a
sequence as a number, its division into blocks, and its relation to text: `ofText` is the UTF-8
form of a text, and `toText?` reads that form back and refuses every other sequence.

`Bytes32` is the type of keys, public points, digests and handshake hashes: sequences of exactly
32 octets.
-/

namespace SecureChannel

/-- A sequence of octets. -/
abbrev Bytes := List UInt8

namespace Bytes

/-- The number whose base-256 digits, least significant first, are the given octets. -/
def toNatLE : Bytes → Nat
  | [] => 0
  | b :: rest => b.toNat + 256 * toNatLE rest

def toNatBE (bytes : Bytes) : Nat :=
  bytes.foldl (fun n b => 256 * n + b.toNat) 0

/-- The low `width` base-256 digits of a number, least significant first. -/
def ofNatLE : (width : Nat) → Nat → Bytes
  | 0, _ => []
  | width + 1, n => UInt8.ofNat n :: ofNatLE width (n / 256)

def ofNatBE (width n : Nat) : Bytes :=
  (ofNatLE width n).reverse

/-- Eight octets, least significant first, of a 64-bit word. -/
def ofUInt64 (n : UInt64) : Bytes :=
  ofNatLE 8 n.toNat

def toUInt64 (bytes : Bytes) : UInt64 :=
  UInt64.ofNat (toNatLE bytes)

def ofUInt32 (n : UInt32) : Bytes :=
  [n.toUInt8, (n >>> 8).toUInt8, (n >>> 16).toUInt8, (n >>> 24).toUInt8]

/-- The 32-bit word with the given octets, least significant first; missing ones count as zero. -/
def toUInt32 : Bytes → UInt32
  | a :: b :: c :: d :: _ =>
      a.toUInt32 ||| (b.toUInt32 <<< 8) ||| (c.toUInt32 <<< 16) ||| (d.toUInt32 <<< 24)
  | rest => UInt32.ofNat (toNatLE rest)

/-- Consecutive blocks of `size` octets; the last one may be shorter, and none is empty. -/
def blocks (size : Nat) (bytes : Bytes) : List Bytes :=
  go bytes.length bytes
where
  /-- One block for each unit of fuel, as long as octets remain. -/
  go : Nat → Bytes → List Bytes
    | 0, _ => []
    | _ + 1, [] => []
    | fuel + 1, bytes => bytes.take size :: go fuel (bytes.drop size)

def ofText (text : String) : Bytes :=
  text.toUTF8.data.toList

/-- The text whose UTF-8 form is the given sequence, if there is one. -/
def toText? (bytes : Bytes) : Option String :=
  String.fromUTF8? ⟨bytes.toArray⟩

@[simp] theorem ofNatLE_zero (n : Nat) : ofNatLE 0 n = [] := rfl

@[simp] theorem ofNatLE_succ (width n : Nat) :
    ofNatLE (width + 1) n = UInt8.ofNat n :: ofNatLE width (n / 256) := rfl

@[simp] theorem length_ofNatLE (width n : Nat) : (ofNatLE width n).length = width := by
  induction width generalizing n with
  | zero => rfl
  | succ width ih => simp [ih]

@[simp] theorem length_ofNatBE (width n : Nat) : (ofNatBE width n).length = width := by
  simp [ofNatBE]

@[simp] theorem length_ofUInt64 (n : UInt64) : (ofUInt64 n).length = 8 :=
  length_ofNatLE 8 n.toNat

end Bytes

/-- A sequence of exactly 32 octets. -/
structure Bytes32 where
  toBytes : Bytes
  length_toBytes : toBytes.length = 32
deriving DecidableEq

namespace Bytes32

attribute [simp] length_toBytes

instance : Hashable Bytes32 := ⟨fun b => hash b.toBytes⟩

def ofBytes? (bytes : Bytes) : Option Bytes32 :=
  if h : bytes.length = 32 then some ⟨bytes, h⟩ else none

/-- The first 32 octets of a sequence, padded with zeros where it is shorter. -/
def resize (bytes : Bytes) : Bytes32 :=
  ⟨(bytes ++ List.replicate 32 0).take 32, by simp⟩

/-- The 32 octets of a number below `2 ^ 256`, least significant first. -/
def ofNatLE (n : Nat) : Bytes32 :=
  ⟨Bytes.ofNatLE 32 n, Bytes.length_ofNatLE 32 n⟩

instance : Inhabited Bytes32 := ⟨ofNatLE 0⟩

@[simp] theorem ofBytes?_toBytes (b : Bytes32) : ofBytes? b.toBytes = some b := by
  simp [ofBytes?]

end Bytes32

end SecureChannel
