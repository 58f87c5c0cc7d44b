import SecureChannel.Bytes

/-!
# The BLAKE2s-256 digest

The digest runs over blocks of 64 octets. Each block is mixed into a chaining value of eight words
by ten rounds over a state of sixteen words; the count of octets so far and a mark for the final
block enter the state. There is no key, and the digest has 32 octets.
-/

namespace SecureChannel.Crypto.Blake2s

def blockLength : Nat := 64

def iv : Vector UInt32 8 :=
  #v[0x6a09e667, 0xbb67ae85, 0x3c6ef372, 0xa54ff53a, 0x510e527f, 0x9b05688c, 0x1f83d9ab, 0x5be0cd19]

/-- The order in which the message words enter each of the ten rounds. -/
def schedule : List (Vector (Fin 16) 16) :=
  [#v[0, 1, 2, 3, 4, 5, 6, 7, 8, 9, 10, 11, 12, 13, 14, 15],
   #v[14, 10, 4, 8, 9, 15, 13, 6, 1, 12, 0, 2, 11, 7, 5, 3],
   #v[11, 8, 12, 0, 5, 2, 15, 13, 10, 14, 3, 6, 7, 1, 9, 4],
   #v[7, 9, 3, 1, 13, 12, 11, 14, 2, 6, 5, 10, 4, 0, 15, 8],
   #v[9, 0, 5, 7, 2, 4, 10, 15, 14, 1, 11, 12, 6, 8, 3, 13],
   #v[2, 12, 6, 10, 0, 11, 8, 3, 4, 13, 7, 5, 15, 14, 1, 9],
   #v[12, 5, 1, 15, 14, 13, 4, 10, 0, 7, 6, 3, 9, 2, 8, 11],
   #v[13, 11, 7, 14, 12, 1, 3, 9, 5, 0, 15, 4, 8, 6, 2, 10],
   #v[6, 15, 14, 9, 11, 3, 0, 8, 12, 2, 13, 7, 1, 4, 10, 5],
   #v[10, 2, 8, 4, 7, 6, 1, 5, 15, 11, 9, 14, 3, 12, 13, 0]]

def rotateRight (x : UInt32) (n : UInt32) : UInt32 :=
  x >>> n ||| x <<< (32 - n)

/-- Mixes two message words into four words of the state. -/
def mix (v : Vector UInt32 16) (a b c d : Fin 16) (x y : UInt32) : Vector UInt32 16 :=
  let va := v[a] + v[b] + x
  let vd := rotateRight (v[d] ^^^ va) 16
  let vc := v[c] + vd
  let vb := rotateRight (v[b] ^^^ vc) 12
  let va := va + vb + y
  let vd := rotateRight (vd ^^^ va) 8
  let vc := vc + vd
  let vb := rotateRight (vb ^^^ vc) 7
  (((v.set a va).set b vb).set c vc).set d vd

/-- One round: the four columns, then the four diagonals. -/
def round (m : Vector UInt32 16) (v : Vector UInt32 16) (s : Vector (Fin 16) 16) :
    Vector UInt32 16 :=
  let v := mix v 0 4 8 12 m[s[0]] m[s[1]]
  let v := mix v 1 5 9 13 m[s[2]] m[s[3]]
  let v := mix v 2 6 10 14 m[s[4]] m[s[5]]
  let v := mix v 3 7 11 15 m[s[6]] m[s[7]]
  let v := mix v 0 5 10 15 m[s[8]] m[s[9]]
  let v := mix v 1 6 11 12 m[s[10]] m[s[11]]
  let v := mix v 2 7 8 13 m[s[12]] m[s[13]]
  mix v 3 4 9 14 m[s[14]] m[s[15]]

/-- The sixteen words of a block; a short block is filled up with zeros. -/
def words (block : Bytes) : Vector UInt32 16 :=
  let padded := (block ++ List.replicate blockLength 0).toArray
  Vector.ofFn fun i =>
    let octet (k : Nat) : UInt32 := (padded.getD (4 * i.val + k) 0).toUInt32
    octet 0 ||| (octet 1 <<< (8 : UInt32)) ||| (octet 2 <<< (16 : UInt32)) |||
      (octet 3 <<< (24 : UInt32))

/-- Mixes one block into the chaining value; `count` octets have been taken in so far. -/
def compress (h : Vector UInt32 8) (block : Bytes) (count : Nat) (final : Bool) :
    Vector UInt32 8 :=
  let m := words block
  let low := UInt32.ofNat count
  let high := UInt32.ofNat (count / UInt32.size)
  let start : Vector UInt32 16 :=
    #v[h[0], h[1], h[2], h[3], h[4], h[5], h[6], h[7], iv[0], iv[1], iv[2], iv[3],
      iv[4] ^^^ low, iv[5] ^^^ high, if final then ~~~iv[6] else iv[6], iv[7]]
  let v := schedule.foldl (round m) start
  Vector.ofFn fun i : Fin 8 => h[i] ^^^ v[i.val] ^^^ v[i.val + 8]

/-- Takes in all blocks but the last, which is marked as final. -/
def absorb (h : Vector UInt32 8) (count : Nat) : List Bytes → Vector UInt32 8
  | [] => compress h [] count true
  | [last] => compress h last (count + last.length) true
  | block :: rest =>
      absorb (compress h block (count + block.length) false) (count + block.length) rest

def digest (data : Bytes) : Bytes32 :=
  let h := absorb (iv.set 0 (iv[0] ^^^ 0x01010020)) 0 (Bytes.blocks blockLength data)
  Bytes32.resize (h.toList.flatMap Bytes.ofUInt32)

end SecureChannel.Crypto.Blake2s
