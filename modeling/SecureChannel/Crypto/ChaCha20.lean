import SecureChannel.Bytes

/-!
# The ChaCha20 key stream

A block of the stream comes from sixteen words: four constants, eight key words, a block counter
and three nonce words. Ten double rounds of quarter rounds scramble them, and the start is added
back. A message is masked by adding the stream to it octet by octet without carry.
-/

namespace SecureChannel.Crypto.ChaCha20

def rotateLeft (x : UInt32) (n : UInt32) : UInt32 :=
  x <<< n ||| x >>> (32 - n)

/-- The quarter round on four words of the state, given by their places below sixteen. -/
def quarterRound (v : Vector UInt32 16) (a b c d : Nat) : Vector UInt32 16 :=
  let va := v[a]! + v[b]!
  let vd := rotateLeft (v[d]! ^^^ va) 16
  let vc := v[c]! + vd
  let vb := rotateLeft (v[b]! ^^^ vc) 12
  let va := va + vb
  let vd := rotateLeft (vd ^^^ va) 8
  let vc := vc + vd
  let vb := rotateLeft (vb ^^^ vc) 7
  (((v.set! a va).set! b vb).set! c vc).set! d vd

/-- The four columns, then the four diagonals. -/
def doubleRound (v : Vector UInt32 16) : Vector UInt32 16 :=
  let v := quarterRound v 0 4 8 12
  let v := quarterRound v 1 5 9 13
  let v := quarterRound v 2 6 10 14
  let v := quarterRound v 3 7 11 15
  let v := quarterRound v 0 5 10 15
  let v := quarterRound v 1 6 11 12
  let v := quarterRound v 2 7 8 13
  quarterRound v 3 4 9 14

def words (bytes : Bytes) : List UInt32 :=
  (Bytes.blocks 4 bytes).map Bytes.toUInt32

/-- The start of a block; the nonce has twelve octets. -/
def start (key : Bytes32) (counter : UInt32) (nonce : Bytes) : Vector UInt32 16 :=
  let all := ([0x61707865, 0x3320646e, 0x79622d32, 0x6b206574] ++ words key.toBytes ++
    [counter] ++ words nonce).toArray
  Vector.ofFn fun i => all.getD i.val 0

/-- The 64 octets of one block of the stream. -/
def block (key : Bytes32) (counter : UInt32) (nonce : Bytes) : Bytes :=
  let initial := start key counter nonce
  let final := (List.range 10).foldl (fun v _ => doubleRound v) initial
  (List.zipWith (· + ·) initial.toList final.toList).flatMap Bytes.ofUInt32

/-- Masks a message, given in blocks of 64 octets, with the stream from `counter` on. -/
def mask (key : Bytes32) (nonce : Bytes) (counter : UInt32) : List Bytes → List Bytes
  | [] => []
  | part :: rest =>
      List.zipWith (· ^^^ ·) part (block key counter nonce) :: mask key nonce (counter + 1) rest

/-- Masks a message with the stream that starts at block `counter`; doing it twice undoes it. -/
def apply (key : Bytes32) (nonce : Bytes) (counter : UInt32) (message : Bytes) : Bytes :=
  (mask key nonce counter (Bytes.blocks 64 message)).flatten

end SecureChannel.Crypto.ChaCha20
