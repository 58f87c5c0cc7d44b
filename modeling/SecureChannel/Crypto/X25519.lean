import SecureChannel.Bytes

/-!
# Key agreement on Curve25519

Points are given by their first coordinate on the Montgomery curve `y² = x³ + 486662 x² + x` over
the integers modulo `2 ^ 255 - 19`. `agree` multiplies a point by a scalar with the Montgomery
ladder. Scalars are clamped as they are used, and the top bit of a point's octets is ignored. Every
scalar and every point gives an answer; a point of small order gives zero.
-/

namespace SecureChannel.Crypto.X25519

def prime : Nat := Nat.pow 2 255 - 19

def add (a b : Nat) : Nat := (a + b) % prime

/-- The difference of two residues below the modulus. -/
def sub (a b : Nat) : Nat := (a + prime - b) % prime

def mul (a b : Nat) : Nat := a * b % prime

/-- A power of a residue, by squaring; the exponent has at most `bits` binary digits. -/
def pow (base : Nat) : (bits : Nat) → (exponent : Nat) → Nat
  | 0, _ => 1
  | bits + 1, exponent =>
      let half := pow (mul base base) bits (exponent / 2)
      if exponent % 2 = 1 then mul base half else half

/-- The inverse of a residue, and zero for zero. -/
def inverse (a : Nat) : Nat := pow a 255 (prime - 2)

/-- Clears the low three bits and the top bit of a scalar and sets the bit below the top. -/
def clamp (scalar : Nat) : Nat :=
  scalar % Nat.pow 2 254 / 8 * 8 + Nat.pow 2 254

/-- Two points of the ladder in projective form, whose difference is the base point. -/
structure Ladder where
  x₂ : Nat
  z₂ : Nat
  x₃ : Nat
  z₃ : Nat

namespace Ladder

def swap (l : Ladder) : Ladder := ⟨l.x₃, l.z₃, l.x₂, l.z₂⟩

/-- Doubles the first point and adds the two, for a base point with coordinate `x₁`. -/
def step (x₁ : Nat) (l : Ladder) : Ladder :=
  let a := add l.x₂ l.z₂
  let aa := mul a a
  let b := sub l.x₂ l.z₂
  let bb := mul b b
  let e := sub aa bb
  let da := mul (sub l.x₃ l.z₃) a
  let cb := mul (add l.x₃ l.z₃) b
  let sum := add da cb
  let difference := sub da cb
  { x₂ := mul aa bb
    z₂ := mul e (add aa (mul 121665 e))
    x₃ := mul sum sum
    z₃ := mul x₁ (mul difference difference) }

end Ladder

/-- Runs the ladder over the lowest `bits` bits of the scalar, the highest of them first. -/
def ladder (x₁ scalar : Nat) : (bits : Nat) → Ladder → Ladder
  | 0, l => l
  | bit + 1, l =>
      let next := if scalar.testBit bit then (l.swap.step x₁).swap else l.step x₁
      ladder x₁ scalar bit next

/-- The product of a point and a clamped scalar. -/
def agree (scalar point : Bytes32) : Bytes32 :=
  let x₁ := Bytes.toNatLE point.toBytes % Nat.pow 2 255 % prime
  let l := ladder x₁ (clamp (Bytes.toNatLE scalar.toBytes)) 255 ⟨1, 0, x₁, 1⟩
  Bytes32.ofNatLE (mul l.x₂ (inverse l.z₂))

/-- The public point of a private scalar: its product with the point whose coordinate is nine. -/
def publicKey (scalar : Bytes32) : Bytes32 :=
  agree scalar (Bytes32.ofNatLE 9)

end SecureChannel.Crypto.X25519
