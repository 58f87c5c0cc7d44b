import SecureChannel.Bytes.Hex

/-!
# Channel identifiers

Every message after the handshake names its channel. There are four schemes of naming: the server
assigns a random number of two or four octets, both parties take the transcript digest of the
handshake, or the transport supplies a tag of its own. Zero is never a channel's number.
-/

namespace SecureChannel

/-- How channels are named. -/
inductive IdScheme
  /-- A server-assigned number of two octets. -/
  | random16
  /-- A server-assigned number of four octets. -/
  | random32
  /-- The transcript digest of the handshake. -/
  | binding
  /-- A tag of the transport. -/
  | transport
deriving DecidableEq

inductive IdError
  | unknownScheme (text : String)
  | length (expected got : Nat)
  | reserved
  | transportLength (got : Nat)
  | notAssignable (scheme : IdScheme)
deriving DecidableEq

namespace IdScheme

instance : Inhabited IdScheme := ⟨random16⟩

def all : List IdScheme := [random16, random32, binding, transport]

def wireName : IdScheme → String
  | random16 => "random16"
  | random32 => "random32"
  | binding => "binding"
  | transport => "transport"

def name : IdScheme → String
  | random16 => "Random16"
  | random32 => "Random32"
  | binding => "Binding"
  | transport => "Transport"

def ofWireName? (text : String) : Option IdScheme :=
  all.find? fun scheme => scheme.wireName = text

def parse (text : String) : Except IdError IdScheme :=
  match ofWireName? text with
  | some scheme => .ok scheme
  | none => .error (.unknownScheme text)

/-- How many octets of an assigned number stand in front of the handshake reply. -/
def assignedLength : IdScheme → Option Nat
  | random16 => some 2
  | random32 => some 4
  | binding => none
  | transport => none

/-- How many different numbers can be assigned. -/
def capacity : IdScheme → Option Nat
  | random16 => some (UInt16.size - 1)
  | random32 => some (UInt32.size - 1)
  | binding => none
  | transport => none

end IdScheme

namespace IdError

def message : IdError → String
  | unknownScheme text => s!"unknown identifier scheme: {text}"
  | length expected got => s!"expected {expected} identifier bytes, got {got}"
  | reserved => "identifier 0 is reserved"
  | transportLength got => s!"transport identifier must be 1-255 bytes, got {got}"
  | notAssignable scheme => s!"{scheme.name} identifiers are not assigned by the server"

end IdError

inductive ChannelId
  | short (number : UInt16)
  | long (number : UInt32)
  | binding (digest : Bytes32)
  | transport (tag : Bytes)
deriving DecidableEq, Hashable

namespace ChannelId

/-- The longest tag of a transport. -/
def maxTransportLength : Nat := 255

def scheme : ChannelId → IdScheme
  | short _ => .random16
  | long _ => .random32
  | binding _ => .binding
  | transport _ => .transport

/-- Zero says that there is no channel yet. -/
def isReserved : ChannelId → Bool
  | short n => n = 0
  | long n => n = 0
  | binding _ => false
  | transport _ => false

/-- The octets of a name: numbers with the most significant octet first. -/
def toBytes : ChannelId → Bytes
  | short n => Bytes.ofNatBE 2 n.toNat
  | long n => Bytes.ofNatBE 4 n.toNat
  | binding digest => digest.toBytes
  | transport tag => tag

/-- The name that octets stand for under a scheme, zero included. -/
def ofBytes (scheme : IdScheme) (bytes : Bytes) : Except IdError ChannelId :=
  match scheme with
  | .random16 =>
      if bytes.length = 2 then .ok (short (UInt16.ofNat (Bytes.toNatBE bytes)))
      else .error (.length 2 bytes.length)
  | .random32 =>
      if bytes.length = 4 then .ok (long (UInt32.ofNat (Bytes.toNatBE bytes)))
      else .error (.length 4 bytes.length)
  | .binding =>
      match Bytes32.ofBytes? bytes with
      | some digest => .ok (binding digest)
      | none => .error (.length 32 bytes.length)
  | .transport =>
      if bytes.length = 0 ∨ maxTransportLength < bytes.length then
        .error (.transportLength bytes.length)
      else .ok (transport bytes)

/-- The name that octets on the wire stand for. -/
def decode (scheme : IdScheme) (bytes : Bytes) : Except IdError ChannelId := do
  let id ← ofBytes scheme bytes
  if id.isReserved then throw .reserved
  return id

/-- Splits a handshake reply into the assigned name and the rest. -/
def splitAssigned (scheme : IdScheme) (payload : Bytes) : Except IdError (ChannelId × Bytes) := do
  match scheme.assignedLength with
  | none => throw (.notAssignable scheme)
  | some length =>
      if payload.length < length then throw (.length length payload.length)
      let id ← decode scheme (payload.take length)
      return (id, payload.drop length)

/-- The name that a random draw gives; it is never reserved. -/
def ofDraw (scheme : IdScheme) (draw : Nat) : Except IdError ChannelId :=
  match scheme with
  | .random16 => .ok (short (UInt16.ofNat (1 + draw % (UInt16.size - 1))))
  | .random32 => .ok (long (UInt32.ofNat (1 + draw % (UInt32.size - 1))))
  | scheme => .error (.notAssignable scheme)

def toText : ChannelId → String
  | short n => toString n
  | long n => toString n
  | binding digest => "cb:" ++ Hex.encode (digest.toBytes.take 8)
  | transport tag => "tx:" ++ Hex.encode tag

def describe (id : ChannelId) : String :=
  s!"ChannelId({id.toText})"

end ChannelId

end SecureChannel
