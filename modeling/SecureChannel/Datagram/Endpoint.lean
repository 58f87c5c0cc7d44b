import SecureChannel.Codec
import SecureChannel.Datagram.Address

/-!
# Endpoints

An endpoint is an address and a port. An IPv4 address is followed by a colon and the port. An IPv6
address stands in brackets, followed by the number of its zone behind a percent sign, if that is not
zero; the colon and the port come behind the brackets. Zones and ports are decimal numbers that may
have zeros in front.

`transportTag` is what a transport of datagrams knows about the channel of a message: the peer's
endpoint, together with the request's token where tokens name channels.
-/

namespace SecureChannel

open Address

inductive Endpoint
  | v4 (address : IPv4) (port : UInt16)
  /-- The zone tells apart hosts of the same address in different networks. -/
  | v6 (address : IPv6) (zone : UInt32) (port : UInt16)
deriving DecidableEq

namespace Endpoint

def toText : Endpoint → String
  | v4 address port => s!"{address.toText}:{port}"
  | v6 address zone port =>
      let inside := if zone = 0 then address.toText else s!"{address.toText}%{zone}"
      s!"[{inside}]:{port}"

/-- A number below a bound off the front of a text. -/
def readNumber (bound : Nat) (text : List Char) : Option (Nat × List Char) :=
  let (digits, rest) := text.span Char.isDigit
  if digits ≠ [] && decimal digits < bound then some (decimal digits, rest) else none

def readPort (text : List Char) : Option UInt16 := do
  let (port, rest) ← readNumber UInt16.size (← skip ':' text)
  if rest.isEmpty then some (UInt16.ofNat port) else none

def readZone : List Char → Option (UInt32 × List Char)
  | '%' :: rest => do
      let (zone, rest) ← readNumber UInt32.size rest
      return (UInt32.ofNat zone, rest)
  | text => some (0, text)

def parse? (text : String) : Option Endpoint :=
  match text.toList with
  | '[' :: rest => do
      let (address, rest) ← IPv6.read rest
      let (zone, rest) ← readZone rest
      return v6 address zone (← readPort (← skip ']' rest))
  | text => do
      let (address, rest) ← IPv4.read text
      return v4 address (← readPort rest)

/-- Any address of this host from which the endpoint may be reached, and any free port. -/
def facing : Endpoint → Endpoint
  | v4 _ _ => v4 .unspecified 0
  | v6 _ _ _ => v6 .unspecified 0 0

/-- Whether every host has the address: it is unspecified, or leads back. -/
def isOwn : Endpoint → Bool
  | v4 address _ => address.isLoopback || address = .unspecified
  | v6 address _ _ => address = .loopback || address = .unspecified

end Endpoint

/-- The transport's tag of a message: the peer's written endpoint and the token, the endpoint alone,
or nothing, as the codec has it. -/
def transportTag (codec : Codec) (token : Option Bytes) (peer : Endpoint) : Option Bytes :=
  match codec with
  | .tokenReuse => token.map fun token => Bytes.ofText peer.toText ++ token
  | .routing | .query => some (Bytes.ofText peer.toText)
  | .envelope => none

end SecureChannel
