import SecureChannel.Json.Printer
import SecureChannel.Outcome
import SecureChannel.Text.Quoted

/-!
# Frames

One datagram carries one frame, written as a JSON object that states its kind under `type`. A
client picks a token for each request, and the reply carries the same token. Optional members that
are absent are left out.
-/

namespace SecureChannel

/-- What a datagram says. -/
inductive Frame
  | keyRequest
  | key (publicKey : Bytes)
  /-- The first handshake message. -/
  | handshake (token : Option Bytes) (payload : Bytes)
  | message (token : Option Bytes) (query : Option String) (body : Bytes)
  /-- An authenticated request to tear a channel down. -/
  | close (token : Option Bytes) (query : Option String) (body : Bytes)
  | reply (token : Option Bytes) (outcome : Outcome) (body : Bytes)
deriving DecidableEq

namespace Frame

inductive Kind
  | keyRequest
  | key
  | handshake
  | message
  | close
  | reply
deriving DecidableEq

namespace Kind

def all : List Kind := [keyRequest, key, handshake, message, close, reply]

def wireName : Kind → String
  | keyRequest => "key_request"
  | key => "key"
  | handshake => "handshake"
  | message => "message"
  | close => "close"
  | reply => "reply"

def ofWireName? (text : String) : Option Kind :=
  all.find? fun kind => kind.wireName = text

/-- The members that a frame of the kind has beside `type`, in order. -/
def fields : Kind → List String
  | keyRequest => []
  | key => ["public_key"]
  | handshake => ["token", "payload"]
  | message => ["token", "query", "body"]
  | close => ["token", "query", "body"]
  | reply => ["token", "outcome", "body"]

@[simp] theorem ofWireName?_wireName (kind : Kind) : ofWireName? kind.wireName = some kind := by
  cases kind <;> rfl

end Kind

def kind : Frame → Kind
  | keyRequest => .keyRequest
  | key _ => .key
  | handshake _ _ => .handshake
  | message _ _ _ => .message
  | close _ _ _ => .close
  | reply _ _ _ => .reply

def token? : Frame → Option Bytes
  | keyRequest => none
  | key _ => none
  | handshake token _ => token
  | message token _ _ => token
  | close token _ _ => token
  | reply token _ _ => token

/-- A member that is written only if it is present. -/
def optional (name : String) (written : Option String) : List (String × String) :=
  written.toList.map fun value => (name, value)

/-- The members of a frame as keys and written values. -/
def members : Frame → List (String × String)
  | keyRequest => []
  | key publicKey => [("public_key", Json.printBytes publicKey)]
  | handshake token payload =>
      optional "token" (token.map Json.printBytes) ++ [("payload", Json.printBytes payload)]
  | message token query body | close token query body =>
      optional "token" (token.map Json.printBytes) ++ optional "query" (query.map Json.printText) ++
        [("body", Json.printBytes body)]
  | reply token outcome body =>
      optional "token" (token.map Json.printBytes) ++
        [("outcome", Json.printText outcome.wireName), ("body", Json.printBytes body)]

def toText (frame : Frame) : String :=
  Json.printObject (("type", Json.printText frame.kind.wireName) :: frame.members)

def encode (frame : Frame) : Bytes :=
  Bytes.ofText frame.toText

/-- Octets as a list of decimal numbers. -/
def describeBytes (bytes : Bytes) : String :=
  "[" ++ ", ".intercalate (bytes.map fun b => toString b.toNat) ++ "]"

def describeOption (value : Option String) : String :=
  match value with
  | none => "None"
  | some text => s!"Some({text})"

/-- A named record as it stands in a description. -/
def describeRecord (name : String) (fields : List (String × String)) : String :=
  let written := fields.map fun (label, value) => s!"{label}: {value}"
  s!"{name} \x7b " ++ ", ".intercalate written ++ " \x7d"

def describe : Frame → String
  | keyRequest => "KeyRequest"
  | key publicKey => describeRecord "Key" [("public_key", describeBytes publicKey)]
  | handshake token payload =>
      describeRecord "Handshake" [("token", describeOption (token.map describeBytes)),
        ("payload", describeBytes payload)]
  | message token query body =>
      describeRecord "Message" [("token", describeOption (token.map describeBytes)),
        ("query", describeOption (query.map Text.quoted)), ("body", describeBytes body)]
  | close token query body =>
      describeRecord "Close" [("token", describeOption (token.map describeBytes)),
        ("query", describeOption (query.map Text.quoted)), ("body", describeBytes body)]
  | reply token outcome body =>
      describeRecord "Reply" [("token", describeOption (token.map describeBytes)),
        ("outcome", outcome.name), ("body", describeBytes body)]

end Frame

end SecureChannel
