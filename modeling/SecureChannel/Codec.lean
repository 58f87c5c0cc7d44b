import SecureChannel.ChannelId
import SecureChannel.Json.Printer
import SecureChannel.Json.Reader

/-!
# Codecs

A codec says how a message names its channel: by a tag of the transport with the ciphertext as
body, by such a tag with the ciphertext in the query, or by a JSON envelope that holds both.

A query is a list of parameters between `&`, after any number of question marks. The first
parameter that starts with `c=` carries the ciphertext.
-/

namespace SecureChannel

/-- How messages name their channel. -/
inductive Codec
  /-- The request token of the handshake is used again for every message. -/
  | tokenReuse
  /-- The ciphertext stands in the query. -/
  | query
  /-- An envelope holds the identifier and the ciphertext. -/
  | envelope
  /-- The transport's identity of the peer names the channel. -/
  | routing
deriving DecidableEq

/-- A message as a transport carries it. -/
structure Message where
  /-- The transport's own tag: request token, routing identity or peer address. -/
  tag : Option Bytes
  query : Option String
  body : Bytes
deriving DecidableEq

inductive CodecError
  | malformed (reason : String)
  | missingTag
  | missingQuery
  | identifier (error : IdError)
deriving DecidableEq

namespace CodecError

def message : CodecError → String
  | malformed reason => s!"malformed message: {reason}"
  | missingTag => "message has no transport tag"
  | missingQuery => "message has no `c` query parameter"
  | identifier error => error.message

def ofId {α : Type} : Except IdError α → Except CodecError α
  | .ok a => .ok a
  | .error e => .error (.identifier e)

end CodecError

/-- What an envelope holds. -/
structure Envelope where
  id : Bytes
  payload : Bytes
deriving DecidableEq

namespace Envelope

def encode (e : Envelope) : Bytes :=
  Bytes.ofText (Json.printObject
    [("id", Json.printBytes e.id), ("payload", Json.printBytes e.payload)])

/-- The members that were read so far. -/
structure Fields where
  id : Option Bytes
  payload : Option Bytes

namespace Fields

def readId (f : Fields) : Json.Reader Fields := fun tokens => do
  let (bytes, tokens) ← Json.readBytes tokens
  return ({ f with id := some bytes }, tokens)

def readPayload (f : Fields) : Json.Reader Fields := fun tokens => do
  let (bytes, tokens) ← Json.readBytes tokens
  return ({ f with payload := some bytes }, tokens)

def member (f : Fields) (key : String) : Json.Reader Fields := fun tokens =>
  if key = "id" then
    if f.id.isSome then .error (.duplicateField key)
    else do
      let (_, tokens) ← Json.readColon tokens
      readId f tokens
  else if key = "payload" then
    if f.payload.isSome then .error (.duplicateField key)
    else do
      let (_, tokens) ← Json.readColon tokens
      readPayload f tokens
  else do
    let (_, tokens) ← Json.skipMember tokens
    return (f, tokens)

/-- The envelope, once all members were read. `absent` is the fault of one that is missing. -/
def toEnvelope (absent : String → Json.Error) (f : Fields) : Except Json.Error Envelope :=
  match f.id, f.payload with
  | some id, some payload => .ok ⟨id, payload⟩
  | none, _ => .error (absent "id")
  | some _, none => .error (absent "payload")

end Fields

/-- Takes an envelope: an object, or an array of its two fields. -/
def reader : Json.Reader Envelope
  | .openObject :: tokens => do
      let (f, tokens) ← Json.readObject Fields.member ⟨none, none⟩ tokens
      return (← f.toEnvelope .missingField, tokens)
  | .openArray :: tokens => do
      let (f, tokens) ← Json.readFields true ⟨none, none⟩ [Fields.readId, Fields.readPayload] tokens
      return (← f.toEnvelope fun _ => .malformed, tokens)
  | _ => .error .malformed

def decode (document : Bytes) : Except Json.Error Envelope :=
  Json.readDocument reader document

end Envelope

/-- The list of parameters in a query, after its question marks. -/
def Query.parameters (query : List Char) : List (List Char) :=
  (query.dropWhile (· = '?')).splitOn '&'

/-- The value of a parameter that starts with `c=`. -/
def Query.value? : List Char → Option (List Char)
  | 'c' :: '=' :: value => some value
  | _ => none

def Query.ciphertext (query : String) : Except CodecError Bytes :=
  match (Query.parameters query.toList).findSome? Query.value? with
  | none => .error .missingQuery
  | some value =>
      match Base64.decode .url (String.ofList value) with
      | .ok bytes => .ok bytes
      | .error fault => .error (.malformed (fault.protocolMessage .url))

def Query.ofCiphertext (ciphertext : Bytes) : String :=
  "c=" ++ Base64.encode .url ciphertext

namespace Codec

instance : Inhabited Codec := ⟨envelope⟩

def all : List Codec := [tokenReuse, query, envelope, routing]

def wireName : Codec → String
  | tokenReuse => "token_reuse"
  | query => "query"
  | envelope => "envelope"
  | routing => "routing"

def name : Codec → String
  | tokenReuse => "TokenReuse"
  | query => "Query"
  | envelope => "Envelope"
  | routing => "Routing"

def ofWireName? (text : String) : Option Codec :=
  all.find? fun codec => codec.wireName = text

/-- Reads the name of a codec; a hyphen will do in place of the underscore. -/
def parse (text : String) : Except CodecError Codec :=
  if text = "token-reuse" then .ok tokenReuse
  else
    match ofWireName? text with
    | some codec => .ok codec
    | none => .error (.malformed s!"unknown codec: {text}")

/-- Whether the name of the channel comes from the transport. -/
def requiresTransportId (codec : Codec) : Bool := codec ≠ envelope

def encode (codec : Codec) (id : ChannelId) (ciphertext : Bytes) : Message :=
  match codec with
  | tokenReuse | routing => ⟨some id.toBytes, none, ciphertext⟩
  | query => ⟨some id.toBytes, some (Query.ofCiphertext ciphertext), []⟩
  | envelope => ⟨none, none, Envelope.encode ⟨id.toBytes, ciphertext⟩⟩

/-- The channel named by the transport's tag. -/
def idOfTag (scheme : IdScheme) (m : Message) : Except CodecError ChannelId :=
  match m.tag with
  | none => .error .missingTag
  | some tag => CodecError.ofId (ChannelId.decode scheme tag)

def decode (codec : Codec) (scheme : IdScheme) (m : Message) :
    Except CodecError (ChannelId × Bytes) :=
  match codec with
  | tokenReuse | routing => do
      let id ← idOfTag scheme m
      return (id, m.body)
  | query => do
      let id ← idOfTag scheme m
      match m.query with
      | none => throw .missingQuery
      | some written => return (id, ← Query.ciphertext written)
  | envelope =>
      match Envelope.decode m.body with
      | .error e => .error (.malformed e.message)
      | .ok e => do
          let id ← CodecError.ofId (ChannelId.decode scheme e.id)
          return (id, e.payload)

end Codec

end SecureChannel
