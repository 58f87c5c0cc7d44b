import SecureChannel.Frame
import SecureChannel.Json.Reader

/-!
# Reading frames

A frame is a tagged record: the kind may stand anywhere among the members, members that the kind
does not have are ignored, and an optional member may be null or absent. As an array a frame is its
kind followed by its fields in order.
-/

namespace SecureChannel.Frame

/-- The members of a frame that were read so far. -/
structure Fields where
  token : Option (Option Bytes)
  query : Option (Option String)
  /-- The one or two members that every frame of a kind has to have. -/
  bytes : Option Bytes
  outcome : Option Outcome

namespace Fields

def empty : Fields := ⟨none, none, none, none⟩

/-- Refuses a member that was read before. -/
def once {α : Type} (key : String) (seen : Option α) : Except Json.Error Unit :=
  if seen.isSome then .error (.duplicateField key) else .ok ()

/-- Takes in a member. What the kind does not have is ignored. -/
def put (kind : Kind) (f : Fields) (key : String) (value : Json) : Except Json.Error Fields := do
  if !kind.fields.contains key then return f
  if key = "token" then
    once key f.token
    return { f with token := some (← Json.optionalBytes? value) }
  else if key = "query" then
    once key f.query
    return { f with query := some (← Json.optionalText? value) }
  else if key = "outcome" then
    once key f.outcome
    let name ← Json.variant? (Outcome.all.map Outcome.wireName) value
    return { f with outcome := Outcome.ofWireName? name }
  else
    once key f.bytes
    return { f with bytes := some (← Json.bytes? value) }

def require {α : Type} (absent : Json.Error) (value : Option α) : Except Json.Error α :=
  match value with
  | some a => .ok a
  | none => .error absent

/-- The frame, once all members were read. `absent` is the fault of a member that is missing. -/
def toFrame (kind : Kind) (absent : String → Json.Error) (f : Fields) :
    Except Json.Error Frame := do
  let token := f.token.join
  let query := f.query.join
  match kind with
  | .keyRequest => return .keyRequest
  | .key => return .key (← require (absent "public_key") f.bytes)
  | .handshake => return .handshake token (← require (absent "payload") f.bytes)
  | .message => return .message token query (← require (absent "body") f.bytes)
  | .close => return .close token query (← require (absent "body") f.bytes)
  | .reply =>
      let outcome ← require (absent "outcome") f.outcome
      return .reply token outcome (← require (absent "body") f.bytes)

end Fields

/-- The frame of a kind with the given members or items. -/
def ofBody (kind : Kind) : Json.Body → Except Json.Error Frame
  | .members members => do
      let fields ← members.foldlM (fun f (name, value) => Fields.put kind f name value) Fields.empty
      fields.toFrame kind .missingField
  | .items items => do
      let named := kind.fields.zip items
      let fields ← named.foldlM (fun f (name, value) => Fields.put kind f name value) Fields.empty
      let frame ← fields.toFrame kind fun _ => .malformed
      if kind.fields.length < items.length then throw .malformed
      return frame

def reader : Json.Reader Frame := fun tokens => do
  let ((name, body), tokens) ←
    Json.readTagged "type" (Kind.all.map Kind.wireName) Json.maxLevels tokens
  match Kind.ofWireName? name with
  | none => throw .malformed
  | some kind => return (← ofBody kind body, tokens)

def decode (datagram : Bytes) : Except Json.Error Frame :=
  Json.readDocument reader datagram

def faultMessage (e : Json.Error) : String :=
  s!"malformed frame: {e.message}"

end SecureChannel.Frame
