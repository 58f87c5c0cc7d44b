import SecureChannel.Bytes.Base64
import SecureChannel.Json.Value

/-!
# Reading records from JSON

A record is an object whose members have known names, or an array of its fields in their declared
order. Reading follows the document from front to back and stops at the first fault: a known key
that was seen before is refused as soon as it is read, before its value is looked at. Names that
are not known are skipped with their values.

A tagged record states its kind in one member, which may stand anywhere. All other members are
collected first and looked at in order once the kind is known.
-/

namespace SecureChannel.Json

/-- A step of reading: takes what it needs off the front of the tokens. -/
abbrev Reader (α : Type) := List Token → Except Error (α × List Token)

/-- How many containers may be open at once. -/
def maxLevels : Nat := 127

def readColon : Reader Unit
  | .colon :: rest => .ok ((), rest)
  | _ => .error .malformed

def readText : Reader String
  | .text (some content) :: rest => .ok (content, rest)
  | _ => .error .malformed

def readNat (bound : Nat) : Reader Nat
  | .number n :: rest =>
      match n.natural? with
      | some value => if value < bound then .ok (value, rest) else .error .malformed
      | none => .error .malformed
  | _ => .error .malformed

/-- Skips the value of a key that nobody asked for. -/
def skipMember : Reader Unit := fun tokens => do
  let (_, tokens) ← readColon tokens
  let (_, tokens) ← read .skip tokens
  return ((), tokens)

def variant (names : List String) (name : String) : Except Error String :=
  if name ∈ names then .ok name else .error (.unknownVariant name names)

/-- Takes one of the given names: as a string, or as an object from the name to null. -/
def readVariant (names : List String) : Reader String
  | .text (some name) :: rest => do
      let name ← variant names name
      return (name, rest)
  | .openObject :: .text (some name) :: rest => do
      let name ← variant names name
      match rest with
      | .colon :: .null :: .closeObject :: rest => return (name, rest)
      | _ => throw .malformed
  | _ => .error .malformed

def bytesOfText (written : String) : Except Error Bytes :=
  match Base64.decode .standard written with
  | .ok bytes => .ok bytes
  | .error fault => .error (.refused (fault.protocolMessage .standard))

def readBytes : Reader Bytes := fun tokens => do
  let (written, tokens) ← readText tokens
  let bytes ← bytesOfText written
  return (bytes, tokens)

/-- Reads members up to the closing brace. `member` is handed each key with the tokens behind it
and takes the colon and the value. `first` says that no member was read yet. -/
def readMembers {σ : Type} (member : σ → String → Reader σ) :
    (fuel : Nat) → (first : Bool) → σ → Reader σ
  | 0, _, _, _ => .error .malformed
  | _ + 1, _, state, .closeObject :: rest => .ok (state, rest)
  | fuel + 1, true, state, .text (some key) :: rest
  | fuel + 1, false, state, .comma :: .text (some key) :: rest => do
      let (state, rest) ← member state key rest
      readMembers member fuel false state rest
  | _ + 1, _, _, _ => .error .malformed

/-- Reads an object member by member, behind its opening brace. -/
def readObject {σ : Type} (member : σ → String → Reader σ) (state : σ) : Reader σ :=
  fun tokens => readMembers member (tokens.length + 1) true state tokens

/-- Where the next item of an array starts, or nothing in front of the closing bracket. -/
def nextItem (first : Bool) : List Token → Except Error (Option (List Token))
  | .closeArray :: _ => .ok none
  | .comma :: .closeArray :: _ => .error .malformed
  | .comma :: rest => if first then .error .malformed else .ok (some rest)
  | [] => .error .malformed
  | tokens => if first then .ok (some tokens) else .error .malformed

/-- Reads a record given as an array, behind its opening bracket: one field after the other, as
long as there are items. What follows the last field has to be the closing bracket. -/
def readFields {σ : Type} (first : Bool) (state : σ) : List (σ → Reader σ) → Reader σ
  | [], .closeArray :: rest => .ok (state, rest)
  | [], _ => .error .malformed
  | field :: fields, tokens => do
      match ← nextItem first tokens with
      | none =>
          match tokens with
          | .closeArray :: rest => return (state, rest)
          | _ => throw .malformed
      | some tokens =>
          let (state, tokens) ← field state tokens
          readFields false state fields tokens

/-- The members or items beside the kind of a tagged record. -/
inductive Body
  | members (members : List (String × Json))
  | items (items : List Json)

/-- The kind and the other members of a tagged record, last first. -/
structure Tagged where
  kind : Option String
  members : List (String × Json)

/-- Takes one member of a tagged record whose kind is one of `names` under the key `tag`. Other
values may open so many containers. -/
def Tagged.member (tag : String) (names : List String) (levels : Nat) (t : Tagged)
    (key : String) : Reader Tagged := fun tokens =>
  if key = tag then
    if t.kind.isSome then .error (.duplicateField tag)
    else do
      let (_, tokens) ← readColon tokens
      let (name, tokens) ← readText tokens
      let name ← variant names name
      return ({ t with kind := some name }, tokens)
  else do
    let (_, tokens) ← readColon tokens
    let (value, tokens) ← read (.strict levels) tokens
    return ({ t with members := (key, value) :: t.members }, tokens)

/-- The items of an array behind its first one, up to the closing bracket. -/
def readItems (levels : Nat) : (fuel : Nat) → List Json → Reader (List Json)
  | 0, _, _ => .error .malformed
  | fuel + 1, before, tokens => do
      match ← nextItem false tokens with
      | none => return (before.reverse, tokens.drop 1)
      | some tokens =>
          let (value, tokens) ← read (.strict levels) tokens
          readItems levels fuel (value :: before) tokens

/-- Reads a tagged record: its kind, and everything else. As an array it starts with its kind.
The record itself is one of the `levels` containers that may be open. -/
def readTagged (tag : String) (names : List String) (levels : Nat) : Reader (String × Body)
  | .openObject :: tokens => do
      let (t, tokens) ← readObject (Tagged.member tag names (levels - 1)) ⟨none, []⟩ tokens
      match t.kind with
      | none => throw (.missingField tag)
      | some kind => return ((kind, .members t.members.reverse), tokens)
  | .openArray :: tokens => do
      match ← nextItem true tokens with
      | none => throw (.missingField tag)
      | some tokens =>
          let (name, tokens) ← readText tokens
          let kind ← variant names name
          let (items, tokens) ← readItems (levels - 1) (tokens.length + 1) [] tokens
          return ((kind, .items items), tokens)
  | _ => .error .malformed

/-- Reads a whole document: one record, and nothing behind it. -/
def readDocument {α : Type} (reader : Reader α) (document : Bytes) : Except Error α := do
  let (value, rest) ← reader (lex document)
  if rest.isEmpty then return value else throw .malformed

def text? : Json → Except Error String
  | .text content => .ok content
  | _ => .error .malformed

def optionalText? : Json → Except Error (Option String)
  | .null => .ok none
  | .text content => .ok (some content)
  | _ => .error .malformed

def bytes? (v : Json) : Except Error Bytes := do
  bytesOfText (← text? v)

def optionalBytes? (v : Json) : Except Error (Option Bytes) := do
  match ← optionalText? v with
  | none => return none
  | some written => return some (← bytesOfText written)

def nat? (bound : Nat) : Json → Except Error Nat
  | .number n =>
      match n.natural? with
      | some value => if value < bound then .ok value else .error .malformed
      | none => .error .malformed
  | _ => .error .malformed

/-- One of the given names: as a string, or as an object from the name to null or to nothing. -/
def variant? (names : List String) : Json → Except Error String
  | .text name => variant names name
  | .object [(name, value)] => do
      let name ← variant names name
      match value with
      | .null | .object [] => return name
      | _ => throw .malformed
  | _ => .error .malformed

end SecureChannel.Json
