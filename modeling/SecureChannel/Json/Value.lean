import SecureChannel.Json.Token

/-!
# JSON values

`read` takes one value off the front of a token sequence. It keeps the containers that are open
around the current place on a stack, so it makes one step for each token and nothing else bounds its
depth but the number of levels it is allowed. With `skip` the value may be nested to any depth,
and its strings and numbers need only be well formed.
-/

namespace SecureChannel

/-- A JSON value; the members of an object keep their order. -/
inductive Json
  | null
  | bool (value : Bool)
  | number (value : Json.Number)
  | text (value : String)
  | array (items : List Json)
  | object (members : List (String × Json))

namespace Json

inductive Error
  | malformed
  | missingField (name : String)
  | duplicateField (name : String)
  | unknownVariant (found : String) (expected : List String)
  /-- A text is JSON, but its content is refused for the given reason. -/
  | refused (reason : String)
deriving DecidableEq

namespace Error

/-- A list of names: `a`, `a` or `b`, one of `a`, `b`, `c`; each between grave accents. -/
def alternatives (names : List String) : String :=
  match names.map (fun name => "`" ++ name ++ "`") with
  | [] => "nothing"
  | [a] => a
  | [a, b] => a ++ " or " ++ b
  | many => "one of " ++ ", ".intercalate many

/-- The wording of an error. All that is not JSON of the right kinds reads the same. -/
def message : Error → String
  | malformed => "<json>"
  | missingField name => "missing field `" ++ name ++ "`"
  | duplicateField name => "duplicate field `" ++ name ++ "`"
  | unknownVariant found expected =>
      "unknown variant `" ++ found ++ "`, expected " ++ alternatives expected
  | refused reason => reason

end Error

/-- An open container: its values so far, last first, and in an object the key that is waiting for
its value. -/
inductive Container
  | array (items : List Json)
  | object (members : List (String × Json)) (key : String)

inductive Expect
  | value
  | firstItem
  | firstKey
  | key
  | colon
  | separator

/-- How closely a value is looked at. -/
inductive Care
  /-- Strings are Unicode text, numbers are finite, and so many containers may be open at once. -/
  | strict (levels : Nat)
  | skip

namespace Care

/-- Whether one more container may be opened inside so many. -/
def allows (care : Care) (depth : Nat) : Bool :=
  match care with
  | strict levels => depth < levels
  | skip => true

/-- The content of a string that is acceptable. -/
def text? (care : Care) (content : Option String) : Option String :=
  match care with
  | strict _ => content
  | skip => some (content.getD "")

def number? (care : Care) (n : Number) : Option Number :=
  match care with
  | strict _ => if n.isFinite then some n else none
  | skip => some n

end Care

def scalar? (care : Care) : Token → Option Json
  | .null => some .null
  | .bool b => some (.bool b)
  | .number n => (care.number? n).map .number
  | .text content => (care.text? content).map .text
  | _ => none

/-- Puts a finished value into the innermost open container. -/
def Container.put (inner : Container) (v : Json) : Container :=
  match inner with
  | .array items => .array (v :: items)
  | .object members key => .object ((key, v) :: members) ""

/-- Reads on from the given place, inside the given containers, innermost first. -/
def readFrom (care : Care) : Expect → List Container → List Token → Except Error (Json × List Token)
  | _, _, [] => .error .malformed
  | .value, stack, token :: rest => start stack token rest
  | .firstItem, .array items :: stack, .closeArray :: rest => close stack (.array items) rest
  | .firstItem, stack, token :: rest => start stack token rest
  | .firstKey, .object members _ :: stack, .closeObject :: rest =>
      close stack (.object members "") rest
  | .firstKey, .object members _ :: stack, .text content :: rest
  | .key, .object members _ :: stack, .text content :: rest =>
      match care.text? content with
      | some key => readFrom care .colon (.object members key :: stack) rest
      | none => .error .malformed
  | .colon, stack, .colon :: rest => readFrom care .value stack rest
  | .separator, .array items :: stack, .comma :: rest =>
      readFrom care .value (.array items :: stack) rest
  | .separator, .array items :: stack, .closeArray :: rest => close stack (.array items) rest
  | .separator, .object members _ :: stack, .comma :: rest =>
      readFrom care .key (.object members "" :: stack) rest
  | .separator, .object members _ :: stack, .closeObject :: rest =>
      close stack (.object members "") rest
  | _, _, _ => .error .malformed
where
  start (stack : List Container) (token : Token) (rest : List Token) :
      Except Error (Json × List Token) :=
    match token with
    | .openArray =>
        if care.allows stack.length then readFrom care .firstItem (.array [] :: stack) rest
        else .error .malformed
    | .openObject =>
        if care.allows stack.length then readFrom care .firstKey (.object [] "" :: stack) rest
        else .error .malformed
    | token =>
        match scalar? care token with
        | none => .error .malformed
        | some v =>
            match stack with
            | [] => .ok (v, rest)
            | outer :: stack => readFrom care .separator (outer.put v :: stack) rest
  close (stack : List Container) (inner : Container) (rest : List Token) :
      Except Error (Json × List Token) :=
    let v : Json :=
      match inner with
      | .array items => .array items.reverse
      | .object members _ => .object members.reverse
    match stack with
    | [] => .ok (v, rest)
    | outer :: stack => readFrom care .separator (outer.put v :: stack) rest

def read (care : Care) (tokens : List Token) : Except Error (Json × List Token) :=
  readFrom care .value [] tokens

end Json

end SecureChannel
