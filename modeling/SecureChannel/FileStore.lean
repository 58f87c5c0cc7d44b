import SecureChannel.Bytes
import SecureChannel.IoError
import SecureChannel.Path

/-!
# Files

Programs reach files through a `FileAccess`, a handful of operations in some monad. `FileStore` is a
finite tree of directories and files with which such programs can be run and reasoned about without
a disk; `FileStore.access` gives its operations.

A name is looked up component by component. Everything in front of the last component has to be an
existing directory. A name that ends with a slash can only be that of a directory.
-/

namespace SecureChannel

structure FileAccess (m : Type → Type) where
  read : (path : String) → m (Except IoError Bytes)
  /-- Makes a file with the given octets, or replaces those of an existing one. -/
  write : (path : String) → Bytes → m (Except IoError Unit)
  /-- Lets nobody but the owner read and write a file. -/
  restrict : (path : String) → m (Except IoError Unit)
  /-- Whether there is a file or directory of the name. -/
  isPresent : (path : String) → m Bool

namespace FileAccess

variable {m : Type → Type} [Monad m]

def readText (files : FileAccess m) (path : String) : m (Except IoError String) := do
  match ← files.read path with
  | .error e => return .error e
  | .ok octets =>
      match Bytes.toText? octets with
      | some text => return .ok text
      | none => return .error .notText

end FileAccess

structure StoredFile where
  contents : Bytes
  /-- Who may read and write it, as nine bits. -/
  mode : Nat
deriving DecidableEq

/-- The components of a place, from the root. -/
abbrev Place := List (List Char)

structure FileStore where
  directories : List Place
  files : List (Place × StoredFile)
  /-- Where names that do not start at the root begin. -/
  current : Place
deriving DecidableEq

namespace FileStore

def defaultMode : Nat := 0o644

/-- The permissions of a file that only its owner reads and writes. -/
def ownerOnly : Nat := 0o600

def maxComponent : Nat := 255

/-- No name is as long as this. -/
def maxName : Nat := 4096

inductive Entry
  | directory (place : Place)
  | file (place : Place) (file : StoredFile)
  /-- Nothing, in a directory that exists. -/
  | vacant (place : Place)
deriving DecidableEq

def file? (s : FileStore) (place : Place) : Option StoredFile :=
  (s.files.find? fun f => f.1 = place).map Prod.snd

/-- What one component leads to from a directory. -/
def enter (s : FileStore) (place : Place) (component : List Char) : Except IoError Entry :=
  if Path.isSame component then .ok (.directory place)
  else if component = Path.above then .ok (.directory place.dropLast)
  else if maxComponent < (String.ofList component).utf8ByteSize then .error .nameTooLong
  else
    let next := place ++ [component]
    if next ∈ s.directories then .ok (.directory next)
    else
      match s.file? next with
      | some found => .ok (.file next found)
      | none => .ok (.vacant next)

/-- What a sequence of components leads to from a directory. -/
def walk (s : FileStore) (place : Place) : List (List Char) → Except IoError Entry
  | [] => .ok (.directory place)
  | [component] => s.enter place component
  | component :: rest => do
      match ← s.enter place component with
      | .directory next => walk s next rest
      | .file _ _ => throw .notDirectory
      | .vacant _ => throw .notFound

/-- What a name leads to, and whether it ends with a slash. -/
def locate (s : FileStore) (path : String) : Except IoError (Entry × Bool) := do
  if path.isEmpty then throw .notFound
  if maxName ≤ path.utf8ByteSize then throw .nameTooLong
  let components := Path.components path
  let start := if path.startsWith "/" then [] else s.current
  let named := (components.reverse.dropWhile (· = [])).reverse
  return (← s.walk start named, named.length < components.length)

def read (s : FileStore) (path : String) : Except IoError Bytes := do
  match ← s.locate path with
  | (.directory _, _) => throw .isDirectory
  | (.file _ found, slash) => if slash then throw .notDirectory else return found.contents
  | (.vacant _, _) => throw .notFound

/-- The store in which a place holds the given file. -/
def put (s : FileStore) (place : Place) (file : StoredFile) : FileStore :=
  { s with files := (place, file) :: s.files.filter fun f => f.1 ≠ place }

/-- Writes a file; one that exists keeps its permissions. -/
def write (s : FileStore) (path : String) (contents : Bytes) : Except IoError FileStore := do
  match ← s.locate path with
  | (.directory _, _) => throw .isDirectory
  | (.file place found, slash) =>
      if slash then throw .isDirectory else return s.put place { found with contents := contents }
  | (.vacant place, slash) =>
      if slash then throw .isDirectory else return s.put place ⟨contents, defaultMode⟩

/-- Keeps a file from everybody but its owner. -/
def restrict (s : FileStore) (path : String) : Except IoError FileStore := do
  match ← s.locate path with
  | (.directory _, _) => return s
  | (.file place found, slash) =>
      if slash then throw .notDirectory else return s.put place { found with mode := ownerOnly }
  | (.vacant _, _) => throw .notFound

def isPresent (s : FileStore) (path : String) : Bool :=
  match s.locate path with
  | .ok (.directory _, _) => true
  | .ok (.file _ _, slash) => !slash
  | _ => false

def update (step : FileStore → Except IoError FileStore) : StateM FileStore (Except IoError Unit) :=
  fun s =>
    match step s with
    | .ok next => (.ok (), next)
    | .error e => (.error e, s)

def access : FileAccess (StateM FileStore) where
  read path := fun s => (s.read path, s)
  write path contents := update fun s => s.write path contents
  restrict path := update fun s => s.restrict path
  isPresent path := fun s => (s.isPresent path, s)

end FileStore

end SecureChannel
