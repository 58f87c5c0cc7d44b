import SecureChannel.Bytes.Hex
import SecureChannel.Crypto.Primitives
import SecureChannel.FileStore
import SecureChannel.Report
import SecureChannel.Text.Blank

/-!
# Static keys

A server that clients can recognise has a static key; its public half is what clients pin. Keys are
written as 64 hexadecimal digits, and a key file holds one key. Blanks around the digits in a file
are dropped. The file with the private half is for its owner alone.
-/

namespace SecureChannel

inductive KeyFault
  | notHex (fault : Hex.Fault)
  | wrongLength (got : Nat)
deriving DecidableEq

namespace KeyFault

def report : KeyFault → Report
  | notHex fault => ⟨"expected hex", [fault.message]⟩
  | wrongLength got => .ofText s!"expected 32 bytes, got {got}"

end KeyFault

/-- The key that hexadecimal digits stand for. -/
def decodeKey (text : String) : Except KeyFault Bytes32 :=
  match Hex.decode (Bytes.ofText text) with
  | .error fault => .error (.notHex fault)
  | .ok octets =>
      match Bytes32.ofBytes? octets with
      | some key => .ok key
      | none => .error (.wrongLength octets.length)

/-- The public half of a static key. -/
structure PublicKey where
  point : Bytes32
deriving DecidableEq

namespace PublicKey

def toText (key : PublicKey) : String :=
  Hex.encode key.point.toBytes

def describe (key : PublicKey) : String :=
  s!"PublicKey({key.toText})"

def ofBytes (octets : Bytes) : Except Report PublicKey :=
  match Bytes32.ofBytes? octets with
  | some point => .ok ⟨point⟩
  | none =>
      .error (.ofText s!"invalid public key length: expected 32 bytes, got {octets.length}")

def parse (text : String) : Except Report PublicKey :=
  match decodeKey text with
  | .ok point => .ok ⟨point⟩
  | .error fault => .error (fault.report.within "invalid public key")

end PublicKey

structure StaticKey where
  /-- The half that stays secret. -/
  privateKey : Bytes32
  /-- The half that clients pin. -/
  publicKey : PublicKey
deriving DecidableEq

namespace StaticKey

/-- The key with the given private half. -/
def ofPrivate (p : Primitives) (privateKey : Bytes32) : StaticKey :=
  ⟨privateKey, ⟨p.publicKey privateKey⟩⟩

def privateText (key : StaticKey) : String :=
  Hex.encode key.privateKey.toBytes

def describe (key : StaticKey) : String :=
  s!"StaticKeypair({key.publicKey.toText})"

def parse (p : Primitives) (text : String) : Except Report StaticKey :=
  match decodeKey text with
  | .ok privateKey => .ok (ofPrivate p privateKey)
  | .error fault => .error (fault.report.within "invalid private key")

end StaticKey

section Files

variable {m : Type → Type} [Monad m]

/-- The text of a key file, without the blanks around it. -/
def readKeyText (files : FileAccess m) (path : String) : ExceptT Report m String := do
  match ← files.readText path with
  | .ok text => return Text.trim text
  | .error e => throw ⟨s!"failed to read {path}", [e.message]⟩

def writeKeyText (files : FileAccess m) (path text : String) : ExceptT Report m Unit := do
  match ← files.write path (Bytes.ofText text) with
  | .ok () => return ()
  | .error e => throw ⟨s!"failed to write {path}", [e.message]⟩

namespace PublicKey

def save (files : FileAccess m) (key : PublicKey) (path : String) : ExceptT Report m Unit :=
  writeKeyText files path key.toText

def load (files : FileAccess m) (path : String) : ExceptT Report m PublicKey := do
  let text ← readKeyText files path
  match parse text with
  | .ok key => return key
  | .error e => throw e

end PublicKey

namespace StaticKey

/-- Writes the private half to one file, keeps that from others, and then writes the public half to
another. -/
def save (files : FileAccess m) (key : StaticKey) (privatePath publicPath : String) :
    ExceptT Report m Unit := do
  writeKeyText files privatePath key.privateText
  match ← files.restrict privatePath with
  | .ok () => key.publicKey.save files publicPath
  | .error e => throw (.ofText e.message)

/-- Reads the key whose private half is in a file. -/
def load (p : Primitives) (files : FileAccess m) (path : String) :
    ExceptT Report m StaticKey := do
  let text ← readKeyText files path
  match parse p text with
  | .ok key => return key
  | .error e => throw e

/-- Reads the key of a server. If there is no file yet, `fresh` becomes the private half of a key
that is saved there, and its public half is saved beside it under the extension `pub`. -/
def loadOrCreate (p : Primitives) (files : FileAccess m) (path : String) (fresh : Bytes32) :
    ExceptT Report m StaticKey := do
  if ← files.isPresent path then load p files path
  else
    let key := ofPrivate p fresh
    (save files key path (Path.withExtension path "pub")).adapt
      fun e => e.within s!"failed to create key {path}"
    return key

end StaticKey

end Files

end SecureChannel
