import SecureChannel.Command.System
import Std.Async.Timer
import Std.Async.UDP

/-!
# The machine under a program

The files, the terminal, the random octets and the sockets of the machine that a program runs on.
Everything here passes a request on to the machine and puts its answer into the words of the
library; nothing is decided here.
-/

namespace SecureChannel.Command.Machine

open Std.Async

def faultNumber (code : UInt32) : Nat :=
  if code < 0x80000000 then code.toNat else (0 - code).toNat

def fault (e : IO.Error) : IoError :=
  match e with
  | .alreadyExists _ code text | .otherError code text | .resourceBusy code text
  | .resourceVanished code text | .unsupportedOperation code text | .hardwareFault code text
  | .unsatisfiedConstraints code text | .illegalOperation code text | .protocolError code text
  | .timeExpired code text | .interrupted _ code text | .noFileOrDirectory _ code text
  | .invalidArgument _ code text | .permissionDenied _ code text | .resourceExhausted _ code text
  | .inappropriateType _ code text | .noSuchThing _ code text => .ofSystem (faultNumber code) text
  | .unexpectedEof => .other "unexpected end of file"
  | .userError text => .other text

/-- What an action gives, or its fault. -/
def attempt {α : Type} (action : IO α) : IO (Except IoError α) := do
  match ← action.toBaseIO with
  | .ok a => return .ok a
  | .error e => return .error (fault e)

def files : FileAccess IO where
  read path := attempt do return (← IO.FS.readBinFile path).toList
  write path contents := attempt (IO.FS.writeBinFile path contents.toByteArray)
  restrict path :=
    let owner : IO.FileRight := ⟨⟨true, true, false⟩, ⟨false, false, false⟩, ⟨false, false, false⟩⟩
    attempt (IO.setAccessRights path owner)
  isPresent path := do
    match ← (IO.FS.readBinFile path).toBaseIO with
    | .ok _ => return true
    | .error (.noFileOrDirectory _ _ _) => return false
    | .error e => return fault e = .isDirectory

def random (count : Nat) : IO Bytes := do
  return (← IO.getRandomBytes (USize.ofNat count)).toList

/-- An endpoint as the machine's sockets know it, which have no zones. -/
def address : Endpoint → Std.Net.SocketAddress
  | .v4 a port => .v4 ⟨.ofParts a.a a.b a.c a.d, port⟩
  | .v6 a _ port => .v6 ⟨⟨a.groups⟩, port⟩

def endpoint : Std.Net.SocketAddress → Endpoint
  | .v4 ⟨a, port⟩ => .v4 ⟨a.octets[0], a.octets[1], a.octets[2], a.octets[3]⟩ port
  | .v6 ⟨a, port⟩ => .v6 ⟨a.segments⟩ 0 port

def socketAt (e : Endpoint) : IO UDP.Socket := do
  let socket ← UDP.Socket.mk
  socket.bind (address e)
  return socket

/-- A datagram, and the endpoint that it comes from. -/
abbrev Received := Bytes × Option Endpoint

/-- The next datagram, unless none comes for so many milliseconds. -/
def receive (socket : UDP.Socket) (time : Nat) : IO (Except IoError (Option Received)) :=
  attempt <| Async.block do
    let ended ← Selector.sleep (.ofNat time)
    Selectable.one
      #[.case ended fun () => return none,
        .case (socket.recvSelector maxDatagram.toUInt64) fun (datagram, sender) =>
          return some (datagram.toList, sender.map endpoint)]

/-- Waits for a datagram that is accepted, until a moment of the machine's clock. -/
partial def await (socket : UDP.Socket) (accepts : Bytes → Option Frame) (deadline : Nat) :
    IO Arrival := do
  let now ← IO.monoMsNow
  if deadline ≤ now then return .none
  match ← receive socket (deadline - now) with
  | .error e => return .failed e
  | .ok none => return .none
  | .ok (some (datagram, _)) =>
      match accepts datagram with
      | some frame => return .frame frame
      | none => await socket accepts deadline

/-- Hands the lines of the input to a step, as long as it wants more. -/
partial def foldInput {σ : Type} (input : IO.FS.Stream)
    (step : σ → String → ExceptT Report IO (σ × Bool)) (state : σ) : ExceptT Report IO σ := do
  let line ← input.getLine
  if line.isEmpty then return state
  let (state, more) ← step state (line.dropEndWhile (· = '\n')).copy
  if more then foldInput input step state else return state

/-- The socket that a program has opened. -/
abbrev Opened := IO.Ref (Option UDP.Socket)

def Opened.keep (opened : Opened) (e : Endpoint) : IO UDP.Socket := do
  let socket ← socketAt e
  opened.set (some socket)
  return socket

def system (opened : Opened) : System IO where
  files := files
  print line := do
    IO.println line
    (← IO.getStdout).flush
  foldLines step state := do foldInput (← IO.getStdin) step state
  random := random
  connect server := attempt do
    let socket ← opened.keep server.facing
    socket.connect (address server)
    return endpoint (← socket.getSockName)
  request datagram accepts timeout := do
    let some socket ← opened.get | return .none
    match ← attempt (Async.block (socket.send datagram.toByteArray)) with
    | .error e => return .failed e
    | .ok () => await socket accepts ((← IO.monoMsNow) + timeout)
  bind e := attempt do discard <| opened.keep e

end SecureChannel.Command.Machine
