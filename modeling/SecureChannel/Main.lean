import SecureChannel.Command.Daemon
import SecureChannel.Command.Machine
import SecureChannel.Command.Tool
import Std.Async.Signal

/-!
# The program

One program is the tool and the server: it serves if it is run under a name that ends in `-server`.
The server answers one datagram after the other, drops idle channels now and then, and ends when it
is interrupted.
-/

namespace SecureChannel.Command

open Std.Async

/-- The values of variables of the environment, as far as they are set. -/
def environmentOf (names : List String) : IO (List (String × String)) :=
  names.filterMapM fun name => do return (← IO.getEnv name).map fun value => (name, value)

def answer (socket : UDP.Socket) (s : Service) (peer : Endpoint) (datagram : Bytes) :
    IO Service := do
  let fresh := Bytes32.resize (← Machine.random 32)
  let seed := Bytes.toNatLE (← Machine.random (4 * Registry.maxDraws))
  let (outgoing, s) := DatagramServer.handleDatagram .standard s (← IO.monoMsNow) peer
    (Frame.delivery peer) datagram (fun i => seed >>> (32 * i)) fresh
  for out in outgoing do
    discard <| Machine.attempt <| Async.block <|
      socket.send out.frame.encode.toByteArray (some (Machine.address out.peer))
  return s

/-- How long a server waits for a datagram before it looks whether there is anything else to do, in
milliseconds. -/
def patience : Nat := 200

/-- Serves datagrams until the program is interrupted. Idle channels are looked for at the moment
`cleanup`. -/
partial def serveLoop (socket : UDP.Socket) (interrupted : AsyncTask Int) (cleanup : Nat)
    (s : Service) : IO Unit := do
  if ← IO.hasFinished interrupted then return
  let now ← IO.monoMsNow
  if cleanup ≤ now then
    serveLoop socket interrupted (now + Daemon.cleanupInterval) (s.expireIdle now).2
  else
    match ← Machine.receive socket patience with
    | .ok (some (datagram, some peer)) =>
        serveLoop socket interrupted cleanup (← answer socket s peer datagram)
    | _ => serveLoop socket interrupted cleanup s

def serverMain (words : List String) (opened : Machine.Opened) : IO Exit := do
  let environment ← environmentOf (Daemon.grammar.options.filterMap OptionSpec.envName)
  let (exit, service) ← Daemon.ready .standard (Machine.system opened) words environment
  if let (some service, some socket) := (service, ← opened.get) then
    let signal ← Signal.Waiter.mk .sigint false
    serveLoop socket (← signal.wait) (← IO.monoMsNow) service
  return exit

def toolMain (words : List String) (opened : Machine.Opened) : IO Exit := do
  let environment ← environmentOf (Tool.serverKeyOption.envName.toList)
  Tool.run .standard (Machine.system opened) words environment

end SecureChannel.Command

def main (words : List String) : IO UInt32 := do
  let name := (← IO.appPath).toString
  let opened ← IO.mkRef none
  let exit ←
    if name.endsWith "-server" then SecureChannel.Command.serverMain words opened
    else SecureChannel.Command.toolMain words opened
  IO.eprint exit.complaint
  return UInt32.ofNat exit.code
