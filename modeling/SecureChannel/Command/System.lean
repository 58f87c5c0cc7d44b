import SecureChannel.Datagram.Client
import SecureChannel.FileStore
import SecureChannel.Report

/-!
# What a program asks of its surroundings

Programs reach files, the terminal, the network and a source of random octets through a `System`,
in some monad. `Host` is a machine with files and a terminal on which programs can be run and
reasoned about: a server can bind to the machine's own addresses, but no datagram leaves them.
-/

namespace SecureChannel.Command

structure System (m : Type → Type) where
  files : FileAccess m
  print : String → m Unit
  /-- Hands the lines of the input to a step, one after the other, as long as the step says that it
  wants more. What the step returns goes into the next one. -/
  foldLines : {σ : Type} → (σ → String → ExceptT Report m (σ × Bool)) → σ → ExceptT Report m σ
  random : (count : Nat) → m Bytes
  /-- Makes a socket for talking to a server, and tells its endpoint. -/
  connect : (server : Endpoint) → m (Except IoError Endpoint)
  /-- Sends a datagram, and waits so many milliseconds for one that is accepted. -/
  request : Bytes → (accepts : Bytes → Option Frame) → (timeout : Nat) → m Arrival
  bind : Endpoint → m (Except IoError Unit)

structure Host where
  files : FileStore
  printed : List String
  input : List String
  /-- The random octets, by the number of the request for them. -/
  entropy : Nat → Nat → Bytes
  drawn : Nat

namespace Host

def output (h : Host) : String :=
  String.join (h.printed.reverse.map fun line => line ++ "\n")

/-- The lines of a text; a line feed at the end of the text ends its last line. -/
def lines (text : String) : List String :=
  let pieces := text.splitOn "\n"
  if pieces.getLast? = some "" then pieces.dropLast else pieces

def onFiles {α : Type} (step : StateM FileStore α) : StateM Host α := fun h =>
  let (a, files) := step h.files
  (a, { h with files := files })

/-- Hands lines to a step, as long as it wants more. -/
def feed {σ : Type} (step : σ → String → ExceptT Report (StateM Host) (σ × Bool)) (state : σ) :
    List String → ExceptT Report (StateM Host) σ
  | [] => return state
  | line :: rest => do
      let (state, more) ← step state line
      if more then feed step state rest else return state

def system : System (StateM Host) where
  files :=
    { read := fun path => onFiles (FileStore.access.read path)
      write := fun path contents => onFiles (FileStore.access.write path contents)
      restrict := fun path => onFiles (FileStore.access.restrict path)
      isPresent := fun path => onFiles (FileStore.access.isPresent path) }
  print line := fun h => ((), { h with printed := line :: h.printed })
  foldLines step state := do
    let h ← getThe Host
    feed step state h.input
  random count := fun h => (h.entropy h.drawn count, { h with drawn := h.drawn + 1 })
  connect _ := return .error .networkUnreachable
  request _ _ _ := return .failed .networkUnreachable
  bind endpoint := return if endpoint.isOwn then .ok () else .error .addressNotAvailable

end Host

end SecureChannel.Command
