import SecureChannel.Command.Exit
import SecureChannel.Command.System

/-!
# The server for people

The server answers each message with its octets in reverse. Its configuration is that of a file, or
the usual one, in which the options of the command line replace what they are about. Under the
pattern with a static key the server has one in any case: from a file, where it is made if the file
is missing, or a fresh one.
-/

namespace SecureChannel.Command.Daemon

structure Options where
  listen : Endpoint
  config : Option String
  pattern : Option Noise.Pattern
  idScheme : Option IdScheme
  codec : Option Codec
  window : Option UInt64
  key : Option String
  maxSessions : Option Nat
  /-- In seconds. -/
  idleTimeout : Option Nat
  maxAuthFailures : Option UInt32
  logLevel : String
deriving DecidableEq

/-! ### Reading the command line -/

def valued (long envName : String) : OptionSpec := ⟨long, none, some envName, true⟩

def listenOption : OptionSpec := valued "listen" "LATCH_LISTEN_ADDR"

def configOption : OptionSpec := valued "config" "LATCH_CONFIG"

def patternOption : OptionSpec := valued "pattern" "LATCH_PATTERN"

def schemeOption : OptionSpec := valued "id-scheme" "LATCH_ID_SCHEME"

def codecOption : OptionSpec := valued "codec" "LATCH_CODEC"

def windowOption : OptionSpec := valued "window" "LATCH_REPLAY_WINDOW"

def keyOption : OptionSpec := valued "key" "LATCH_SERVER_KEY"

def maxSessionsOption : OptionSpec := valued "max-sessions" "LATCH_MAX_SESSIONS"

def idleTimeoutOption : OptionSpec := valued "idle-timeout" "LATCH_IDLE_TIMEOUT"

def maxAuthFailuresOption : OptionSpec := valued "max-auth-failures" "LATCH_MAX_AUTH_FAILURES"

def logLevelOption : OptionSpec := valued "log-level" "LATCH_LOG_LEVEL"

def grammar : Grammar :=
  ⟨[listenOption, configOption, patternOption, schemeOption, codecOption, windowOption, keyOption,
    maxSessionsOption, idleTimeoutOption, maxAuthFailuresOption, logLevelOption], false⟩

/-- What the words of a command line say; nothing if they ask for help. -/
def parse (words : List String) (environment : List (String × String)) :
    Except UsageFault (Option Options) := do
  let found ← grammar.read words
  let i : Invocation := ⟨found, environment⟩
  let listen ← i.value? listenOption Endpoint.parse?
  let config ← i.value? configOption fileName?
  let pattern ← i.value? patternOption fun text => (Noise.Pattern.parse text).toOption
  let idScheme ← i.value? schemeOption fun text => (IdScheme.parse text).toOption
  let codec ← i.value? codecOption fun text => (Codec.parse text).toOption
  let window ← i.value? windowOption (natural? UInt64.size)
  let key ← i.value? keyOption fileName?
  let maxSessions ← i.value? maxSessionsOption (natural? UInt64.size)
  let idleTimeout ← i.value? idleTimeoutOption (natural? UInt64.size)
  let maxAuthFailures ← i.value? maxAuthFailuresOption word32?
  if found.help then return none
  else return some {
    listen := listen.getD (.v4 .loopback 5684)
    config := config
    pattern := pattern
    idScheme := idScheme
    codec := codec
    window := window.map UInt64.ofNat
    key := key
    maxSessions := maxSessions
    idleTimeout := idleTimeout
    maxAuthFailures := maxAuthFailures
    logLevel := (i.text? logLevelOption).getD "info" }

/-! ### Starting -/

/-- A configuration in which the options replace what they are about. -/
def Options.override (o : Options) (c : Config) : Config where
  pattern := o.pattern.getD c.pattern
  idScheme := o.idScheme.getD c.idScheme
  codec := o.codec.getD c.codec
  nonceMode := (o.window.map NonceMode.explicit).getD c.nonceMode
  maxSessions := o.maxSessions.getD c.maxSessions
  idleTimeoutSeconds := o.idleTimeout.getD c.idleTimeoutSeconds
  maxAuthFailures := o.maxAuthFailures.getD c.maxAuthFailures
  handshakeTimeout := c.handshakeTimeout

/-- The answer to a message: its octets in reverse. -/
def handler (message : Bytes) : Bytes := message.reverse

/-- How often idle channels are looked for, in milliseconds. -/
def cleanupInterval : Nat := 10000

section

variable {m : Type → Type} [Monad m]

/-- The server's configuration, which has to be valid, and so has the one in the file. -/
def Options.channelConfig (files : FileAccess m) (o : Options) : ExceptT ChannelError m Config := do
  let base ← match o.config with
    | some path => Config.load files path
    | none => pure .default
  let c := o.override base
  match c.validate with
  | .ok () => return c
  | .error e => throw e

def staticKey (p : Primitives) (sys : System m) (o : Options) (c : Config) :
    ExceptT Report m (Option StaticKey) := do
  match o.key, c.pattern with
  | some path, _ =>
      let fresh := Bytes32.resize (← sys.random 32)
      return some (← StaticKey.loadOrCreate p sys.files path fresh)
  | none, .nk => return some (.ofPrivate p (Bytes32.resize (← sys.random 32)))
  | none, .nn => return none

def start (p : Primitives) (sys : System m) (o : Options) : ExceptT Report m Service := do
  let c ← (o.channelConfig sys.files).adapt ChannelError.report
  let key ← staticKey p sys o c
  let service ← reporting (Service.new c key handler)
  match ← sys.bind o.listen with
  | .error e => throw (ChannelError.transport (.io e)).report
  | .ok () => return service

/-- Makes a server ready as a command line says. Without a service the program ends here. -/
def ready (p : Primitives) (sys : System m) (words : List String)
    (environment : List (String × String)) : m (Exit × Option Service) := do
  match parse words environment with
  | .error fault => return (.usage fault, none)
  | .ok none =>
      sys.print "Usage: latch-server [OPTIONS]"
      return (.success, none)
  | .ok (some o) =>
      match ← (start p sys o).run with
      | .ok service => return (.success, some service)
      | .error report => return (.failure report, none)

end

end SecureChannel.Command.Daemon
