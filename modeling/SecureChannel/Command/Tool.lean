import SecureChannel.Command.Exit
import SecureChannel.Command.System
import SecureChannel.Text.Lossy

/-!
# The tool for people

`keygen` makes a static key and saves it to two files, `show-key` prints the public half of a key
file, `connect` opens a channel and sends messages over it, and `version` prints the version.

`connect` sends the words of its command line, or the lines of its input up to a `q`. A channel's
configuration has to be valid before anything is sent. The server's key is pinned by the command
line or asked for, and if both are wanted it is pinned.
-/

namespace SecureChannel.Command.Tool

def version : String := "0.1.0"

structure ConnectOptions where
  server : Endpoint
  pattern : Noise.Pattern
  idScheme : IdScheme
  codec : Codec
  window : Option UInt64
  /-- A key in hexadecimal digits, or the name of a key file. -/
  serverKey : Option String
  fetchKey : Bool
  /-- The payload of the handshake request. -/
  early : String
  messages : List String
deriving DecidableEq

inductive Action
  | keygen (output : String)
  | showKey (path : String)
  | connect (options : ConnectOptions)
  | version
  | help
deriving DecidableEq

/-! ### Reading the command line -/

def valued (long : String) (letter : Option Char) : OptionSpec := ⟨long, letter, none, true⟩

def outputOption : OptionSpec := valued "output" (some 'o')

def keyOption : OptionSpec := valued "key" (some 'k')

def serverOption : OptionSpec := valued "server" (some 's')

def patternOption : OptionSpec := valued "pattern" none

def schemeOption : OptionSpec := valued "id-scheme" none

def codecOption : OptionSpec := valued "codec" none

def windowOption : OptionSpec := valued "window" none

def serverKeyOption : OptionSpec := ⟨"server-key", none, some "LATCH_SERVER_PUBLIC_KEY", true⟩

def fetchKeyOption : OptionSpec := ⟨"fetch-key", none, none, false⟩

def earlyOption : OptionSpec := valued "early" none

/-- Runs a reader on the words behind a command's name, unless they ask for help. -/
def readAction (g : Grammar) (words : List String) (environment : List (String × String))
    (action : Invocation → Except UsageFault (Except UsageFault Action)) :
    Except UsageFault Action := do
  let found ← g.read words
  let complete ← action ⟨found, environment⟩
  if found.help then return .help else complete

def connectOptions (i : Invocation) : Except UsageFault ConnectOptions := do
  let server ← i.value? serverOption Endpoint.parse?
  let pattern ← i.value? patternOption fun text => (Noise.Pattern.parse text).toOption
  let idScheme ← i.value? schemeOption fun text => (IdScheme.parse text).toOption
  let codec ← i.value? codecOption fun text => (Codec.parse text).toOption
  let window ← i.value? windowOption (natural? UInt64.size)
  return {
    server := server.getD (.v4 .loopback 5684)
    pattern := pattern.getD .nn
    idScheme := idScheme.getD .random16
    codec := codec.getD .envelope
    window := window.map UInt64.ofNat
    serverKey := i.text? serverKeyOption
    fetchKey := (i.text? fetchKeyOption).isSome
    early := (i.text? earlyOption).getD ""
    messages := i.found.words.reverse }

def parse (words : List String) (environment : List (String × String)) :
    Except UsageFault Action :=
  match words with
  | "keygen" :: rest =>
      readAction ⟨[outputOption], false⟩ rest environment fun i =>
        .ok (.ok (.keygen ((i.text? outputOption).getD "latch")))
  | "show-key" :: rest =>
      readAction ⟨[keyOption], false⟩ rest environment fun i => do
        match ← i.value? keyOption fileName? with
        | some path => return .ok (.showKey path)
        | none => return .error (.required keyOption.long)
  | "connect" :: rest =>
      let g : Grammar :=
        ⟨[serverOption, patternOption, schemeOption, codecOption, windowOption, serverKeyOption,
          fetchKeyOption, earlyOption], true⟩
      readAction g rest environment fun i => do
        return .ok (.connect (← connectOptions i))
  | "version" :: rest => readAction ⟨[], false⟩ rest environment fun _ => .ok (.ok .version)
  | ["help"] => .ok .help
  | ["help", name] =>
      if name ∈ ["keygen", "show-key", "connect", "version", "help"] then .ok .help
      else .error (.unknownCommand name)
  | word :: _ =>
      match Word.ofText word with
      | .letters 'h' _ => .ok .help
      | .long "help" none => .ok .help
      | _ => .error (.unknownCommand word)
  | [] => .error (.required "command")

/-! ### Doing it -/

def ConnectOptions.config (o : ConnectOptions) : Config :=
  { Config.default with
    pattern := o.pattern
    idScheme := o.idScheme
    codec := o.codec
    nonceMode := (o.window.map NonceMode.explicit).getD .implicit }

section

variable {m : Type → Type} [Monad m] (p : Primitives) (sys : System m)

def keygen (output : String) : ExceptT Report m Unit := do
  sys.print "Generating X25519 static keypair..."
  let key := StaticKey.ofPrivate p (Bytes32.resize (← sys.random 32))
  let privatePath := output ++ ".key"
  let publicPath := output ++ ".pub"
  key.save sys.files privatePath publicPath
  sys.print s!"Private key: {privatePath}"
  sys.print s!"Public key:  {publicPath}"
  sys.print s!"Key:         {key.publicKey.toText}"

/-- The public half of the key in a file. The extension alone tells which half the file holds. -/
def showKey (path : String) : ExceptT Report m PublicKey := do
  if Path.extension? path = some "key" then
    return (← StaticKey.load p sys.files path).publicKey
  else PublicKey.load sys.files path

/-- The key that a text stands for, or that is in the file which it names. -/
def pinnedKey (text : String) : ExceptT Report m PublicKey :=
  match PublicKey.parse text with
  | .ok key => return key
  | .error _ =>
      (PublicKey.load sys.files text).adapt
        fun e => e.within "server key is neither hex nor a readable key file"

def send {ε : Type} (client : DatagramClient) (request : Request) : ExceptT ε m Arrival := do
  if request.frame.encode.length ≤ client.endpoint.maxPayload then
    sys.request request.frame.encode request.accepts client.timeout
  else return .failed .messageTooLong

/-- The server's key, if one is pinned or asked for. -/
def serverKey (o : ConnectOptions) (client : DatagramClient) :
    ExceptT Report m (Option PublicKey) := do
  match o.serverKey with
  | some text => return some (← pinnedKey sys text)
  | none =>
      if o.fetchKey then
        let key ← reporting (client.keyOf (← send sys client DatagramClient.keyRequest))
        sys.print s!"Server key: {key.toText}"
        return some key
      else return none

def handshake (o : ConnectOptions) (client : DatagramClient) (key : Option PublicKey) :
    ExceptT ChannelError m (DatagramClient × ClientChannel) := do
  let fresh := Bytes32.resize (← sys.random 32)
  let h ← ExceptT.mk (pure (ClientHandshake.start p o.config key (Bytes.ofText o.early) fresh))
  let (request, client) := client.handshakeRequest h.request (← sys.random tokenLength)
  let exchange := client.exchange o.config.handshakeTimeout (← send sys client request)
  let channel ← ExceptT.mk (pure (h.finish p exchange client.channelTag))
  return (client, channel)

/-- Sends a message and prints the answer. -/
def converse (client : DatagramClient) (channel : ClientChannel) (message : String) :
    ExceptT Report m ClientChannel := do
  let token ← sys.random tokenLength
  let (request, channel) ←
    reporting (client.messageRequest p channel (Bytes.ofText message) token)
  let arrival ← send sys client request
  let (answer, channel) ← reporting (client.messageAnswer p channel arrival)
  sys.print (Text.lossy answer)
  return channel

/-- Sends a line of the input; blank lines are passed over, and a `q` is the last one. -/
def converseLine (client : DatagramClient) (channel : ClientChannel) (line : String) :
    ExceptT Report m (ClientChannel × Bool) := do
  let message := Text.trim line
  if message = "q" then return (channel, false)
  else if message.isEmpty then return (channel, true)
  else return (← converse p sys client channel message, true)

def close (client : DatagramClient) (channel : ClientChannel) : ExceptT Report m Unit := do
  let token ← sys.random tokenLength
  let (request, _) ← reporting (client.closeRequest p channel token)
  reporting (client.closeAnswer (← send sys client request))

/-- Opens a channel, sends the messages, and tears the channel down. -/
def connect (o : ConnectOptions) : ExceptT Report m Unit := do
  reporting o.config.validate
  match ← sys.connect o.server with
  | .error e => throw (ChannelError.transport (.io e)).report
  | .ok endpoint =>
      let client := DatagramClient.new endpoint o.config
      let key ← serverKey sys o client
      let (client, channel) ←
        (handshake p sys o client key).adapt fun e => e.report.within "handshake failed"
      sys.print s!"Connected to {o.server.toText} on channel {channel.id.toText}"
      if !channel.reply.isEmpty then sys.print (Text.lossy channel.reply)
      let channel ←
        if o.messages.isEmpty then sys.foldLines (converseLine p sys client) channel
        else o.messages.foldlM (converse p sys client) channel
      close p sys client channel

def perform : Action → ExceptT Report m Unit
  | .keygen output => keygen p sys output
  | .showKey path => do sys.print (← showKey p sys path).toText
  | .connect options => connect p sys options
  | .version => sys.print s!"latch {version}"
  | .help => sys.print "Usage: latch <keygen|show-key|connect|version|help> [OPTIONS]"

def run (words : List String) (environment : List (String × String)) : m Exit := do
  match parse words environment with
  | .error fault => return .usage fault
  | .ok action => return .ofRun (← (perform p sys action).run)

end

end SecureChannel.Command.Tool
