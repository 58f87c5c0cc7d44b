import SecureChannel.Bytes.Hex
import SecureChannel.Bytes.Base64
import SecureChannel.Noise.Handshake
import SecureChannel.Text.Quoted
import SecureChannel.Text.Blank
import SecureChannel.Text.Duration
import SecureChannel.Json.Value
import SecureChannel.Json.Reader
import SecureChannel.Json.Printer
import SecureChannel.Frame.Decode
import SecureChannel.Codec
import SecureChannel.Config
import SecureChannel.StaticKey
import SecureChannel.Registry
import SecureChannel.Datagram.Client
import SecureChannel.Command.Tool
import SecureChannel.Command.Daemon
import SecureChannel.Main
import SecureChannel.Proofs.ReplayWindow.Answers
import SecureChannel.Proofs.CipherState.Numbered
import SecureChannel.Proofs.CipherState.Ordered
import SecureChannel.Proofs.Noise.RoundTrip
import SecureChannel.Proofs.PendingHandshake.Completion
import SecureChannel.Proofs.Frame.Layout
import SecureChannel.Proofs.Frame.Length
import SecureChannel.Proofs.Datagram.Isolation
import SecureChannel.Proofs.Datagram.Correlation
import SecureChannel.Proofs.Datagram.Naming
import SecureChannel.Proofs.Service.AtMostOnce
import SecureChannel.Proofs.Registry.Capacity
import SecureChannel.Proofs.Registry.Exclusivity
import SecureChannel.Proofs.Service.FailClosed
import SecureChannel.Proofs.Service.Independence
import SecureChannel.Proofs.Service.Invalidation
import SecureChannel.Proofs.Service.EndToEnd
import SecureChannel.Proofs.Service.Pinning
import SecureChannel.Proofs.Registry.Idleness
import SecureChannel.Proofs.Codec.Queries
import SecureChannel.Proofs.StaticKey.Restoring
import SecureChannel.Proofs.Command.Configuration
import SecureChannel.Proofs.Bytes.Accepted
import SecureChannel.Proofs.Datagram.Answers
