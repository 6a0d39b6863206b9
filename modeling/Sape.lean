import Sape.Foundation.Machine
import Sape.Foundation.Codec
import Sape.Foundation.Varint
import Sape.Foundation.Frame
import Sape.Foundation.Copy
import Sape.Wire
import Sape.Stream
import Sape.Tunnel
import Sape.Jump
import Sape.Frames
import Sape.Types
import Sape.Addresses
import Sape.Protocol
import Sape.Relay
import Sape.Client.Dial
import Sape.Chain.Network
import Sape.Chain.Locality
import Sape.Chain.Invariant
import Sape.Chain.Preservation
import Sape.Chain.Progress
import Sape.Chain.Soundness
import Sape.Chain.Routing
import Sape.Relay.Reply
import Sape.Relay.Onward
import Sape.Chain.Sizes
import Sape.Chain.Opening
import Sape.Chain.Reporting
import Sape.Chain.Flow
import Sape.Chain.Conveyance
import Sape.Chain.Lockstep
import Sape.Chain.Exposure
import Sape.Foundation.LineReader
import Sape.Text
import Sape.Forward.Socks5
import Sape.Incoming
import Sape.Forward.Local
import Sape.Forward.Reverse
import Sape.Forward.Ack
import Sape.Client.ReverseDial
import Sape.Client.Listen
import Sape.Listener.Machine
import Sape.Listener.Moves
import Sape.Listener.Allowlist
import Sape.Listener.Sockets
import Sape.Listener.Routing
import Sape.Listener.Ports
import Sape.Listener.Readiness
import Sape.Client.Blocking
import Sape.Client.Swarm
import Sape.Client.Identify
import Sape.Client.Discovery
import Sape.Forward.Session
import Sape.Forward.Replies
import Sape.Client.Tunnel
import Sape.Client.Named
import Sape.Client.Options
import Sape.Pairing
import Sape.Forward.Spec
import Sape.Forward.Limits
import Sape.Forward.Heads
import Sape.Interactive
import Sape.Client.Announce
import Sape.Foundation.File
import Sape.Identity
import Sape.Foundation.Lists
import Sape.Namespace
import Sape.Network.Machine
import Sape.Network.Dialer
import Sape.Network.Isolation
import Sape.Foundation.Source
import Sape.Listener.Netcat
import Sape.Foundation.Refinement
import Sape.Foundation.Conduit
import Sape.Foundation.Duplex
import Sape.Forward.Bridge
import Sape.Forward.Delivery
import Sape.Forward.Transparency
import Sape.Forward.Port
import Sape.Forward.Concurrency
import Sape.Foundation.Channel
import Sape.Relay.Server
import Sape.Foundation.Lane
import Sape.Chain.Line
import Sape.Chain.Established
import Sape.Foundation.Form
import Sape.Wizard
import Sape.Relay.Retry
import Sape.Foundation.Behind
import Sape.Forward.Proxied
import Sape.Forward.Handover
import Sape.Forward.Handshake
import Sape.Forward.Passage
