import WifiOffload.Api.Acknowledgement
import WifiOffload.Api.ClassNames
import WifiOffload.Api.Confinement
import WifiOffload.Api.Consumers
import WifiOffload.Api.Descriptors
import WifiOffload.Api.Framing
import WifiOffload.Api.Interleaving
import WifiOffload.Api.Lifecycle
import WifiOffload.Api.Placement
import WifiOffload.Api.Representation
import WifiOffload.Api.Streams
import WifiOffload.Config.Accepted
import WifiOffload.Config.Document
import WifiOffload.Config.Entries
import WifiOffload.Config.HexField
import WifiOffload.Config.Image
import WifiOffload.Config.Loaded
import WifiOffload.Config.Numbers
import WifiOffload.Daemon.Egress
import WifiOffload.Daemon.History
import WifiOffload.Daemon.LivePath
import WifiOffload.Daemon.Reload
import WifiOffload.Daemon.Repeated
import WifiOffload.Daemon.Routes
import WifiOffload.Daemon.Run
import WifiOffload.Daemon.Shutdown
import WifiOffload.Daemon.Signals
import WifiOffload.Daemon.Startup
import WifiOffload.Fsm.Monotone
import WifiOffload.Fsm.Pairing
import WifiOffload.Fsm.Routes
import WifiOffload.Library.Attempt
import WifiOffload.Library.Literals
import WifiOffload.Library.Words
import WifiOffload.Mptcp.Lifecycle
import WifiOffload.Mptcp.Refusals
import WifiOffload.Routing.CgroupRemoval
import WifiOffload.Routing.Classids
import WifiOffload.Routing.Classification
import WifiOffload.Routing.DefaultRoute
import WifiOffload.Routing.Egress
import WifiOffload.Routing.EntryBytes
import WifiOffload.Routing.Gateway
import WifiOffload.Routing.Installation
import WifiOffload.Routing.Isolation
import WifiOffload.Routing.OwnInterfaces
import WifiOffload.Wpa.Backoff
import WifiOffload.Wpa.ClientNames
import WifiOffload.Wpa.Ctrl
import WifiOffload.Wpa.EventLoop
import WifiOffload.Wpa.Refinement
import WifiOffload.Wpa.Reports
import WifiOffload.Wpa.SignalFields
import WifiOffload.Wpa.Socket
import WifiOffload.Wpa.StopRequest
