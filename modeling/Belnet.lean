import Belnet.Iwp.Bounds
import Belnet.Iwp.Channel
import Belnet.Iwp.Authentication
import Belnet.Link.Reachable
import Belnet.Path.FrameBounds
import Belnet.Service.Lookups
import Belnet.Router.Answers
import Belnet.Dht.Storage
import Belnet.Dht.Isolation
import Belnet.Dht.Transactions
import Belnet.Dht.Nearest
import Belnet.Router.Profiling
import Belnet.Router.Progress
import Belnet.Service.Resets
import Belnet.Service.Frames
import Belnet.Messages.Bounds
import Belnet.Routing.Independence
import Belnet.Handlers.ExitSafety
import Belnet.Handlers.Traffic
import Belnet.Service.PathHooks
import Belnet.Handlers.Dns
import Belnet.Service.NameTracker
import Belnet.Router.RequestLookups
import Belnet.Path.Onion
import Belnet.Path.CommitRecord
import Belnet.Path.Dispatch
import Belnet.Path.Status
import Belnet.Router.SessionMaker
import Belnet.Router.RoundRobinOrder
import Belnet.Iwp.Resend
import Belnet.Dns.Txt
import Belnet.Dns.Ptr
import Belnet.Router.PathBuilder
import Belnet.Path.PathSet
import Belnet.Quic.Stream
import Belnet.Quic.Tunnel
import Belnet.Service.RouterLookups
import Belnet.Router.RandomTests
import Belnet.Router.Gossip
