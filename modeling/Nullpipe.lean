import Nullpipe.Room.Peers
import Nullpipe.Room.Admission
import Nullpipe.Room.Relay
import Nullpipe.Room.Subscription
import Nullpipe.Room.Delivery
import Nullpipe.Room.PeerList
import Nullpipe.Room.Ready
import Nullpipe.Room.Closing
import Nullpipe.Room.Quit
import Nullpipe.Room.Alignment
import Nullpipe.Room.Blocking
import Nullpipe.Handle.Teardown
import Nullpipe.Handle.Users
import Nullpipe.Session.Oversized
import Nullpipe.Session.Silence
import Nullpipe.Session.Expiry
import Nullpipe.Joiner.Events
import Nullpipe.Joiner.Echo
import Nullpipe.Hub.SingleUse
import Nullpipe.Hub.Agreement
import Nullpipe.Hub.Backlog
import Nullpipe.Hub.Cleanup
import Nullpipe.Hub.Buffered
import Nullpipe.Hub.Outflow
import Nullpipe.Core.Stream
import Nullpipe.Core.Token
import Nullpipe.Session.Readers
import Nullpipe.Joiner.WriteLoop
import Nullpipe.Bootstrap.Verdict
import Nullpipe.Cli.Editor
import Nullpipe.Cli.Scroll
import Nullpipe.Core.Reencoding
import Nullpipe.Mock.Mirror
import Nullpipe.Network.Order
import Nullpipe.Room.Progress
import Nullpipe.Joiner.Progress
import Nullpipe.Cli.HostApp
import Nullpipe.Joiner.Credit
import Nullpipe.Cli.GuestApp
import Nullpipe.Cli.Headless
import Nullpipe.Mock.Host
import Nullpipe.Network.Assembly
