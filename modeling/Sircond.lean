import Sircond.Daemon.Blocking
import Sircond.Daemon.Impl
import Sircond.Daemon.Response
import Sircond.Launch.Draining
import Sircond.Launch.Ending
import Sircond.Launch.Impl
import Sircond.Launch.Invariant
import Sircond.Launch.Responsive
import Sircond.Launch.Step
import Sircond.Lib.BigEndian
import Sircond.Lib.CString
import Sircond.Lib.Fifo
import Sircond.Lib.Indexed
import Sircond.Lib.Logged
import Sircond.Lib.Machine
import Sircond.Lib.Numeral
import Sircond.Lib.Quoted
import Sircond.Lib.Retry
import Sircond.Lib.Scanner
import Sircond.Lib.Shadow
import Sircond.Lib.Split
import Sircond.Lib.WaitList
import Sircond.Relay.Delivery
import Sircond.Relay.Frames
import Sircond.Relay.Impl
import Sircond.SOBuf.Fifo
import Sircond.SOBuf.Impl
import Sircond.SOBuf.Lemmas
import Sircond.SOBuf.Resize
import Sircond.Scp.Basic
import Sircond.SirCon.Budget
import Sircond.SirCon.Caching
import Sircond.SirCon.ChannelMap
import Sircond.SirCon.ChannelRecord
import Sircond.SirCon.Chunking
import Sircond.SirCon.CurrentChannel
import Sircond.SirCon.Decoding
import Sircond.SirCon.Framing
import Sircond.SirCon.Impl.Basic
import Sircond.SirCon.Impl.Dispatch
import Sircond.SirCon.Impl.Events
import Sircond.SirCon.Impl.Frame
import Sircond.SirCon.Impl.OnRun
import Sircond.SirCon.Impl.Queue
import Sircond.SirCon.Impl.Request
import Sircond.SirCon.Keepalive
import Sircond.SirCon.Lemmas.Asserts
import Sircond.SirCon.Lemmas.Decoder
import Sircond.SirCon.Lemmas.Dispatch
import Sircond.SirCon.Lemmas.Frame
import Sircond.SirCon.Lemmas.Message
import Sircond.SirCon.Lemmas.OnRun
import Sircond.SirCon.Lemmas.Reception
import Sircond.SirCon.Lifecycle
import Sircond.SirCon.LinkFailures
import Sircond.SirCon.Machine
import Sircond.SirCon.Overlap
import Sircond.SirCon.ReceiveLoop
import Sircond.SirCon.Response
import Sircond.SirCon.Resync
import Sircond.SirCon.Shutdown
import Sircond.SirCon.Silence
import Sircond.SirCon.StopAndWait.Agreement
import Sircond.SirCon.StopAndWait.Invariant
import Sircond.SirCon.StopAndWait.Net
import Sircond.SirCon.Transport
import Sircond.SirCon.Unsolicited
import Sircond.SirServer.Access
import Sircond.SirServer.Arbitration
import Sircond.SirServer.Arguments
import Sircond.SirServer.Backlog
import Sircond.SirServer.ClientTable
import Sircond.SirServer.Connected
import Sircond.SirServer.EventLines
import Sircond.SirServer.Gateway
import Sircond.SirServer.Impl.Client
import Sircond.SirServer.Impl.Command
import Sircond.SirServer.Impl.Control
import Sircond.SirServer.Impl.Events
import Sircond.SirServer.Impl.OnRun
import Sircond.SirServer.Impl.Receive
import Sircond.SirServer.Impl.Turn
import Sircond.SirServer.Impl.Update
import Sircond.SirServer.Lemmas.Announcements
import Sircond.SirServer.Lemmas.Answers
import Sircond.SirServer.Lemmas.Command
import Sircond.SirServer.Lemmas.Consistent
import Sircond.SirServer.Lemmas.Frame
import Sircond.SirServer.Lemmas.Presence
import Sircond.SirServer.Lemmas.Replies
import Sircond.SirServer.Lemmas.Table
import Sircond.SirServer.Lemmas.Text
import Sircond.SirServer.Lines
import Sircond.SirServer.Notices
import Sircond.SirServer.Output
import Sircond.SirServer.ReadBack
import Sircond.SirServer.Sending
import Sircond.SirServer.Standing
import Sircond.SirServer.TextProtocol
import Sircond.Task.Impl
import Sircond.Task.Lifecycle
import Sircond.Timer.Impl
import Sircond.Timer.Schedule
import Sircond.Timetrax.Authenticate
import Sircond.Timetrax.Detection
import Sircond.Timetrax.Impl
import Sircond.Timetrax.Startup
import Sircond.Uplink.Answered
import Sircond.Uplink.Command
import Sircond.Uplink.Impl
import Sircond.Util.Basic
import Sircond.Util.Numeral
import Sircond.Util.StrTokenize
