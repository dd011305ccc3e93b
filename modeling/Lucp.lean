import Lucp.General.System
import Lucp.General.Framing
import Lucp.General.Lossy
import Lucp.General.CArray
import Lucp.General.Checked
import Lucp.General.Lexical
import Lucp.General.Script
import Lucp.General.SlotTable
import Lucp.General.StackWalk
import Lucp.General.Ledger
import Lucp.General.Chained
import Lucp.General.Lines
import Lucp.General.Descent
import Lucp.ByteOrder
import Lucp.Frame
import Lucp.Wire
import Lucp.Recv
import Lucp.FrameObject
import Lucp.Reassembly
import Lucp.Resync
import Lucp.Send
import Lucp.Delivery
import Lucp.Retry
import Lucp.RetryReply
import Lucp.Session
import Lucp.SessionOutcome
import Lucp.SessionFrames
import Lucp.Connection
import Lucp.ServerStage
import Lucp.Agreement
import Lucp.AcceptLoop
import Lucp.CString
import Lucp.CheckedString
import Lucp.Lucfg
import Lucp.Config
import Lucp.EntryArgs
import Lucp.Decimal
import Lucp.RateLimit
import Lucp.Luftpd.Config
import Lucp.Luftpd.Resolve
import Lucp.Luftpd.Containment
import Lucp.Luftpd.PathBuffers
import Lucp.Luftpd.Components
import Lucp.Luftpd.Walk
import Lucp.Luftpd.Client
import Lucp.Luftpd.SendResponse
import Lucp.Luftpd.Handlers
import Lucp.Luftpd.Daemon
import Lucp.Luftpd.Isolation
import Lucp.Luftpd.Session
import Lucp.Luftpd.VirtualPath
import Lucp.Luftpd.Turns
import Lucp.Luftpd.PassivePort
import Lucp.Luftpd.Transfer
import Lucp.Luftpd.CurrentDir
import Lucp.Luftpd.Descriptors
import Lucp.Luftpd.Replies
import Lucp.Luftpd.Dispatch
import Lucp.Luftpd.CommandBuffers
import Lucp.Luftpd.Accounting
import Lucp.Luftpd.Interleaving
import Lucp.Lucfg.Text
import Lucp.Lucfg.Expr
import Lucp.Lucfg.Load
import Lucp.Lucfg.Document
import Lucp.Lucfg.Lookup
import Lucp.Lucfg.Listing
import Lucp.Lucfg.Servers
import Lucp.General.Records
import Lucp.MLog.Integers
import Lucp.MLog.Protocol
import Lucp.MLog.Serialize
import Lucp.MLog.Parse
import Lucp.MLog.Batch
import Lucp.MLog.Config
import Lucp.MLog.Server
import Lucp.General.RingBuffer
import Lucp.MLog.Queue
import Lucp.MLog.Sender
import Lucp.General.Pool
import Lucp.MLog.Pools
import Lucp.MLog.Single
import Lucp.MLog.Client
import Lucp.MLog.Slots
import Lucp.MLog.Logd
