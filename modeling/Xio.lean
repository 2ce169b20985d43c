import Xio.Storage
import Xio.Runs
import Xio.MachineWord
import Xio.Environment
import Xio.Buffer
import Xio.BufferInvariant
import Xio.Pipe
import Xio.PipeTracking
import Xio.BufferStream
import Xio.StreamQueue
import Xio.ChunkedStream
import Xio.ReadLoops
import Xio.ChunkedRuns
import Xio.ChunkedDelivery
import Xio.FilterStream
import Xio.FilterDelivery
import Xio.PipeTransfer
import Xio.BufferAppend
import Xio.Slices
import Xio.Ownership
import Xio.IPAddress
import Xio.Socket
import Xio.ListenFds
import Xio.ServerSocket
import Xio.HandOver
import Xio.ServerFlags
import Xio.Capacity
import Xio.Printf
import Xio.BufferReads
import Xio.GrowingRead
import Xio.ByteReads
import Xio.Find
import Xio.ByteRuns
import Xio.Numerals
import Xio.Parsing
import Xio.Ranges
import Xio.Scans
import Xio.InheritedSockets
import Xio.Keys
import Xio.SliceMargins
import Xio.FileMgr
import Xio.HexDump
import Xio.FileWatch
import Xio.AddressKeys
import Xio.OpenFailure
import Xio.SocketAddress
import Xio.Times
import Xio.CacheCoherence
import Xio.Accounts
import Xio.EchoServer
import Xio.ServerLife
import Xio.ServerOrder
import Xio.AcceptLoop
import Xio.ClientDescriptors
import Xio.Systemd
import Xio.Activation
import Xio.Relays
import Xio.Growth
import Xio.Dialogue
import Xio.SocketEvents
import Xio.CharScans
import Xio.Drivers
