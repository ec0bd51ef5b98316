import Fuseuring.OneReply
import Fuseuring.Fifo
import Fuseuring.Framing
import Fuseuring.ByteStore
import Fuseuring.Fragmentation
import Fuseuring.Directory
import Fuseuring.Paging
import Fuseuring.Attributes
import Fuseuring.NameSpace
import Fuseuring.ReadRange
import Fuseuring.SizeChange
import Fuseuring.BlockCount
import Fuseuring.Reassembly
import Fuseuring.BodyExists
import Fuseuring.Handshake
import Fuseuring.Capabilities
import Fuseuring.SetUp
import Fuseuring.Leftovers
import Fuseuring.Ring.Awaiter
import Fuseuring.Ring.Dispatched
import Fuseuring.Ring.Strays
import Fuseuring.Ring.Overflow
import Fuseuring.Ring.Care
import Fuseuring.Ring.Counters
import Fuseuring.Ring.NullEntry
import Fuseuring.Limit
import Fuseuring.Ring.Refill
import Fuseuring.Ring.InFlight
import Fuseuring.Ring.Outstanding
import Fuseuring.Coroutine.Lifecycle
import Fuseuring.Coroutine.MallocCache
import Fuseuring.Ring.Devices
