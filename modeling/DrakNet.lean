import DrakNet.CString
import DrakNet.CircularArray
import DrakNet.Dialogue
import DrakNet.RakNet
import DrakNet.Packets
import DrakNet.Messages
import DrakNet.Runs
import DrakNet.Session
import DrakNet.Process
import DrakNet.Relay
import DrakNet.Connection
import DrakNet.StarBroadcast
import DrakNet.Broadcast
import DrakNet.Chat
import DrakNet.Queue
import DrakNet.Fifo
import DrakNet.MainLoop
import DrakNet.StartUp
import DrakNet.Main
import DrakNet.Traffic
import DrakNet.Delivery
import DrakNet.Attribution
import DrakNet.Causality
import DrakNet.Gaps
import DrakNet.Configuration
import DrakNet.MemoryPool
import DrakNet.PageLists
import DrakNet.PageStacks
import DrakNet.PageMoves
import DrakNet.Pool
import DrakNet.PoolLife
import DrakNet.AllocatingQueue
import DrakNet.Commands
import DrakNet.Lists
import DrakNet.HeapOrder
import DrakNet.Heap
import DrakNet.HeapSifts
import DrakNet.HeapCalls
import DrakNet.HeapLife
import DrakNet.Bisection
import DrakNet.OrderedList
import DrakNet.RangeList
import DrakNet.RangeCalls
import DrakNet.RangeLife
