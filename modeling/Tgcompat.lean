import Tgcompat.Library.Table
import Tgcompat.Library.Transition
import Tgcompat.Store.Basic
import Tgcompat.Store.Ids
import Tgcompat.Library.Fold
import Tgcompat.Store.Operations
import Tgcompat.Store.Tryop
import Tgcompat.Store.Undo
import Tgcompat.Store.Invariant
import Tgcompat.Store.Effects
import Tgcompat.Store.Evaluation
import Tgcompat.Store.Preservation
import Tgcompat.Store.Run
import Tgcompat.Store.Frame
import Tgcompat.Store.Ledger
import Tgcompat.Store.Generations
import Tgcompat.Broker.Dispatch
import Tgcompat.Broker.Atomicity
import Tgcompat.Broker.State
import Tgcompat.Broker.Server
import Tgcompat.Broker.Blocking
import Tgcompat.Broker.Queue
import Tgcompat.Broker.Invariant
import Tgcompat.Broker.Iteration
import Tgcompat.Broker.Arrival
import Tgcompat.Broker.Monitor
import Tgcompat.Broker.Bystanders
import Tgcompat.Broker.Completion
import Tgcompat.Broker.WakeUps
import Tgcompat.Broker.Fifo
import Tgcompat.Broker.Watching
import Tgcompat.Broker.StaleIds
import Tgcompat.Client.Interrupt
import Tgcompat.Broker.StoreRuns
import Tgcompat.Protocol.Header
import Tgcompat.Protocol.Framing
import Tgcompat.Store.Arithmetic
import Tgcompat.Client.Agreement
import Tgcompat.Broker.WaitCounts
import Tgcompat.Broker.Removal
import Tgcompat.Broker.WaitReasons
import Tgcompat.Broker.Incarnations
import Tgcompat.Broker.Departed
import Tgcompat.Client.Connection
import Tgcompat.Store.ProcessExit
import Tgcompat.Store.UndoRange
import Tgcompat.Library.Independence
import Tgcompat.Store.Semget
import Tgcompat.Store.Commute
import Tgcompat.Broker.Identity
import Tgcompat.Exec.Environment
import Tgcompat.Exec.Elf
import Tgcompat.Exec.Loader
import Tgcompat.Exec.PathLookup
import Tgcompat.Library.Paging
import Tgcompat.Mprotect.Shim
import Tgcompat.Mprotect.Fallback
import Tgcompat.Store.Enumeration
import Tgcompat.Broker.UndoScan
import Tgcompat.Client.Timeouts
import Tgcompat.AndroidRoot.Rewrite
import Tgcompat.AndroidRoot.Opens
import Tgcompat.Exec.ElfFormat
import Tgcompat.Exec.ElfReader
import Tgcompat.Broker.Responses
import Tgcompat.Broker.Service
import Tgcompat.Broker.Pairing
import Tgcompat.Broker.Linearization
import Tgcompat.Broker.Ownership
import Tgcompat.Library.Writers
import Tgcompat.Client.Served
import Tgcompat.Library.Semaphore
import Tgcompat.Library.Simulation
import Tgcompat.Store.Refinement
import Tgcompat.Broker.Units
import Tgcompat.Library.Concurrent
import Tgcompat.Daemon.Program
import Tgcompat.Daemon.Exclusive
import Tgcompat.Daemon.Workers
