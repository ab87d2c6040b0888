import Jack2.Run
import Jack2.TripleBuffer
import Jack2.Shared
import Jack2.Checked
import Jack2.Libjack
import Jack2.Ports
import Jack2.Publication
import Jack2.Collection
import Jack2.Callbacks
import Jack2.Activate
import Jack2.Activation
import Jack2.CallbackTable
import Jack2.ActivationResult
import Jack2.ActivationTable
import Jack2.Session
import Jack2.Dangling
import Jack2.ActivationHistory
import Jack2.Timebase
import Jack2.Lifetime
import Jack2.Notification
import Jack2.Delivery
import Jack2.Uuid
import Jack2.Identifiers
import Jack2.Ledger
import Jack2.ForeignMemory
import Jack2.Release
import Jack2.NameLists
import Jack2.Monitor
import Jack2.PortFlags
import Jack2.Midi
import Jack2.MidiIteration
import Jack2.MidiOutput
import Jack2.Calls
import Jack2.Registration
import Jack2.Unattended
import Jack2.Deactivation
import Jack2.Borrowing
import Jack2.Restart
import Jack2.Unwinding
import Jack2.Decimal
import Jack2.UuidText
import Jack2.Ownership
import Jack2.Arguments
import Jack2.Registers
import Jack2.Transport
import Jack2.StartProtocol
import Jack2.Timing
import Jack2.BufferLocks
import Jack2.Simulation
import Jack2.Linearization
import Jack2.Lookups
import Jack2.BorrowFlags
import Jack2.ProcessScope
import Jack2.Handback
import Jack2.Conservation
import Jack2.Closing
import Jack2.Completion
import Jack2.OnceCell
import Jack2.Opening
import Jack2.Scope
