import OsLabs.Chat.Client
import OsLabs.Chat.Listing
import OsLabs.Chat.Commands
import OsLabs.Lab10.Framing
import OsLabs.Lab11.Registry
import OsLabs.Lab8.Simulation
import OsLabs.Lab9.Queue
import OsLabs.Lab9.Observers
import OsLabs.Lab9.Draining
import OsLabs.Lab11.Descriptor
import OsLabs.Lab7.PosixSpooler
import OsLabs.Lab7.Delivery
import OsLabs.Lab7.SystemVDelivery
import OsLabs.Lab10.Host
import OsLabs.Lab10.Server
import OsLabs.Lab10.Shutdown
import OsLabs.Lab10.Ownership
import OsLabs.Lab10.Sender
import OsLabs.Lab10.Streams
import OsLabs.Lab10.Closings
import OsLabs.Lab11.Identity
import OsLabs.Lab9.Locks
import OsLabs.Lab9.Status
import OsLabs.Lab9.Batch
import OsLabs.Core.Locks
import OsLabs.Lab7.Emptiness
import OsLabs.Lab9.Cabinet
import OsLabs.Lab9.Deliveries
import OsLabs.Lab9.Wakeup
import OsLabs.Lab11.Departure
import OsLabs.Lab11.Signals
import OsLabs.Lab10.Registration
import OsLabs.Lab10.Joining
import OsLabs.Chat.Headcount
import OsLabs.Lab10.Headcount
import OsLabs.Lab11.Headcount
import OsLabs.Lab10.Requests
import OsLabs.Core.Scan
import OsLabs.Lab6.PosixChat
import OsLabs.Lab6.FanOut
import OsLabs.Lab6.Relay
import OsLabs.Lab6.SystemVChat
import OsLabs.Lab6.Handshake
import OsLabs.Lab6.Registration
import OsLabs.Lab6.Stores
import OsLabs.Kolos.Buffer
import OsLabs.Kolos.Condition
import OsLabs.Kolos.Polling
import OsLabs.Lab5.Answers
import OsLabs.Lab11.History
import OsLabs.Lab11.Keepalive
import OsLabs.Lab11.Routing
import OsLabs.Lab11.Frame
import OsLabs.Lab11.Stopping
import OsLabs.Chat.Addressee
import OsLabs.Core.Inet
import OsLabs.Chat.Endpoint
import OsLabs.Core.Lines
import OsLabs.Chat.Interactive
import OsLabs.Lab11.Calls
import OsLabs.Lab8.Life
import OsLabs.Lab1.Collatz
import OsLabs.Core.Rectangles
import OsLabs.Lab5.Integrator
import OsLabs.Core.FileSystem
import OsLabs.Lab2.Flipper
import OsLabs.Lab2.Involution
import OsLabs.Lab2.Counter
import OsLabs.Core.Double
import OsLabs.Core.Exchange
import OsLabs.Kolos.Median
import OsLabs.Core.Writes
import OsLabs.Chat.Strings
import OsLabs.Chat.Address
import OsLabs.Chat.Causes
import OsLabs.Lab11.Network
import OsLabs.Core.Simulation
import OsLabs.Core.Keyed
import OsLabs.Lab11.Leases
import OsLabs.Core.Frames
import OsLabs.Lab10.Relaying
import OsLabs.Core.Pile
import OsLabs.Kolos.Stack
import OsLabs.Core.Tally
import OsLabs.Lab5.Forking
import OsLabs.Lab9.Shift
import OsLabs.Kolos.Rendezvous
import OsLabs.Lab4.Catcher
import OsLabs.Lab6.Queues
import OsLabs.Lab10.Stepwise
