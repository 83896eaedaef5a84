import Ethernet.Text.Hex
import Ethernet.Address.Mac
import Ethernet.Address.Ipv4
import Ethernet.Error
import Ethernet.Link.Params
import Ethernet.Settings
import Ethernet.Journal
import Ethernet.Sync.Lock
import Ethernet.Stm32.Registers
import Ethernet.Stm32.Descriptor
import Ethernet.Bench.Value
import Ethernet.Bench.Fields
import Ethernet.Bench.Encode
import Ethernet.Bench.Single
import Ethernet.Bench.Answer
import Ethernet.Buffer.Pool
import Ethernet.Frame.Chain
import Ethernet.Frame.Assembly
import Ethernet.Frame.Fragments
import Ethernet.Bench.Session
import Ethernet.Bench.Buffers
import Ethernet.Address.Acquisition
import Ethernet.Bench.Protocol
import Ethernet.Bench.Dhcp
import Ethernet.Mac.Engine
import Ethernet.Phy.Control
import Ethernet.Board
import Ethernet.Link.Monitor
import Ethernet.Interface.Basic
import Ethernet.Interface.Datapath
import Ethernet.Interface.Lifecycle
import Ethernet.Bench.ScriptedPhy
import Ethernet.Bench.ScriptedMac
import Ethernet.Bench.Boards
import Ethernet.Bench.Link
import Ethernet.Phy.Bus
import Ethernet.Phy.Lan8720.Map
import Ethernet.Phy.Lan8720.Driver
import Ethernet.Bench.RegisterFile
import Ethernet.Bench.Transceiver
import Ethernet.Bench.Frames
import Ethernet.Bench.Netif
import Ethernet.Stm32.Block
import Ethernet.Stm32.Smi
import Ethernet.Stm32.Controller
import Ethernet.Bench.EmulatedBlock
import Ethernet.Bench.Stm32
import Ethernet.Stm32.Board
import Ethernet.Bench.Stm32Board
import Ethernet.Console
import Ethernet.Bench.ConsoleBench
import Ethernet.Stack.DhcpClient
import Ethernet.Stack.IpLayer
import Ethernet.Stack.Basic
import Ethernet.Bench.ScriptedIp
import Ethernet.Bench.StackBench
import Ethernet.Proofs.Ensures
import Ethernet.Proofs.Interface.Within
import Ethernet.Proofs.Pool.Census
import Ethernet.Proofs.Pool.Books
import Ethernet.Proofs.Pool.Operations
import Ethernet.Proofs.Pool.Ownership
import Ethernet.Proofs.Frame.Handles
import Ethernet.Proofs.Frame.Splitter
import Ethernet.Proofs.Frame.Refinement
import Ethernet.Proofs.Frame.Arrivals
import Ethernet.Proofs.Station.Engine
import Ethernet.Proofs.Station.Invariant
import Ethernet.Proofs.Station.Receive
import Ethernet.Proofs.Station.Transmit
import Ethernet.Proofs.Station.Lifecycle
import Ethernet.Proofs.Station.World
import Ethernet.Proofs.Station.Output
import Ethernet.Proofs.Station.Tally
import Ethernet.Proofs.Address.Coherence
import Ethernet.Proofs.Stm32.Driver
import Ethernet.Proofs.Frame.Fragments
import Ethernet.Proofs.Stm32.Handover
import Ethernet.Proofs.Stm32.Emulated
import Ethernet.Proofs.Stm32.Session
import Ethernet.Proofs.Stm32.Transmit
import Ethernet.Proofs.Stm32.Receive
import Ethernet.Proofs.Stm32.Completions
import Ethernet.Proofs.Link.Poll
import Ethernet.Proofs.Link.Record
import Ethernet.Proofs.Link.Coupling
import Ethernet.Proofs.Address.Follows
import Ethernet.Proofs.Stack.Mirror
import Ethernet.Proofs.Address.MacText
import Ethernet.Proofs.Address.Retries
import Ethernet.Proofs.Frame.Views
import Ethernet.Proofs.Interface.Pacing
import Ethernet.Proofs.Phy.Accessors
import Ethernet.Proofs.Interface.Termination
import Ethernet.Proofs.Stm32.Backlog
import Ethernet.Proofs.Station.Refill
