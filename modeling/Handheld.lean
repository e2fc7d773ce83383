import Handheld.FlatMemory
import Handheld.Cpu.Run
import Handheld.Instruction.Transfer
import Handheld.Machine.Run
import Handheld.Proofs.Bits
import Handheld.Proofs.Interrupt
import Handheld.Proofs.Registers
import Handheld.Proofs.Timer.Elapse
import Handheld.Proofs.Timer.Reachable
import Handheld.Proofs.Timer.Batches
import Handheld.Proofs.Timer.CounterRate
import Handheld.Proofs.Board
import Handheld.Proofs.Control
import Handheld.Proofs.Step
import Handheld.Proofs.DeliveryLaw
import Handheld.Proofs.System
import Handheld.Proofs.RequestLedger
import Handheld.Proofs.Requests
import Handheld.Proofs.OneClock
import Handheld.Proofs.TimerSafety
import Handheld.Proofs.FrameClock
import Handheld.Proofs.FrameAccounting
import Handheld.Proofs.AddressMap
import Handheld.Proofs.Iteration
import Handheld.Proofs.StepCost
import Handheld.Proofs.FullTable
import Handheld.Proofs.FrameRuns
import Handheld.Proofs.Stack
import Handheld.Proofs.Draining
import Handheld.Proofs.Snapshot
import Handheld.Proofs.Resumption
import Handheld.Proofs.AddressSpace
import Handheld.Proofs.DeliveredBank
import Handheld.Proofs.Tracing
import Handheld.Proofs.Discipline
import Handheld.Proofs.Accounts
import Handheld.Proofs.Bisimulation
import Handheld.Proofs.HiddenState
import Handheld.Proofs.Insertion
import Handheld.Proofs.FreshStart
import Handheld.Proofs.CartridgeWindow
import Handheld.Proofs.Timer.ClosedForm
import Handheld.Proofs.Idling
import Handheld.Proofs.TimerWake
import Handheld.Proofs.MissingOpcode
import Handheld.Proofs.StackOrder
import Handheld.Proofs.Producers
import Handheld.Proofs.RegisterRecord
import Handheld.Proofs.CleanFlags
import Handheld.Proofs.HeldKeys
import Handheld.Proofs.OpcodeMap
