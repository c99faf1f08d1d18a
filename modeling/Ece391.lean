import Ece391.Library.Transition
import Ece391.Library.RoundRobin
import Ece391.Library.Pairing
import Ece391.Library.Block
import Ece391.Library.Chunks
import Ece391.Library.Lines
import Ece391.Library.Ending
import Ece391.Library.Words
import Ece391.Library.SharedCursor
import Ece391.Library.Confinement
import Ece391.Library.Forest
import Ece391.Library.FileTable
import Ece391.Library.LinkedPool
import Ece391.Library.Stores
import Ece391.Library.Cpu
import Ece391.Library.Reversal
import Ece391.Library.Numeral
import Ece391.Lib
import Ece391.Lib.Itoa
import Ece391.Lib.Printf
import Ece391.Library.Assembly
import Ece391.Library.StringMoves
import Ece391.Library.Transfer
import Ece391.Lib.Memory
import Ece391.Lib.Moves
import Ece391.FileSystem
import Ece391.FileSystem.Slice
import Ece391.FileSystem.BlockList
import Ece391.FileSystem.Names
import Ece391.Kernel
import Ece391.Scheduler
import Ece391.SystemCall.Files
import Ece391.SystemCall.Arguments
import Ece391.SystemCall.Paging
import Ece391.SystemCall.Session
import Ece391.SystemCall.Execute
import Ece391.SystemCall.Halt
import Ece391.SystemCall.Stages
import Ece391.Terminal
import Ece391.Process.Step
import Ece391.Process.Effects
import Ece391.Process.DescriptorTable
import Ece391.Process.Starting
import Ece391.Process.Loader
import Ece391.Process.OpenNames
import Ece391.Process.Parsing
import Ece391.Process.Listing
import Ece391.Process.EntryNames
import Ece391.Process.Calls
import Ece391.Process.Consistency
import Ece391.Process.Nesting
import Ece391.Process.VideoMapping
import Ece391.Process.Slots
import Ece391.Process.RunQueue
import Ece391.Process.Descriptors
import Ece391.Process.Acceptance
import Ece391.Terminal.Console
import Ece391.Terminal.Driver
import Ece391.Terminal.Attended
import Ece391.Terminal.Switching
import Ece391.Terminal.Inputs
import Ece391.Terminal.Restore
import Ece391.Terminal.Agreement
import Ece391.Terminal.Isolation
import Ece391.Terminal.Lockstep
import Ece391.Terminal.ReadLength
import Ece391.Terminal.Cursor
import Ece391.Terminal.Output
import Ece391.Terminal.Keys
import Ece391.Terminal.Screen
import Ece391.Terminal.Typing
import Ece391.Terminal.Line
import Ece391.Terminal.OneLine
import Ece391.Terminal.UserPointers
import Ece391.Terminal.RtcRate
import Ece391.Emulation.Arguments
import Ece391.Emulation.Agreement
import Ece391.Emulation.ArgumentStores
import Ece391.Interrupt.Machine
import Ece391.Interrupt.Effects
import Ece391.Interrupt.Atomic
import Ece391.Interrupt.Placement
import Ece391.Interrupt.Allocation
import Ece391.Interrupt.Instructions
import Ece391.Interrupt.Linkage
import Ece391.Interrupt.Registers
import Ece391.Interrupt.Preemption
import Ece391.Fish.Blink
import Ece391.Fish.Chain
import Ece391.Fish.BlinkList
import Ece391.Fish.Display
import Ece391.Fish.Periods
import Ece391.Grep.DoOneFile
import Ece391.Grep.LineLoop
import Ece391.Grep.Reads
import Ece391.Terminal.Scrolling
import Ece391.Terminal.KeyBounds
import Ece391.Terminal.Chunking
import Ece391.Interrupt.RtcRead
import Ece391.Interrupt.EndOfInterrupt
import Ece391.Library.Program
import Ece391.Library.Spawning
import Ece391.UserProgram.Calls
import Ece391.UserProgram.Service
import Ece391.UserProgram.Launch
import Ece391.UserProgram.Cat
import Ece391.UserProgram.Ls
import Ece391.UserProgram.Shell
import Ece391.UserProgram.Conversation
import Ece391.UserProgram.Keyboard
import Ece391.UserProgram.Processes
import Ece391.UserProgram.Hello
import Ece391.UserProgram.Counter
import Ece391.UserProgram.Syserr
import Ece391.UserProgram.Protection
import Ece391.Library.BitFields
import Ece391.Library.Descriptor
import Ece391.Interrupt.Gates
import Ece391.Interrupt.Segments
import Ece391.Library.InterruptController
import Ece391.Interrupt.Controllers
import Ece391.Interrupt.Computer
import Ece391.SystemCall.Linkage
import Ece391.Interrupt.Fairness
