import Chip8.Console.Basic
import Chip8.Console.Event
import Chip8.Dialect
import Chip8.Fault
import Chip8.Host.Error
import Chip8.Host.Image
import Chip8.Host.Value
import Chip8.Instruction.Assembly
import Chip8.Instruction.Basic
import Chip8.Instruction.Dispatch
import Chip8.Instruction.Operation
import Chip8.Instruction.Pattern
import Chip8.Log.Level
import Chip8.Log.Logger
import Chip8.Machine.Basic
import Chip8.Machine.Bounds
import Chip8.Machine.CallStack
import Chip8.Machine.Cycle
import Chip8.Machine.Display
import Chip8.Machine.Effect
import Chip8.Machine.Font
import Chip8.Machine.Keypad
import Chip8.Machine.Memory
import Chip8.Machine.Random
import Chip8.Machine.Registers
import Chip8.Machine.Report
import Chip8.Machine.Step
import Chip8.Proofs.Console.Atomicity
import Chip8.Proofs.Console.CallReturn
import Chip8.Proofs.Console.Commutation
import Chip8.Proofs.Console.Draws
import Chip8.Proofs.Console.Faults
import Chip8.Proofs.Console.History
import Chip8.Proofs.Console.Invariant
import Chip8.Proofs.Console.KeyWait
import Chip8.Proofs.Console.Loading
import Chip8.Proofs.Console.Log
import Chip8.Proofs.Console.Pixels
import Chip8.Proofs.Console.Program
import Chip8.Proofs.Console.Run
import Chip8.Proofs.Console.Settings
import Chip8.Proofs.Console.StaleRegister
import Chip8.Proofs.Console.Standstill
import Chip8.Proofs.Console.Timers
import Chip8.Proofs.Console.Trace
import Chip8.Proofs.Console.WriteLog
import Chip8.Proofs.Instruction.Assembler
import Chip8.Proofs.Instruction.Encoding
import Chip8.Proofs.Instruction.Grammar
import Chip8.Proofs.Instruction.Selection
import Chip8.Proofs.Instruction.Table
import Chip8.Proofs.List
import Chip8.Proofs.Machine.Arithmetic
import Chip8.Proofs.Machine.Bodies
import Chip8.Proofs.Machine.Bounds
import Chip8.Proofs.Machine.Frame
import Chip8.Proofs.Machine.Hazards
import Chip8.Proofs.Machine.Interference
import Chip8.Proofs.Machine.Invariant
import Chip8.Proofs.Machine.Ownership
import Chip8.Proofs.Machine.Pointers
import Chip8.Proofs.Machine.Reading
import Chip8.Proofs.Machine.Redrawing
import Chip8.Proofs.Machine.Refusal
import Chip8.Proofs.Machine.Slots
import Chip8.Proofs.Machine.Step
import Chip8.Proofs.Machine.Switches
import Chip8.Proofs.Machine.Transfer
import Chip8.Proofs.Strict.Agreement
import Chip8.Proofs.Strict.Basic
import Chip8.Proofs.Text.Numerals
import Chip8.Text.Align
import Chip8.Text.Decimal
import Chip8.Text.Hex
import Chip8.Word
