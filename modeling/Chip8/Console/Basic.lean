import Chip8.Host.Image
import Chip8.Instruction.Assembly
import Chip8.Log.Logger
import Chip8.Machine.Report
import Chip8.Machine.Step

/-!
# The console

A console is a machine in the hands of a host: it remembers the program image, so that the
program can be started again, and it calls its logger about what happens. Every operation gives an
answer or an error, the lines that its calls have printed, and the console afterwards.
-/

namespace Chip8

/-- A machine with its settings, its logger and the image of its program. -/
structure Console where
  dialect : Dialect
  seed : Int64
  logger : Log.Logger
  image : Option (List UInt8)
  machine : Machine

inductive Answer where
  | done
  | word (w : UInt16)
  | byte (b : UInt8)
deriving DecidableEq, Repr

/-- The answer of an operation, the lines that are printed and the console afterwards. -/
structure Outcome where
  answer : Except Host.Error Answer
  lines : List Log.Line
  console : Console

namespace Console

def new (dialect : Dialect) (seed : Int64) (logger : Log.Logger) : Console where
  dialect := dialect
  seed := seed
  logger := logger
  image := none
  machine := .fresh seed

/-- The addresses on the call stack, the oldest first. -/
def stack (c : Console) : List UInt16 :=
  c.machine.stack.visible

def succeed (c : Console) (answer : Answer) (lines : List Log.Line) : Outcome :=
  ⟨.ok answer, lines, c⟩

/-- An operation that is refused leaves the console as it was. -/
def refuse (c : Console) (m : Host.Misuse) : Outcome :=
  ⟨.error (.misuse m), [], c⟩

/-- An operation that faults leaves the console as it was. -/
def fail (c : Console) (f : Fault) (lines : List Log.Line) : Outcome :=
  ⟨.error (.fault f), lines, c⟩

/-! ### Starting programs -/

/-- Start an image on a fresh machine and remember it. -/
def start (c : Console) (image : List UInt8) : Outcome :=
  match (Machine.fresh c.seed).load image with
  | .error f => c.fail f (c.logger.error f.message)
  | .ok m =>
    { c with image := some image, machine := m }.succeed .done
      (c.logger.info ("Loaded ROM (" ++ image.length.repr ++ " bytes) at 0x" ++
        Hex.ofNat 3 Memory.programStart))

/-- Start the image that a value of the host stands for. -/
def startValue (c : Console) (v : Host.Value) : Outcome :=
  match v.image with
  | .error m => c.refuse m
  | .ok image => c.start image

def reset (c : Console) : Outcome :=
  match c.image with
  | none => c.refuse .resetBeforeLoad
  | some image =>
    let started := c.start image
    match started.answer with
    | .error _ => started
    | .ok _ => { started with lines := started.lines ++ c.logger.info "Reset" }

/-! ### Running programs -/

/-- What is printed about a fault: its message and the state in which it arose. -/
def faultLines (l : Log.Logger) (m : Machine) (f : Fault) : List Log.Line :=
  l.error f.message ++ l.logAll Log.Level.error.name m.report

/-- The address, the word and the text of an instruction. -/
def traceText (address word : UInt16) : String :=
  "0x" ++ Hex.ofNat 4 address.toNat ++ ": " ++ Hex.ofNat 4 word.toNat ++ "  " ++
    disassemble word.toNat

/-- What is printed about an instruction. Its text is made only if it will be printed. -/
def traceLines (l : Log.Logger) (address word : UInt16) : List Log.Line :=
  if l.enabled Log.Level.debug.name then l.debug (traceText address word) else []

/-- What is printed about the beginning of a wait, if the instruction has begun one. -/
def waitLines (l : Log.Logger) (i : Instruction) (after : Machine) : List Log.Line :=
  match i with
  | .awaitKey x => if after.awaiting then l.debug (Machine.waitLine x) else []
  | _ => []

/-- What is printed about the end of a wait, if the poll has ended it. -/
def resumeLines (l : Log.Logger) (before after : Machine) : List Log.Line :=
  if after.awaiting then []
  else
    let x := before.keyRegister.toNat
    l.debug ("Key wait finished: V" ++ Hex.ofNat 1 x ++ " = " ++
      Hex.ofNat 1 (after.registers.read x).toNat)

/-- Run one instruction. While the program waits for a key, look for one instead. -/
def step (c : Console) : Outcome :=
  match c.image with
  | none => c.refuse .stepBeforeLoad
  | some _ =>
    let m := c.machine
    if m.awaiting then
      { c with machine := m.poll }.succeed .done (resumeLines c.logger m m.poll)
    else
      match m.step c.dialect with
      | .error f => c.fail f (faultLines c.logger m f)
      | .ok s =>
        { c with machine := s.machine }.succeed (.word s.word)
          (traceLines c.logger m.pc s.word ++ waitLines c.logger s.instruction s.machine)

def tick (c : Console) : Outcome :=
  { c with machine := c.machine.tick }.succeed .done []

/-! ### Keys and memory -/

def setKey (c : Console) (key pressed : Host.Value) : Outcome :=
  match key.index? with
  | none => c.refuse (.notInteger key.kind)
  | some z =>
    if h : 0 ≤ z ∧ z < 16 then
      let keypad := c.machine.keypad.set ⟨z.toNat, toNat_lt_sixteen h⟩ pressed.truth
      { c with machine := { c.machine with keypad := keypad } }.succeed .done []
    else c.refuse (.keyOutOfRange z)

def readByte (c : Console) (address : Int) : Outcome :=
  match Memory.rangeFault? address 1 with
  | some f => c.fail f []
  | none => c.succeed (.byte (c.machine.memory.read address.toNat)) []

/-- Write a byte of memory. The address is checked before the value. -/
def writeByte (c : Console) (address value : Int) : Outcome :=
  match Memory.rangeFault? address 1 with
  | some f => c.fail f []
  | none =>
    if 0 ≤ value ∧ value < 256 then
      let memory := c.machine.memory.write address.toNat (UInt8.ofNat value.toNat)
      { c with machine := { c.machine with memory := memory } }.succeed .done []
    else c.refuse (.byteOutOfRange value)

end Console

end Chip8
