import Chip8.Size

/-!
# Dialects

Interpreters have disagreed about a few instructions. A dialect settles each of these points
by a switch, so that a machine can run programs written for either side.
-/

namespace Chip8

/-- The instructions on which interpreters differ. -/
structure Dialect where
  /-- A shift takes its operand from VY, not from VX. -/
  shiftReadsVY : Bool := false
  /-- Storing or loading registers leaves I behind the last byte. -/
  transferMovesI : Bool := false
  /-- OR, AND and XOR clear VF. -/
  logicClearsVF : Bool := false
  /-- A jump with offset adds the register that its first operand digit names, not V0. -/
  jumpReadsVX : Bool := false
deriving DecidableEq, Repr

namespace Dialect

def modern : Dialect := {}

def legacy : Dialect :=
  { shiftReadsVY := true, transferMovesI := true, logicClearsVF := true }

/-- The dialects that have a name, in the order in which they are listed. -/
def presets : List (String × Dialect) :=
  [("modern", modern), ("legacy", legacy)]

def preset? (name : String) : Option Dialect :=
  presets.lookup name

end Dialect

end Chip8
