/-!
# Log levels

Five levels order messages by their weight. A level may be given by any text: case does not
matter, and a text that names no level weighs as much as `INFO`.
-/

namespace Chip8.Log

/-- The levels, the least weighty first. -/
inductive Level where
  | debug
  | info
  | warning
  | error
  | critical
deriving DecidableEq, Repr

namespace Level

def rank : Level → Nat
  | .debug => 0
  | .info => 1
  | .warning => 2
  | .error => 3
  | .critical => 4

def name : Level → String
  | .debug => "DEBUG"
  | .info => "INFO"
  | .warning => "WARNING"
  | .error => "ERROR"
  | .critical => "CRITICAL"

def all : List Level := [.debug, .info, .warning, .error, .critical]

/-- The escape sequence that selects the colour of a level on a terminal. -/
def colour : Level → String
  | .debug => "\x1b[36m"
  | .info => "\x1b[32m"
  | .warning => "\x1b[33m"
  | .error => "\x1b[31m"
  | .critical => "\x1b[35m"

/-- The capital of a character, as far as names of levels have it. The dotless i is the only
character beyond ASCII whose capital is a letter of such a name. -/
def capital (c : Char) : Char :=
  if c = 'ı' then 'I' else c.toUpper

/-- The level that a text names in any case. -/
def named? (label : String) : Option Level :=
  all.find? fun l => l.name.toList == label.toList.map capital

def ofLabel (label : String) : Level :=
  (named? label).getD .info

theorem named?_name (l : Level) : named? l.name = some l := by
  cases l <;> decide

@[simp] theorem ofLabel_name (l : Level) : ofLabel l.name = l := by
  simp [ofLabel, named?_name]

end Level

end Chip8.Log
