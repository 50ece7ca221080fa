import Chip8.Log.Level
import Chip8.Text.Align
import Chip8.Text.Decimal

/-!
# Loggers

A logger prints lines of text, each with a label that says how weighty it is. Every call asks for
itself whether its label is enabled, and prints nothing if the label weighs less than the threshold.
Labels may be coloured on a terminal, and a line may begin with the time since the logger was made.
-/

namespace Chip8.Log

/-- A message and the label of its level. -/
structure Line where
  label : String
  message : String
deriving DecidableEq, Repr

namespace Line

/-- A line with the name of its level as label. -/
def of (l : Level) (message : String) : Line :=
  ⟨l.name, message⟩

def level (l : Line) : Level :=
  Level.ofLabel l.label

@[simp] theorem level_of (l : Level) (message : String) : (of l message).level = l := by
  simp [of, level]

end Line

/-- What a logger lets through and how it shows it. -/
structure Logger where
  name : String := "chip8vm"
  threshold : Level := .info
  /-- Labels are coloured if the output is a terminal. -/
  colours : Bool := true
  onTerminal : Bool := false
  timestamps : Bool := true
  /-- The time at which the logger was made, in seconds. -/
  startedAt : Float := 0

namespace Logger

/-- Whether lines with this label are printed. -/
def enabled (l : Logger) (label : String) : Bool :=
  l.threshold.rank ≤ (Level.ofLabel label).rank

/-! ### Calls -/

/-- What a call prints: one line, or none if its label is not enabled. -/
def log (l : Logger) (label message : String) : List Line :=
  if l.enabled label then [⟨label, message⟩] else []

def debug (l : Logger) (message : String) : List Line :=
  l.log Level.debug.name message

def info (l : Logger) (message : String) : List Line :=
  l.log Level.info.name message

def error (l : Logger) (message : String) : List Line :=
  l.log Level.error.name message

/-- What a call with several messages prints. It is over at once if its label is not enabled, and
else it calls for each message. -/
def logAll (l : Logger) (label : String) (messages : List String) : List Line :=
  if l.enabled label then messages.flatMap (l.log label) else []

/-! ### Texts -/

/-- The time since the logger was made. -/
def stamp (l : Logger) (now : Float) : String :=
  if l.timestamps then
    "[" ++ Text.alignRight 8 (Decimal.ofFloat (now - l.startedAt)) ++ "s]"
  else ""

/-- The escape sequence behind coloured text. -/
def plain : String := "\x1b[0m"

/-- The label as given. One that names no level has no colour of its own. -/
def tag (l : Logger) (label : String) : String :=
  let text := "[" ++ Text.alignRight 8 label ++ "]"
  if l.colours && l.onTerminal then
    ((Level.named? label).map Level.colour).getD "" ++ text ++ plain
  else text

def render (l : Logger) (now : Float) (line : Line) : String :=
  l.stamp now ++ l.tag line.label ++ "[" ++ l.name ++ "] " ++ line.message ++ "\n"

/-- The text of lines that are printed at the same time. -/
def text (l : Logger) (now : Float) (lines : List Line) : String :=
  String.join (lines.map (l.render now))

/-- The text of the calls that these lines stand for, one call for each line. -/
def print (l : Logger) (now : Float) (lines : List Line) : String :=
  l.text now (lines.flatMap fun line => l.log line.label line.message)

end Logger

end Chip8.Log
