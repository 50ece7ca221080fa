import Chip8.Console.Basic

/-!
# Events

An event is one operation that the host performs on a console, with all its arguments. The
console handles events one after the other.
-/

namespace Chip8

/-- An operation of the host. -/
inductive Event where
  | start (image : List UInt8)
  | startValue (v : Host.Value)
  | reset
  | step
  | tick
  | setKey (key pressed : Host.Value)
  | readByte (address : Int)
  | writeByte (address value : Int)

namespace Console

/-- The outcome of an event. -/
def handle (c : Console) : Event → Outcome
  | .start image => c.start image
  | .startValue v => c.startValue v
  | .reset => c.reset
  | .step => c.step
  | .tick => c.tick
  | .setKey key pressed => c.setKey key pressed
  | .readByte address => c.readByte address
  | .writeByte address value => c.writeByte address value

/-- Handle events in order. -/
def handleAll (c : Console) : List Event → List Outcome
  | [] => []
  | e :: es =>
    let outcome := c.handle e
    outcome :: outcome.console.handleAll es

/-- The console after some events. -/
def after (c : Console) (es : List Event) : Console :=
  es.foldl (fun c e => (c.handle e).console) c

/-- The answers of up to `n` steps, how the first error ended them, and what they print. -/
structure Run where
  answers : List Answer
  error : Option Host.Error
  lines : List Log.Line
  console : Console

/-- Take up to `n` steps and stop at the first error. -/
def run (c : Console) : Nat → Run
  | 0 => ⟨[], none, [], c⟩
  | n + 1 =>
    let outcome := c.handle .step
    match outcome.answer with
    | .error e => ⟨[], some e, outcome.lines, outcome.console⟩
    | .ok a =>
      let rest := outcome.console.run n
      { rest with answers := a :: rest.answers, lines := outcome.lines ++ rest.lines }

end Console

end Chip8
