/-!
# Host values

A host may hand over any value where a key, a key state or a program image is expected. A value
is of one of seven kinds, whose names appear in messages, and it counts as true or false.
-/

namespace Chip8.Host

inductive Kind where
  | nothing
  | flag
  | integer
  | real
  | text
  | sequence
  | record
deriving DecidableEq, Repr

def Kind.name : Kind → String
  | .nothing => "NoneType"
  | .flag => "bool"
  | .integer => "int"
  | .real => "float"
  | .text => "str"
  | .sequence => "list"
  | .record => "dict"

inductive Value where
  | nothing
  | flag (b : Bool)
  | integer (z : Int)
  | real (x : Float)
  | text (s : String)
  | sequence (items : List Value)
  | record (fields : List (String × Value))

namespace Value

def kind : Value → Kind
  | .nothing => .nothing
  | .flag _ => .flag
  | .integer _ => .integer
  | .real _ => .real
  | .text _ => .text
  | .sequence _ => .sequence
  | .record _ => .record

/-- What is zero or empty counts as false. -/
def truth : Value → Bool
  | .nothing => false
  | .flag b => b
  | .integer z => z != 0
  | .real x => x != 0
  | .text s => !s.isEmpty
  | .sequence items => !items.isEmpty
  | .record fields => !fields.isEmpty

/-- The whole number that a value stands for. True and false stand for one and zero. -/
def index? : Value → Option Int
  | .integer z => some z
  | .flag b => some (if b then 1 else 0)
  | _ => none

end Value

end Chip8.Host
