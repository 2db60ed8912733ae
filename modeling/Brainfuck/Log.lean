import Brainfuck.Numeral.Integer

/-!
What the machine and its runner report while they work. A report is always written,
however many digits its numbers have; the limit on the digits of a number, which
pictures and rejections keep to, is left out here.
-/
namespace Brainfuck

inductive Level where
  | debug
  | warning
  | critical
deriving DecidableEq

inductive Origin where
  | machine
  | runner
deriving DecidableEq

inductive Notice where
  | rejected (position : Nat)
  /-- The data pointer went from inside to outside of the nominal memory. -/
  | leftMemory (dptr : Int) (length : Nat)
  | noClosing (position : Nat)
  | running (length : Nat) (limit : Int)
  | stopped (cycles iptr : Nat)
deriving DecidableEq

def noClosingMessage (position : Nat) : String :=
  "No matching ']' for '[' at position " ++ Numeral.natText position ++ " in a validated script"

namespace Notice

def origin : Notice → Origin
  | .rejected _ | .leftMemory .. | .noClosing _ => .machine
  | .running .. | .stopped .. => .runner

def level : Notice → Level
  | .rejected _ | .leftMemory .. => .warning
  | .noClosing _ => .critical
  | .running .. | .stopped .. => .debug

def message : Notice → String
  | .rejected position =>
      "Rejected script: unbalanced bracket at position " ++ Numeral.natText position
  | .leftMemory dptr length =>
      "Data pointer " ++ Numeral.intText dptr ++ " left nominal memory [0, " ++
        Numeral.natText length ++ ")"
  | .noClosing position => noClosingMessage position
  | .running length limit =>
      "Running script of length " ++ Numeral.natText length ++ " with cycle limit " ++
        Numeral.intText limit
  | .stopped cycles iptr =>
      "Stopped after " ++ Numeral.natText cycles ++ " cycles at iptr=" ++ Numeral.natText iptr ++
        " (possible infinite loop)"

end Notice

end Brainfuck
