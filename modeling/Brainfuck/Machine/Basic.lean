import Brainfuck.Channel
import Brainfuck.Log
import Brainfuck.Script
import Brainfuck.Settings.Basic
import Brainfuck.Tape

/-!
The machine: a script with its instruction pointer, a tape with its data pointer,
and the channels to the outside. A script is only installed when its brackets are
balanced, and installing one resets everything but the channels.

The instruction pointer is a natural number. Nothing that the machine does makes it
negative, and a negative one that is assigned from outside, which would count from the
end of the script, is left out.
-/
namespace Brainfuck

inductive Fault where
  | unbalanced (bracket : Letter) (position : Nat)
  | noClosing (position : Nat)
  | noLoopToRepeat
  | noLoopToLeave
deriving DecidableEq

def Fault.message : Fault → Text
  | .unbalanced bracket position =>
      Text.ofString "Unmatched '" ++ bracket ::
        Text.ofString ("' at position " ++ Numeral.natText position)
  | .noClosing position => Text.ofString (noClosingMessage position)
  | .noLoopToRepeat => Text.ofString "list index out of range"
  | .noLoopToLeave => Text.ofString "pop from empty list"

/-- The end of an operation: the state it leaves, what it reported, and its result. -/
structure Outcome (σ α : Type) where
  state : σ
  log : List Notice
  result : Except Fault α

structure Machine where
  settings : Settings
  memoryLength : Positive
  script : Script := []
  tape : Tape := {}
  iptr : Nat := 0
  dptr : Int := 0
  cycles : Nat := 0
  /-- The positions of the active opening brackets, innermost first. -/
  loops : List Nat := []
  /-- Whether the data pointer was outside the nominal memory at its last move. -/
  outside : Bool := false
  channels : Channels

namespace Machine

/-- A new machine. Without settings the defaults apply, and the memory length is
taken from the settings unless it is given. -/
def build (settings : Option Settings) (memoryLength : Option Value) (channels : Channels) :
    Except Settings.Rejection Machine := do
  let settings := settings.getD Settings.defaults
  let memoryLength ← Settings.checkOr settings.memoryLength
    (Settings.checkPositive Settings.memoryLengthName) memoryLength
  return { settings, memoryLength, channels }

/-- The positions of the active opening brackets, innermost last. -/
def blocks (m : Machine) : List Nat := m.loops.reverse

def halted (m : Machine) : Bool := m.script.length ≤ m.iptr

def cell (m : Machine) : UInt8 := m.tape.get m.dptr

def current? (m : Machine) : Option Letter := m.script[m.iptr]?

def install (m : Machine) (script : Script) : Machine :=
  { settings := m.settings, memoryLength := m.memoryLength, script, channels := m.channels }

/-- Installs a script, or reports its offending bracket and changes nothing. -/
def setScript (m : Machine) (script : Script) : Outcome Machine Bool :=
  if h : script.balanced then ⟨m.install script, [], .ok true⟩
  else ⟨m, [.rejected (script.offender h)], .ok false⟩

def loadScript (m : Machine) (script : Script) : Outcome Machine Unit :=
  let set := m.setScript script
  -- A script is refused exactly if it is not balanced.
  if h : script.balanced then ⟨set.state, set.log, .ok ()⟩
  else
    let position := script.offender h
    ⟨set.state, set.log, .error (.unbalanced (script.get position) position)⟩

end Machine

end Brainfuck
