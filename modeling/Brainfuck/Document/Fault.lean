import Brainfuck.Calendar
import Brainfuck.Numeral.Real

/-!
Why a settings document cannot be read. A document that breaks the rules of its
format is malformed; one that keeps them may still hold a scalar that names no
value of its kind.
-/
namespace Brainfuck.Document

inductive Fault where
  | malformed
  | integer (cause : Numeral.IntegerError)
  | real (cause : Numeral.RealError)
  | calendar (cause : CalendarFault)
  | characterRange
  /-- An escape names a number that is too large for any code point. -/
  | characterSize
  | emptyNumber
  | truthWord (word : Text)
  | notTimestamp
  | timestampMapping
  /-- A real has more sixties than a double can hold. -/
  | sixtiesSize
  /-- Nodes lie too deep inside one another, or a default value leads back to itself. -/
  | tooDeep
deriving DecidableEq

def Fault.message : Fault → String
  | .malformed => "Failed to parse config file"
  | .integer cause => cause.message
  | .real cause => cause.message
  | .calendar cause => cause.message
  | .characterRange => "chr() arg not in range(0x110000)"
  | .characterSize => "Python int too large to convert to C int"
  | .emptyNumber => "string index out of range"
  | .truthWord word => Text.quote word
  | .notTimestamp => "'NoneType' object has no attribute 'groupdict'"
  | .timestampMapping => "expected string or bytes-like object, got 'list'"
  | .sixtiesSize => "int too large to convert to float"
  | .tooDeep => "maximum recursion depth exceeded"

end Brainfuck.Document
