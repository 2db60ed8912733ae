import Brainfuck.Settings.Basic

/-!
Settings from environment variables. Integers are read first, the step limit before
the memory length, and all values are checked afterwards.
-/
namespace Brainfuck

/-- The value of each variable that is set. -/
abbrev Environment := String → Option Text

namespace Settings

inductive EnvironmentError where
  | integer (cause : Numeral.IntegerError)
  | rejected (cause : Rejection)

def EnvironmentError.message : EnvironmentError → Text
  | .integer cause => Text.ofString ("Invalid integer in environment: " ++ cause.message)
  | .rejected cause => cause.message

def readVariable (environment : Environment) (name : String) :
    Except EnvironmentError (Option Value) :=
  match environment name with
  | none => .ok none
  | some text => match Numeral.readInteger 10 text with
    | .ok n => .ok (some (.int n))
    | .error cause => .error (.integer cause)

def stepLimitVariable : String := "BF_STEP_LIMIT"
def memoryLengthVariable : String := "BF_MEMORY_LENGTH"
def eofVariable : String := "BF_EOF_BEHAVIOUR"

/-- Settings from the three variables; those not set keep their defaults. -/
def ofEnvironment (environment : Environment) : Except EnvironmentError Settings := do
  let stepLimit ← readVariable environment stepLimitVariable
  let memoryLength ← readVariable environment memoryLengthVariable
  let eof := (environment eofVariable).map Value.text
  let given := fun name =>
    if name == stepLimitName then stepLimit
    else if name == memoryLengthName then memoryLength
    else if name == eofName then eof
    else none
  match ofGiven given with
  | .ok settings => .ok settings
  | .error cause => .error (.rejected cause)

end Settings

end Brainfuck
