import Brainfuck.Value

/-!
The settings shared by the machine, the runner and the tracer. The nominal memory
length only decides when an excursion of the data pointer is reported; the tape
itself has no ends. Settings are checked when they are made, in a fixed order, so
that of several faults always the same one is reported.
-/
namespace Brainfuck

/-- What an input command stores once the input is used up. -/
inductive EofPolicy where
  | unchanged
  | zero
  | max
deriving DecidableEq

def EofPolicy.all : List EofPolicy := [.unchanged, .zero, .max]

def EofPolicy.name : EofPolicy → String
  | .unchanged => "unchanged"
  | .zero => "zero"
  | .max => "max"

def EofPolicy.ofText? (text : Text) : Option EofPolicy :=
  all.find? fun policy => Text.ofString policy.name == text

structure Positive where
  val : Nat
  pos : 0 < val := by decide
deriving DecidableEq

structure Settings where
  memoryLength : Positive := { val := 30000 }
  stepLimit : Positive := { val := 5000 }
  eof : EofPolicy := .unchanged
  showRange : Positive := { val := 10 }
deriving DecidableEq

namespace Settings

inductive Rejection where
  | notPositive (name : String) (value : Value)
  | unknownPolicy (value : Value)
  | keysNotText (keys : List Value)
  | unknownKeys (names : List Text)
  | unexpectedArgument (name : String)
  | reservedArgument (name : String)

namespace Rejection

def quoted : Rejection → List Value
  | .notPositive _ value => [value]
  | .unknownPolicy value => [value]
  | .keysNotText keys => keys
  | .unknownKeys _ | .unexpectedArgument _ | .reservedArgument _ => []

def isWritable (r : Rejection) : Bool := Value.areWritable r.quoted

def constructorText : String := "InterpreterConfig.__init__() got "

def explanation : Rejection → Text
  | .notPositive name value =>
      Text.ofString (name ++ " must be a positive integer, got " ++ value.render)
  | .unknownPolicy value =>
      Text.ofString ("eof_behaviour must be one of " ++
        Text.commaSeparated (EofPolicy.all.map (·.name)) ++ ", got " ++ value.render)
  | .keysNotText keys =>
      Text.ofString ("Config keys must be strings, got " ++
        Text.commaSeparated (keys.map Value.render))
  | .unknownKeys names =>
      Text.ofString "Unknown config keys: " ++ (Text.ofString ", ").intercalate names
  | .unexpectedArgument name =>
      Text.ofString (constructorText ++ "an unexpected keyword argument '" ++ name ++ "'")
  | .reservedArgument name =>
      Text.ofString (constructorText ++ "multiple values for argument '" ++ name ++ "'")

/-- The text of a rejection. If it quotes an integer that is too long to be written,
only that is told. -/
def message (r : Rejection) : Text :=
  if r.isWritable then r.explanation else Text.ofString Numeral.unwritableText

end Rejection

/-- A positive integer; truth values do not count as integers. -/
def checkPositive (name : String) : Value → Except Rejection Positive
  | .int n =>
      if h : 0 < n then .ok ⟨n.toNat, by omega⟩ else .error (.notPositive name (.int n))
  | value => .error (.notPositive name value)

def checkPolicy : Value → Except Rejection EofPolicy
  | .text name => match EofPolicy.ofText? name with
    | some policy => .ok policy
    | none => .error (.unknownPolicy (.text name))
  | value => .error (.unknownPolicy value)

def checkOr {α : Type} (fallback : α) (check : Value → Except Rejection α) :
    Option Value → Except Rejection α
  | none => .ok fallback
  | some value => check value

def memoryLengthName : String := "memory_length"
def stepLimitName : String := "step_limit"
def eofName : String := "eof_behaviour"
def showRangeName : String := "show_memory_range"

def names : List String := [memoryLengthName, stepLimitName, eofName, showRangeName]

def defaults : Settings := {}

/-- Settings from the values that are given by name. The three lengths are checked
before the policy. -/
def ofGiven (given : String → Option Value) : Except Rejection Settings := do
  let length name fallback := checkOr fallback (checkPositive name) (given name)
  let memoryLength ← length memoryLengthName defaults.memoryLength
  let stepLimit ← length stepLimitName defaults.stepLimit
  let showRange ← length showRangeName defaults.showRange
  let eof ← checkOr defaults.eof checkPolicy (given eofName)
  return { memoryLength, stepLimit, eof, showRange }

/-- A name that no argument may have: it stands for the settings themselves. -/
def reservedName : String := "self"

def misnamed? (name : String) : Option Rejection :=
  if name == reservedName then some (.reservedArgument name)
  else if names.contains name then none
  else some (.unexpectedArgument name)

/-- Settings from named arguments; a wrong name is reported before any value. -/
def ofArguments (arguments : List (String × Value)) : Except Rejection Settings :=
  match arguments.findSome? fun (name, _) => misnamed? name with
  | some cause => .error cause
  | none => ofGiven fun name => arguments.lookup name

def isText : Value → Bool
  | .text _ => true
  | _ => false

def textOf? : Value → Option Text
  | .text s => some s
  | _ => none

def isSettingName (text : Text) : Bool := names.any fun name => Text.ofString name == text

/-- The text keys that name no setting, in ascending order. -/
def unknownNames (keys : List Value) : List Text :=
  ((keys.filterMap textOf?).filter (!isSettingName ·)).mergeSort Text.precedes

/-- Settings from entries whose values are looked at only when they are needed. -/
def ofKeyed {α : Type} (reveal : α → Value) (entries : List (Value × α)) :
    Except Rejection Settings :=
  let keys := entries.map Prod.fst
  -- Names are only compared once all keys are texts.
  let strays := keys.filter (!isText ·)
  if !strays.isEmpty then .error (.keysNotText strays)
  else if !(unknownNames keys).isEmpty then .error (.unknownKeys (unknownNames keys))
  else ofGiven fun name => (Value.lookup? name entries).map reveal

def ofEntries (entries : Value.Entries) : Except Rejection Settings := ofKeyed id entries

def toEntries (s : Settings) : Value.Entries := [
  (.ofString memoryLengthName, .int s.memoryLength.val),
  (.ofString stepLimitName, .int s.stepLimit.val),
  (.ofString eofName, .ofString s.eof.name),
  (.ofString showRangeName, .int s.showRange.val)]

def roundTrips (s : Settings) : Bool :=
  match ofEntries s.toEntries with
  | .ok t => t == s
  | .error _ => false

end Settings

end Brainfuck
