import Brainfuck.Tracer.Basic

/-!
The picture of a machine as text: the script with its current character marked, a
window of cells centred on the data pointer with their values, a caret and their
addresses in columns of their own, the counters, and the output.
-/
namespace Brainfuck.Observed

/-- The script from `position` on, with the character at `iptr` in brackets. -/
def markedFrom (iptr : Nat) : Nat → Script → Text
  | _, [] => []
  | position, c :: rest =>
      if position = iptr then '[' :: c :: ']' :: markedFrom iptr (position + 1) rest
      else c :: markedFrom iptr (position + 1) rest

/-- The script with its current character in brackets, or an end mark. -/
def programLine (m : Machine) : Text :=
  Text.ofString "Program:  " ++ markedFrom m.iptr 0 m.script ++
    if m.halted then Text.ofString "[END]" else []

def columnWidth : Nat := 3

/-- Right-aligned in a column; a wider text is not cut. -/
def inColumn (text : List Char) : List Char :=
  List.replicate (columnWidth - text.length) ' ' ++ text

def windowStart (o : Observed) : Int := o.machine.dptr - (o.tracer.showRange.val / 2 : Nat)

def addresses (o : Observed) : List Int :=
  (List.range o.tracer.showRange.val).map fun (k : Nat) => o.windowStart + k

def windowCells (o : Observed) : List UInt8 :=
  match o.machine.tape.window o.windowStart (o.windowStart + o.tracer.showRange.val) with
  | .ok cells => cells.toList
  -- Not met, since a window never ends before its start.
  | .error _ => []

def memoryLine (o : Observed) : List Char :=
  "Memory:   [".toList ++
    ['|'].intercalate (o.windowCells.map fun byte => inColumn (Numeral.natChars byte.toNat)) ++
    [']']

def pointerLine (o : Observed) : List Char :=
  "Pointer:   ".toList ++
    [' '].intercalate (o.addresses.map fun i =>
      if i = o.machine.dptr then [' ', '^', ' '] else [' ', ' ', ' '])

def addressLine (o : Observed) : List Char :=
  "Address:   ".toList ++
    [' '].intercalate (o.addresses.map fun i => inColumn (Numeral.intChars i))

def counterLine (m : Machine) : List Char :=
  "Cycles:   ".toList ++ Numeral.natChars m.cycles ++ "  Loop depth: ".toList ++
    Numeral.natChars m.loops.length

def outputLine (m : Machine) : List Char :=
  let output := m.channels.output.buffer
  "Output:   ".toList ++
    if output.isEmpty then "(empty)".toList
    else Text.quoteChars output ++ " → [".toList ++
      [',', ' '].intercalate (output.map fun letter => Numeral.natChars letter.code) ++ [']']

/-- All lines, unless an address or a counter is too long to be written. -/
def lines (o : Observed) : Except Numeral.Unwritable (List Text) := do
  let m := o.machine
  let addressLine ← Numeral.written o.addresses o.addressLine
  let counterLine ← Numeral.written [(m.cycles : Int), m.loops.length] (counterLine m)
  return programLine m ::
    [o.memoryLine, o.pointerLine, addressLine, counterLine, outputLine m].map Text.ofChars

def render (o : Observed) : Except Numeral.Unwritable Text :=
  o.lines.map fun lines => [.char '\n'].intercalate lines

end Brainfuck.Observed
