import Brainfuck.Machine.Basic

/-!
One step of the machine. A command acts and then both the instruction pointer and
the cycle count advance; a comment only advances the instruction pointer. A step
that fails changes nothing. To report that the data pointer has left the memory is no
reason to fail, also if it or the length is too long to be written as a number.
-/
namespace Brainfuck.Machine

def isOutside (m : Machine) (dptr : Int) : Bool := !(0 ≤ dptr && dptr < m.memoryLength.val)

/-- Moves the data pointer, and reports when it leaves the nominal memory. -/
def movePointer (m : Machine) (offset : Int) : Outcome Machine Unit :=
  let dptr := m.dptr + offset
  let outside := m.isOutside dptr
  -- Only the way out is reported, not each move outside.
  let log := if outside && !m.outside then [.leftMemory dptr m.memoryLength.val] else []
  ⟨{ m with dptr, outside }, log, .ok ()⟩

def writeCell (m : Machine) : Machine :=
  let char := Char.ofNat m.cell.toNat
  { m with channels := m.channels.withOutput (m.channels.output.write (some [.char char])) }

def atEof (m : Machine) : Tape :=
  match m.settings.eof with
  | .unchanged => m.tape
  | .zero => m.tape.set m.dptr 0
  | .max => m.tape.set m.dptr 255

/-- Stores the code of the next letter of the input, modulo 256, in the current cell. -/
def readCell (m : Machine) : Machine :=
  match m.channels.input.read 1 with
  | (letter :: _, rest) =>
      { m with tape := m.tape.store m.dptr letter.code, channels := m.channels.withInput rest }
  | ([], _) => { m with tape := m.atEof }

/-- Enters a loop, or goes to its closing bracket when the current cell is zero. -/
def openLoop (m : Machine) : Outcome Machine Unit :=
  if m.cell ≠ 0 then ⟨{ m with loops := m.iptr :: m.loops }, [], .ok ()⟩
  else match m.script.closing? m.iptr with
    -- The step that follows goes past the closing bracket.
    | some position => ⟨{ m with iptr := position }, [], .ok ()⟩
    | none => ⟨m, [.noClosing m.iptr], .error (.noClosing m.iptr)⟩

/-- Goes back to the opening bracket of the innermost loop, or leaves the loop when
the current cell is zero. -/
def closeLoop (m : Machine) : Outcome Machine Unit :=
  if m.cell ≠ 0 then
    match m.loops with
    -- The loop stays active: the step goes on behind its opening bracket.
    | position :: _ => ⟨{ m with iptr := position }, [], .ok ()⟩
    | [] => ⟨m, [], .error .noLoopToRepeat⟩
  else
    match m.loops with
    | _ :: outer => ⟨{ m with loops := outer }, [], .ok ()⟩
    | [] => ⟨m, [], .error .noLoopToLeave⟩

/-- The effect of a command, before the instruction pointer advances. -/
def execute (m : Machine) : Command → Outcome Machine Unit
  | .right => m.movePointer 1
  | .left => m.movePointer (-1)
  | .increment => ⟨{ m with tape := m.tape.increment m.dptr }, [], .ok ()⟩
  | .decrement => ⟨{ m with tape := m.tape.decrement m.dptr }, [], .ok ()⟩
  | .output => ⟨m.writeCell, [], .ok ()⟩
  | .input => ⟨m.readCell, [], .ok ()⟩
  | .opening => m.openLoop
  | .closing => m.closeLoop

def pass (m : Machine) : Machine := { m with iptr := m.iptr + 1 }

def tick (m : Machine) : Machine := { m with iptr := m.iptr + 1, cycles := m.cycles + 1 }

/-- One step; the result says whether there was one to make. -/
def step (m : Machine) : Outcome Machine Bool :=
  match m.current? with
  | none => ⟨m, [], .ok false⟩
  | some c =>
      match Command.ofLetter? c with
      | none => ⟨m.pass, [], .ok true⟩
      | some command =>
          let effect := m.execute command
          match effect.result with
          | .ok () => ⟨effect.state.tick, effect.log, .ok true⟩
          -- Without a tick the same step is still to be made.
          | .error fault => ⟨effect.state, effect.log, .error fault⟩

structure Advance where
  more : Option Bool
  steps : Nat
deriving DecidableEq

/-- Goes on with `count` steps after `steps` that were made and reported in `log`. -/
def advanceFrom (steps : Nat) (log : List Notice) : Nat → Machine → Outcome Machine Advance
  | 0, m => ⟨m, log, .ok ⟨if steps = 0 then none else some true, steps⟩⟩
  | count + 1, m =>
      let next := m.step
      match next.result with
      | .ok true => advanceFrom (steps + 1) (log ++ next.log) count next.state
      | .ok false => ⟨next.state, log ++ next.log, .ok ⟨some false, steps⟩⟩
      | .error fault => ⟨next.state, log ++ next.log, .error fault⟩

def advance (m : Machine) (count : Nat) : Outcome Machine Advance := advanceFrom 0 [] count m

structure View where
  iptr : Nat
  dptr : Int
  cycles : Nat
  cell : UInt8
  blocks : List Nat
deriving DecidableEq

def view (m : Machine) : View := ⟨m.iptr, m.dptr, m.cycles, m.cell, m.blocks⟩

/-- Goes on with `count` steps, the views of earlier ones being in `seen`, last first. -/
def walkFrom (seen : List View) (log : List Notice) :
    Nat → Machine → Outcome Machine (List View)
  | 0, m => ⟨m, log, .ok seen.reverse⟩
  | count + 1, m =>
      let next := m.step
      match next.result with
      | .ok true => walkFrom (next.state.view :: seen) (log ++ next.log) count next.state
      | .ok false => ⟨next.state, log ++ next.log, .ok seen.reverse⟩
      | .error fault => ⟨next.state, log ++ next.log, .error fault⟩

def walk (m : Machine) (count : Nat) : Outcome Machine (List View) := walkFrom [] [] count m

end Brainfuck.Machine
