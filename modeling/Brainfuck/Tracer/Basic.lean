import Brainfuck.Machine.Step

/-!
The tracer steps a machine and keeps a picture of it after each step. It counts the
steps that it made itself and remembers the last character that was executed.
-/
namespace Brainfuck

structure Tracer where
  showRange : Positive
  stepCount : Nat := 0
  lastCommand : Option Letter := none
deriving DecidableEq

structure Snapshot where
  step : Nat
  iptr : Nat
  dptr : Int
  cycles : Nat
  /-- The character just executed, nothing before the first step. -/
  command : Option Letter
  /-- The character to come, nothing once the machine has halted. -/
  nextCommand : Option Letter
  cell : UInt8
  loopDepth : Nat
deriving DecidableEq

structure Observed where
  machine : Machine
  tracer : Tracer

namespace Tracer

/-- A new tracer. The range is taken from the machine's settings unless it is given. -/
def build (m : Machine) (range : Option Value) : Except Settings.Rejection Tracer := do
  let showRange ← Settings.checkOr m.settings.showRange
    (Settings.checkPositive Settings.showRangeName) range
  return { showRange }

def snapshot (t : Tracer) (m : Machine) : Snapshot where
  step := t.stepCount
  iptr := m.iptr
  dptr := m.dptr
  cycles := m.cycles
  command := t.lastCommand
  nextCommand := m.current?
  cell := m.cell
  loopDepth := m.loops.length

def record (t : Tracer) (c : Letter) : Tracer :=
  { t with lastCommand := some c, stepCount := t.stepCount + 1 }

def defaultSteps : Int := 100

end Tracer

namespace Observed

def snapshot (o : Observed) : Snapshot := o.tracer.snapshot o.machine

/-- One step and the picture after it, nothing if the machine has halted. A step
that fails is not recorded. -/
def step (o : Observed) : Outcome Observed (Option Snapshot) :=
  match o.machine.current? with
  | none => ⟨o, [], .ok none⟩
  | some c =>
      let next := o.machine.step
      match next.result with
      | .error fault => ⟨⟨next.state, o.tracer⟩, next.log, .error fault⟩
      | .ok _ =>
          let after : Observed := ⟨next.state, o.tracer.record c⟩
          ⟨after, next.log, .ok (some after.snapshot)⟩

/-- Goes on with `count` steps, earlier pictures being in `seen`, last first. -/
def traceFrom (seen : List Snapshot) (log : List Notice) :
    Nat → Observed → Outcome Observed (List Snapshot)
  | 0, o => ⟨o, log, .ok seen.reverse⟩
  | count + 1, o =>
      let next := o.step
      match next.result with
      | .ok (some s) => traceFrom (s :: seen) (log ++ next.log) count next.state
      | .ok none => ⟨next.state, log ++ next.log, .ok seen.reverse⟩
      | .error fault => ⟨next.state, log ++ next.log, .error fault⟩

/-- Up to `count` steps with a picture after each; a negative count makes none. -/
def trace (o : Observed) (count : Int) : Outcome Observed (List Snapshot) :=
  traceFrom [] [] count.toNat o

end Observed

end Brainfuck
