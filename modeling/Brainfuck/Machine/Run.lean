import Brainfuck.Machine.Step
import Brainfuck.Settings.Environment

/-!
Runs under a cycle limit. Comments are free: a run stops in front of the first
command for which no cycle is left. Every run ends, because each command uses up a
cycle and between two commands there are only finitely many comments. Its reports are
always written, whatever the numbers in them.
-/
namespace Brainfuck

namespace Machine

def stopsAt (m : Machine) (limit : Int) (c : Letter) : Bool :=
  decide (limit ≤ m.cycles) && isCommand c

theorem execute_cycles (m : Machine) (command : Command) :
    (m.execute command).state.cycles = m.cycles := by
  cases command <;> simp only [execute, movePointer, writeCell, readCell, openLoop, closeLoop] <;>
    (repeat' split) <;> rfl

/-- A step of a run uses up a cycle or one of the comments ahead. -/
theorem step_decreases {m next : Machine} {limit : Int} {c : Letter} {log : List Notice}
    (hc : m.current? = some c) (hs : m.stopsAt limit c = false)
    (hn : m.step = ⟨next, log, .ok true⟩) :
    Prod.Lex (· < ·) (· < ·) ((limit - next.cycles).toNat, next.script.length - next.iptr)
      ((limit - m.cycles).toNat, m.script.length - m.iptr) := by
  have hlt : m.iptr < m.script.length := (List.getElem?_eq_some_iff.mp hc).1
  simp only [step, hc] at hn
  split at hn
  · cases hn
    apply Prod.Lex.right
    simp only [pass]
    omega
  · next command hcommand =>
    split at hn
    · cases hn
      apply Prod.Lex.left
      have hcycles := m.execute_cycles command
      simp only [stopsAt, isCommand, hcommand, Option.isSome_some, Bool.and_true,
        decide_eq_false_iff_not] at hs
      simp only [tick, hcycles]
      omega
    · cases hn

/-- Goes on with a run that has reported `log`. -/
def driveFrom (limit : Int) (log : List Notice) (m : Machine) : Outcome Machine Unit :=
  match _hc : m.current? with
  | none => ⟨m, log, .ok ()⟩
  | some c =>
      if _hs : m.stopsAt limit c then ⟨m, log, .ok ()⟩
      else
        match _hn : m.step with
        | ⟨next, more, .ok true⟩ => driveFrom limit (log ++ more) next
        -- Not met, since there is a current character.
        | ⟨next, more, .ok false⟩ => ⟨next, log ++ more, .ok ()⟩
        | ⟨next, more, .error fault⟩ => ⟨next, log ++ more, .error fault⟩
termination_by ((limit - m.cycles).toNat, m.script.length - m.iptr)
decreasing_by exact step_decreases _hc (by simpa using _hs) _hn

def drive (m : Machine) (limit : Int) : Outcome Machine Unit := driveFrom limit [] m

end Machine

structure RunResult where
  output : Text
  cycles : Nat
  halted : Bool
  hitLimit : Bool
deriving DecidableEq

namespace Machine

def drain (m : Machine) : Text × Machine :=
  let (output, rest) := m.channels.output.read m.channels.output.size
  (output, { m with channels := m.channels.withOutput rest })

/-- Runs under a limit, or under that of the settings, and drains the output. -/
def run (m : Machine) (limit : Option Int) : Outcome Machine RunResult :=
  let limit := limit.getD m.settings.stepLimit.val
  let driven := m.drive limit
  let log := .running m.script.length limit :: driven.log
  match driven.result with
  -- What was written before the fault stays in the channel.
  | .error fault => ⟨driven.state, log, .error fault⟩
  | .ok () =>
      let halted := driven.state.halted
      let log := if halted then log else log ++ [.stopped driven.state.cycles driven.state.iptr]
      let (output, drained) := driven.state.drain
      ⟨drained, log, .ok ⟨output, driven.state.cycles, halted, !halted⟩⟩

end Machine

inductive RunError where
  | environment (cause : Settings.EnvironmentError)
  | fault (cause : Fault)

/-- Runs a script on a new machine; without settings those of the environment apply. -/
def runOnce (code : Script) (input : Text) (limit : Option Int) (settings : Option Settings)
    (environment : Environment) : List Notice × Except RunError RunResult :=
  match settings.elim (Settings.ofEnvironment environment) .ok with
  | .error cause => ([], .error (.environment cause))
  | .ok settings =>
      let m : Machine :=
        { settings, memoryLength := settings.memoryLength, channels := .separate ⟨input⟩ {} }
      let loaded := m.loadScript code
      match loaded.result with
      | .error fault => (loaded.log, .error (.fault fault))
      | .ok () =>
          let ran := loaded.state.run limit
          match ran.result with
          | .error fault => (loaded.log ++ ran.log, .error (.fault fault))
          | .ok result => (loaded.log ++ ran.log, .ok result)

end Brainfuck
