import Brainfuck.Machine.Run
import Brainfuck.Sequence
import Brainfuck.Tracer.Render

/-!
Sessions: one machine, at most one tracer on it, and requests carried out in order.
Besides the machine's own operations a request may use a channel or the tape
directly, or assign the script or a pointer without any check.
-/
namespace Brainfuck

structure Session where
  machine : Machine
  tracer : Option Tracer := none

namespace Session

inductive Request where
  | setScript (script : Script)
  | loadScript (script : Script)
  | step (count : Int)
  | walk (count : Int)
  | run (limit : Option Int)
  | script
  | memoryLength
  | cell (index : Option Int)
  | tape (op : Tape.Op)
  | input (op : Channel.Op)
  | output (op : Channel.Op)
  | assignScript (script : Script)
  /-- Only a position that is not negative can be assigned. -/
  | assignIptr (iptr : Nat)
  | assignDptr (dptr : Int)
  | openTracer (range : Option Value)
  | snapshot
  | traceStep
  | trace (count : Int)
  | render

inductive Reply where
  | done
  | truth (b : Bool)
  | advance (a : Machine.Advance)
  | views (rows : List Machine.View)
  | ran (result : RunResult)
  | script (script : Script)
  | number (n : Nat)
  | byte (b : UInt8)
  | tape (reply : Tape.Reply)
  | channel (reply : Channel.Reply)
  | snapshot (s : Option Snapshot)
  | snapshots (states : List Snapshot)
  | picture (text : Except Numeral.Unwritable Text)
  | fault (cause : Fault)
  | rejected (cause : Settings.Rejection)
  /-- A tracer was asked for something before one was opened. -/
  | noTracer

structure Answer where
  session : Session
  reply : Reply
  log : List Notice := []

def ofMachine (s : Session) {α : Type} (o : Outcome Machine α) (reply : α → Reply) : Answer :=
  { session := { s with machine := o.state }
    reply := match o.result with
      | .ok a => reply a
      | .error cause => .fault cause
    log := o.log }

def ofObserved {α : Type} (o : Outcome Observed α) (reply : α → Reply) : Answer :=
  { session := ⟨o.state.machine, some o.state.tracer⟩
    reply := match o.result with
      | .ok a => reply a
      | .error cause => .fault cause
    log := o.log }

def observe (s : Session) (use : Observed → Answer) : Answer :=
  match s.tracer with
  | some tracer => use ⟨s.machine, tracer⟩
  | none => ⟨s, .noTracer, []⟩

def withMachine (s : Session) (m : Machine) (reply : Reply) : Answer :=
  ⟨{ s with machine := m }, reply, []⟩

def handle (s : Session) : Request → Answer
  | .setScript script => s.ofMachine (s.machine.setScript script) .truth
  | .loadScript script => s.ofMachine (s.machine.loadScript script) fun _ => .done
  | .step count => s.ofMachine (s.machine.advance count.toNat) .advance
  | .walk count => s.ofMachine (s.machine.walk count.toNat) .views
  | .run limit => s.ofMachine (s.machine.run limit) .ran
  | .script => ⟨s, .script s.machine.script, []⟩
  | .memoryLength => ⟨s, .number s.machine.memoryLength.val, []⟩
  | .cell index => ⟨s, .byte (s.machine.tape.get (index.getD s.machine.dptr)), []⟩
  | .tape op =>
      let (reply, tape) := s.machine.tape.perform op
      s.withMachine { s.machine with tape } (.tape reply)
  | .input op =>
      let (reply, input) := s.machine.channels.input.perform op
      let channels := s.machine.channels.withInput input
      s.withMachine { s.machine with channels } (.channel reply)
  | .output op =>
      let (reply, output) := s.machine.channels.output.perform op
      let channels := s.machine.channels.withOutput output
      s.withMachine { s.machine with channels } (.channel reply)
  | .assignScript script => s.withMachine { s.machine with script } .done
  | .assignIptr iptr => s.withMachine { s.machine with iptr } .done
  | .assignDptr dptr => s.withMachine { s.machine with dptr } .done
  | .openTracer range => match Tracer.build s.machine range with
    | .ok tracer => ⟨{ s with tracer := some tracer }, .number tracer.showRange.val, []⟩
    -- A tracer that was open before stays open.
    | .error cause => ⟨s, .rejected cause, []⟩
  | .snapshot => s.observe fun o => ⟨s, .snapshot (some o.snapshot), []⟩
  | .traceStep => s.observe fun o => ofObserved o.step .snapshot
  | .trace count => s.observe fun o => ofObserved (o.trace count) .snapshots
  | .render => s.observe fun o => ⟨s, .picture o.render, []⟩

def handleAll (s : Session) (requests : List Request) : List Answer :=
  Sequence.answers handle Answer.session s requests

theorem handleAll_cons (s : Session) (request : Request) (rest : List Request) :
    s.handleAll (request :: rest) =
      s.handle request :: (s.handle request).session.handleAll rest := rfl

def carryOut (s : Session) (requests : List Request) : Session :=
  Sequence.final handle Answer.session s requests

end Session

end Brainfuck
