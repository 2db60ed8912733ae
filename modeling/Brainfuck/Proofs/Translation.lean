import Brainfuck.Proofs.Comments
import Brainfuck.Proofs.Loading

/-!
Addresses mean nothing by themselves. A machine only ever works on the cell under its data
pointer, so two machines that differ by a shift of the tape together with the pointer make
the same steps, fail in the same way and end with the same shift between them. The nominal
memory is the only thing that has a place on the tape, and all that depends on it is when an
excursion is reported.
-/
namespace Brainfuck

/-- The second tape is the first one with all cells moved by `offset`. -/
structure Tape.Shifted (offset : Int) (a b : Tape) : Prop where
  get : ∀ i, b.get (i + offset) = a.get i
  isWritten : ∀ i, b.isWritten (i + offset) = a.isWritten i

theorem Tape.Shifted.set {offset : Int} {a b : Tape} (h : Shifted offset a b) (i : Int)
    (byte : UInt8) : Shifted offset (a.set i byte) (b.set (i + offset) byte) where
  get j := by
    rw [get_set, get_set, h.get]
    by_cases hij : i = j
    · rw [if_pos hij, if_pos (by omega)]
    · rw [if_neg hij, if_neg (by omega)]
  isWritten j := by
    have hij : decide (i + offset = j + offset) = decide (i = j) := by
      rw [decide_eq_decide]
      omega
    rw [isWritten_set, isWritten_set, h.isWritten, hij]

namespace Machine

/-- The second machine is the first one with tape and data pointer moved by `offset`; their
nominal memories and what they know about it may differ. -/
structure Shifted (offset : Int) (a b : Machine) : Prop where
  script : b.script = a.script
  iptr : b.iptr = a.iptr
  cycles : b.cycles = a.cycles
  loops : b.loops = a.loops
  eof : b.settings.eof = a.settings.eof
  stepLimit : b.settings.stepLimit = a.settings.stepLimit
  channels : b.channels = a.channels
  dptr : b.dptr = a.dptr + offset
  tape : Tape.Shifted offset a.tape b.tape

end Machine

/-- What a log holds besides excursions. -/
def Notice.withoutExcursions (log : List Notice) : List Notice := log.filter (!·.isExcursion)

theorem Notice.withoutExcursions_append (log : List Notice) {other more further : List Notice}
    (h : withoutExcursions other = withoutExcursions log)
    (hmore : withoutExcursions further = withoutExcursions more) :
    withoutExcursions (other ++ further) = withoutExcursions (log ++ more) := by
  unfold withoutExcursions at h hmore ⊢
  rw [List.filter_append, List.filter_append, h, hmore]

/-- Outcomes that agree but for a shift of the machine and for excursions. -/
structure Outcome.Shifted (offset : Int) {α : Type} (x y : Outcome Machine α) : Prop where
  state : Machine.Shifted offset x.state y.state
  log : Notice.withoutExcursions y.log = Notice.withoutExcursions x.log
  result : y.result = x.result

/-- Such outcomes still agree when both go on from logs that agree. -/
theorem Outcome.Shifted.after_log {offset : Int} {α β : Type} {x y : Outcome Machine α}
    (h : Shifted offset x y) {log other : List Notice}
    (hlog : Notice.withoutExcursions other = Notice.withoutExcursions log)
    (result : Except Fault β) :
    Shifted offset ⟨x.state, log ++ x.log, result⟩ ⟨y.state, other ++ y.log, result⟩ where
  state := h.state
  log := Notice.withoutExcursions_append _ hlog h.log
  result := rfl

namespace Machine

namespace Shifted

variable {offset : Int} {a b : Machine}

theorem cell (h : Shifted offset a b) : b.cell = a.cell := by
  unfold Machine.cell
  rw [h.dptr]
  exact h.tape.get a.dptr

theorem current? (h : Shifted offset a b) : b.current? = a.current? := by
  unfold Machine.current?
  rw [h.script, h.iptr]

theorem halted (h : Shifted offset a b) : b.halted = a.halted := by
  unfold Machine.halted
  rw [h.script, h.iptr]

theorem jump (h : Shifted offset a b) (iptr : Nat) :
    Shifted offset { a with iptr } { b with iptr } :=
  { h with iptr := rfl }

theorem withLoops (h : Shifted offset a b) (loops : List Nat) :
    Shifted offset { a with loops } { b with loops } :=
  { h with loops := rfl }

theorem withChannels (h : Shifted offset a b) (channels : Channels) :
    Shifted offset { a with channels } { b with channels } :=
  { h with channels := rfl }

theorem setCell (h : Shifted offset a b) (byte : UInt8) :
    Shifted offset { a with tape := a.tape.set a.dptr byte }
      { b with tape := b.tape.set b.dptr byte } := by
  have htape := h.tape.set a.dptr byte
  rw [← h.dptr] at htape
  exact { h with tape := htape }

theorem pass (h : Shifted offset a b) : Shifted offset a.pass b.pass :=
  { h with iptr := congrArg (· + 1) h.iptr }

theorem tick (h : Shifted offset a b) : Shifted offset a.tick b.tick :=
  { h with iptr := congrArg (· + 1) h.iptr, cycles := congrArg (· + 1) h.cycles }

/-- Whether a move is reported depends on the nominal memory, but nothing else does. -/
theorem movePointer (h : Shifted offset a b) (distance : Int) :
    Outcome.Shifted offset (a.movePointer distance) (b.movePointer distance) where
  state := by
    have hdptr : b.dptr + distance = a.dptr + distance + offset := by
      rw [h.dptr]
      omega
    exact { h with dptr := hdptr }
  log := by
    simp only [Machine.movePointer]
    split <;> split <;> rfl
  result := rfl

theorem writeCell (h : Shifted offset a b) : Shifted offset a.writeCell b.writeCell := by
  unfold Machine.writeCell
  rw [h.cell, h.channels]
  exact h.withChannels _

theorem atEof (h : Shifted offset a b) :
    Shifted offset { a with tape := a.atEof } { b with tape := b.atEof } := by
  unfold Machine.atEof
  rw [h.eof]
  cases a.settings.eof with
  | unchanged => exact h
  | zero => exact h.setCell 0
  | max => exact h.setCell 255

theorem readCell (h : Shifted offset a b) : Shifted offset a.readCell b.readCell := by
  obtain ⟨letters, rest, hread⟩ : ∃ letters rest, a.channels.input.read 1 = (letters, rest) :=
    ⟨_, _, rfl⟩
  have hother : b.channels.input.read 1 = (letters, rest) := by rw [h.channels, hread]
  cases letters with
  | nil =>
    rw [readCell_nil hread, readCell_nil hother]
    exact h.atEof
  | cons c more =>
    rw [readCell_cons hread, readCell_cons hother, h.channels]
    exact (h.setCell (UInt8.ofInt c.code)).withChannels _

/-- A data command does the same on both machines. -/
theorem execute (h : Shifted offset a b) {command : Command} (hb : command.isBracket = false) :
    Outcome.Shifted offset (a.execute command) (b.execute command) := by
  cases command with
  | right => exact h.movePointer 1
  | left => exact h.movePointer (-1)
  | increment =>
    have hcell := h.setCell (a.cell + 1)
    refine ⟨?_, rfl, rfl⟩
    simp only [Machine.execute, Tape.increment]
    rw [show b.tape.get b.dptr = a.cell from h.cell]
    exact hcell
  | decrement =>
    have hcell := h.setCell (a.cell - 1)
    refine ⟨?_, rfl, rfl⟩
    simp only [Machine.execute, Tape.decrement]
    rw [show b.tape.get b.dptr = a.cell from h.cell]
    exact hcell
  | output => exact ⟨h.writeCell, rfl, rfl⟩
  | input => exact ⟨h.readCell, rfl, rfl⟩
  | opening => simp [Command.isBracket] at hb
  | closing => simp [Command.isBracket] at hb

/-- A step does the same on both machines. -/
theorem step (h : Shifted offset a b) : Outcome.Shifted offset a.step b.step := by
  have hcurrent := h.current?
  cases a.stepCase with
  | halted hc =>
    rw [step_halted hc, step_halted (hcurrent.trans hc)]
    exact ⟨h, rfl, rfl⟩
  | comment c hc hn =>
    rw [step_comment hc hn, step_comment (hcurrent.trans hc) hn]
    exact ⟨h.pass, rfl, rfl⟩
  | data c command hc hcommand hb =>
    have heffect := h.execute hb
    rw [step_data hc hcommand hb, step_data (hcurrent.trans hc) hcommand hb]
    exact ⟨heffect.state.tick, heffect.log, rfl⟩
  | enter hc hcell =>
    have hother : b.iptr :: b.loops = a.iptr :: a.loops := by rw [h.iptr, h.loops]
    rw [step_enter hc hcell, step_enter (hcurrent.trans hc) (h.cell.trans_ne hcell), hother]
    exact ⟨(h.withLoops _).tick, rfl, rfl⟩
  | skip position hc hcell hclosing =>
    have hother : b.script.closing? b.iptr = some position := by rw [h.script, h.iptr, hclosing]
    rw [step_skip hc hcell hclosing,
      step_skip (hcurrent.trans hc) (h.cell.trans hcell) hother]
    exact ⟨(h.jump position).tick, rfl, rfl⟩
  | noClosing hc hcell hclosing =>
    have hother : b.script.closing? b.iptr = none := by rw [h.script, h.iptr, hclosing]
    rw [step_noClosing hc hcell hclosing,
      step_noClosing (hcurrent.trans hc) (h.cell.trans hcell) hother, h.iptr]
    exact ⟨h, rfl, rfl⟩
  | again position outer hc hcell hloops =>
    rw [step_again hc hcell hloops,
      step_again (hcurrent.trans hc) (h.cell.trans_ne hcell) (h.loops.trans hloops)]
    exact ⟨(h.jump position).tick, rfl, rfl⟩
  | leave position outer hc hcell hloops =>
    rw [step_leave hc hcell hloops,
      step_leave (hcurrent.trans hc) (h.cell.trans hcell) (h.loops.trans hloops)]
    exact ⟨(h.withLoops outer).tick, rfl, rfl⟩
  | noLoop hc hloops =>
    have hother := h.loops.trans hloops
    by_cases hcell : a.cell = 0
    · rw [step_noLoopToLeave hc hcell hloops,
        step_noLoopToLeave (hcurrent.trans hc) (h.cell.trans hcell) hother]
      exact ⟨h, rfl, rfl⟩
    · rw [step_noLoopToRepeat hc hcell hloops,
        step_noLoopToRepeat (hcurrent.trans hc) (h.cell.trans_ne hcell) hother]
      exact ⟨h, rfl, rfl⟩

theorem advanceFrom (h : Shifted offset a b) (steps : Nat) {log other : List Notice}
    (hlog : Notice.withoutExcursions other = Notice.withoutExcursions log) (count : Nat) :
    Outcome.Shifted offset (Machine.advanceFrom steps log count a)
      (Machine.advanceFrom steps other count b) := by
  induction count generalizing a b steps log other with
  | zero => exact ⟨h, hlog, rfl⟩
  | succ count ih =>
    have hstep := h.step
    simp only [Machine.advanceFrom, hstep.result]
    split
    · exact ih hstep.state (steps + 1) (Notice.withoutExcursions_append _ hlog hstep.log)
    · exact hstep.after_log hlog _
    · exact hstep.after_log hlog _

theorem stopsAt (h : Shifted offset a b) (limit : Int) (c : Letter) :
    b.stopsAt limit c = a.stopsAt limit c := by
  unfold Machine.stopsAt
  rw [h.cycles]

/-- Two drives go side by side: they stop in front of the same character, or make the same
step, or fail in the same way. -/
theorem driveFrom (h : Shifted offset a b) (limit : Int) (log : List Notice) {other : List Notice}
    (hlog : Notice.withoutExcursions other = Notice.withoutExcursions log) :
    Outcome.Shifted offset (Machine.driveFrom limit log a) (Machine.driveFrom limit other b) := by
  -- Along the first drive; each step of it is matched by one step of the second machine.
  fun_induction Machine.driveFrom limit log a generalizing b other with
  | case1 log a hc =>
    rw [driveFrom_halted (h.current?.trans hc)]
    exact ⟨h, hlog, rfl⟩
  | case2 log a c hc hs =>
    rw [driveFrom_stop (h.current?.trans hc) ((h.stopsAt limit c).trans hs)]
    exact ⟨h, hlog, rfl⟩
  | case3 log a c hc hs next more hn ih =>
    have hgo : b.stopsAt limit c = false := (h.stopsAt limit c).trans (by simpa using hs)
    have hstep := h.step
    rw [hn] at hstep
    have hother : b.step = ⟨b.step.state, b.step.log, .ok true⟩ := by
      rw [← show b.step.result = .ok true from hstep.result]
    rw [driveFrom_step (h.current?.trans hc) hgo hother]
    exact ih hstep.state (Notice.withoutExcursions_append _ hlog hstep.log)
  | case4 log a c hc hs next more hn =>
    have hnone := current?_of_step_false (show a.step.result = .ok false by rw [hn])
    rw [hc] at hnone
    cases hnone
  | case5 log a c hc hs next more fault hn =>
    have hgo : b.stopsAt limit c = false := (h.stopsAt limit c).trans (by simpa using hs)
    have hstep := h.step
    rw [hn] at hstep
    have hother : b.step = ⟨b.step.state, b.step.log, .error fault⟩ := by
      rw [← show b.step.result = .error fault from hstep.result]
    rw [driveFrom_fault (h.current?.trans hc) hgo hother]
    exact hstep.after_log hlog _

theorem drain (h : Shifted offset a b) :
    b.drain.1 = a.drain.1 ∧ Shifted offset a.drain.2 b.drain.2 := by
  unfold Machine.drain
  rw [h.channels]
  exact ⟨rfl, h.withChannels _⟩

theorem run (h : Shifted offset a b) (limit : Option Int) :
    Outcome.Shifted offset (a.run limit) (b.run limit) := by
  have hdrive : Outcome.Shifted offset (a.drive _) (b.drive _) :=
    h.driveFrom (limit.getD a.settings.stepLimit.val) [] rfl
  have hrunning : ∀ notice : Notice, Notice.withoutExcursions (notice :: (b.drive _).log) =
      Notice.withoutExcursions (notice :: (a.drive _).log) :=
    fun notice => Notice.withoutExcursions_append [notice] rfl hdrive.log
  simp only [Machine.run, h.stepLimit, h.script, hdrive.result]
  split
  · exact ⟨hdrive.state, hrunning _, rfl⟩
  · obtain ⟨houtput, hdrained⟩ := hdrive.state.drain
    refine ⟨hdrained, ?_, ?_⟩
    · simp only [hdrive.state.halted, hdrive.state.cycles, hdrive.state.iptr]
      split
      · exact hrunning _
      · exact Notice.withoutExcursions_append _ (hrunning _) rfl
    · simp only [houtput, hdrive.state.cycles, hdrive.state.halted]

end Shifted

end Machine

namespace Session

/-- The requests that only make the machine go on. -/
def Request.Drives : Request → Prop
  | .step _ | .run _ => True
  | _ => False

/-- Answers that agree but for a shift of the machine and for excursions. -/
structure Answer.Shifted (offset : Int) (x y : Answer) : Prop where
  state : Machine.Shifted offset x.session.machine y.session.machine
  log : Notice.withoutExcursions y.log = Notice.withoutExcursions x.log
  reply : y.reply = x.reply

theorem ofMachine_shifted {offset : Int} {α : Type} {x y : Outcome Machine α}
    (h : Outcome.Shifted offset x y) (s t : Session) (reply : α → Reply) :
    Answer.Shifted offset (s.ofMachine x reply) (t.ofMachine y reply) where
  state := h.state
  log := h.log
  reply := by
    simp only [ofMachine, h.result]

theorem handle_shifted {offset : Int} {s t : Session}
    (h : Machine.Shifted offset s.machine t.machine) {r : Request} (hr : r.Drives) :
    Answer.Shifted offset (s.handle r) (t.handle r) := by
  cases r with
  | step count => exact ofMachine_shifted (h.advanceFrom 0 rfl count.toNat) s t .advance
  | run limit => exact ofMachine_shifted (h.run limit) s t .ran
  | _ => cases hr

/-- Neither the nominal memory nor absolute addresses influence execution. Two machines that
differ by a shift of tape and data pointer answer any steps and runs alike, with the same
results or the same faults, report the same but for excursions, and differ by the same shift
after each of them and at the end. -/
theorem execution_ignores_addresses {offset : Int} {s t : Session}
    (h : Machine.Shifted offset s.machine t.machine) {requests : List Request}
    (hr : ∀ r ∈ requests, r.Drives) :
    List.Forall₂ (Answer.Shifted offset) (s.handleAll requests) (t.handleAll requests) ∧
      Machine.Shifted offset (s.carryOut requests).machine (t.carryOut requests).machine := by
  have hanswer (s t : Session) (h : Machine.Shifted offset s.machine t.machine) (r : Request)
      (hmem : r ∈ requests) : Answer.Shifted offset (s.handle r) (t.handle r) :=
    handle_shifted h (hr r hmem)
  exact Sequence.forall₂_answers hanswer (fun _ _ hanswers => hanswers.state) h

/-- A script with one bracket too many, assigned without a check, on a small nominal memory
and far outside of a large one. -/
theorem execution_ignores_addresses_far_left :
    let script := Text.ofString "+>,[.<]]"
    let a : Machine :=
      { settings := {}, memoryLength := ⟨1, by decide⟩, script, tape := Tape.set {} 1 7
        channels := .separate ⟨['h', 'i']⟩ {} }
    let b : Machine :=
      { settings := { memoryLength := ⟨9, by decide⟩ }, memoryLength := ⟨30000, by decide⟩, script
        tape := Tape.set {} (-999) 7, dptr := -1000, outside := true
        channels := .separate ⟨['h', 'i']⟩ {} }
    let requests : List Request := [.run (some 3), .step 2, .run none]
    Machine.Shifted (-1000) a b ∧
      List.Forall₂ (Answer.Shifted (-1000)) (({ machine := a } : Session).handleAll requests)
        (({ machine := b } : Session).handleAll requests) ∧
      (b.advance 20).result = .error .noLoopToLeave := by
  intro script a b requests
  have hempty : Tape.Shifted (-1000) {} {} := ⟨fun _ => rfl, fun _ => rfl⟩
  have hshifted : Machine.Shifted (-1000) a b :=
    ⟨rfl, rfl, rfl, rfl, rfl, rfl, rfl, rfl, hempty.set 1 7⟩
  have hrequests : ∀ r ∈ requests, r.Drives := by
    intro r hr
    simp only [requests, List.mem_cons, List.not_mem_nil, or_false] at hr
    rcases hr with rfl | rfl | rfl <;> trivial
  have hanswers := (execution_ignores_addresses (s := { machine := a }) (t := { machine := b })
    hshifted hrequests).1
  exact ⟨hshifted, hanswers, by decide⟩

end Session

end Brainfuck
