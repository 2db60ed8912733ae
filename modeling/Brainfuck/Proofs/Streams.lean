import Brainfuck.Proofs.Steps

/-!
Channels as streams. A step takes at most the first character of the input and adds at
most one character to the output, so it makes no difference to it what stands behind the
input or was written before the output, unless it asks for a character when there is none.
In particular a machine that was drained goes on as it would have done.
-/
namespace Brainfuck

theorem Command.ofLetter?_eq_input {c : Letter} (h : ofLetter? c = some .input) : c = ',' :=
  eq_letter h

namespace Channels

def isSeparate : Channels → Bool
  | .separate .. => true
  | .shared _ => false

theorem exists_separate {channels : Channels} (h : channels.isSeparate = true) :
    ∃ input output, channels = .separate input output := by
  cases channels with
  | separate input output => exact ⟨input, output, rfl⟩
  | shared channel => cases h

@[simp]
theorem isSeparate_withInput (channels : Channels) (input : Channel) :
    (channels.withInput input).isSeparate = channels.isSeparate := by
  cases channels <;> rfl

@[simp]
theorem isSeparate_withOutput (channels : Channels) (output : Channel) :
    (channels.withOutput output).isSeparate = channels.isSeparate := by
  cases channels <;> rfl

/-- Two channels with `more` behind the input and `written` before the output; one channel
for both is left alone. -/
def extended (channels : Channels) (more written : Text) : Channels :=
  match channels with
  | .separate input output => .separate ⟨input.buffer ++ more⟩ ⟨written ++ output.buffer⟩
  | .shared channel => .shared channel

theorem withOutput_extended (channels : Channels) (more written data : Text) :
    (channels.extended more written).withOutput
        ((channels.extended more written).output.write (some data)) =
      (channels.withOutput (channels.output.write (some data))).extended more written := by
  cases channels with
  | separate input output =>
    simp only [extended, withOutput, Channels.output, Channel.write, List.append_assoc]
  | shared channel => rfl

end Channels

namespace Machine

theorem isSeparate_readCell (m : Machine) :
    m.readCell.channels.isSeparate = m.channels.isSeparate := by
  unfold readCell
  split
  · exact m.channels.isSeparate_withInput _
  · rfl

/-- Two channels stay two. -/
theorem isSeparate_step (m : Machine) :
    m.step.state.channels.isSeparate = m.channels.isSeparate := by
  rcases m.data_or_control with ⟨c, command, hc, hcommand, hb⟩ | hcontrol
  · rw [step_data hc hcommand hb]
    change (m.execute command).state.channels.isSeparate = _
    cases command with
    | output => exact m.channels.isSeparate_withOutput _
    | input => exact m.isSeparate_readCell
    | opening => simp [Command.isBracket] at hb
    | closing => simp [Command.isBracket] at hb
    | _ => rfl
  · exact congrArg (·.state.channels.isSeparate) (hcontrol m rfl)

theorem isSeparate_after (m : Machine) (n : Nat) :
    (m.after n).channels.isSeparate = m.channels.isSeparate :=
  after_induction (P := fun k => k.channels.isSeparate = m.channels.isSeparate)
    (fun k hk => k.isSeparate_step.trans hk) rfl n

/-- The machine with `more` behind its input and `written` before its output. -/
def extended (m : Machine) (more written : Text) : Machine :=
  { m with channels := m.channels.extended more written }

theorem extended_unseen (more written : Text) :
    Unseen fun m => m.extended more written where
  data _ _ := rfl
  cell _ := rfl

theorem extended_of_shared {m : Machine} (h : m.channels.isSeparate = false)
    (more written : Text) : m.extended more written = m := by
  unfold extended
  cases hchannels : m.channels with
  | separate input output => simp [hchannels, Channels.isSeparate] at h
  | shared channel =>
    rw [Channels.extended, ← hchannels]

theorem readCell_of_empty {m : Machine} (h : m.channels.input.buffer = []) :
    m.readCell = { m with tape := m.atEof } := by
  apply readCell_nil
  rw [Channel.read, h]
  rfl

theorem readCell_separate {m : Machine} {letter : Letter} {rest : Text} {output : Channel}
    (h : m.channels = .separate ⟨letter :: rest⟩ output) :
    m.readCell = { m with
      tape := m.tape.store m.dptr letter.code, channels := .separate ⟨rest⟩ output } := by
  have hread : m.channels.input.read 1 = ([letter], ⟨rest⟩) := by rw [h]; rfl
  rw [readCell_cons hread, h]
  rfl

theorem readCell_extended {m : Machine} {more : Text}
    (h : m.channels.input.buffer = [] → more = []) (written : Text) :
    (m.extended more written).readCell = m.readCell.extended more written := by
  cases hchannels : m.channels with
  | shared channel =>
    have hshared : m.channels.isSeparate = false := by rw [hchannels]; rfl
    rw [extended_of_shared hshared, extended_of_shared (m.isSeparate_readCell.trans hshared)]
  | separate input output =>
    obtain ⟨buffer⟩ := input
    cases buffer with
    | nil =>
      have hempty : m.channels.input.buffer = [] := by rw [hchannels]; rfl
      obtain rfl := h hempty
      have hextended : (m.extended [] written).channels.input.buffer = [] := by
        rw [extended, hchannels]
        rfl
      rw [readCell_of_empty hempty, readCell_of_empty hextended]
      rfl
    | cons c rest =>
      have hextended : (m.extended more written).channels =
          .separate ⟨c :: (rest ++ more)⟩ ⟨written ++ output.buffer⟩ := by
        rw [extended, hchannels]
        rfl
      rw [readCell_separate hchannels, readCell_separate hextended]
      rfl

theorem writeCell_extended (m : Machine) (more written : Text) :
    (m.extended more written).writeCell = m.writeCell.extended more written := by
  have hwrite := m.channels.withOutput_extended more written [.char (Char.ofNat m.cell.toNat)]
  exact congrArg (fun channels => { m with channels }) hwrite

theorem execute_extended {m : Machine} {more : Text} (written : Text)
    {command : Command} (hb : command.isBracket = false)
    (h : command = .input → m.channels.input.buffer = [] → more = []) :
    (m.extended more written).execute command =
      ⟨(m.execute command).state.extended more written, (m.execute command).log,
        (m.execute command).result⟩ := by
  cases command with
  | right => rfl
  | left => rfl
  | increment => rfl
  | decrement => rfl
  | output => simp only [execute, writeCell_extended]
  | input => simp only [execute, readCell_extended (h rfl)]
  | opening => simp [Command.isBracket] at hb
  | closing => simp [Command.isBracket] at hb

/-- The next step asks for a character and there is none. -/
def starved (m : Machine) : Bool :=
  m.current? == some (.char ',') && m.channels.input.buffer.isEmpty

theorem of_starved {m : Machine} (h : m.starved = true) :
    m.current? = some (.char ',') ∧ m.channels.input.buffer = [] := by
  simpa [starved] using h

theorem starved_of_input {m : Machine} {c : Letter} (hc : m.current? = some c)
    (hcommand : Command.ofLetter? c = some .input) (hempty : m.channels.input.buffer = []) :
    m.starved = true := by
  obtain rfl := Command.ofLetter?_eq_input hcommand
  simp [starved, hc, hempty]

/-- A step does not notice what is behind the input, unless it is the first to come, or
before the output. -/
theorem step_extended {m : Machine} {more : Text} (h : m.starved = true → more = [])
    (written : Text) :
    (m.extended more written).step =
      ⟨m.step.state.extended more written, m.step.log, m.step.result⟩ := by
  apply (extended_unseen more written).step
  intro c command hc hcommand hb
  apply execute_extended written hb
  rintro rfl hempty
  exact h (starved_of_input hc hcommand hempty)

/-- Earlier output takes no part in what comes after it. -/
theorem after_extended_output (m : Machine) (written : Text) (n : Nat) :
    (m.extended [] written).after n = (m.after n).extended [] written := by
  induction n generalizing m with
  | zero => rfl
  | succ n ih =>
    rw [after_succ, after_succ, step_extended (fun _ => rfl)]
    exact ih m.step.state

/-- The machine with a piece added to its input. -/
def fed (m : Machine) (piece : Text) : Machine :=
  { m with channels := m.channels.withInput (m.channels.input.write (some piece)) }

/-- The machine with some of its output taken away. -/
def relieved (m : Machine) (count : Int) : Machine :=
  { m with channels := m.channels.withOutput (m.channels.output.read count).2 }

theorem extended_fed {m : Machine} (h : m.channels.isSeparate = true)
    (piece more written : Text) :
    (m.fed piece).extended more written = m.extended (piece ++ more) written := by
  obtain ⟨input, output, hchannels⟩ := Channels.exists_separate h
  simp only [fed, extended, hchannels, Channels.withInput, Channels.input, Channels.extended,
    Channel.buffer_write_some, List.append_assoc]

theorem extended_relieved {m : Machine} (h : m.channels.isSeparate = true)
    (count : Int) (more written : Text) :
    (m.relieved count).extended more (written ++ (m.channels.output.read count).1) =
      m.extended more written := by
  obtain ⟨input, output, hchannels⟩ := Channels.exists_separate h
  simp only [relieved, extended, hchannels, Channels.withOutput, Channels.output,
    Channels.extended, List.append_assoc, Channel.read_append]

theorem extended_nil {m : Machine} (h : m.channels.isSeparate = true) : m.extended [] [] = m := by
  obtain ⟨input, output, hchannels⟩ := Channels.exists_separate h
  rw [extended, hchannels, Channels.extended, List.append_nil, List.nil_append, ← hchannels]

theorem drain_extended {m : Machine} (h : m.channels.isSeparate = true) (written : Text) :
    (m.extended [] written).drain = (written ++ m.drain.1, m.drain.2) := by
  obtain ⟨input, output, hchannels⟩ := Channels.exists_separate h
  simp only [drain, extended, hchannels, Channels.extended, Channels.output,
    Channels.withOutput, Channel.read_size, List.append_nil]

/-- A machine goes on in the same way after it was drained. -/
theorem after_drain {m : Machine} (h : m.channels.isSeparate = true) (n : Nat) :
    (m.drain.2.after n).extended [] m.drain.1 = m.after n := by
  have hback := extended_relieved h m.channels.output.size [] []
  rw [extended_nil h] at hback
  rw [← after_extended_output]
  exact congrArg (·.after n) hback

/-- What is drained now and what is drained later is together what there would be later. -/
theorem drain_after {m : Machine} (h : m.channels.isSeparate = true) (n : Nat) :
    (m.after n).drain =
      (m.drain.1 ++ (m.drain.2.after n).drain.1, (m.drain.2.after n).drain.2) := by
  have hseparate : (m.drain.2.after n).channels.isSeparate = true := by
    rw [isSeparate_after]
    exact (m.channels.isSeparate_withOutput _).trans h
  rw [← after_drain h, drain_extended hseparate]

end Machine

end Brainfuck
