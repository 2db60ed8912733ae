import Brainfuck.Proofs.Limits
import Brainfuck.Proofs.Traces

/-!
The ledger of an execution. Each step takes at most one character from the input, writes at
most one to the output, and moves the data pointer by at most one, and the character that
it executes says which of these it does. So a trace accounts for everything that its steps
have done: the cycles and the way of the data pointer are counted off its commands, and the
characters written are the cells that it shows behind the output commands. Whatever goes
through a channel is kept account of in the same way when one channel serves for both.
-/
namespace Brainfuck

namespace Channels

/-- From one state of the channels to another `taken` has left the input at its head, and
`written` has come to the output at its tail. -/
inductive Passed (taken written : Text) : Channels → Channels → Prop
  | separate {input output rest more : Channel} (hinput : input.buffer = taken ++ rest.buffer)
      (houtput : more.buffer = output.buffer ++ written) :
      Passed taken written (.separate input output) (.separate rest more)
  | shared {channel rest : Channel} (h : channel.buffer ++ written = taken ++ rest.buffer) :
      Passed taken written (.shared channel) (.shared rest)

namespace Passed

theorem refl (channels : Channels) : Passed [] [] channels channels := by
  cases channels with
  | separate input output => exact .separate rfl (List.append_nil _).symm
  | shared channel => exact .shared (List.append_nil _)

theorem trans {taken written more further : Text} {a b c : Channels}
    (hab : Passed taken written a b) (hbc : Passed more further b c) :
    Passed (taken ++ more) (written ++ further) a c := by
  cases hab with
  | separate hinput houtput =>
    cases hbc with
    | separate hrest hmore =>
      apply Passed.separate
      · rw [hinput, hrest, List.append_assoc]
      · rw [hmore, houtput, List.append_assoc]
  | shared h =>
    cases hbc with
    | shared hrest =>
      apply Passed.shared
      rw [← List.append_assoc, h, List.append_assoc, hrest, List.append_assoc]

theorem write (channels : Channels) (data : Text) :
    Passed [] data channels (channels.withOutput (channels.output.write (some data))) := by
  cases channels with
  | separate input output => exact .separate rfl rfl
  | shared channel => exact .shared rfl

theorem read (channels : Channels) (count : Int) :
    Passed (channels.input.read count).1 [] channels
      (channels.withInput (channels.input.read count).2) := by
  cases channels with
  | separate input output =>
    exact .separate (input.read_append count).symm (List.append_nil _).symm
  | shared channel =>
    apply Passed.shared
    rw [List.append_nil]
    exact (channel.read_append count).symm

theorem of_separate {taken written : Text} {input output : Channel} {channels : Channels}
    (h : Passed taken written (.separate input output) channels) :
    channels = .separate ⟨input.buffer.drop taken.length⟩ ⟨output.buffer ++ written⟩ := by
  cases h with
  | separate hinput houtput => rw [hinput, List.drop_left, ← houtput]

theorem of_shared {taken written : Text} {channel : Channel} {channels : Channels}
    (h : Passed taken written (.shared channel) channels) :
    ∃ rest, channels = .shared rest ∧ channel.buffer ++ written = taken ++ rest.buffer := by
  cases h with
  | shared h => exact ⟨_, rfl, h⟩

theorem size_input {taken written : Text} {a b : Channels} (h : Passed taken written a b)
    (ha : a.isSeparate = true) : a.input.size = taken.length + b.input.size := by
  cases h with
  | @separate input output rest more hinput houtput =>
    change input.buffer.length = taken.length + rest.buffer.length
    rw [hinput, List.length_append]
  | shared h => cases ha

end Passed

end Channels

namespace Machine

/-- Whether the next step executes the character `c`. -/
def executes (c : Letter) (m : Machine) : Bool := m.current? == some c

theorem executes_eq {m : Machine} {d : Letter} (h : m.current? = some d) (c : Letter) :
    m.executes c = (d == c) := by
  rw [executes, h]
  rfl

/-- What the next step takes from the input. -/
def taken (m : Machine) : Text :=
  if m.executes ',' then (m.channels.input.read 1).1 else []

/-- What the next step writes to the output. -/
def written (m : Machine) : Text :=
  if m.executes '.' then [.char (Char.ofNat m.cell.toNat)] else []

/-- The next step is one of a data command. -/
def AtData (m : Machine) : Prop :=
  ∃ c command, m.current? = some c ∧ Command.ofLetter? c = some command ∧
    command.isBracket = false

theorem not_executes {m : Machine} (h : ¬ m.AtData) (command : Command)
    (hb : command.isBracket = false) : m.executes command.letter = false := by
  rw [executes, beq_eq_false_iff_ne]
  intro hc
  exact h ⟨command.letter, command, hc, by cases command <;> rfl, hb⟩

/-- A step that is not one of a data command leaves the data alone. -/
theorem step_control {m : Machine} (h : ¬ m.AtData) :
    m.step.state.dptr = m.dptr ∧ m.step.state.channels = m.channels := by
  have hcontrol := m.data_or_control.resolve_left h m rfl
  exact ⟨congrArg (·.state.dptr) hcontrol, congrArg (·.state.channels) hcontrol⟩

theorem passed_readCell (m : Machine) :
    Channels.Passed (m.channels.input.read 1).1 [] m.channels m.readCell.channels := by
  obtain ⟨letters, rest, hread⟩ : ∃ letters rest, m.channels.input.read 1 = (letters, rest) :=
    ⟨_, _, rfl⟩
  cases letters with
  | nil =>
    rw [readCell_nil hread, hread]
    exact .refl m.channels
  | cons c more =>
    have hpassed := Channels.Passed.read m.channels 1
    rw [hread] at hpassed
    rw [readCell_cons hread, hread]
    exact hpassed

/-- A step passes on what its character says and nothing else. -/
theorem passed_step (m : Machine) :
    Channels.Passed m.taken m.written m.channels m.step.state.channels := by
  by_cases hdata : m.AtData
  · obtain ⟨c, command, hc, hcommand, hb⟩ := hdata
    obtain rfl := Command.eq_letter hcommand
    rw [step_data hc hcommand hb, taken, written, executes_eq hc, executes_eq hc]
    change Channels.Passed _ _ m.channels (m.execute command).state.channels
    cases command with
    | right => exact .refl m.channels
    | left => exact .refl m.channels
    | increment => exact .refl m.channels
    | decrement => exact .refl m.channels
    | output => exact .write m.channels [.char (Char.ofNat m.cell.toNat)]
    | input => exact m.passed_readCell
    | opening => simp [Command.isBracket] at hb
    | closing => simp [Command.isBracket] at hb
  · have hinput : m.executes ',' = false := not_executes hdata .input rfl
    have houtput : m.executes '.' = false := not_executes hdata .output rfl
    rw [(step_control hdata).2, taken, written, hinput, houtput]
    exact .refl m.channels

/-- The data pointer moves as the character executed says. -/
theorem dptr_step (m : Machine) :
    m.step.state.dptr = m.dptr + (if m.executes '>' then 1 else 0) -
      (if m.executes '<' then 1 else 0) := by
  by_cases hdata : m.AtData
  · obtain ⟨c, command, hc, hcommand, hb⟩ := hdata
    obtain rfl := Command.eq_letter hcommand
    rw [step_data hc hcommand hb, executes_eq hc, executes_eq hc]
    change (m.execute command).state.dptr = _
    cases command with
    | right => exact (Int.sub_zero _).symm
    | left => exact congrArg (· - 1) (Int.add_zero _).symm
    | increment => simp [execute, Command.letter]
    | decrement => simp [execute, Command.letter]
    | output => simp [execute, writeCell, Command.letter]
    | input =>
      have hread : m.readCell.dptr = m.dptr := by
        unfold readCell
        split <;> rfl
      simp [execute, hread, Command.letter]
    | opening => simp [Command.isBracket] at hb
    | closing => simp [Command.isBracket] at hb
  · have hright : m.executes '>' = false := not_executes hdata .right rfl
    have hleft : m.executes '<' = false := not_executes hdata .left rfl
    rw [(step_control hdata).1, hright, hleft]
    simp

/-- An output command shows the cell that it wrote. -/
theorem cell_step_output {m : Machine} (h : m.current? = some (.char '.')) :
    m.step.state.cell = m.cell := by
  rw [step_data h rfl rfl]
  rfl

theorem WellNested.cycles_step {m : Machine} (hm : m.WellNested) :
    m.step.state.cycles = m.cycles + (if m.current?.any isCommand then 1 else 0) := by
  cases hc : m.current? with
  | none =>
    rw [step_halted hc]
    rfl
  | some c =>
    cases hcommand : isCommand c with
    | true =>
      rw [hm.cycles_command hc hcommand]
      simp [hcommand]
    | false =>
      rw [step_comment hc (Command.ofLetter?_eq_none hcommand)]
      simp [hcommand, pass]

theorem WellNested.cycles_after {m : Machine} (hm : m.WellNested) (n : Nat) :
    (m.after n).cycles = m.cycles + (m.visited n).countP (·.current?.any isCommand) := by
  induction n generalizing m with
  | zero => rfl
  | succ n ih =>
    rw [after_succ, ih hm.step, hm.cycles_step, visited_succ, List.countP_cons]
    omega

theorem dptr_after (m : Machine) (n : Nat) :
    (m.after n).dptr = m.dptr + (m.visited n).countP (executes '>') -
      (m.visited n).countP (executes '<') := by
  induction n generalizing m with
  | zero => simp [visited]
  | succ n ih =>
    rw [after_succ, ih, dptr_step, visited_succ, List.countP_cons, List.countP_cons]
    split <;> split <;> omega

theorem passed_after (m : Machine) (n : Nat) :
    Channels.Passed ((m.visited n).flatMap taken) ((m.visited n).flatMap written) m.channels
      (m.after n).channels := by
  induction n generalizing m with
  | zero => exact .refl m.channels
  | succ n ih => exact m.passed_step.trans (ih m.step.state)

/-- From an input of its own each input command takes a character as long as there is one. -/
theorem length_taken_after {m : Machine} (hm : m.channels.isSeparate = true) (n : Nat) :
    ((m.visited n).flatMap taken).length =
      min ((m.visited n).countP (executes ',')) m.channels.input.size := by
  induction n generalizing m with
  | zero => simp [visited]
  | succ n ih =>
    have hrest := m.passed_step.size_input hm
    have hfirst : m.taken.length =
        min (if m.executes ',' then 1 else 0) m.channels.input.size := by
      rw [taken]
      split
      · exact m.channels.input.length_read 1
      · exact (Nat.zero_min _).symm
    rw [visited_succ, List.flatMap_cons, List.length_append, ih (m.isSeparate_step.trans hm),
      List.countP_cons]
    omega

end Machine

theorem toNat_ofNat_of_lt {n : Nat} (h : n < 256) : (Char.ofNat n).toNat = n := by
  have hvalid : n.isValidChar := Or.inl (by omega)
  rw [Char.ofNat, dif_pos hvalid]
  rfl

/-- Whether a picture was taken after the character `c` was executed. -/
def Snapshot.executed (c : Letter) (s : Snapshot) : Bool := s.command == some c

/-- What the output commands of some pictures wrote, by the cells that they show. -/
def Snapshot.output (states : List Snapshot) : Text :=
  (states.filter (executed '.')).map fun s => .char (Char.ofNat s.cell.toNat)

theorem Snapshot.code_lt_of_mem_output {states : List Snapshot} {letter : Letter}
    (h : letter ∈ output states) : letter.code < 256 := by
  obtain ⟨s, -, rfl⟩ := List.mem_map.mp h
  have hlt : s.cell.toNat < 256 := s.cell.toNat_lt
  rwa [Letter.code, toNat_ofNat_of_lt hlt]

namespace Observed

/-- The pictures name the characters in front of which the machine stood. -/
theorem map_command_pictures {o : Observed} (hm : o.machine.WellNested) {n : Nat}
    (h : ∀ i < n, (o.machine.after i).halted = false) :
    (o.pictures n).map (·.command) = (o.machine.visited n).map (·.current?) := by
  induction n generalizing o with
  | zero => rfl
  | succ n ih =>
    obtain ⟨c, hc, hstep⟩ := step_of_not_halted hm (h 0 (by omega))
    have hrest := ih (o := ⟨o.machine.step.state, o.tracer.record c⟩) hm.step
      fun i hi => h (i + 1) (by omega)
    rw [pictures_succ, Machine.visited_succ, List.map_cons, List.map_cons, hstep, hrest, hc]
    rfl

theorem countP_pictures {o : Observed} (hm : o.machine.WellNested) {n : Nat}
    (h : ∀ i < n, (o.machine.after i).halted = false) (p : Option Letter → Bool) :
    (o.pictures n).countP (p ·.command) = (o.machine.visited n).countP (p ·.current?) := by
  have hcount := congrArg (List.countP p) (map_command_pictures hm h)
  rwa [List.countP_map, List.countP_map] at hcount

/-- The cells behind the output commands are what was written. -/
theorem output_pictures {o : Observed} (hm : o.machine.WellNested) {n : Nat}
    (h : ∀ i < n, (o.machine.after i).halted = false) :
    Snapshot.output (o.pictures n) = (o.machine.visited n).flatMap Machine.written := by
  induction n generalizing o with
  | zero => rfl
  | succ n ih =>
    obtain ⟨c, hc, hstep⟩ := step_of_not_halted hm (h 0 (by omega))
    have hrest := ih (o := ⟨o.machine.step.state, o.tracer.record c⟩) hm.step
      fun i hi => h (i + 1) (by omega)
    rw [pictures_succ, Machine.visited_succ, List.flatMap_cons, ← hrest, hstep, Machine.written,
      Machine.executes_eq hc, Snapshot.output]
    by_cases hdot : c = '.'
    · subst hdot
      rw [List.filter_cons_of_pos rfl, List.map_cons, snapshot, Tracer.snapshot,
        Machine.cell_step_output hc]
      rfl
    · have hnot : (c == '.') = false := by simpa using hdot
      have hskip : ¬ Snapshot.executed '.'
          (snapshot ⟨o.machine.step.state, o.tracer.record c⟩) = true := by
        simpa [Snapshot.executed, snapshot, Tracer.snapshot, Tracer.record] using hdot
      rw [List.filter_cons_of_neg hskip, hnot]
      rfl

end Observed

namespace Session

/-- The ledger of a trace. The cycles have grown by the commands executed, the data pointer
has moved by the moves, and the output has grown by the cells behind the output commands;
of an input of its own each input command has taken one character as long as there was one.
When one channel serves for both, what was in it and what was written to it is together
what was read from it and what is left. -/
theorem trace_keeps_ledger {s : Session} (hs : Reachable Request.KeepsControl s)
    (tracer : Tracer) (count : Int) :
    let m := s.machine
    let traced := (⟨m, tracer⟩ : Observed).trace count
    let final := traced.state.machine
    ∃ states, traced.result = .ok states ∧
      final.cycles = m.cycles + states.countP (·.command.any isCommand) ∧
      final.dptr = m.dptr + states.countP (Snapshot.executed '>') -
        states.countP (Snapshot.executed '<') ∧
      (∀ letter ∈ Snapshot.output states, letter.code < 256) ∧
      (∀ input output, m.channels = .separate input output →
        final.channels = .separate
          ⟨input.buffer.drop (min (states.countP (Snapshot.executed ',')) input.buffer.length)⟩
          ⟨output.buffer ++ Snapshot.output states⟩) ∧
      ∀ channel, m.channels = .shared channel →
        ∃ rest, final.channels = .shared rest ∧
          channel.buffer ++ Snapshot.output states =
            (m.visited states.length).flatMap Machine.taken ++ rest.buffer := by
  intro m traced final
  have hm : m.WellNested := wellNested_kept.reachable hs
  let o : Observed := ⟨m, tracer⟩
  let made := m.stepsMade count.toNat
  have htraced : traced = _ := o.trace_eq hm count
  have hfinal : final = m.after made := by
    rw [show final = traced.state.machine from rfl, htraced]
    exact o.machine_after made
  have hbefore : ∀ i < made, (m.after i).halted = false :=
    fun i hi => Machine.halted_of_lt_stepsMade hi
  -- The pictures name what the machine stood in front of, so both are counted alike.
  have hcount := Observed.countP_pictures (o := o) hm hbefore
  have hexecuted : ∀ c, (o.pictures made).countP (Snapshot.executed c) =
      (m.visited made).countP (Machine.executes c) := fun c => hcount (· == some c)
  have hpassed := m.passed_after made
  rw [← hfinal, ← Observed.output_pictures (o := o) hm hbefore] at hpassed
  refine ⟨o.pictures made, by rw [htraced], ?_, ?_, ?_, ?_, ?_⟩
  · rw [hfinal, hm.cycles_after, hcount (·.any isCommand)]
  · rw [hfinal, m.dptr_after, hexecuted, hexecuted]
  · intro letter hletter
    exact Snapshot.code_lt_of_mem_output hletter
  · intro input output hchannels
    have hseparate : m.channels.isSeparate = true := by rw [hchannels]; rfl
    have htaken := Machine.length_taken_after hseparate made
    rw [hchannels] at hpassed htaken
    rw [hpassed.of_separate, htaken, hexecuted]
    rfl
  · intro channel hchannels
    rw [hchannels] at hpassed
    rw [o.length_pictures]
    exact hpassed.of_shared

/-- An echo whose input runs dry inside of a loop, and one channel through which a character
comes back. -/
theorem trace_keeps_ledger_in_echo :
    (∃ s : Session, Reachable Request.KeepsControl s ∧
      ((⟨s.machine, { showRange := ⟨5, by decide⟩ }⟩ : Observed).trace 9).state.machine.channels =
        .separate {} ⟨['x', 'a', 'b', 'b']⟩) ∧
    ∃ s : Session, Reachable Request.KeepsControl s ∧
      ∃ rest,
        ((⟨s.machine, { showRange := ⟨5, by decide⟩ }⟩ : Observed).trace 5).state.machine.channels =
          .shared rest ∧ Text.ofString "abab" = Text.ofString "aba" ++ rest.buffer := by
  constructor
  · have hfresh := @Reachable.fresh Request.KeepsControl none none
      (.separate ⟨['a', 'b']⟩ ⟨['x']⟩) _ rfl
    have hloaded := hfresh.request (.loadScript ",[.,]") trivial
    obtain ⟨states, hstates, -, -, -, hseparate, -⟩ :=
      trace_keeps_ledger hloaded { showRange := ⟨5, by decide⟩ } 9
    obtain rfl := Except.ok.inj hstates
    exact ⟨_, hloaded, (hseparate _ _ rfl).trans (by decide)⟩
  · have hfresh := @Reachable.fresh Request.KeepsControl none none (.shared ⟨['a', 'b']⟩) _ rfl
    have hloaded := hfresh.request (.loadScript ",.,.,") trivial
    obtain ⟨states, hstates, -, -, -, -, hshared⟩ :=
      trace_keeps_ledger hloaded { showRange := ⟨5, by decide⟩ } 5
    obtain rfl := Except.ok.inj hstates
    obtain ⟨rest, hrest, hledger⟩ := hshared _ rfl
    exact ⟨_, hloaded, rest, hrest, hledger⟩

end Session

end Brainfuck
