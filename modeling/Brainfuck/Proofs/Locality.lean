import Brainfuck.Proofs.Ledger

/-!
How far an execution reaches. A step reads and writes no cell but the current one and moves
the data pointer by at most one, so `n` steps leave every cell alone that is `n` or more away
from the pointer, and they depend on no such cell either: two machines that differ in these
cells only do the same for `n` steps and differ in the same cells only ever after.
-/
namespace Brainfuck

namespace Tape

/-- The tapes agree about the given cells, in their values and in which of them are written. -/
structure AgreeOn (cells : Set Int) (a b : Tape) : Prop where
  get : ∀ i ∈ cells, b.get i = a.get i
  isWritten : ∀ i ∈ cells, b.isWritten i = a.isWritten i

namespace AgreeOn

variable {cells : Set Int} {a b c : Tape}

theorem refl (cells : Set Int) (a : Tape) : AgreeOn cells a a where
  get _ _ := rfl
  isWritten _ _ := rfl

theorem trans (hab : AgreeOn cells a b) (hbc : AgreeOn cells b c) : AgreeOn cells a c where
  get i hi := (hbc.get i hi).trans (hab.get i hi)
  isWritten i hi := (hbc.isWritten i hi).trans (hab.isWritten i hi)

theorem mono {fewer : Set Int} (h : AgreeOn cells a b) (hle : fewer ⊆ cells) :
    AgreeOn fewer a b where
  get i hi := h.get i (hle hi)
  isWritten i hi := h.isWritten i (hle hi)

theorem set (h : AgreeOn cells a b) (i : Int) (byte : UInt8) :
    AgreeOn cells (a.set i byte) (b.set i byte) where
  get j hj := by rw [get_set, get_set, h.get j hj]
  isWritten j hj := by rw [isWritten_set, isWritten_set, h.isWritten j hj]

/-- Writing a cell does not touch the others. -/
theorem of_set {i : Int} (hi : i ∉ cells) (a : Tape) (byte : UInt8) :
    AgreeOn cells a (a.set i byte) where
  get j hj := by
    have hij : i ≠ j := fun heq => hi (heq ▸ hj)
    rw [get_set, if_neg hij]
  isWritten j hj := by
    have hij : i ≠ j := fun heq => hi (heq ▸ hj)
    rw [isWritten_set, decide_eq_false hij, Bool.false_or]

end AgreeOn

end Tape

namespace Machine

theorem tape_readCell (m : Machine) :
    m.readCell.tape = m.tape ∨ ∃ byte, m.readCell.tape = m.tape.set m.dptr byte := by
  unfold readCell
  split
  · exact Or.inr ⟨_, rfl⟩
  · change m.atEof = m.tape ∨ ∃ byte, m.atEof = m.tape.set m.dptr byte
    unfold atEof
    cases m.settings.eof with
    | unchanged => exact Or.inl rfl
    | zero => exact Or.inr ⟨0, rfl⟩
    | max => exact Or.inr ⟨255, rfl⟩

/-- A step leaves the tape alone or writes the current cell. -/
theorem tape_step (m : Machine) :
    m.step.state.tape = m.tape ∨ ∃ byte, m.step.state.tape = m.tape.set m.dptr byte := by
  rcases m.data_or_control with ⟨c, command, hc, hcommand, hb⟩ | hcontrol
  · rw [step_data hc hcommand hb]
    change (m.execute command).state.tape = m.tape ∨
      ∃ byte, (m.execute command).state.tape = m.tape.set m.dptr byte
    cases command with
    | right => exact Or.inl rfl
    | left => exact Or.inl rfl
    | increment => exact Or.inr ⟨_, rfl⟩
    | decrement => exact Or.inr ⟨_, rfl⟩
    | output => exact Or.inl rfl
    | input => exact m.tape_readCell
    | opening => simp [Command.isBracket] at hb
    | closing => simp [Command.isBracket] at hb
  · exact Or.inl (congrArg (·.state.tape) (hcontrol m rfl))

theorem agreeOn_step {m : Machine} {cells : Set Int} (h : m.dptr ∉ cells) :
    Tape.AgreeOn cells m.tape m.step.state.tape := by
  rcases m.tape_step with hsame | ⟨byte, hset⟩
  · rw [hsame]
    exact .refl cells m.tape
  · rw [hset]
    exact .of_set h m.tape byte

theorem natAbs_dptr_step (m : Machine) : (m.step.state.dptr - m.dptr).natAbs ≤ 1 := by
  rw [dptr_step]
  split <;> split <;> omega

theorem natAbs_dptr_after (m : Machine) (n : Nat) : ((m.after n).dptr - m.dptr).natAbs ≤ n := by
  induction n with
  | zero => simp
  | succ n ih =>
    have hstep := (m.after n).natAbs_dptr_step
    rw [after_succ_last]
    omega

/-- What is too far away to be reached is left alone. -/
theorem agreeOn_after (m : Machine) (n : Nat) :
    Tape.AgreeOn {i | n ≤ (i - m.dptr).natAbs} m.tape (m.after n).tape := by
  induction n generalizing m with
  | zero => exact .refl _ m.tape
  | succ n ih =>
    have hstep : Tape.AgreeOn {i | n + 1 ≤ (i - m.dptr).natAbs} m.tape m.step.state.tape := by
      apply agreeOn_step
      simp
    have hrest := ih m.step.state
    rw [after_succ]
    refine hstep.trans (hrest.mono ?_)
    intro i hi
    have hmove := m.natAbs_dptr_step
    simp only [Set.mem_ofPred_eq] at hi ⊢
    omega

/-- The machines differ in no more than cells that are not among the given ones. -/
structure AgreesOn (cells : Set Int) (a b : Machine) : Prop where
  rest : b = { a with tape := b.tape }
  tape : Tape.AgreeOn cells a.tape b.tape

end Machine

/-- Outcomes that agree but for cells that are not among the given ones. -/
structure Outcome.AgreesOn (cells : Set Int) {α : Type} (x y : Outcome Machine α) : Prop where
  state : Machine.AgreesOn cells x.state y.state
  log : y.log = x.log
  result : y.result = x.result

namespace Machine

namespace AgreesOn

variable {cells : Set Int} {a b : Machine}

theorem cell (h : AgreesOn cells a b) (hd : a.dptr ∈ cells) : b.cell = a.cell := by
  rw [h.rest]
  exact h.tape.get a.dptr hd

theorem current? (h : AgreesOn cells a b) : b.current? = a.current? := by
  rw [h.rest]
  rfl

theorem setCell (h : AgreesOn cells a b) (byte : UInt8) :
    AgreesOn cells { a with tape := a.tape.set a.dptr byte }
      { b with tape := b.tape.set b.dptr byte } := by
  rw [h.rest]
  exact ⟨rfl, h.tape.set a.dptr byte⟩

theorem withChannels (h : AgreesOn cells a b) (channels : Channels) :
    AgreesOn cells { a with channels } { b with channels } := by
  rw [h.rest]
  exact ⟨rfl, h.tape⟩

theorem tick (h : AgreesOn cells a b) : AgreesOn cells a.tick b.tick := by
  rw [h.rest]
  exact ⟨rfl, h.tape⟩

theorem movePointer (h : AgreesOn cells a b) (distance : Int) :
    Outcome.AgreesOn cells (a.movePointer distance) (b.movePointer distance) := by
  rw [h.rest]
  exact ⟨⟨rfl, h.tape⟩, rfl, rfl⟩

theorem writeCell (h : AgreesOn cells a b) (hd : a.dptr ∈ cells) :
    AgreesOn cells a.writeCell b.writeCell := by
  have hchannels : b.channels = a.channels := by rw [h.rest]
  unfold Machine.writeCell
  rw [h.cell hd, hchannels]
  exact h.withChannels _

theorem atEof (h : AgreesOn cells a b) :
    AgreesOn cells { a with tape := a.atEof } { b with tape := b.atEof } := by
  have heof : b.settings.eof = a.settings.eof := by rw [h.rest]
  unfold Machine.atEof
  rw [heof]
  cases a.settings.eof with
  | unchanged => exact h
  | zero => exact h.setCell 0
  | max => exact h.setCell 255

theorem readCell (h : AgreesOn cells a b) : AgreesOn cells a.readCell b.readCell := by
  have hchannels : b.channels = a.channels := by rw [h.rest]
  obtain ⟨letters, rest, hread⟩ : ∃ letters rest, a.channels.input.read 1 = (letters, rest) :=
    ⟨_, _, rfl⟩
  have hother : b.channels.input.read 1 = (letters, rest) := by rw [hchannels, hread]
  cases letters with
  | nil =>
    rw [readCell_nil hread, readCell_nil hother]
    exact h.atEof
  | cons c more =>
    rw [readCell_cons hread, readCell_cons hother, hchannels]
    exact (h.setCell (UInt8.ofInt c.code)).withChannels _

/-- A data command looks at no cell but the current one. -/
theorem execute (h : AgreesOn cells a b) (hd : a.dptr ∈ cells) {command : Command}
    (hb : command.isBracket = false) :
    Outcome.AgreesOn cells (a.execute command) (b.execute command) := by
  have hcell : b.tape.get b.dptr = a.cell := h.cell hd
  cases command with
  | right => exact h.movePointer 1
  | left => exact h.movePointer (-1)
  | increment =>
    refine ⟨?_, rfl, rfl⟩
    simp only [Machine.execute, Tape.increment, hcell]
    exact h.setCell (a.cell + 1)
  | decrement =>
    refine ⟨?_, rfl, rfl⟩
    simp only [Machine.execute, Tape.decrement, hcell]
    exact h.setCell (a.cell - 1)
  | output => exact ⟨h.writeCell hd, rfl, rfl⟩
  | input => exact ⟨h.readCell, rfl, rfl⟩
  | opening => simp [Command.isBracket] at hb
  | closing => simp [Command.isBracket] at hb

/-- A step looks at no cell but the current one. -/
theorem step (h : AgreesOn cells a b) (hd : a.dptr ∈ cells) :
    Outcome.AgreesOn cells a.step b.step := by
  rcases a.data_or_control with ⟨c, command, hc, hcommand, hb⟩ | hcontrol
  · have heffect := h.execute hd hb
    rw [step_data hc hcommand hb, step_data (h.current?.trans hc) hcommand hb]
    exact ⟨heffect.state.tick, heffect.log, rfl⟩
  · -- A step that leaves the data alone takes those of the second machine as they are.
    have hsame : a.step.state = a.step.state.withDataOf a :=
      congrArg Outcome.state (hcontrol a rfl)
    have hother : b = a.withDataOf b := by
      rw [h.rest]
      rfl
    have hstate : a.step.state.withDataOf b = { a.step.state with tape := b.tape } :=
      calc a.step.state.withDataOf b
          = { a.step.state.withDataOf a with tape := b.tape } := by
            rw [h.rest]
            rfl
        _ = { a.step.state with tape := b.tape } := by rw [← hsame]
    have htape : a.step.state.tape = a.tape := congrArg (·.state.tape) (hcontrol a rfl)
    rw [hother, hcontrol b (h.cell hd)]
    refine ⟨⟨hstate, ?_⟩, rfl, rfl⟩
    rw [htape]
    exact h.tape

/-- Machines that agree wherever one of them gets to stay in agreement. -/
theorem after (h : AgreesOn cells a b) {n : Nat} (hd : ∀ k < n, (a.after k).dptr ∈ cells) :
    AgreesOn cells (a.after n) (b.after n) := by
  induction n with
  | zero => exact h
  | succ n ih =>
    have hbefore := ih fun k hk => hd k (by omega)
    rw [after_succ_last, after_succ_last]
    exact (hbefore.step (hd n (by omega))).state

end AgreesOn

/-- Execution is local. However a machine has come about, `n` steps leave every cell alone
that is `n` or more away from the data pointer. A machine that differs from it in such cells
only returns and reports the same in each of `n` steps, and after each of them the two still
differ in such cells only. -/
theorem execution_is_local (m : Machine) (n : Nat) :
    Tape.AgreeOn {i | n ≤ (i - m.dptr).natAbs} m.tape (m.after n).tape ∧
      ∀ other : Machine, AgreesOn {i | (i - m.dptr).natAbs < n} m other →
        (∀ k < n, (other.after k).step.result = (m.after k).step.result ∧
          (other.after k).step.log = (m.after k).step.log) ∧
        ∀ k ≤ n, AgreesOn {i | (i - m.dptr).natAbs < n} (m.after k) (other.after k) := by
  refine ⟨m.agreeOn_after n, ?_⟩
  intro other h
  have hnear : ∀ k < n, (m.after k).dptr ∈ {i | (i - m.dptr).natAbs < n} := by
    intro k hk
    exact Nat.lt_of_le_of_lt (m.natAbs_dptr_after k) hk
  have hafter : ∀ k ≤ n, AgreesOn {i | (i - m.dptr).natAbs < n} (m.after k) (other.after k) :=
    fun k hk => h.after fun i hi => hnear i (by omega)
  refine ⟨?_, hafter⟩
  intro k hk
  have hstep := (hafter k (by omega)).step (hnear k hk)
  exact ⟨hstep.result, hstep.log⟩

/-- A cell four places away that is written on one machine only. The two leave the nominal
memory together, and the fifth step is the first to tell them apart. -/
theorem execution_is_local_up_to_loop :
    let m : Machine :=
      { settings := {}, memoryLength := ⟨2, by decide⟩, script := ">>>>[]"
        channels := .separate {} {} }
    let other : Machine := { m with tape := m.tape.set 4 7 }
    AgreesOn {i | (i - m.dptr).natAbs < 4} m other ∧
      (∀ k < 4, (other.after k).step.log = (m.after k).step.log) ∧
      AgreesOn {i | (i - m.dptr).natAbs < 4} (m.after 4) (other.after 4) ∧
      (m.after 4).tape.get 4 = m.tape.get 4 ∧
      (m.after 1).step.log = [.leftMemory 2 2] ∧
      (m.after 5).loops = [] ∧ (other.after 5).loops = [4] := by
  intro m other
  have hfar : (4 : Int) ∉ {i : Int | (i - m.dptr).natAbs < 4} := by simp [m]
  have hagrees : AgreesOn {i | (i - m.dptr).natAbs < 4} m other := ⟨rfl, .of_set hfar m.tape 7⟩
  obtain ⟨hframe, hlocal⟩ := execution_is_local m 4
  obtain ⟨hsteps, hafter⟩ := hlocal other hagrees
  exact ⟨hagrees, fun k hk => (hsteps k hk).2, hafter 4 (by omega), hframe.get 4 (by simp [m]),
    by decide, by decide, by decide⟩

end Machine

end Brainfuck
