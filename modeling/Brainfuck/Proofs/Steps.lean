import Brainfuck.Machine.Run
import Brainfuck.Proofs.Brackets
import Mathlib.Logic.Function.Iterate

/-!
What a step does, told once for all later arguments. A step halts, passes a comment,
lets a command work on the data, or moves the instruction pointer at a bracket; a
step that fails changes nothing. Everything that drives a machine only makes steps,
so what one step keeps is kept by all of it.
-/
namespace Brainfuck

namespace Machine

theorem halted_iff (m : Machine) : m.halted = true ↔ m.current? = none := by
  simp [halted, current?]

theorem halted_of_current? {m : Machine} {c : Letter} (h : m.current? = some c) :
    m.halted = false := by
  rw [← Bool.not_eq_true, halted_iff, h]
  simp

theorem exists_current? {m : Machine} (h : m.halted = false) : ∃ c, m.current? = some c := by
  cases hc : m.current? with
  | none =>
    rw [m.halted_iff.mpr hc] at h
    cases h
  | some c => exact ⟨c, rfl⟩

theorem lt_length_of_current? {m : Machine} {c : Letter} (h : m.current? = some c) :
    m.iptr < m.script.length :=
  (List.getElem?_eq_some_iff.mp h).1

theorem readCell_cons {m : Machine} {letter : Letter} {more : Text} {rest : Channel}
    (h : m.channels.input.read 1 = (letter :: more, rest)) :
    m.readCell = { m with
      tape := m.tape.store m.dptr letter.code, channels := m.channels.withInput rest } := by
  rw [readCell, h]

theorem readCell_nil {m : Machine} {rest : Channel}
    (h : m.channels.input.read 1 = ([], rest)) : m.readCell = { m with tape := m.atEof } := by
  rw [readCell, h]

/-- A command that is no bracket only works on the data. -/
theorem execute_data (m : Machine) {command : Command} (h : command.isBracket = false) :
    ∃ tape dptr outside channels,
      (m.execute command).state = { m with tape, dptr, outside, channels } ∧
        (m.execute command).result = .ok () := by
  cases command with
  | right => exact ⟨_, _, _, _, rfl, rfl⟩
  | left => exact ⟨_, _, _, _, rfl, rfl⟩
  | increment => exact ⟨_, _, _, _, rfl, rfl⟩
  | decrement => exact ⟨_, _, _, _, rfl, rfl⟩
  | output => exact ⟨_, _, _, _, rfl, rfl⟩
  | input =>
    simp only [execute, readCell, and_true]
    split
    · exact ⟨_, _, _, _, rfl⟩
    · exact ⟨_, _, _, _, rfl⟩
  | opening => simp [Command.isBracket] at h
  | closing => simp [Command.isBracket] at h

theorem step_halted {m : Machine} (h : m.current? = none) : m.step = ⟨m, [], .ok false⟩ := by
  simp [step, h]

theorem step_comment {m : Machine} {c : Letter} (h : m.current? = some c)
    (hc : Command.ofLetter? c = none) : m.step = ⟨m.pass, [], .ok true⟩ := by
  simp [step, h, hc]

theorem step_data {m : Machine} {c : Letter} {command : Command} (h : m.current? = some c)
    (hc : Command.ofLetter? c = some command) (hb : command.isBracket = false) :
    m.step = ⟨(m.execute command).state.tick, (m.execute command).log, .ok true⟩ := by
  obtain ⟨_, _, _, _, -, hresult⟩ := m.execute_data hb
  simp [step, h, hc, hresult]

theorem step_enter {m : Machine} (h : m.current? = some (.char '[')) (hcell : m.cell ≠ 0) :
    m.step = ⟨{ m with loops := m.iptr :: m.loops }.tick, [], .ok true⟩ := by
  simp [step, h, Command.ofLetter?, execute, openLoop, hcell]

theorem step_skip {m : Machine} {position : Nat} (h : m.current? = some (.char '['))
    (hcell : m.cell = 0) (hclosing : m.script.closing? m.iptr = some position) :
    m.step = ⟨{ m with iptr := position }.tick, [], .ok true⟩ := by
  simp [step, h, Command.ofLetter?, execute, openLoop, hcell, hclosing]

theorem step_noClosing {m : Machine} (h : m.current? = some (.char '[')) (hcell : m.cell = 0)
    (hclosing : m.script.closing? m.iptr = none) :
    m.step = ⟨m, [.noClosing m.iptr], .error (.noClosing m.iptr)⟩ := by
  simp [step, h, Command.ofLetter?, execute, openLoop, hcell, hclosing]

theorem step_again {m : Machine} {position : Nat} {outer : List Nat}
    (h : m.current? = some (.char ']')) (hcell : m.cell ≠ 0)
    (hloops : m.loops = position :: outer) :
    m.step = ⟨{ m with iptr := position }.tick, [], .ok true⟩ := by
  simp [step, h, Command.ofLetter?, execute, closeLoop, hcell, hloops]

theorem step_leave {m : Machine} {position : Nat} {outer : List Nat}
    (h : m.current? = some (.char ']')) (hcell : m.cell = 0)
    (hloops : m.loops = position :: outer) :
    m.step = ⟨{ m with loops := outer }.tick, [], .ok true⟩ := by
  simp [step, h, Command.ofLetter?, execute, closeLoop, hcell, hloops]

theorem step_noLoopToRepeat {m : Machine} (h : m.current? = some (.char ']')) (hcell : m.cell ≠ 0)
    (hloops : m.loops = []) : m.step = ⟨m, [], .error .noLoopToRepeat⟩ := by
  simp [step, h, Command.ofLetter?, execute, closeLoop, hcell, hloops]

theorem step_noLoopToLeave {m : Machine} (h : m.current? = some (.char ']')) (hcell : m.cell = 0)
    (hloops : m.loops = []) : m.step = ⟨m, [], .error .noLoopToLeave⟩ := by
  simp [step, h, Command.ofLetter?, execute, closeLoop, hcell, hloops]

/-- The ways in which a step can go; each has its equation above. -/
inductive StepCase (m : Machine) : Prop
  | halted (h : m.current? = none)
  | comment (c : Letter) (h : m.current? = some c) (hc : Command.ofLetter? c = none)
  | data (c : Letter) (command : Command) (h : m.current? = some c)
      (hc : Command.ofLetter? c = some command) (hb : command.isBracket = false)
  | enter (h : m.current? = some (.char '[')) (hcell : m.cell ≠ 0)
  | skip (position : Nat) (h : m.current? = some (.char '[')) (hcell : m.cell = 0)
      (hclosing : m.script.closing? m.iptr = some position)
  | noClosing (h : m.current? = some (.char '[')) (hcell : m.cell = 0)
      (hclosing : m.script.closing? m.iptr = none)
  | again (position : Nat) (outer : List Nat) (h : m.current? = some (.char ']'))
      (hcell : m.cell ≠ 0) (hloops : m.loops = position :: outer)
  | leave (position : Nat) (outer : List Nat) (h : m.current? = some (.char ']'))
      (hcell : m.cell = 0) (hloops : m.loops = position :: outer)
  | noLoop (h : m.current? = some (.char ']')) (hloops : m.loops = [])

theorem stepCase (m : Machine) : StepCase m := by
  cases h : m.current? with
  | none => exact .halted h
  | some c =>
    cases hc : Command.ofLetter? c with
    | none => exact .comment c h hc
    | some command =>
      by_cases hb : command.isBracket = false
      · exact .data c command h hc hb
      · cases command with
        | opening =>
          obtain rfl := Command.ofLetter?_eq_opening hc
          by_cases hcell : m.cell = 0
          · cases hclosing : m.script.closing? m.iptr with
            | none => exact .noClosing h hcell hclosing
            | some position => exact .skip position h hcell hclosing
          · exact .enter h hcell
        | closing =>
          obtain rfl := Command.ofLetter?_eq_closing hc
          cases hloops : m.loops with
          | nil => exact .noLoop h hloops
          | cons position outer =>
            by_cases hcell : m.cell = 0
            · exact .leave position outer h hcell hloops
            · exact .again position outer h hcell hloops
        | _ => simp [Command.isBracket] at hb

/-- The machine with the data of another one: script, instruction pointer, cycle count
and loop stack stay. -/
def withDataOf (m other : Machine) : Machine :=
  { other with script := m.script, iptr := m.iptr, cycles := m.cycles, loops := m.loops }

/-- A step lets a data command work, or else it sees nothing of the data but the current
cell and leaves all of them alone. -/
theorem data_or_control (m : Machine) :
    (∃ c command, m.current? = some c ∧ Command.ofLetter? c = some command ∧
      command.isBracket = false) ∨
    ∀ other : Machine, other.cell = m.cell →
      (m.withDataOf other).step =
        ⟨m.step.state.withDataOf other, m.step.log, m.step.result⟩ := by
  by_cases hdata : ∃ c command, m.current? = some c ∧ Command.ofLetter? c = some command ∧
      command.isBracket = false
  · exact Or.inl hdata
  · refine Or.inr fun other hsame => ?_
    have hcurrent : (m.withDataOf other).current? = m.current? := rfl
    cases m.stepCase with
    | data c command h hc hb => exact absurd ⟨c, command, h, hc, hb⟩ hdata
    | halted h => rw [step_halted h, step_halted (hcurrent.trans h)]
    | comment c h hc =>
      rw [step_comment h hc, step_comment (hcurrent.trans h) hc]
      rfl
    | enter h hcell =>
      rw [step_enter h hcell, step_enter (hcurrent.trans h) (hsame.trans_ne hcell)]
      rfl
    | skip position h hcell hclosing =>
      rw [step_skip h hcell hclosing,
        step_skip (hcurrent.trans h) (hsame.trans hcell) hclosing]
      rfl
    | noClosing h hcell hclosing =>
      rw [step_noClosing h hcell hclosing,
        step_noClosing (hcurrent.trans h) (hsame.trans hcell) hclosing]
      rfl
    | again position outer h hcell hloops =>
      rw [step_again h hcell hloops,
        step_again (hcurrent.trans h) (hsame.trans_ne hcell) hloops]
      rfl
    | leave position outer h hcell hloops =>
      rw [step_leave h hcell hloops,
        step_leave (hcurrent.trans h) (hsame.trans hcell) hloops]
      rfl
    | noLoop h hloops =>
      by_cases hcell : m.cell = 0
      · rw [step_noLoopToLeave h hcell hloops,
          step_noLoopToLeave (hcurrent.trans h) (hsame.trans hcell) hloops]
      · rw [step_noLoopToRepeat h hcell hloops,
          step_noLoopToRepeat (hcurrent.trans h) (hsame.trans_ne hcell) hloops]

/-- A change of the data alone that does not show in the current cell. -/
structure Unseen (change : Machine → Machine) : Prop where
  data : ∀ m other : Machine, change (m.withDataOf other) = m.withDataOf (change other)
  cell : ∀ m : Machine, (change m).cell = m.cell

/-- A step after such a change is the changed step, if this holds for the data command
that it executes. -/
theorem Unseen.step {change : Machine → Machine} (h : Unseen change) {m : Machine}
    (hdata : ∀ c command, m.current? = some c → Command.ofLetter? c = some command →
      command.isBracket = false →
        (change m).execute command = ⟨change (m.execute command).state,
          (m.execute command).log, (m.execute command).result⟩) :
    (change m).step = ⟨change m.step.state, m.step.log, m.step.result⟩ := by
  have hchange : ∀ n : Machine, change n = n.withDataOf (change n) := fun n => h.data n n
  rcases m.data_or_control with ⟨c, command, hc, hcommand, hb⟩ | hcontrol
  · have hcurrent : (change m).current? = some c := by
      rw [hchange]
      exact hc
    have htick : ∀ n : Machine, change n.tick = (change n).tick := by
      intro n
      rw [hchange n]
      exact h.data n.tick n
    rw [step_data hc hcommand hb, step_data hcurrent hcommand hb,
      hdata c command hc hcommand hb, htick]
  · -- The step leaves the data as they are, so the changed data come out of it as well.
    have hsame : m.step.state = m.step.state.withDataOf m :=
      congrArg Outcome.state (hcontrol m rfl)
    have hstate : m.step.state.withDataOf (change m) = change m.step.state := by
      rw [← h.data, ← hsame]
    rw [hchange m, hcontrol (change m) (h.cell m), hstate]

/-- No step changes the settings. -/
theorem settings_step (m : Machine) : m.step.state.settings = m.settings := by
  rcases m.data_or_control with ⟨c, command, hc, hcommand, hb⟩ | hcontrol
  · obtain ⟨_, _, _, _, hstate, -⟩ := m.execute_data hb
    rw [step_data hc hcommand hb, hstate]
    rfl
  · exact congrArg (·.state.settings) (hcontrol m rfl)

/-- No step changes the script. -/
theorem script_step (m : Machine) : m.step.state.script = m.script := by
  cases m.stepCase with
  | halted h => rw [step_halted h]
  | comment c h hc =>
    rw [step_comment h hc]
    rfl
  | data c command h hc hb =>
    obtain ⟨_, _, _, _, hstate, -⟩ := m.execute_data hb
    rw [step_data h hc hb, hstate]
    rfl
  | enter h hcell =>
    rw [step_enter h hcell]
    rfl
  | skip position h hcell hclosing =>
    rw [step_skip h hcell hclosing]
    rfl
  | noClosing h hcell hclosing => rw [step_noClosing h hcell hclosing]
  | again position outer h hcell hloops =>
    rw [step_again h hcell hloops]
    rfl
  | leave position outer h hcell hloops =>
    rw [step_leave h hcell hloops]
    rfl
  | noLoop h hloops =>
    by_cases hcell : m.cell = 0
    · rw [step_noLoopToLeave h hcell hloops]
    · rw [step_noLoopToRepeat h hcell hloops]

/-- Only a halted machine has no step to make. -/
theorem current?_of_step_false {m : Machine} (h : m.step.result = .ok false) :
    m.current? = none := by
  cases hc : m.current? with
  | none => rfl
  | some c =>
    simp only [step, hc] at h
    split at h
    · cases h
    · split at h <;> cases h

/-- The machine after `n` steps; a step that cannot be made changes nothing. -/
def after (m : Machine) (n : Nat) : Machine := (fun m => m.step.state)^[n] m

@[simp]
theorem after_zero (m : Machine) : m.after 0 = m := rfl

theorem after_succ (m : Machine) (n : Nat) : m.after (n + 1) = m.step.state.after n := rfl

theorem after_add (m : Machine) (n k : Nat) : m.after (n + k) = (m.after n).after k := by
  rw [Nat.add_comm, after, Function.iterate_add_apply]
  rfl

theorem after_succ_last (m : Machine) (n : Nat) : m.after (n + 1) = (m.after n).step.state :=
  m.after_add n 1

theorem after_of_halted {m : Machine} (h : m.halted = true) (n : Nat) : m.after n = m := by
  have hstep : m.step.state = m := by rw [step_halted (m.halted_iff.mp h)]
  exact Function.iterate_fixed hstep n

/-- A machine that has halted stays as it is. -/
theorem after_eq_of_halted {m : Machine} {n k : Nat} (h : (m.after n).halted = true)
    (hnk : n ≤ k) : m.after k = m.after n := by
  obtain ⟨more, rfl⟩ := Nat.exists_eq_add_of_le hnk
  rw [after_add, after_of_halted h]

theorem after_halted_unique {m : Machine} {n k : Nat} (hn : (m.after n).halted = true)
    (hk : (m.after k).halted = true) : m.after n = m.after k := by
  rcases Nat.le_total n k with hle | hle
  · exact (after_eq_of_halted hn hle).symm
  · exact after_eq_of_halted hk hle

/-- A machine that is not at the end of its script needs a step to halt. -/
theorem exists_succ_of_current? {m : Machine} {c : Letter} {n : Nat} (hc : m.current? = some c)
    (h : (m.after n).halted = true) : ∃ k, n = k + 1 ∧ (m.step.state.after k).halted = true := by
  cases n with
  | zero =>
    rw [after_zero, halted_of_current? hc] at h
    cases h
  | succ k => exact ⟨k, rfl, h⟩

theorem after_induction {P : Machine → Prop} (hstep : ∀ m, P m → P m.step.state) {m : Machine}
    (h : P m) (n : Nat) : P (m.after n) := by
  induction n generalizing m with
  | zero => exact h
  | succ n ih => exact ih (hstep m h)

theorem settings_after (m : Machine) (n : Nat) : (m.after n).settings = m.settings :=
  after_induction (P := fun k => k.settings = m.settings)
    (fun k hk => k.settings_step.trans hk) rfl n

theorem script_after (m : Machine) (n : Nat) : (m.after n).script = m.script :=
  after_induction (P := fun k => k.script = m.script) (fun k hk => k.script_step.trans hk) rfl n

/-- An operation that only makes steps: it ends where some number of steps leads, and
fails only with the fault of one of them. -/
def OnlySteps {α : Type} (m final : Machine) (result : Except Fault α) : Prop :=
  (∃ n, final = m.after n) ∧
    ∀ fault, result = .error fault → ∃ n, (m.after n).step.result = .error fault

theorem OnlySteps.stop {α : Type} (m : Machine) (a : α) : OnlySteps m m (.ok a) := by
  refine ⟨⟨0, rfl⟩, ?_⟩
  intro fault h
  cases h

theorem OnlySteps.fail {α : Type} {m : Machine} {fault : Fault}
    (h : m.step.result = .error fault) :
    OnlySteps m m.step.state (.error fault : Except Fault α) := by
  refine ⟨⟨1, rfl⟩, ?_⟩
  intro other hother
  cases hother
  exact ⟨0, h⟩

theorem OnlySteps.cons {α : Type} {m final : Machine} {result : Except Fault α}
    (h : OnlySteps m.step.state final result) : OnlySteps m final result := by
  obtain ⟨⟨n, hn⟩, hfault⟩ := h
  refine ⟨⟨n + 1, hn⟩, ?_⟩
  intro fault hresult
  obtain ⟨k, hk⟩ := hfault fault hresult
  exact ⟨k + 1, hk⟩

theorem OnlySteps.trans {α β : Type} {m mid final : Machine} {first : Except Fault α}
    {result : Except Fault β} (hm : OnlySteps m mid first) (h : OnlySteps mid final result) :
    OnlySteps m final result := by
  obtain ⟨⟨n, rfl⟩, -⟩ := hm
  obtain ⟨⟨k, rfl⟩, hfault⟩ := h
  refine ⟨⟨n + k, (m.after_add n k).symm⟩, ?_⟩
  intro fault hresult
  obtain ⟨k, hk⟩ := hfault fault hresult
  exact ⟨n + k, by rw [after_add]; exact hk⟩

theorem OnlySteps.of_error {α β : Type} {m final : Machine} {fault : Fault}
    (h : OnlySteps m final (.error fault : Except Fault α)) :
    OnlySteps m final (.error fault : Except Fault β) := by
  refine ⟨h.1, ?_⟩
  intro other hother
  cases hother
  exact h.2 fault rfl

theorem advanceFrom_onlySteps (steps : Nat) (log : List Notice) (count : Nat) (m : Machine) :
    OnlySteps m (advanceFrom steps log count m).state (advanceFrom steps log count m).result := by
  induction count generalizing steps log m with
  | zero => exact .stop m _
  | succ count ih =>
    rw [advanceFrom]
    split
    · exact .cons (ih _ _ _)
    · exact .cons (.stop _ _)
    · next fault hfault => exact .fail hfault

theorem walkFrom_onlySteps (seen : List View) (log : List Notice) (count : Nat) (m : Machine) :
    OnlySteps m (walkFrom seen log count m).state (walkFrom seen log count m).result := by
  induction count generalizing seen log m with
  | zero => exact .stop m _
  | succ count ih =>
    rw [walkFrom]
    split
    · exact .cons (ih _ _ _)
    · exact .cons (.stop _ _)
    · next fault hfault => exact .fail hfault

/-- A drive only stops in front of a command. -/
theorem isCommand_of_stopsAt {m : Machine} {limit : Int} {c : Letter}
    (h : m.stopsAt limit c = true) : isCommand c = true := by
  simp only [stopsAt, Bool.and_eq_true] at h
  exact h.2

theorem driveFrom_halted {m : Machine} (h : m.current? = none) (limit : Int)
    (log : List Notice) : driveFrom limit log m = ⟨m, log, .ok ()⟩ := by
  rw [driveFrom]
  split
  · rfl
  · next c hc =>
    rw [h] at hc
    cases hc

theorem driveFrom_stop {m : Machine} {c : Letter} {limit : Int} (h : m.current? = some c)
    (hs : m.stopsAt limit c = true) (log : List Notice) :
    driveFrom limit log m = ⟨m, log, .ok ()⟩ := by
  rw [driveFrom]
  split
  · rfl
  · next d hd =>
    obtain rfl := Option.some.inj (h.symm.trans hd)
    simp [hs]

theorem driveFrom_step {m next : Machine} {c : Letter} {limit : Int} {more : List Notice}
    (h : m.current? = some c) (hs : m.stopsAt limit c = false)
    (hn : m.step = ⟨next, more, .ok true⟩) (log : List Notice) :
    driveFrom limit log m = driveFrom limit (log ++ more) next := by
  rw [driveFrom]
  split
  · next hd =>
    rw [h] at hd
    cases hd
  · next d hd =>
    obtain rfl := Option.some.inj (h.symm.trans hd)
    rw [dif_neg (by simp [hs])]
    split <;> simp_all

theorem driveFrom_fault {m next : Machine} {c : Letter} {limit : Int} {more : List Notice}
    {fault : Fault} (h : m.current? = some c) (hs : m.stopsAt limit c = false)
    (hn : m.step = ⟨next, more, .error fault⟩) (log : List Notice) :
    driveFrom limit log m = ⟨next, log ++ more, .error fault⟩ := by
  rw [driveFrom]
  split
  · next hd =>
    rw [h] at hd
    cases hd
  · next d hd =>
    obtain rfl := Option.some.inj (h.symm.trans hd)
    rw [dif_neg (by simp [hs])]
    split <;> simp_all

/-- A drive that does not fail ends at the end of the script or where it has to stop. -/
theorem driveFrom_end {limit : Int} {log : List Notice} {m : Machine}
    (h : (driveFrom limit log m).result = .ok ()) :
    (driveFrom limit log m).state.current? = none ∨
      ∃ c, (driveFrom limit log m).state.current? = some c ∧
        (driveFrom limit log m).state.stopsAt limit c = true := by
  fun_induction driveFrom limit log m with
  | case1 log m hc => exact Or.inl hc
  | case2 log m c hc hs => exact Or.inr ⟨c, hc, hs⟩
  | case3 log m c hc hs next more hn ih => exact ih h
  | case4 log m c hc hs next more hn =>
    have hnone := current?_of_step_false (show m.step.result = .ok false by rw [hn])
    rw [hc] at hnone
    cases hnone
  | case5 log m c hc hs next more fault hn => cases h

/-- A drive after a change that no step notices is the changed drive. -/
theorem Unseen.driveFrom {change : Machine → Machine} (h : Unseen change)
    (hstep : ∀ m : Machine, (change m).step = ⟨change m.step.state, m.step.log, m.step.result⟩)
    (limit : Int) (log : List Notice) (m : Machine) :
    Machine.driveFrom limit log (change m) =
      ⟨change (Machine.driveFrom limit log m).state, (Machine.driveFrom limit log m).log,
        (Machine.driveFrom limit log m).result⟩ := by
  have hcurrent : ∀ k : Machine, (change k).current? = k.current? := by
    intro k
    rw [show change k = k.withDataOf (change k) from h.data k k]
    rfl
  have hstops : ∀ (k : Machine) (c : Letter), (change k).stopsAt limit c = k.stopsAt limit c := by
    intro k c
    rw [show change k = k.withDataOf (change k) from h.data k k]
    rfl
  fun_induction Machine.driveFrom limit log m with
  | case1 log m hc => rw [driveFrom_halted ((hcurrent m).trans hc)]
  | case2 log m c hc hs => rw [driveFrom_stop ((hcurrent m).trans hc) ((hstops m c).trans hs)]
  | case3 log m c hc hs next more hn ih =>
    have hgo : (change m).stopsAt limit c = false := (hstops m c).trans (by simpa using hs)
    have hnext : (change m).step = ⟨change next, more, .ok true⟩ := by rw [hstep, hn]
    rw [driveFrom_step ((hcurrent m).trans hc) hgo hnext, ih]
  | case4 log m c hc hs next more hn =>
    have hnone := current?_of_step_false (show m.step.result = .ok false by rw [hn])
    rw [hc] at hnone
    cases hnone
  | case5 log m c hc hs next more fault hn =>
    have hgo : (change m).stopsAt limit c = false := (hstops m c).trans (by simpa using hs)
    have hnext : (change m).step = ⟨change next, more, .error fault⟩ := by rw [hstep, hn]
    rw [driveFrom_fault ((hcurrent m).trans hc) hgo hnext]

theorem driveFrom_onlySteps (limit : Int) (log : List Notice) (m : Machine) :
    OnlySteps m (driveFrom limit log m).state (driveFrom limit log m).result := by
  fun_induction driveFrom limit log m with
  | case1 log m h => exact .stop m ()
  | case2 log m c h hs => exact .stop m ()
  | case3 log m c h hs next more hn ih =>
    apply OnlySteps.cons
    rw [hn]
    exact ih
  | case4 log m c h hs next more hn =>
    apply OnlySteps.cons
    rw [hn]
    exact .stop next ()
  | case5 log m c h hs next more fault hn =>
    have hfail : OnlySteps m m.step.state (.error fault : Except Fault Unit) :=
      .fail (by rw [hn])
    simpa [hn] using hfail

end Machine

end Brainfuck
