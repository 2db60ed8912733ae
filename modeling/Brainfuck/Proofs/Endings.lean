import Brainfuck.Proofs.Faults
import Brainfuck.Proofs.Ledger

/-!
How a run ends. Whatever script a machine has, balanced or not, and whatever stands on its
loop stack, a run under a limit makes finitely many steps: each command uses up a cycle, and
between two commands there are only comments to pass. It ends at the first moment at which
the machine has halted or stands in front of a command without a cycle left, and then it
drains the output, or it ends before that with the fault of a step.
-/
namespace Brainfuck

/-- The characters of the commands. -/
theorem isCommand_iff_mem (c : Letter) :
    isCommand c = true ↔ c ∈ Text.ofString "><+-.,[]" := by
  constructor
  · intro h
    obtain ⟨command, hcommand⟩ := Option.isSome_iff_exists.mp h
    rw [Command.eq_letter hcommand]
    cases command <;> decide
  · have hall : ∀ c ∈ Text.ofString "><+-.,[]", isCommand c = true := by decide
    exact hall c

theorem Channels.output_withOutput (channels : Channels) (output : Channel) :
    (channels.withOutput output).output = output := by
  cases channels <;> rfl

namespace Machine

theorem rests_iff (m : Machine) (limit : Int) :
    m.rests limit = true ↔ m.halted = true ∨
      limit ≤ m.cycles ∧ ∃ c ∈ Text.ofString "><+-.,[]",
        m.script[m.iptr]? = some c := by
  cases hc : m.current? with
  | none =>
    rw [m.halted_iff]
    exact iff_of_true (rests_of_halted hc limit) (Or.inl hc)
  | some c =>
    have hget : m.script[m.iptr]? = some c := hc
    rw [rests_eq_stopsAt hc, stopsAt, Bool.and_eq_true, decide_eq_true_eq, isCommand_iff_mem,
      halted_of_current? hc, hget]
    constructor
    · rintro ⟨hlimit, hcommand⟩
      exact Or.inr ⟨hlimit, c, hcommand, rfl⟩
    · rintro (hhalted | ⟨hlimit, d, hcommand, hd⟩)
      · cases hhalted
      · obtain rfl := Option.some.inj hd
        exact ⟨hlimit, hcommand⟩

/-- A drain takes the output as it is and leaves none. -/
theorem drain_eq (m : Machine) :
    m.drain = (m.channels.output.buffer, { m with channels := m.channels.withOutput {} }) := by
  simp only [drain, Channel.read_size]

theorem run_of_drive_fault {m : Machine} {limit : Option Int} {driven : Outcome Machine Unit}
    {fault : Fault} (hdrive : m.drive (limit.getD m.settings.stepLimit.val) = driven)
    (h : driven.result = .error fault) :
    m.run limit = ⟨driven.state,
      .running m.script.length (limit.getD m.settings.stepLimit.val) :: driven.log,
      .error fault⟩ := by
  simp only [run, hdrive, h]

/-- An output of its own has grown by what the steps wrote. -/
theorem output_after {m : Machine} {input output : Channel}
    (h : m.channels = .separate input output) (n : Nat) :
    (m.after n).channels.output.buffer = output.buffer ++ (m.visited n).flatMap written := by
  have hpassed := m.passed_after n
  rw [h] at hpassed
  rw [hpassed.of_separate]
  rfl

/-- Every run ends. It makes finitely many steps, with no more cycles than the limit or what
was used before, and stops as soon as the machine has halted or stands at a command with the
limit used up. Then it leaves the machine as these steps do, except that it has taken all
the output: what was there before and what the steps wrote. Otherwise the next step fails,
and the run fails with it. -/
theorem run_always_ends (m : Machine) (limit : Option Int) :
    let bound := limit.getD m.settings.stepLimit.val
    let ends (k : Nat) : Prop := (m.after k).halted = true ∨
      bound ≤ (m.after k).cycles ∧ ∃ c ∈ Text.ofString "><+-.,[]",
        (m.after k).script[(m.after k).iptr]? = some c
    let ran := m.run limit
    ∃ n, (∀ k < n, ¬ ends k ∧ (m.after k).step.result = .ok true) ∧
      (∀ k ≤ n, ((m.after k).cycles : Int) ≤ max bound m.cycles) ∧
      (ends n ∧
          ran.state = { m.after n with channels := (m.after n).channels.withOutput {} } ∧
          ran.state.channels.output.buffer = [] ∧
          ran.result = .ok
            { output := (m.after n).channels.output.buffer
              cycles := (m.after n).cycles
              halted := (m.after n).halted
              hitLimit := !(m.after n).halted } ∧
          (∀ input output, m.channels = .separate input output →
            (m.after n).channels.output.buffer =
              output.buffer ++ (m.visited n).flatMap written) ∨
        ¬ ends n ∧ ∃ fault, (m.after n).step.result = .error fault ∧
          ran.state = m.after n ∧ ran.result = .error fault) := by
  intro bound ends ran
  have hends : ∀ k, (m.after k).rests bound = true ↔ ends k := fun k => rests_iff _ _
  have hgoes : ∀ k, (m.after k).rests bound = false ↔ ¬ ends k := by
    intro k
    rw [← hends, Bool.not_eq_true]
  obtain ⟨n, hbefore, hend⟩ := driveFrom_ends bound [] m
  refine ⟨n, ?_, ?_, ?_⟩
  · intro k hk
    exact ⟨(hgoes k).mp (hbefore k hk).1, (hbefore k hk).2⟩
  · intro k hk
    exact cycles_le_of_before fun i hi => (hbefore i (by omega)).1
  · rcases hend with ⟨hrests, hdrive⟩ | ⟨hgo, fault, hfault, hdrive⟩
    · have hran : ran = _ := run_of_drive_ok hdrive rfl
      rw [drain_eq] at hran
      refine Or.inl ⟨(hends n).mp hrests, ?_, ?_, ?_, ?_⟩
      · rw [hran]
      · rw [hran, Channels.output_withOutput]
      · rw [hran]
      · intro input output hchannels
        exact output_after hchannels n
    · have hran : ran = _ := run_of_drive_fault hdrive rfl
      rw [state_of_fault hfault] at hran
      refine Or.inr ⟨(hgoes n).mp hgo, fault, hfault, ?_, ?_⟩
      · rw [hran]
      · rw [hran]

/-- A closing bracket without partner and a loop stack from elsewhere: the run jumps nowhere
and stops in front of the bracket, behind a comment and with its limit used up. -/
theorem run_ends_at_stale_loop :
    let m : Machine :=
      { settings := {}, memoryLength := ⟨3, by decide⟩, script := "+.a]b"
        loops := [0, 77], channels := .separate {} ⟨['x']⟩ }
    m.script.balanced = false ∧ (m.run (some 2)).state.iptr = 3 ∧
      (m.run (some 2)).state.channels.output.buffer = [] ∧
      (m.run (some 2)).result = .ok ⟨['x', '\x01'], 2, false, true⟩ := by
  intro m
  obtain ⟨n, hbefore, -, hend⟩ := run_always_ends m (some 2)
  have hsteps : ∀ k < 3, (m.after k).rests 2 = false ∧ (m.after k).step.result = .ok true := by
    decide
  have hrests : (m.after 3).rests 2 = true := by decide
  have hearlier : n ≤ 3 := by
    by_contra hgt
    exact (hbefore 3 (by omega)).1 ((rests_iff _ _).mp hrests)
  have hlater : ¬ n < 3 := by
    intro hlt
    obtain ⟨hgo, hok⟩ := hsteps n hlt
    rcases hend with ⟨hends, -⟩ | ⟨-, fault, hfault, -⟩
    · rw [show (m.after n).rests 2 = true from (rests_iff _ _).mpr hends] at hgo
      cases hgo
    · rw [hok] at hfault
      cases hfault
  obtain rfl : n = 3 := by omega
  rcases hend with ⟨-, hstate, hempty, hresult, hwritten⟩ | ⟨hends, -⟩
  · rw [hwritten _ _ rfl] at hresult
    exact ⟨by decide, by rw [hstate]; decide, hempty, hresult⟩
  · exact absurd ((rests_iff _ _).mp hrests) hends

end Machine

end Brainfuck
