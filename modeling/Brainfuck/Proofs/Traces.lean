import Brainfuck.Proofs.Safety
import Mathlib.Data.List.Iterate

/-!
The tracer as an observer. It makes the steps that the machine would make without it, no
more than it is asked for and none after the halt, and the picture that it keeps of a step
shows the character executed there and the machine right behind it. A trace that is taken
in two parts is therefore one trace.
-/
namespace Brainfuck

namespace Machine

/-- The machine in front of each of its next `n` steps. -/
def visited (m : Machine) (n : Nat) : List Machine := List.iterate (fun m => m.step.state) m n

theorem visited_succ (m : Machine) (n : Nat) :
    m.visited (n + 1) = m :: m.step.state.visited n := rfl

theorem visited_add (m : Machine) (n k : Nat) :
    m.visited (n + k) = m.visited n ++ (m.after n).visited k :=
  List.iterate_add ..

/-- What `n` steps report. -/
def reports (m : Machine) (n : Nat) : List Notice := (m.visited n).flatMap (·.step.log)

@[simp]
theorem reports_zero (m : Machine) : m.reports 0 = [] := rfl

theorem reports_succ (m : Machine) (n : Nat) :
    m.reports (n + 1) = m.step.log ++ m.step.state.reports n := rfl

theorem reports_add (m : Machine) (n k : Nat) :
    m.reports (n + k) = m.reports n ++ (m.after n).reports k := by
  rw [reports, visited_add, List.flatMap_append]
  rfl

/-- The machine first halts after `n` steps. -/
structure HaltsAfter (m : Machine) (n : Nat) : Prop where
  halts : (m.after n).halted = true
  before : ∀ i < n, (m.after i).halted = false

/-- How many of `count` steps there are to make. -/
def stepsMade (m : Machine) : Nat → Nat
  | 0 => 0
  | count + 1 => if m.halted then 0 else m.step.state.stepsMade count + 1

theorem stepsMade_of_halted {m : Machine} (h : m.halted = true) (count : Nat) :
    m.stepsMade count = 0 := by
  cases count with
  | zero => rfl
  | succ count => simp [stepsMade, h]

theorem stepsMade_succ {m : Machine} (h : m.halted = false) (count : Nat) :
    m.stepsMade (count + 1) = m.step.state.stepsMade count + 1 := by
  simp [stepsMade, h]

/-- The steps are made before the halt. -/
theorem halted_of_lt_stepsMade {m : Machine} {count i : Nat} (h : i < m.stepsMade count) :
    (m.after i).halted = false := by
  induction count generalizing m i with
  | zero => exact absurd h (Nat.not_lt_zero i)
  | succ count ih =>
    cases hm : m.halted with
    | true =>
      rw [stepsMade_of_halted hm] at h
      exact absurd h (Nat.not_lt_zero i)
    | false =>
      rw [stepsMade_succ hm] at h
      cases i with
      | zero => exact hm
      | succ i => exact ih (m := m.step.state) (by omega)

theorem stepsMade_of_haltsAfter {m : Machine} {n : Nat} (h : m.HaltsAfter n) (count : Nat) :
    m.stepsMade count = min count n := by
  induction count generalizing m n with
  | zero => exact (Nat.zero_min n).symm
  | succ count ih =>
    cases n with
    | zero =>
      have hm : m.halted = true := h.halts
      rw [stepsMade_of_halted hm, Nat.min_zero]
    | succ n =>
      have hm : m.halted = false := h.before 0 (by omega)
      have hnext : m.step.state.HaltsAfter n :=
        ⟨h.halts, fun i hi => h.before (i + 1) (by omega)⟩
      rw [stepsMade_succ hm, ih hnext]
      omega

theorem stepsMade_of_endless {m : Machine} (h : ∀ n, (m.after n).halted = false) (count : Nat) :
    m.stepsMade count = count := by
  induction count generalizing m with
  | zero => rfl
  | succ count ih =>
    have hm : m.halted = false := h 0
    have hnext : ∀ n, (m.step.state.after n).halted = false := fun n => h (n + 1)
    rw [stepsMade_succ hm, ih hnext]

/-- The steps of a second part go on where the first has ended. -/
theorem stepsMade_add (m : Machine) (count more : Nat) :
    m.stepsMade (count + more) =
      m.stepsMade count + (m.after (m.stepsMade count)).stepsMade more := by
  induction count generalizing m with
  | zero => simp [stepsMade]
  | succ count ih =>
    cases hm : m.halted with
    | true =>
      rw [stepsMade_of_halted hm, stepsMade_of_halted hm, after_zero, stepsMade_of_halted hm]
    | false =>
      rw [Nat.add_right_comm, stepsMade_succ hm, stepsMade_succ hm, ih, after_succ]
      omega

end Machine

namespace Observed

theorem step_of_halted {o : Observed} (h : o.machine.halted = true) :
    o.step = ⟨o, [], .ok none⟩ := by
  rw [step, o.machine.halted_iff.mp h]

theorem step_of_not_halted {o : Observed} (hm : o.machine.WellNested)
    (h : o.machine.halted = false) : ∃ c, o.machine.current? = some c ∧
      o.step = ⟨⟨o.machine.step.state, o.tracer.record c⟩, o.machine.step.log,
        .ok (some ((o.tracer.record c).snapshot o.machine.step.state))⟩ := by
  obtain ⟨c, hc⟩ := Machine.exists_current? h
  have hok := hm.step_result
  refine ⟨c, hc, ?_⟩
  simp only [step, hc, hok]
  rfl

/-- The machine and the tracer after `n` steps of the tracer. -/
def after (o : Observed) (n : Nat) : Observed := (fun o => o.step.state)^[n] o

theorem after_succ (o : Observed) (n : Nat) : o.after (n + 1) = o.step.state.after n := rfl

theorem after_add (o : Observed) (n k : Nat) : o.after (n + k) = (o.after n).after k := by
  rw [Nat.add_comm, after, Function.iterate_add_apply]
  rfl

/-- The tracer makes the machine's own steps, also where one fails. -/
theorem machine_step (o : Observed) : o.step.state.machine = o.machine.step.state := by
  simp only [step]
  split
  · next hc => rw [Machine.step_halted hc]
  · split <;> rfl

theorem machine_after (o : Observed) (n : Nat) : (o.after n).machine = o.machine.after n := by
  induction n generalizing o with
  | zero => rfl
  | succ n ih =>
    rw [after_succ, ih, machine_step]
    rfl

/-- Before the halt the tracer counts each step and remembers the character executed. -/
theorem tracer_after {o : Observed} (hm : o.machine.WellNested) {n : Nat}
    (h : ∀ i ≤ n, (o.machine.after i).halted = false) :
    (o.after (n + 1)).tracer = { o.tracer with
      stepCount := o.tracer.stepCount + (n + 1), lastCommand := (o.machine.after n).current? } := by
  induction n generalizing o with
  | zero =>
    obtain ⟨c, hc, hstep⟩ := step_of_not_halted hm (h 0 (Nat.le_refl 0))
    rw [after_succ, hstep, Machine.after_zero, hc]
    rfl
  | succ n ih =>
    obtain ⟨c, -, hstep⟩ := step_of_not_halted hm (h 0 (Nat.zero_le _))
    have hnext : ∀ i ≤ n, (o.machine.step.state.after i).halted = false :=
      fun i hi => h (i + 1) (by omega)
    rw [after_succ, hstep, ih (o := ⟨o.machine.step.state, o.tracer.record c⟩) hm.step hnext]
    simp only [Tracer.record, Machine.after_succ, Tracer.mk.injEq, true_and, and_true]
    omega

/-- The pictures after each of the next `n` steps. -/
def pictures (o : Observed) (n : Nat) : List Snapshot :=
  (List.iterate (fun o => o.step.state) o.step.state n).map snapshot

theorem pictures_succ (o : Observed) (n : Nat) :
    o.pictures (n + 1) = o.step.state.snapshot :: o.step.state.pictures n := rfl

theorem pictures_add (o : Observed) (n k : Nat) :
    o.pictures (n + k) = o.pictures n ++ (o.after n).pictures k := by
  have hend : (fun o : Observed => o.step.state)^[n] o.step.state = (o.after n).step.state :=
    (Function.iterate_succ_apply _ n o).symm.trans (Function.iterate_succ_apply' _ n o)
  rw [pictures, List.iterate_add, List.map_append, hend]
  rfl

theorem length_pictures (o : Observed) (n : Nat) : (o.pictures n).length = n := by
  rw [pictures, List.length_map, List.length_iterate]

/-- The picture of a step: the character executed there, and the machine behind it. -/
theorem getElem?_pictures {o : Observed} (hm : o.machine.WellNested) {n i : Nat}
    (h : ∀ j < n, (o.machine.after j).halted = false) (hi : i < n) :
    (o.pictures n)[i]? = some
      { step := o.tracer.stepCount + (i + 1)
        iptr := (o.machine.after (i + 1)).iptr
        dptr := (o.machine.after (i + 1)).dptr
        cycles := (o.machine.after (i + 1)).cycles
        command := (o.machine.after i).current?
        nextCommand := (o.machine.after (i + 1)).current?
        cell := (o.machine.after (i + 1)).cell
        loopDepth := (o.machine.after (i + 1)).blocks.length } := by
  have hget : (o.pictures n)[i]? = some (o.after (i + 1)).snapshot := by
    rw [pictures, List.getElem?_map, List.getElem?_iterate _ _ n i hi]
    rfl
  have hbefore : ∀ j ≤ i, (o.machine.after j).halted = false := fun j hj => h j (by omega)
  rw [hget, snapshot, tracer_after hm hbefore, machine_after, Machine.blocks,
    List.length_reverse]
  rfl

/-- A trace makes the steps that there are to make, and shows each of them. -/
theorem traceFrom_eq {o : Observed} (hm : o.machine.WellNested) (seen : List Snapshot)
    (log : List Notice) (count : Nat) :
    traceFrom seen log count o =
      ⟨o.after (o.machine.stepsMade count), log ++ o.machine.reports (o.machine.stepsMade count),
        .ok (seen.reverse ++ o.pictures (o.machine.stepsMade count))⟩ := by
  induction count generalizing o seen log with
  | zero => simp [traceFrom, Machine.stepsMade, after, Machine.reports, Machine.visited, pictures]
  | succ count ih =>
    cases h : o.machine.halted with
    | true =>
      rw [traceFrom, step_of_halted h, Machine.stepsMade_of_halted h]
      simp [after, Machine.reports, Machine.visited, pictures]
    | false =>
      -- The rest is a trace of the machine behind the step, by the tracer that has recorded it.
      obtain ⟨c, -, hstep⟩ := step_of_not_halted hm h
      rw [traceFrom, Machine.stepsMade_succ h, after_succ, pictures_succ, Machine.reports_succ]
      simp only [hstep]
      rw [ih (o := ⟨o.machine.step.state, o.tracer.record c⟩) hm.step]
      simp [snapshot]

theorem trace_eq {o : Observed} (hm : o.machine.WellNested) (count : Int) :
    o.trace count =
      ⟨o.after (o.machine.stepsMade count.toNat),
        o.machine.reports (o.machine.stepsMade count.toNat),
        .ok (o.pictures (o.machine.stepsMade count.toNat))⟩ := by
  rw [trace, traceFrom_eq hm]
  rfl

/-- A trace that goes on after another one completes the trace of both lengths. -/
theorem trace_add {o : Observed} (hm : o.machine.WellNested) (count more : Int) :
    ∃ states rest, (o.trace count).result = .ok states ∧
      ((o.trace count).state.trace more).result = .ok rest ∧
      o.trace (max count 0 + max more 0) =
        ⟨((o.trace count).state.trace more).state,
          (o.trace count).log ++ ((o.trace count).state.trace more).log, .ok (states ++ rest)⟩ := by
  have hmid := o.machine_after (o.machine.stepsMade count.toNat)
  have hnested : (o.after (o.machine.stepsMade count.toNat)).machine.WellNested := by
    rw [hmid]
    exact hm.after _
  have hcount : (max count 0 + max more 0).toNat = count.toNat + more.toNat := by omega
  rw [trace_eq hm count, trace_eq hnested more, trace_eq hm, hmid, hcount, Machine.stepsMade_add,
    after_add, Machine.reports_add, pictures_add]
  exact ⟨_, _, rfl, rfl, rfl⟩

end Observed

namespace Session

/-- The tracer is a faithful observer. A trace makes as many steps as it is asked for and
the machine has left, leaves the machine and the log as those steps do, and returns one
picture of each: its number, the character executed, and the machine behind it. What comes
next in one picture is executed in the following one, and nothing comes next exactly after
the halt. Two traces one after the other are one trace. -/
theorem trace_observes_faithfully {s : Session} (hs : Reachable Request.KeepsControl s)
    (tracer : Tracer) (count : Int) :
    let m := s.machine
    let o : Observed := ⟨m, tracer⟩
    let traced := o.trace count
    ∃ states, traced.result = .ok states ∧
      (∀ n, m.HaltsAfter n → (states.length : Int) = min (max count 0) n) ∧
      ((∀ n, (m.after n).halted = false) → (states.length : Int) = max count 0) ∧
      traced.state.machine = m.after states.length ∧ traced.log = m.reports states.length ∧
      (∀ i < states.length, ∃ c, (m.after i).script[(m.after i).iptr]? = some c ∧
        states[i]? = some
          { step := tracer.stepCount + (i + 1)
            iptr := (m.after (i + 1)).iptr
            dptr := (m.after (i + 1)).dptr
            cycles := (m.after (i + 1)).cycles
            command := some c
            nextCommand := (m.after (i + 1)).current?
            cell := (m.after (i + 1)).cell
            loopDepth := (m.after (i + 1)).blocks.length }) ∧
      (∀ i state, states[i]? = some state →
        (state.nextCommand = none ↔ (m.after (i + 1)).halted = true) ∧
          ∀ next, states[i + 1]? = some next → state.nextCommand = next.command) ∧
      ∀ more : Int,
        let resumed := traced.state.trace more
        let whole := o.trace (max count 0 + max more 0)
        resumed.state = whole.state ∧ traced.log ++ resumed.log = whole.log ∧
          ∃ rest, resumed.result = .ok rest ∧ whole.result = .ok (states ++ rest) := by
  intro m o traced
  have hm : o.machine.WellNested := wellNested_kept.reachable hs
  have htraced : traced = _ := o.trace_eq hm count
  have hlength := o.length_pictures (m.stepsMade count.toNat)
  have hbefore : ∀ i < m.stepsMade count.toNat, (m.after i).halted = false :=
    fun i hi => Machine.halted_of_lt_stepsMade hi
  refine ⟨o.pictures (m.stepsMade count.toNat), by rw [htraced], ?_, ?_, ?_, ?_, ?_, ?_, ?_⟩
  · intro n hn
    rw [hlength, Machine.stepsMade_of_haltsAfter hn]
    omega
  · intro hn
    rw [hlength, Machine.stepsMade_of_endless hn]
    omega
  · rw [htraced, hlength]
    exact o.machine_after _
  · rw [htraced, hlength]
  · intro i hi
    rw [hlength] at hi
    obtain ⟨c, hc⟩ := Machine.exists_current? (hbefore i hi)
    refine ⟨c, hc, ?_⟩
    rw [Observed.getElem?_pictures hm hbefore hi, hc]
  · -- Both sides show the character at the machine's pointer between the two steps.
    intro i state hstate
    have hi := (List.getElem?_eq_some_iff.mp hstate).1
    rw [hlength] at hi
    rw [Observed.getElem?_pictures hm hbefore hi] at hstate
    cases hstate
    refine ⟨(Machine.halted_iff _).symm, ?_⟩
    intro next hnext
    have hi := (List.getElem?_eq_some_iff.mp hnext).1
    rw [hlength] at hi
    rw [Observed.getElem?_pictures hm hbefore hi] at hnext
    cases hnext
    rfl
  · intro more resumed whole
    obtain ⟨states, rest, hstates, hrest, hwhole⟩ := Observed.trace_add hm count more
    obtain rfl : o.pictures (m.stepsMade count.toNat) = states := by
      rw [Observed.trace_eq hm] at hstates
      exact Except.ok.inj hstates
    rw [show whole = _ from hwhole]
    exact ⟨rfl, rfl, rest, hrest, rfl⟩

/-- A loop among comments, entered before the tracer came: seven steps are left, in one
trace or in two. -/
theorem trace_observes_entered_loop : ∃ s : Session, Reachable Request.KeepsControl s ∧
    s.machine.blocks = [2] ∧
      let o : Observed := ⟨s.machine, { showRange := ⟨5, by decide⟩, stepCount := 4 }⟩
      ∃ first rest, (o.trace 3).result = .ok first ∧ first.length = 3 ∧
        ((o.trace 3).state.trace 9).result = .ok rest ∧
        (o.trace 12).result = .ok (first ++ rest) ∧ (first ++ rest).length = 7 := by
  have hfresh := @Reachable.fresh Request.KeepsControl none none (.separate {} {}) _ rfl
  have hloaded := hfresh.request (.loadScript "++[a-]b.") trivial
  have hentered := hloaded.request (.step 4) trivial
  have hfaithful := trace_observes_faithfully hentered
    { showRange := ⟨5, by decide⟩, stepCount := 4 }
  obtain ⟨first, hfirst, hlength, -, -, -, -, -, hsplit⟩ := hfaithful 3
  obtain ⟨whole, hwhole, htotal, -⟩ := hfaithful 12
  obtain ⟨-, -, rest, hrest, happend⟩ := hsplit 9
  obtain rfl : whole = first ++ rest := Except.ok.inj (hwhole.symm.trans happend)
  have hthree := hlength 7 ⟨by decide, by decide⟩
  have hseven := htotal 7 ⟨by decide, by decide⟩
  exact ⟨_, hentered, by decide, first, rest, hfirst, by omega, hrest, hwhole, by omega⟩

end Session

end Brainfuck
