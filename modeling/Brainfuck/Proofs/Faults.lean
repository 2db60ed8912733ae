import Brainfuck.Proofs.Traces

/-!
How a step fails. At an opening bracket on a zero cell it fails if the rest of the script
never closes more brackets than it opens, and at a closing bracket if no loop is active;
there is no other way to fail. A step that fails leaves everything as it was, the tracer
does not count it, and a trace that is cut short by it has done what its earlier steps did.
-/
namespace Brainfuck

namespace Script

/-- No prefix closes more brackets than it opens and `depth` more. -/
def StaysWithin (depth : Nat) (script : Script) : Prop :=
  ∀ part, part <+: script → part.count (.char ']') ≤ part.count (.char '[') + depth

theorem staysWithin_nil (depth : Nat) : StaysWithin depth [] := by
  intro part hpart
  rw [List.prefix_nil.mp hpart]
  exact Nat.zero_le _

/-- A prefix of a longer script is empty or begins with the first character. -/
theorem staysWithin_cons (depth : Nat) (c : Letter) (rest : Script) :
    StaysWithin depth (c :: rest) ↔
      ∀ part, part <+: rest →
        (c :: part).count (.char ']') ≤ (c :: part).count (.char '[') + depth := by
  constructor
  · intro h part hpart
    exact h (c :: part) ((List.prefix_cons_inj c).mpr hpart)
  · intro h part hpart
    rcases List.prefix_cons_iff.mp hpart with rfl | ⟨tail, rfl, htail⟩
    · exact Nat.zero_le _
    · exact h tail htail

theorem staysWithin_opening (depth : Nat) (rest : Script) :
    StaysWithin depth (.char '[' :: rest) ↔ StaysWithin (depth + 1) rest := by
  rw [staysWithin_cons]
  apply forall₂_congr
  intro part hpart
  rw [List.count_cons_self, List.count_cons_of_ne (by decide)]
  omega

theorem not_staysWithin_closing_zero (rest : Script) : ¬ StaysWithin 0 (.char ']' :: rest) := by
  intro h
  have hfirst := h [.char ']'] (List.prefix_append [.char ']'] rest)
  simp at hfirst

theorem staysWithin_closing_succ (depth : Nat) (rest : Script) :
    StaysWithin (depth + 1) (.char ']' :: rest) ↔ StaysWithin depth rest := by
  rw [staysWithin_cons]
  apply forall₂_congr
  intro part hpart
  rw [List.count_cons_self, List.count_cons_of_ne (by decide)]
  omega

theorem staysWithin_other {c : Letter} (ho : c ≠ '[') (hc : c ≠ ']') (depth : Nat)
    (rest : Script) : StaysWithin depth (c :: rest) ↔ StaysWithin depth rest := by
  rw [staysWithin_cons]
  apply forall₂_congr
  intro part hpart
  rw [List.count_cons_of_ne ho, List.count_cons_of_ne hc]

/-- The forward scan finds nothing exactly if the depth that it counts never falls below
zero. -/
theorem closingFrom_eq_none_iff (depth position : Nat) (script : Script) :
    closingFrom depth position script = none ↔ StaysWithin depth script := by
  induction script generalizing depth position with
  | nil => exact iff_of_true rfl (staysWithin_nil depth)
  | cons c rest ih =>
    rcases bracket_cases c with rfl | rfl | ⟨ho, hc⟩
    · rw [staysWithin_opening, ← ih (depth + 1) (position + 1)]
      simp [closingFrom]
    · cases depth with
      | zero =>
        refine iff_of_false ?_ (not_staysWithin_closing_zero rest)
        simp [closingFrom]
      | succ depth =>
        rw [staysWithin_closing_succ, ← ih depth (position + 1)]
        simp [closingFrom]
    · rw [staysWithin_other ho hc, ← ih depth (position + 1)]
      simp [closingFrom, ho, hc]

theorem closing?_eq_none_iff (script : Script) (position : Nat) :
    script.closing? position = none ↔ StaysWithin 0 (script.drop (position + 1)) :=
  closingFrom_eq_none_iff 0 (position + 1) _

end Script

namespace Machine

/-- The ways in which a step can fail; each leaves the machine as it is. -/
inductive FaultCase (m : Machine) : Fault → Prop
  | noClosing (h : m.current? = some (.char '[')) (hcell : m.cell = 0)
      (hclosing : m.script.closing? m.iptr = none)
      (hstep : m.step = ⟨m, [.noClosing m.iptr], .error (.noClosing m.iptr)⟩) :
      FaultCase m (.noClosing m.iptr)
  | noLoopToRepeat (h : m.current? = some (.char ']')) (hloops : m.loops = [])
      (hstep : m.step = ⟨m, [], .error .noLoopToRepeat⟩) : FaultCase m .noLoopToRepeat
  | noLoopToLeave (h : m.current? = some (.char ']')) (hloops : m.loops = [])
      (hstep : m.step = ⟨m, [], .error .noLoopToLeave⟩) : FaultCase m .noLoopToLeave

theorem faultCase {m : Machine} {fault : Fault} (h : m.step.result = .error fault) :
    FaultCase m fault := by
  cases m.stepCase with
  | halted hc =>
    rw [step_halted hc] at h
    cases h
  | comment c hc hn =>
    rw [step_comment hc hn] at h
    cases h
  | data c command hc hcommand hb =>
    rw [step_data hc hcommand hb] at h
    cases h
  | enter hc hcell =>
    rw [step_enter hc hcell] at h
    cases h
  | skip position hc hcell hclosing =>
    rw [step_skip hc hcell hclosing] at h
    cases h
  | noClosing hc hcell hclosing =>
    have hstep := step_noClosing hc hcell hclosing
    rw [hstep] at h
    cases h
    exact .noClosing hc hcell hclosing hstep
  | again position outer hc hcell hloops =>
    rw [step_again hc hcell hloops] at h
    cases h
  | leave position outer hc hcell hloops =>
    rw [step_leave hc hcell hloops] at h
    cases h
  | noLoop hc hloops =>
    by_cases hcell : m.cell = 0
    · have hstep := step_noLoopToLeave hc hcell hloops
      rw [hstep] at h
      cases h
      exact .noLoopToLeave hc hloops hstep
    · have hstep := step_noLoopToRepeat hc hcell hloops
      rw [hstep] at h
      cases h
      exact .noLoopToRepeat hc hloops hstep

/-- A step that fails changes nothing. -/
theorem state_of_fault {m : Machine} {fault : Fault} (h : m.step.result = .error fault) :
    m.step.state = m := by
  cases faultCase h with
  | noClosing _ _ _ hstep => rw [hstep]
  | noLoopToRepeat _ _ hstep => rw [hstep]
  | noLoopToLeave _ _ hstep => rw [hstep]

/-- The scan for a closing bracket fails exactly where no prefix of what follows closes
more brackets than it opens. -/
theorem noClosing_iff (m : Machine) :
    (∃ position, m.step.result = .error (.noClosing position)) ↔
      m.current? = some (.char '[') ∧ m.cell = 0 ∧
        Script.StaysWithin 0 (m.script.drop (m.iptr + 1)) := by
  constructor
  · rintro ⟨position, h⟩
    cases faultCase h with
    | noClosing hc hcell hclosing _ =>
      exact ⟨hc, hcell, (Script.closing?_eq_none_iff _ _).mp hclosing⟩
  · rintro ⟨hc, hcell, hrest⟩
    have hclosing := (Script.closing?_eq_none_iff _ _).mpr hrest
    exact ⟨m.iptr, by rw [step_noClosing hc hcell hclosing]⟩

theorem noLoop_iff (m : Machine) :
    (m.step.result = .error .noLoopToRepeat ∨ m.step.result = .error .noLoopToLeave) ↔
      m.current? = some (.char ']') ∧ m.loops = [] := by
  constructor
  · rintro (h | h)
    · cases faultCase h with
      | noLoopToRepeat hc hloops _ => exact ⟨hc, hloops⟩
    · cases faultCase h with
      | noLoopToLeave hc hloops _ => exact ⟨hc, hloops⟩
  · rintro ⟨hc, hloops⟩
    by_cases hcell : m.cell = 0
    · exact Or.inr (by rw [step_noLoopToLeave hc hcell hloops])
    · exact Or.inl (by rw [step_noLoopToRepeat hc hcell hloops])

end Machine

namespace Observed

/-- The tracer neither counts nor remembers a step that fails. -/
theorem step_of_fault {o : Observed} {fault : Fault} (h : o.machine.step.result = .error fault) :
    o.step = ⟨o, o.machine.step.log, .error fault⟩ := by
  have hstate := Machine.state_of_fault h
  obtain ⟨c, hc⟩ : ∃ c, o.machine.current? = some c := by
    cases Machine.faultCase h with
    | noClosing hc _ _ _ => exact ⟨_, hc⟩
    | noLoopToRepeat hc _ _ => exact ⟨_, hc⟩
    | noLoopToLeave hc _ _ => exact ⟨_, hc⟩
  simp only [step, hc, h, hstate]

/-- A step of the tracer succeeds: there is a picture of it. -/
def Succeeds (o : Observed) : Prop := ∃ state, o.step.result = .ok (some state)

/-- The tracer reports what the machine's own step reports. -/
theorem log_step (o : Observed) : o.step.log = o.machine.step.log := by
  simp only [step]
  split
  · next hc => rw [Machine.step_halted hc]
  · split <;> rfl

/-- A trace is cut short by its first step that fails, and has done what the steps before it
did. -/
theorem traceFrom_of_fault {o : Observed} {j count : Nat} {fault : Fault} (hj : j < count)
    (hok : ∀ i < j, (o.after i).Succeeds) (h : (o.after j).step.result = .error fault)
    (seen : List Snapshot) (log : List Notice) :
    traceFrom seen log count o =
      ⟨(o.after j).step.state, log ++ o.machine.reports (j + 1), .error fault⟩ := by
  induction j generalizing o count seen log with
  | zero =>
    obtain ⟨count, rfl⟩ : ∃ k, count = k + 1 := Nat.exists_eq_succ_of_ne_zero (by omega)
    have hfirst : o.step.result = .error fault := h
    have hlog : o.machine.reports 1 = o.step.log := by
      rw [o.log_step]
      exact List.append_nil _
    simp only [traceFrom, hfirst, hlog]
    rfl
  | succ j ih =>
    obtain ⟨count, rfl⟩ : ∃ k, count = k + 1 := Nat.exists_eq_succ_of_ne_zero (by omega)
    obtain ⟨state, hfirst⟩ : o.Succeeds := hok 0 (by omega)
    have hrest : ∀ i < j, (o.step.state.after i).Succeeds := fun i hi => hok (i + 1) (by omega)
    simp only [traceFrom, hfirst]
    rw [ih (by omega) hrest h, o.log_step, o.machine_step, Machine.reports_succ _ (j + 1),
      List.append_assoc]
    rfl

/-- A trace that fails has made some steps and then met one that fails. -/
theorem exists_of_traceFrom_fault {o : Observed} {count : Nat} {fault : Fault}
    {seen : List Snapshot} {log : List Notice}
    (h : (traceFrom seen log count o).result = .error fault) :
    ∃ j < count, (∀ i < j, (o.after i).Succeeds) ∧ (o.after j).step.result = .error fault := by
  induction count generalizing o seen log with
  | zero => cases h
  | succ count ih =>
    rw [traceFrom] at h
    split at h
    · next state hstate =>
      obtain ⟨j, hj, hok, hfault⟩ := ih h
      refine ⟨j + 1, by omega, ?_, hfault⟩
      intro i hi
      cases i with
      | zero => exact ⟨state, hstate⟩
      | succ i => exact hok i (by omega)
    · cases h
    · next other hother =>
      cases h
      exact ⟨0, by omega, fun i hi => absurd hi (Nat.not_lt_zero i), hother⟩

theorem fault_of_step {o : Observed} {fault : Fault} (h : o.step.result = .error fault) :
    o.machine.step.result = .error fault := by
  simp only [step] at h
  split at h
  · cases h
  · split at h
    · next hother =>
      cases h
      exact hother
    · cases h

/-- Such a trace leaves the machine and the tracer as the steps before the fault do. -/
theorem trace_of_fault {o : Observed} {j : Nat} {count : Int} {fault : Fault} (hj : j < count)
    (hok : ∀ i < j, (o.after i).Succeeds) (h : (o.after j).step.result = .error fault) :
    o.trace count = ⟨o.after j, o.machine.reports (j + 1), .error fault⟩ := by
  have hstate : (o.after j).step.state = o.after j := by
    rw [step_of_fault (fault_of_step h)]
  rw [trace, traceFrom_of_fault (by omega) hok h, hstate]
  rfl

end Observed

/-- A step fails exactly at an opening bracket on a zero cell after which no prefix of the
script closes more brackets than it opens, and at a closing bracket when no loop is active.
It then changes nothing; the first is reported as critical and the second not at all. The
tracer does not record it, and a trace that it cuts short after some steps leaves machine
and tracer as these steps do. -/
theorem Machine.step_fails_exactly (m : Machine) :
    ((∃ position, m.step.result = .error (.noClosing position)) ↔
      m.script[m.iptr]? = some (.char '[') ∧ m.cell = 0 ∧
        ∀ part, part <+: m.script.drop (m.iptr + 1) →
          part.count (.char ']') ≤ part.count (.char '[')) ∧
    ((m.step.result = .error .noLoopToRepeat ∨ m.step.result = .error .noLoopToLeave) ↔
      m.script[m.iptr]? = some (.char ']') ∧ m.loops = []) ∧
    (∀ fault, m.step.result = .error fault →
      m.step.state = m ∧
        ((fault = .noClosing m.iptr ∧ ∃ notice, m.step.log = [notice] ∧
            notice.level = .critical ∧ Text.ofString notice.message = fault.message) ∨
          (fault = .noLoopToRepeat ∨ fault = .noLoopToLeave) ∧ m.step.log = []) ∧
        ∀ tracer, (⟨m, tracer⟩ : Observed).step = ⟨⟨m, tracer⟩, m.step.log, .error fault⟩) ∧
    ∀ (tracer : Tracer) (count : Int) (fault : Fault),
      let o : Observed := ⟨m, tracer⟩
      ((o.trace count).result = .error fault →
        ∃ j : Nat, j < count ∧ (∀ i < j, ∃ state, (o.after i).step.result = .ok (some state)) ∧
          (o.after j).step.result = .error fault) ∧
      ∀ j : Nat, j < count → (∀ i < j, ∃ state, (o.after i).step.result = .ok (some state)) →
        (o.after j).step.result = .error fault →
          o.trace count = ⟨o.after j, m.reports (j + 1), .error fault⟩ := by
  refine ⟨m.noClosing_iff, m.noLoop_iff, ?_, ?_⟩
  · intro fault h
    refine ⟨state_of_fault h, ?_, fun tracer => Observed.step_of_fault h⟩
    cases faultCase h with
    | noClosing _ _ _ hstep =>
      rw [hstep]
      exact Or.inl ⟨rfl, _, rfl, rfl, rfl⟩
    | noLoopToRepeat _ _ hstep =>
      rw [hstep]
      exact Or.inr ⟨Or.inl rfl, rfl⟩
    | noLoopToLeave _ _ hstep =>
      rw [hstep]
      exact Or.inr ⟨Or.inr rfl, rfl⟩
  · intro tracer count fault o
    constructor
    · intro h
      obtain ⟨j, hj, hok, hfault⟩ := Observed.exists_of_traceFrom_fault h
      exact ⟨j, by omega, hok, hfault⟩
    · intro j hj hok h
      exact Observed.trace_of_fault hj hok h

/-- A trace that makes two steps and then stands before a loop that is never closed, around
one that is; and a closing bracket when no loop is active. -/
theorem Machine.step_fails_at_open_loop :
    let m : Machine :=
      { settings := {}, memoryLength := ⟨1, by decide⟩, script := "+>[a[]"
        channels := .separate {} {} }
    let o : Observed := ⟨m, { showRange := ⟨5, by decide⟩, stepCount := 7 }⟩
    (∃ position, (m.after 2).step.result = .error (.noClosing position)) ∧
      (m.after 2).step.state = m.after 2 ∧ (o.after 2).tracer.stepCount = 9 ∧
      o.trace 5 =
        ⟨o.after 2, [.leftMemory 1 1, .noClosing 2], .error (.noClosing 2)⟩ ∧
      ({ m with script := "]" }.step.result = .error .noLoopToRepeat ∨
        { m with script := "]" }.step.result = .error .noLoopToLeave) := by
  intro m o
  have hopen : (m.after 2).step.result = .error (.noClosing 2) := rfl
  have hok : ∀ i < 2, ∃ state, (o.after i).step.result = .ok (some state) := by
    intro i hi
    rcases i with _ | _ | i
    · exact ⟨_, rfl⟩
    · exact ⟨_, rfl⟩
    · omega
  refine ⟨⟨2, hopen⟩, ((step_fails_exactly (m.after 2)).2.2.1 _ hopen).1, rfl, ?_, ?_⟩
  · exact ((step_fails_exactly m).2.2.2 _ 5 _).2 2 (by decide) hok rfl
  · exact (step_fails_exactly { m with script := "]" }).2.1.mpr ⟨rfl, rfl⟩

end Brainfuck
