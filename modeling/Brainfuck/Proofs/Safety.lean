import Brainfuck.Proofs.LoopStack

/-!
A machine whose script was checked never fails. From every opening bracket that it
stands at, the scan finds the end of the loop, and at every closing bracket some loop
is active. So the only operation that can fail is loading an unbalanced script, and a
run of a balanced script always returns a result.
-/
namespace Brainfuck

namespace Machine

theorem WellNested.after {m : Machine} (h : m.WellNested) (n : Nat) : (m.after n).WellNested :=
  after_induction (fun _ hm => hm.step) h n

theorem WellNested.step_result {m : Machine} (h : m.WellNested) :
    m.step.result = .ok (!m.halted) := by
  cases m.stepCase with
  | halted hc =>
    rw [step_halted hc, m.halted_iff.mpr hc]
    rfl
  | comment c hc hn =>
    rw [step_comment hc hn, halted_of_current? hc]
    rfl
  | data c command hc hcommand hb =>
    rw [step_data hc hcommand hb, halted_of_current? hc]
    rfl
  | enter hc hcell =>
    rw [step_enter hc hcell, halted_of_current? hc]
    rfl
  | skip position hc hcell hclosing =>
    rw [step_skip hc hcell hclosing, halted_of_current? hc]
    rfl
  | noClosing hc hcell hclosing => exact absurd hclosing (h.closing?_ne_none hc)
  | again position outer hc hcell hloops =>
    rw [step_again hc hcell hloops, halted_of_current? hc]
    rfl
  | leave position outer hc hcell hloops =>
    rw [step_leave hc hcell hloops, halted_of_current? hc]
    rfl
  | noLoop hc hloops => exact absurd hloops (h.loops_ne_nil hc)

/-- Whatever only makes steps on a well nested machine does not fail. -/
theorem WellNested.onlySteps_ok {m final : Machine} {α : Type} {result : Except Fault α}
    (h : m.WellNested) (hsteps : OnlySteps m final result) : ∃ a, result = .ok a := by
  cases result with
  | ok a => exact ⟨a, rfl⟩
  | error fault =>
    obtain ⟨n, hn⟩ := hsteps.2 fault rfl
    rw [(h.after n).step_result] at hn
    cases hn

theorem WellNested.drive_ok {m : Machine} (h : m.WellNested) (limit : Int) :
    (m.drive limit).result = .ok () := by
  obtain ⟨_, ha⟩ := h.onlySteps_ok (driveFrom_onlySteps limit [] m)
  exact ha

/-- What a run does when its drive does not fail. -/
theorem run_of_drive_ok {m : Machine} {limit : Option Int} {driven : Outcome Machine Unit}
    (hdrive : m.drive (limit.getD m.settings.stepLimit.val) = driven)
    (h : driven.result = .ok ()) :
    m.run limit = ⟨driven.state.drain.2,
      .running m.script.length (limit.getD m.settings.stepLimit.val) :: driven.log ++
        (if driven.state.halted then [] else [.stopped driven.state.cycles driven.state.iptr]),
      .ok ⟨driven.state.drain.1, driven.state.cycles, driven.state.halted,
        !driven.state.halted⟩⟩ := by
  simp only [run, hdrive, h]
  cases driven.state.halted <;> simp

theorem WellNested.exists_run {m : Machine} (h : m.WellNested) (limit : Option Int) :
    ∃ result, (m.run limit).result = .ok result := by
  rw [run_of_drive_ok rfl (h.drive_ok _)]
  exact ⟨_, rfl⟩

theorem cell_isValidChar (m : Machine) : m.cell.toNat.isValidChar := by
  have hlt : m.cell.toNat < 256 := m.cell.toNat_lt
  exact Or.inl (by omega)

/-- The machine that a single run builds for its input. -/
def start (settings : Settings) (input : Text) : Machine :=
  { settings, memoryLength := settings.memoryLength, channels := .separate ⟨input⟩ {} }

end Machine

section RunOnce

variable {code : Script} {input : Text} {limit : Option Int} {given : Option Settings}
  {environment : Environment} {settings : Settings}

theorem runOnce_unbalanced (hsettings : given.elim (Settings.ofEnvironment environment) .ok =
      .ok settings) (h : code.balanced = false) {position : Nat} {bracket : Letter}
    (hposition : code.unbalanced? = some position) (hbracket : code[position]? = some bracket) :
    (runOnce code input limit given environment).2 =
      .error (.fault (.unbalanced bracket position)) := by
  simp only [runOnce, hsettings, (Machine.load_refused h hposition hbracket _).2]

theorem runOnce_balanced (hsettings : given.elim (Settings.ofEnvironment environment) .ok =
      .ok settings) (h : code.balanced = true) {result : RunResult}
    (hrun : (((Machine.start settings input).install code).run limit).result = .ok result) :
    (runOnce code input limit given environment).2 = .ok result := by
  rw [Machine.start] at hrun
  simp only [runOnce, hsettings, Machine.loadScript_balanced _ h, hrun]

theorem exists_run_result (hsettings : given.elim (Settings.ofEnvironment environment) .ok =
      .ok settings) (h : code.balanced = true) :
    ∃ result, (runOnce code input limit given environment).2 = .ok result := by
  have hloaded := Machine.WellNested.install (Machine.start settings input) h
  obtain ⟨result, hrun⟩ := hloaded.exists_run limit
  exact ⟨result, runOnce_balanced hsettings h hrun⟩

end RunOnce

namespace Session

theorem ofMachine_reply (s : Session) {α : Type} {o : Outcome Machine α} {reply : α → Reply}
    {a : α} (h : o.result = .ok a) : (s.ofMachine o reply).reply = reply a := by
  simp only [ofMachine, h]

theorem ofObserved_reply {α : Type} {o : Outcome Observed α} {reply : α → Reply} {a : α}
    (h : o.result = .ok a) : (ofObserved o reply).reply = reply a := by
  simp only [ofObserved, h]

theorem observe_fault {s : Session} {use : Observed → Answer} {fault : Fault}
    (h : (s.observe use).reply = .fault fault) :
    ∃ tracer, (use ⟨s.machine, tracer⟩).reply = .fault fault := by
  rw [observe] at h
  split at h
  · exact ⟨_, h⟩
  · cases h

/-- A request on a well nested machine fails only if it loads an unbalanced script. -/
theorem handle_fault {s : Session} (hs : s.machine.WellNested) {r : Request} {fault : Fault}
    (h : (s.handle r).reply = .fault fault) :
    ∃ script, r = .loadScript script ∧ script.balanced = false ∧
      ∃ bracket position, fault = .unbalanced bracket position := by
  cases r with
  | setScript script =>
    by_cases hb : script.balanced = true
    · rw [handle, ofMachine_reply s (by rw [Machine.setScript_balanced _ hb])] at h
      cases h
    · rw [handle, ofMachine_reply s (by rw [Machine.setScript_unbalanced _ hb])] at h
      cases h
  | loadScript script =>
    by_cases hb : script.balanced = true
    · rw [handle, ofMachine_reply s (by rw [Machine.loadScript_balanced _ hb])] at h
      cases h
    · rw [handle, ofMachine, Machine.loadScript_unbalanced _ hb] at h
      cases h
      exact ⟨script, rfl, Bool.eq_false_iff.mpr hb, _, _, rfl⟩
  | step count =>
    obtain ⟨a, ha⟩ := hs.onlySteps_ok (Machine.advanceFrom_onlySteps 0 [] count.toNat s.machine)
    rw [handle, Machine.advance, ofMachine_reply s ha] at h
    cases h
  | walk count =>
    obtain ⟨a, ha⟩ := hs.onlySteps_ok (Machine.walkFrom_onlySteps [] [] count.toNat s.machine)
    rw [handle, Machine.walk, ofMachine_reply s ha] at h
    cases h
  | run limit =>
    obtain ⟨result, hrun⟩ := hs.exists_run limit
    rw [handle, ofMachine_reply s hrun] at h
    cases h
  | traceStep =>
    obtain ⟨tracer, htracer⟩ := observe_fault h
    obtain ⟨a, ha⟩ := hs.onlySteps_ok (Observed.step_onlySteps ⟨s.machine, tracer⟩)
    rw [ofObserved_reply ha] at htracer
    cases htracer
  | trace count =>
    obtain ⟨tracer, htracer⟩ := observe_fault h
    obtain ⟨a, ha⟩ := hs.onlySteps_ok
      (Observed.traceFrom_onlySteps [] [] count.toNat ⟨s.machine, tracer⟩)
    rw [Observed.trace, ofObserved_reply ha] at htracer
    cases htracer
  | snapshot =>
    obtain ⟨tracer, htracer⟩ := observe_fault h
    cases htracer
  | render =>
    obtain ⟨tracer, htracer⟩ := observe_fault h
    cases htracer
  | openTracer range =>
    rw [handle] at h
    split at h <;> cases h
  | _ => cases h

/-- No request that leaves script and instruction pointer alone makes a step fail, and
loading is refused exactly for unbalanced scripts: a run fails if its script is
unbalanced and returns a result if it is balanced. -/
theorem reachable_never_faults :
    (∀ s : Session, Reachable Request.KeepsControl s →
      s.machine.step.result = .ok (!s.machine.halted) ∧ s.machine.cell.toNat.isValidChar ∧
        ∀ r fault, (s.handle r).reply = .fault fault →
          ∃ script, r = .loadScript script ∧ script.balanced = false ∧
            ∃ bracket position, fault = .unbalanced bracket position) ∧
      ∀ (code : Script) (input : Text) (limit : Option Int) (given : Option Settings)
        (environment : Environment) (settings : Settings),
        given.elim (Settings.ofEnvironment environment) .ok = .ok settings →
          ((∃ bracket position, (runOnce code input limit given environment).2 =
              .error (.fault (.unbalanced bracket position))) ↔ code.balanced = false) ∧
            (code.balanced = true →
              ∃ result, (runOnce code input limit given environment).2 = .ok result) := by
  constructor
  · intro s hs
    have hm := wellNested_kept.reachable hs
    exact ⟨hm.step_result, s.machine.cell_isValidChar, fun r fault h => handle_fault hm h⟩
  · intro code input limit given environment settings hsettings
    refine ⟨⟨?_, ?_⟩, exists_run_result hsettings⟩
    · rintro ⟨bracket, position, herror⟩
      rw [← Bool.not_eq_true]
      intro hb
      obtain ⟨result, hok⟩ := exists_run_result hsettings hb
      rw [herror] at hok
      cases hok
    · intro hb
      obtain ⟨position, bracket, hposition, hbracket, -⟩ := Script.exists_unbalanced hb
      exact ⟨_, _, runOnce_unbalanced hsettings hb hposition hbracket⟩

/-- At the closing bracket of a loop on a cell written from outside, and runs of two
scripts that differ in one bracket. -/
theorem reachable_never_faults_at_closing :
    (∃ s : Session, Reachable Request.KeepsControl s ∧ s.machine.current? = some (.char ']') ∧
      s.machine.step.result = .ok true) ∧
      (∃ bracket position, (runOnce "+[[]" [] (some (-1)) none fun _ => none).2 =
        .error (.fault (.unbalanced bracket position))) ∧
      ∃ result, (runOnce "+[]" [] none none fun _ => none).2 = .ok result := by
  have hfresh := @Reachable.fresh Request.KeepsControl none none (.shared {}) _ rfl
  have hloaded := hfresh.request (.loadScript "+[,]") trivial
  have hclosing := ((hloaded.request (.step 3) trivial).request (.assignDptr 40000) trivial).request
    (.tape (.store 40000 (-1))) trivial
  have hstep := (reachable_never_faults.1 _ hclosing).1
  have hrun := fun code limit =>
    reachable_never_faults.2 code [] limit none (fun _ => none) Settings.defaults rfl
  exact ⟨⟨_, hclosing, by decide, hstep⟩, (hrun _ _).1.mpr (by decide), (hrun _ _).2 (by decide)⟩

end Session

end Brainfuck
