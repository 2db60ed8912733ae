import Brainfuck.Session
import Brainfuck.Proofs.Steps

/-!
Sessions that can be reached from a new machine by allowed requests. Every request
loads a script, makes steps, or changes one part of the data from outside, so a
property of machines holds throughout as soon as it holds for a new machine and each
of these keeps it.
-/
namespace Brainfuck

namespace Machine

theorem setScript_balanced (m : Machine) {script : Script} (h : script.balanced = true) :
    m.setScript script = ⟨m.install script, [], .ok true⟩ :=
  dif_pos h

theorem setScript_unbalanced (m : Machine) {script : Script} (h : ¬ script.balanced) :
    m.setScript script = ⟨m, [.rejected (script.offender h)], .ok false⟩ :=
  dif_neg h

theorem loadScript_balanced (m : Machine) {script : Script} (h : script.balanced = true) :
    m.loadScript script = ⟨m.install script, [], .ok ()⟩ := by
  simp only [loadScript, setScript_balanced m h, dif_pos h]

theorem loadScript_unbalanced (m : Machine) {script : Script} (h : ¬ script.balanced) :
    m.loadScript script = ⟨m, [.rejected (script.offender h)],
      .error (.unbalanced (script.get (script.offender h)) (script.offender h))⟩ := by
  simp only [loadScript, setScript_unbalanced m h, dif_neg h]

/-- How a script is refused whose reported bracket is known. -/
theorem load_refused {script : Script} {position : Nat} {bracket : Letter}
    (h : script.balanced = false) (hposition : script.unbalanced? = some position)
    (hbracket : script[position]? = some bracket) (m : Machine) :
    m.setScript script = ⟨m, [.rejected position], .ok false⟩ ∧
      m.loadScript script =
        ⟨m, [.rejected position], .error (.unbalanced bracket position)⟩ := by
  have hnot : ¬ script.balanced := Bool.eq_false_iff.mp h
  obtain ⟨hlt, rfl⟩ := List.getElem?_eq_some_iff.mp hbracket
  obtain rfl : (script.offender hnot).val = position := by
    simp [Script.offender, hposition]
  exact ⟨m.setScript_unbalanced hnot, m.loadScript_unbalanced hnot⟩

end Machine

namespace Observed

open Machine

theorem step_onlySteps (o : Observed) :
    OnlySteps o.machine o.step.state.machine o.step.result := by
  simp only [step]
  split
  · exact .stop o.machine none
  · split
    · next fault hfault => exact .fail hfault
    · exact .cons (.stop _ _)

theorem traceFrom_onlySteps (seen : List Snapshot) (log : List Notice) (count : Nat)
    (o : Observed) :
    OnlySteps o.machine (traceFrom seen log count o).state.machine
      (traceFrom seen log count o).result := by
  induction count generalizing seen log o with
  | zero => exact .stop o.machine _
  | succ count ih =>
    have hstep := o.step_onlySteps
    rw [traceFrom]
    split
    · exact hstep.trans (ih _ _ _)
    · exact hstep.trans (.stop _ _)
    · next fault hfault =>
      rw [hfault] at hstep
      exact hstep.of_error

end Observed

namespace Session

/-- Neither the script nor the instruction pointer is assigned directly. -/
def Request.KeepsControl : Request → Prop
  | .assignScript _ | .assignIptr _ => False
  | _ => True

/-- What allowed requests can make of a new machine. -/
inductive Reachable (allowed : Request → Prop) : Session → Prop
  | fresh {settings : Option Settings} {memoryLength : Option Value} {channels : Channels}
      {m : Machine} (h : Machine.build settings memoryLength channels = .ok m) :
      Reachable allowed { machine := m }
  | request {s : Session} (hs : Reachable allowed s) (r : Request) (hr : allowed r) :
      Reachable allowed (s.handle r).session

/-- What is reached by few requests is reached by more. -/
theorem Reachable.mono {allowed more : Request → Prop} (h : ∀ r, allowed r → more r)
    {s : Session} (hs : Reachable allowed s) : Reachable more s := by
  induction hs with
  | fresh hbuild => exact .fresh hbuild
  | request _ r hr ih => exact ih.request r (h r hr)

/-- What has to be known of a property of machines for allowed requests to keep it. -/
structure Preserved (allowed : Request → Prop) (P : Machine → Prop) : Prop where
  install : ∀ m script, script.balanced = true → P m → P (m.install script)
  step : ∀ m, P m → P m.step.state
  input : ∀ m channel, P m → P { m with channels := m.channels.withInput channel }
  output : ∀ m channel, P m → P { m with channels := m.channels.withOutput channel }
  tape : ∀ op, allowed (.tape op) → ∀ m, P m → P { m with tape := (m.tape.perform op).2 }
  script : ∀ script, allowed (.assignScript script) → ∀ m, P m → P { m with script }
  iptr : ∀ iptr, allowed (.assignIptr iptr) → ∀ m, P m → P { m with iptr }
  dptr : ∀ dptr, allowed (.assignDptr dptr) → ∀ m, P m → P { m with dptr }

/-- What has to be known of a property of machines for it to hold in all sessions that
allowed requests can reach. -/
structure Kept (allowed : Request → Prop) (P : Machine → Prop) : Prop
    extends Preserved allowed P where
  fresh : ∀ settings memoryLength channels, P { settings, memoryLength, channels }

theorem build_fresh {settings : Option Settings} {memoryLength : Option Value}
    {channels : Channels} {m : Machine}
    (h : Machine.build settings memoryLength channels = .ok m) :
    ∃ settings memoryLength channels, m = { settings, memoryLength, channels } := by
  simp only [Machine.build, bind, Except.bind, pure, Except.pure] at h
  split at h
  · cases h
  · cases h
    exact ⟨_, _, _, rfl⟩

namespace Preserved

variable {allowed : Request → Prop} {P : Machine → Prop}

theorem onlySteps (hk : Preserved allowed P) {α : Type} {m final : Machine}
    {result : Except Fault α} (h : Machine.OnlySteps m final result) (hm : P m) : P final := by
  obtain ⟨⟨n, rfl⟩, -⟩ := h
  exact Machine.after_induction hk.step hm n

theorem setScript (hk : Preserved allowed P) {m : Machine} (hm : P m) (script : Script) :
    P (m.setScript script).state := by
  by_cases h : script.balanced = true
  · rw [m.setScript_balanced h]
    exact hk.install m script h hm
  · rw [m.setScript_unbalanced h]
    exact hm

theorem loadScript (hk : Preserved allowed P) {m : Machine} (hm : P m) (script : Script) :
    P (m.loadScript script).state := by
  by_cases h : script.balanced = true
  · rw [m.loadScript_balanced h]
    exact hk.install m script h hm
  · rw [m.loadScript_unbalanced h]
    exact hm

theorem run (hk : Preserved allowed P) {m : Machine} (hm : P m) (limit : Option Int) :
    P (m.run limit).state := by
  have hdriven := hk.onlySteps
    (Machine.driveFrom_onlySteps (limit.getD m.settings.stepLimit.val) [] m) hm
  simp only [Machine.run]
  split
  · exact hdriven
  · exact hk.output _ _ hdriven

theorem observe {s : Session} (hs : P s.machine)
    {use : Observed → Answer} (huse : ∀ o, P o.machine → P (use o).session.machine) :
    P (s.observe use).session.machine := by
  rw [Session.observe]
  split
  · exact huse _ hs
  · exact hs

/-- One request keeps the property. -/
theorem handle (hk : Preserved allowed P) {s : Session} (hs : P s.machine) (r : Request)
    (hr : allowed r) : P (s.handle r).session.machine := by
  cases r with
  | setScript script => exact hk.setScript hs script
  | loadScript script => exact hk.loadScript hs script
  | step count => exact hk.onlySteps (Machine.advanceFrom_onlySteps 0 [] _ _) hs
  | walk count => exact hk.onlySteps (Machine.walkFrom_onlySteps [] [] _ _) hs
  | run limit => exact hk.run hs limit
  | script => exact hs
  | memoryLength => exact hs
  | cell index => exact hs
  | tape op => exact hk.tape op hr _ hs
  | input op => exact hk.input _ _ hs
  | output op => exact hk.output _ _ hs
  | assignScript script => exact hk.script script hr _ hs
  | assignIptr iptr => exact hk.iptr iptr hr _ hs
  | assignDptr dptr => exact hk.dptr dptr hr _ hs
  | openTracer range =>
    rw [Session.handle]
    split <;> exact hs
  | snapshot => exact observe hs fun _ _ => hs
  | traceStep => exact observe hs fun o ho => hk.onlySteps o.step_onlySteps ho
  | trace count =>
    exact observe hs fun o ho => hk.onlySteps (o.traceFrom_onlySteps [] [] _) ho
  | render => exact observe hs fun _ _ => hs

end Preserved

/-- A kept property holds in every reachable session. -/
theorem Kept.reachable {allowed : Request → Prop} {P : Machine → Prop} (hk : Kept allowed P)
    {s : Session} (h : Reachable allowed s) : P s.machine := by
  induction h with
  | fresh h =>
    obtain ⟨_, _, _, rfl⟩ := build_fresh h
    exact hk.fresh _ _ _
  | request _ r hr ih => exact hk.handle ih r hr

end Session

end Brainfuck
