import Brainfuck.Proofs.Sequences
import Brainfuck.Proofs.Sessions
import Brainfuck.Proofs.Streams

/-!
Loading a script. A script that is refused leaves everything as it was, and the bracket
that is reported is one of the script's own. A script that is accepted leaves nothing of
what was done before: of the past only what the machine was built with and what stands in
its channels remains, and no request changes what a machine was built with. So after a
load nothing can tell two pasts apart that have left the same characters in the channels.
-/
namespace Brainfuck

theorem Channels.eq_of_input_output {a b : Channels} (hseparate : a.isSeparate = b.isSeparate)
    (hinput : a.input = b.input) (houtput : a.output = b.output) : a = b := by
  cases a with
  | separate input output =>
    obtain ⟨_, _, rfl⟩ := exists_separate hseparate.symm
    change input = _ at hinput
    change output = _ at houtput
    rw [hinput, houtput]
    rfl
  | shared channel =>
    cases b with
    | separate input output => cases hseparate
    | shared other => exact congrArg shared hinput

namespace Machine

theorem memoryLength_step (m : Machine) : m.step.state.memoryLength = m.memoryLength := by
  rcases m.data_or_control with ⟨c, command, hc, hcommand, hb⟩ | hcontrol
  · obtain ⟨_, _, _, _, hstate, -⟩ := m.execute_data hb
    rw [step_data hc hcommand hb, hstate]
    rfl
  · exact congrArg (·.state.memoryLength) (hcontrol m rfl)

/-- What a machine is built with: its settings, its nominal memory length, and whether it
has two channels or one. -/
def make (m : Machine) : Settings × Positive × Bool :=
  (m.settings, m.memoryLength, m.channels.isSeparate)

theorem make_step (m : Machine) : m.step.state.make = m.make := by
  unfold make
  rw [settings_step, memoryLength_step, isSeparate_step]

theorem make_withInput (m : Machine) (channel : Channel) :
    { m with channels := m.channels.withInput channel }.make = m.make := by
  unfold make
  rw [Channels.isSeparate_withInput]

theorem make_withOutput (m : Machine) (channel : Channel) :
    { m with channels := m.channels.withOutput channel }.make = m.make := by
  unfold make
  rw [Channels.isSeparate_withOutput]

/-- A new machine of the same make. -/
theorem build_make (m : Machine) :
    build (some m.settings) (some (.int m.memoryLength.val)) m.channels =
      .ok { settings := m.settings, memoryLength := m.memoryLength, channels := m.channels } := by
  have hpos : (0 : Int) < m.memoryLength.val := Int.ofNat_lt.mpr m.memoryLength.pos
  simp only [build, Settings.checkOr, Settings.checkPositive, hpos, dite_true, bind, Except.bind,
    pure, Except.pure, Option.getD_some, Int.toNat_natCast]

/-- An installed script forgets everything but make and channels. -/
theorem install_eq {a b : Machine} (hmake : a.make = b.make) (hchannels : a.channels = b.channels)
    (script : Script) : a.install script = b.install script := by
  simp only [make, Prod.mk.injEq] at hmake
  unfold install
  rw [hmake.1, hmake.2.1, hchannels]

end Machine

namespace Session

theorem make_preserved (m : Machine) : Preserved (fun _ => True) (fun k => k.make = m.make) where
  install _ _ _ h := h
  step k h := k.make_step.trans h
  input k channel h := (k.make_withInput channel).trans h
  output k channel h := (k.make_withOutput channel).trans h
  tape _ _ _ h := h
  script _ _ _ h := h
  iptr _ _ _ h := h
  dptr _ _ _ h := h

theorem make_carryOut (s : Session) (requests : List Request) :
    (s.carryOut requests).machine.make = s.machine.make :=
  Sequence.final_keeps (·.machine.make)
    (fun s r _ => (make_preserved s.machine).handle rfl r trivial) s

/-- The requests that load a script. -/
def Request.Loads (script : Script) (r : Request) : Prop :=
  r = .setScript script ∨ r = .loadScript script

/-- A request that loads a balanced script is answered alike by any two machines of the same
make with the same channels. -/
theorem handle_load {a b : Machine} (hmake : a.make = b.make) (hchannels : a.channels = b.channels)
    (tracer : Option Tracer) {script : Script} (hscript : script.balanced = true) {r : Request}
    (hr : r.Loads script) :
    (⟨a, tracer⟩ : Session).handle r = (⟨b, tracer⟩ : Session).handle r := by
  have hinstall := Machine.install_eq hmake hchannels script
  rcases hr with rfl | rfl
  · simp only [handle, ofMachine, Machine.setScript_balanced _ hscript, hinstall]
  · simp only [handle, ofMachine, Machine.loadScript_balanced _ hscript, hinstall]

/-- A successful load erases history and a rejected one changes nothing. An unbalanced
script is refused with the position of one of its brackets, and everything stays as it was.
A balanced script leaves any machine as it leaves a new one that is built alike and has the
same channels, so after it two pasts that end with the same characters in the channels have
the same future, with the same replies, states and log. -/
theorem load_erases_history (script : Script) :
    (script.balanced = false →
      ∃ position bracket, script.unbalanced? = some position ∧ position < script.length ∧
        script[position]? = some bracket ∧ (bracket = '[' ∨ bracket = ']') ∧
        ∀ m : Machine,
          m.setScript script = ⟨m, [.rejected position], .ok false⟩ ∧
          m.loadScript script =
            ⟨m, [.rejected position], .error (.unbalanced bracket position)⟩) ∧
    (script.balanced = true →
      (∀ m : Machine, ∃ fresh,
        Machine.build (some m.settings) (some (.int m.memoryLength.val)) m.channels = .ok fresh ∧
          m.setScript script = fresh.setScript script ∧
          m.loadScript script = fresh.loadScript script ∧
          (m.setScript script).result = .ok true ∧ (m.loadScript script).result = .ok ()) ∧
      ∀ (s t : Session) (past other : List Request), s.machine.make = t.machine.make →
        let before := (s.carryOut past).machine
        let elsewhere := (t.carryOut other).machine
        before.channels.input = elsewhere.channels.input →
        before.channels.output = elsewhere.channels.output →
          ∀ (tracer : Option Tracer) (load : Request), load.Loads script →
            ∀ future : List Request,
              (⟨before, tracer⟩ : Session).handleAll (load :: future) =
                (⟨elsewhere, tracer⟩ : Session).handleAll (load :: future)) := by
  constructor
  · intro h
    obtain ⟨position, bracket, hposition, hget, hkind⟩ := Script.exists_unbalanced h
    exact ⟨position, bracket, hposition, Script.lt_of_unbalanced? hposition, hget, hkind,
      fun m => Machine.load_refused h hposition hget m⟩
  · intro h
    constructor
    · intro m
      refine ⟨_, m.build_make, ?_, ?_, ?_, ?_⟩
      · rw [m.setScript_balanced h, Machine.setScript_balanced _ h]
        rfl
      · rw [m.loadScript_balanced h, Machine.loadScript_balanced _ h]
        rfl
      · rw [m.setScript_balanced h]
      · rw [m.loadScript_balanced h]
    · intro s t past other hmake before elsewhere hinput houtput tracer load hload future
      -- Neither past has changed the make, so the same characters are in the same channels.
      have hsame : before.make = elsewhere.make :=
        (s.make_carryOut past).trans (hmake.trans (t.make_carryOut other).symm)
      have hseparate : before.channels.isSeparate = elsewhere.channels.isSeparate :=
        congrArg (·.2.2) hsame
      have hchannels := Channels.eq_of_input_output hseparate hinput houtput
      rw [handleAll_cons, handleAll_cons, handle_load hsame hchannels tracer h hload]

/-- A loop that was left in the middle, with both pointers assigned at random, and then a
script that is refused and one that is accepted. -/
theorem load_erases_interrupted_loop :
    let m : Machine :=
      { settings := {}, memoryLength := ⟨2, by decide⟩, channels := .separate ⟨['a']⟩ {} }
    let past : List Request :=
      [.loadScript "+[>+]", .step 9, .assignIptr 77, .assignDptr (-4)]
    let before := (({ machine := m } : Session).carryOut past).machine
    before.loops = [1] ∧ before.outside = true ∧
      before.loadScript "a]" = ⟨before, [.rejected 1], .error (.unbalanced ']' 1)⟩ ∧
      ∀ future : List Request,
        ({ machine := before } : Session).handleAll (.loadScript "<,[.]" :: future) =
          ({ machine := m } : Session).handleAll (.loadScript "<,[.]" :: future) := by
  intro m past before
  refine ⟨by decide, by decide, ?_, fun future => ?_⟩
  · obtain ⟨position, bracket, hposition, -, hget, -, hm⟩ :=
      (load_erases_history "a]").1 (by decide)
    obtain rfl : 1 = position := Option.some.inj hposition
    obtain rfl : ']' = bracket := Option.some.inj hget
    exact (hm before).2
  · exact ((load_erases_history "<,[.]").2 (by decide)).2 { machine := m } { machine := m }
      past [] rfl (by decide) (by decide) none _ (Or.inr rfl) future

end Session

end Brainfuck
