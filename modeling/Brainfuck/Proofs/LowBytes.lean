import Brainfuck.Proofs.Endings
import Brainfuck.Proofs.Refinement

/-!
The input modulo 256. A character that is read is stored in a cell, and of it a cell keeps
only the code modulo 256; whether there is a character at all does not depend on which one it
is. So a machine does the same on its input and on the input with each character replaced by
the one that its cell would print, and hence on any two inputs of which these are the same.
What it prints itself are such characters.
-/
namespace Brainfuck

/-- The character that a cell prints into which a letter was read. -/
def lowByte (letter : Letter) : Letter := .char (Char.ofNat (letter.code % 256))

theorem code_lowByte (letter : Letter) : (lowByte letter).code = letter.code % 256 :=
  toNat_ofNat_of_lt (Nat.mod_lt _ (by decide))

theorem map_lowByte_eq {x y : Text}
    (h : List.Forall₂ (fun c d => c.code % 256 = d.code % 256) x y) :
    x.map lowByte = y.map lowByte := by
  induction h with
  | nil => rfl
  | cons hcd _ ih =>
    rw [List.map_cons, List.map_cons, ih]
    unfold lowByte
    rw [hcd]

theorem Tape.store_lowByte (tape : Tape) (i : Int) (letter : Letter) :
    tape.store i (lowByte letter).code = tape.store i letter.code := by
  have hbyte : UInt8.ofInt (letter.code % 256 : Nat) = UInt8.ofInt letter.code := by
    apply UInt8.toNat_inj.mp
    apply Int.ofNat.inj
    change ((UInt8.ofInt _).toNat : Int) = ((UInt8.ofInt _).toNat : Int)
    rw [toNat_byte_ofInt, toNat_byte_ofInt]
    omega
  rw [store, store, code_lowByte, hbyte]

/-- Two channels with every character of the input replaced; one channel for both is left
alone. -/
def Channels.lowered : Channels → Channels
  | .separate input output => .separate ⟨input.buffer.map lowByte⟩ output
  | .shared channel => .shared channel

namespace Machine

/-- The machine with every character of its input replaced. -/
def lowered (m : Machine) : Machine := { m with channels := m.channels.lowered }

theorem lowered_unseen : Unseen lowered where
  data _ _ := rfl
  cell _ := rfl

theorem lowered_of_shared {m : Machine} (h : m.channels.isSeparate = false) : m.lowered = m := by
  unfold lowered
  cases hchannels : m.channels with
  | separate input output => simp [hchannels, Channels.isSeparate] at h
  | shared channel => rw [Channels.lowered, ← hchannels]

theorem readCell_lowered (m : Machine) : m.lowered.readCell = m.readCell.lowered := by
  cases hchannels : m.channels with
  | shared channel =>
    have hshared : m.channels.isSeparate = false := by rw [hchannels]; rfl
    rw [lowered_of_shared hshared, lowered_of_shared (m.isSeparate_readCell.trans hshared)]
  | separate input output =>
    obtain ⟨buffer⟩ := input
    cases buffer with
    | nil =>
      have hempty : m.channels.input.buffer = [] := by rw [hchannels]; rfl
      have hlowered : m.lowered.channels.input.buffer = [] := by
        rw [lowered, hchannels]
        rfl
      rw [readCell_of_empty hempty, readCell_of_empty hlowered]
      rfl
    | cons c rest =>
      have hlowered : m.lowered.channels =
          .separate ⟨lowByte c :: rest.map lowByte⟩ output := by
        rw [lowered, hchannels]
        rfl
      rw [readCell_separate hchannels, readCell_separate hlowered, Tape.store_lowByte]
      rfl

theorem writeCell_lowered (m : Machine) : m.lowered.writeCell = m.writeCell.lowered := by
  cases hchannels : m.channels with
  | separate input output => simp only [writeCell, lowered, hchannels]; rfl
  | shared channel => simp only [writeCell, lowered, hchannels]; rfl

/-- A step does not notice the replacement. -/
theorem step_lowered (m : Machine) :
    m.lowered.step = ⟨m.step.state.lowered, m.step.log, m.step.result⟩ := by
  apply lowered_unseen.step
  intro c command _ _ hb
  cases command with
  | right => rfl
  | left => rfl
  | increment => rfl
  | decrement => rfl
  | output => simp only [execute, writeCell_lowered]
  | input => simp only [execute, readCell_lowered]
  | opening => simp [Command.isBracket] at hb
  | closing => simp [Command.isBracket] at hb

theorem drain_lowered (m : Machine) : m.lowered.drain = (m.drain.1, m.drain.2.lowered) := by
  cases hchannels : m.channels with
  | separate input output => simp only [drain, lowered, hchannels]; rfl
  | shared channel => simp only [drain, lowered, hchannels]; rfl

/-- Nor does a run. -/
theorem run_lowered (m : Machine) (limit : Option Int) :
    m.lowered.run limit =
      ⟨(m.run limit).state.lowered, (m.run limit).log, (m.run limit).result⟩ := by
  obtain ⟨driven, hdrive⟩ : ∃ driven, m.drive (limit.getD m.settings.stepLimit.val) = driven :=
    ⟨_, rfl⟩
  have hlowered : m.lowered.drive (limit.getD m.lowered.settings.stepLimit.val) =
      ⟨driven.state.lowered, driven.log, driven.result⟩ := by
    rw [← hdrive]
    exact lowered_unseen.driveFrom step_lowered (limit.getD m.settings.stepLimit.val) [] m
  cases hresult : driven.result with
  | ok _ =>
    rw [run_of_drive_ok hdrive hresult, run_of_drive_ok hlowered hresult, drain_lowered]
    rfl
  | error fault =>
    rw [run_of_drive_fault hdrive hresult, run_of_drive_fault hlowered hresult]
    rfl

end Machine

theorem runOnce_map_lowByte (code : Script) (input : Text) (limit : Option Int)
    (given : Option Settings) (environment : Environment) :
    runOnce code (input.map lowByte) limit given environment =
      runOnce code input limit given environment := by
  cases hsettings : given.elim (Settings.ofEnvironment environment) .ok with
  | error cause => simp only [runOnce, hsettings]
  | ok settings =>
    by_cases hcode : code.balanced = true
    · let loaded := (Machine.start settings input).install code
      have hlowered : Machine.install
          { settings, memoryLength := settings.memoryLength
            channels := .separate ⟨input.map lowByte⟩ {} } code = loaded.lowered := rfl
      simp only [runOnce, hsettings, Machine.loadScript_balanced _ hcode, hlowered,
        Machine.run_lowered]
      rfl
    · simp only [runOnce, hsettings, Machine.loadScript_unbalanced _ hcode]

theorem Machine.code_lt_of_mem_written {m : Machine} {letter : Letter}
    (h : letter ∈ m.written) : letter.code < 256 := by
  have hlt : m.cell.toNat < 256 := m.cell.toNat_lt
  unfold written at h
  split at h
  · rw [List.mem_singleton] at h
    rw [h, Letter.code, toNat_ofNat_of_lt hlt]
    exact hlt
  · cases h

/-- The input is seen only modulo 256. A run of a balanced script returns the same result and
the same log for any two inputs of which the characters agree modulo 256 one by one, and so
for the input with each character replaced by the one with its code modulo 256. All that it
prints are characters with codes below 256. -/
theorem input_is_seen_modulo_256 {code : Script} (hcode : code.balanced = true)
    {x y : Text} (h : List.Forall₂ (fun c d => c.code % 256 = d.code % 256) x y)
    (limit : Option Int) {given : Option Settings} {environment : Environment}
    {settings : Settings}
    (hsettings : given.elim (Settings.ofEnvironment environment) .ok = .ok settings) :
    ∃ log result, runOnce code x limit given environment = (log, .ok result) ∧
      runOnce code y limit given environment = (log, .ok result) ∧
      runOnce code (x.map fun c => .char (Char.ofNat (c.code % 256))) limit given environment =
        (log, .ok result) ∧
      ∀ c ∈ result.output, c.code < 256 := by
  have hm := Machine.WellNested.install (Machine.start settings x) hcode
  obtain ⟨n, hn⟩ := hm.exists_rest (limit.getD settings.stepLimit.val)
  let final := ((Machine.start settings x).install code).after n
  have hx : runOnce code x limit given environment =
      ((runOnce code x limit given environment).1, .ok final.report) :=
    Prod.ext rfl (runOnce_of_restsAfter hsettings hcode limit hn)
  refine ⟨_, final.report, hx, ?_, ?_, ?_⟩
  · rw [← hx, ← runOnce_map_lowByte code x, ← runOnce_map_lowByte code y, map_lowByte_eq h]
  · exact (runOnce_map_lowByte code x limit given environment).trans hx
  · intro c hc
    have hbuffer : final.channels.output.buffer = _ := Machine.output_after rfl n
    rw [Machine.report, Machine.drain_eq, hbuffer, List.nil_append, List.mem_flatMap] at hc
    obtain ⟨m, -, hwritten⟩ := hc
    exact Machine.code_lt_of_mem_written hwritten

/-- Echoing up to a character that reads as zero: a wide character and one that is a multiple
of 256, against the letter and the zero that a cell keeps of them. -/
theorem input_is_seen_modulo_256_in_echo :
    'Ł'.toNat = 321 ∧ 'A'.toNat = 65 ∧ 'Ā'.toNat = 256 ∧
      ∃ log result,
        runOnce ",[.,]" ['Ł', 'Ā', 'z'] none none (fun _ => none) = (log, .ok result) ∧
        runOnce ",[.,]" ['A', '\x00', 'z'] none none (fun _ => none) =
          (log, .ok result) := by
  have hpairs : List.Forall₂ (fun c d : Letter => c.code % 256 = d.code % 256)
      ['Ł', 'Ā', 'z'] ['A', '\x00', 'z'] := .cons rfl (.cons rfl (.cons rfl .nil))
  obtain ⟨log, result, hwide, hnarrow, -⟩ :=
    @input_is_seen_modulo_256 ",[.,]" (by decide) _ _ hpairs none none (fun _ => none)
      Settings.defaults rfl
  exact ⟨rfl, rfl, rfl, log, result, hwide, hnarrow⟩

end Brainfuck
