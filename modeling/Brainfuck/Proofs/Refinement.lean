import Brainfuck.Proofs.LoopStack
import Brainfuck.Proofs.Programs

/-!
The step machine computes what the structured program does. The text of a program may
stand anywhere in a script: an evaluation is followed by steps over exactly that text,
and steps that end in a halt give an evaluation back. Both rest on one fact about
loops, that at the closing bracket the machine goes on as if it stood at the opening
one and had not entered.
-/
namespace Brainfuck

namespace Machine

/-- The machine has the contents of a store, on two channels. -/
structure Holds (m : Machine) (s : Store) : Prop where
  cell : ∀ i, ((m.tape.get i).toNat : Int) = s.cell i
  written : ∀ i, m.tape.isWritten i = s.written i
  dptr : m.dptr = s.dptr
  channels : m.channels = .separate ⟨s.input⟩ ⟨s.output⟩

namespace Holds

theorem current {m : Machine} {s : Store} (h : m.Holds s) : (m.cell.toNat : Int) = s.current := by
  rw [Store.current, ← h.cell, ← h.dptr]
  rfl

theorem cell_eq_zero {m : Machine} {s : Store} (h : m.Holds s) : m.cell = 0 ↔ s.current = 0 := by
  rw [← h.current, ← UInt8.toNat_inj]
  simp

theorem write {m : Machine} {s : Store} (h : m.Holds s) {byte : UInt8} {value : Int}
    (hbyte : (byte.toNat : Int) = value % 256) :
    { m with tape := m.tape.set m.dptr byte }.Holds (s.write value) where
  cell i := by
    rw [Tape.get_set, Store.write, h.dptr]
    by_cases hi : s.dptr = i
    · subst hi
      simpa using hbyte
    · have hne : i ≠ s.dptr := Ne.symm hi
      simpa [hi, hne] using h.cell i
  written i := by
    rw [Tape.isWritten_set, Store.write, h.dptr]
    by_cases hi : s.dptr = i
    · subst hi
      simp
    · have hne : i ≠ s.dptr := Ne.symm hi
      simpa [hi, hne] using h.written i
  dptr := h.dptr
  channels := h.channels

theorem read {m : Machine} {s : Store} (h : m.Holds s) :
    m.readCell.Holds (s.read m.settings.eof) := by
  have hinput : m.channels.input = ⟨s.input⟩ := by rw [h.channels]; rfl
  unfold readCell Store.read
  rw [hinput]
  cases hs : s.input with
  | nil =>
    simp only [Channel.read, List.take_nil]
    unfold atEof
    cases m.settings.eof with
    | unchanged => exact h
    | zero => exact h.write rfl
    | max => exact h.write rfl
  | cons letter rest =>
    have hwrite := h.write (toNat_byte_ofInt letter.code)
    refine ⟨hwrite.cell, hwrite.written, hwrite.dptr, ?_⟩
    change m.channels.withInput ⟨rest⟩ = _
    rw [h.channels]
    rfl

/-- An action does to the machine what it does to the store. -/
theorem act {m : Machine} {s : Store} (h : m.Holds s) (a : Action) :
    (m.execute a.command).state.Holds (s.act m.settings.eof a) := by
  cases a with
  | right => exact ⟨h.cell, h.written, congrArg (· + 1) h.dptr, h.channels⟩
  | left => exact ⟨h.cell, h.written, congrArg (· - 1) h.dptr, h.channels⟩
  | increment =>
    apply h.write
    rw [toNat_byte_add_one, ← h.current]
    rfl
  | decrement =>
    apply h.write
    rw [toNat_byte_sub_one, ← h.current]
    rfl
  | output =>
    refine ⟨h.cell, h.written, h.dptr, ?_⟩
    have hcell : m.cell.toNat = s.current.toNat := by
      rw [← h.current]
      rfl
    change m.channels.withOutput
      (m.channels.output.write (some [.char (Char.ofNat m.cell.toNat)])) = _
    rw [h.channels, hcell]
    rfl
  | input => exact h.read

end Holds

/-- The machine has moved on over `length` characters to the contents `t`, at the given
cost and inside the same loops. -/
structure MovedOn (m final : Machine) (length : Nat) (t : Store) (cost : Nat) : Prop where
  holds : final.Holds t
  script : final.script = m.script
  settings : final.settings = m.settings
  iptr : final.iptr = m.iptr + length
  loops : final.loops = m.loops
  cycles : final.cycles = m.cycles + cost

theorem MovedOn.trans {m mid final : Machine} {first second : Nat} {u t : Store} {k n : Nat}
    (hm : MovedOn m mid first u k) (h : MovedOn mid final second t n) :
    MovedOn m final (first + second) t (k + n) where
  holds := h.holds
  script := h.script.trans hm.script
  settings := h.settings.trans hm.settings
  iptr := by rw [h.iptr, hm.iptr, Nat.add_assoc]
  loops := h.loops.trans hm.loops
  cycles := by rw [h.cycles, hm.cycles, Nat.add_assoc]

theorem MovedOn.drop_eq {m final : Machine} {length : Nat} {t : Store} {cost : Nat}
    (h : MovedOn m final length t cost) (part : Script) {post : Script}
    (hat : m.script.drop m.iptr = part ++ post) (hlength : part.length = length) :
    final.script.drop final.iptr = post := by
  rw [h.script, h.iptr, ← List.drop_drop, hat, ← hlength, List.drop_left]

theorem current?_of_drop {m : Machine} {c : Letter} {rest : Script}
    (h : m.script.drop m.iptr = c :: rest) : m.current? = some c := by
  have hhead := congrArg List.head? h
  rw [List.head?_drop] at hhead
  exact hhead

theorem movedOn_action {m : Machine} {s : Store} {a : Action} (h : m.Holds s)
    (hc : m.current? = some a.letter) :
    MovedOn m m.step.state 1 (s.act m.settings.eof a) 1 := by
  have hb : a.command.isBracket = false := by cases a <;> rfl
  have hact := h.act a
  obtain ⟨_, _, _, _, hstate, -⟩ := m.execute_data hb
  rw [step_data hc a.ofLetter?_letter hb]
  rw [hstate] at hact ⊢
  exact ⟨⟨hact.cell, hact.written, hact.dptr, hact.channels⟩, rfl, rfl, rfl, rfl, rfl⟩

theorem movedOn_comment {m : Machine} {s : Store} {c : Letter} (h : m.Holds s)
    (hc : m.current? = some c) (hn : isCommand c = false) : MovedOn m m.step.state 1 s 0 := by
  rw [step_comment hc (Command.ofLetter?_eq_none hn)]
  exact ⟨⟨h.cell, h.written, h.dptr, h.channels⟩, rfl, rfl, rfl, rfl, rfl⟩

theorem closing?_of_drop {m : Machine} {body rest : Script} (hbody : body.balanced = true)
    (hat : m.script.drop m.iptr = .char '[' :: (body ++ .char ']' :: rest)) :
    m.script.closing? m.iptr = some (m.iptr + 1 + body.length) := by
  have hdrop : m.script.drop (m.iptr + 1) = body ++ .char ']' :: rest := by
    rw [← List.drop_drop, hat]
    rfl
  rw [Script.closing?, hdrop, Script.closingFrom_append hbody]

theorem movedOn_exit {m : Machine} {s : Store} {body rest : Script} (h : m.Holds s)
    (hbody : body.balanced = true)
    (hat : m.script.drop m.iptr = .char '[' :: (body ++ .char ']' :: rest))
    (hzero : s.current = 0) : MovedOn m m.step.state (body.length + 2) s 1 := by
  rw [step_skip (current?_of_drop hat) (h.cell_eq_zero.mpr hzero) (closing?_of_drop hbody hat)]
  refine ⟨⟨h.cell, h.written, h.dptr, h.channels⟩, rfl, rfl, ?_, rfl, rfl⟩
  change m.iptr + 1 + body.length + 1 = m.iptr + (body.length + 2)
  omega

/-- At the end of a loop body the machine goes on as it would from the opening bracket,
with that loop not entered. -/
theorem step_closing_eq_opening {m : Machine} {position : Nat} {outer : List Nat}
    (hc : m.current? = some (.char ']')) (hloops : m.loops = position :: outer)
    (ho : m.script[position]? = some (.char '['))
    (hclosing : m.script.closing? position = some m.iptr) :
    m.step = { m with iptr := position, loops := outer }.step := by
  have hopening : { m with iptr := position, loops := outer }.current? = some (.char '[') := ho
  by_cases hcell : m.cell = 0
  · rw [step_leave hc hcell hloops, step_skip hopening hcell hclosing]
  · rw [step_again hc hcell hloops, step_enter hopening hcell]
    simp only [tick, hloops]

theorem entered {m : Machine} {s : Store} {rest : Script} (h : m.Holds s)
    (hat : m.script.drop m.iptr = .char '[' :: rest) (hne : s.current ≠ 0) :
    m.step.state.Holds s ∧ m.step.state.settings = m.settings ∧
      m.step.state.script.drop m.step.state.iptr = rest := by
  have hcell : m.cell ≠ 0 := fun hzero => hne (h.cell_eq_zero.mp hzero)
  rw [step_enter (current?_of_drop hat) hcell]
  refine ⟨⟨h.cell, h.written, h.dptr, h.channels⟩, rfl, ?_⟩
  change m.script.drop (m.iptr + 1) = rest
  rw [← List.drop_drop, hat]
  rfl

/-- A machine that has entered a loop and passed its body once, and the machine at the
opening bracket that it goes on like. -/
theorem exists_back {m mid : Machine} {s u : Store} {body rest : Script} {inner : Nat}
    (h : m.Holds s) (hbody : body.balanced = true)
    (hat : m.script.drop m.iptr = .char '[' :: (body ++ .char ']' :: rest)) (hne : s.current ≠ 0)
    (hmid : MovedOn m.step.state mid body.length u inner) :
    ∃ back, MovedOn m back 0 u (inner + 1) ∧ mid.step = back.step ∧ mid.halted = false := by
  have hcell : m.cell ≠ 0 := fun hzero => hne (h.cell_eq_zero.mp hzero)
  rw [step_enter (current?_of_drop hat) hcell] at hmid
  have hscript : mid.script = m.script := hmid.script
  have hloops : mid.loops = m.iptr :: m.loops := hmid.loops
  have hiptr : mid.iptr = m.iptr + 1 + body.length := hmid.iptr
  have hcycles : mid.cycles = m.cycles + 1 + inner := hmid.cycles
  have hdrop : mid.script.drop mid.iptr = .char ']' :: rest := by
    rw [hscript, hiptr, Nat.add_assoc, ← List.drop_drop, hat, Nat.add_comm, List.drop_succ_cons,
      List.drop_left]
  have hclosing : mid.current? = some (.char ']') := current?_of_drop hdrop
  refine ⟨{ mid with iptr := m.iptr, loops := m.loops }, ?_, ?_, ?_⟩
  · refine ⟨⟨hmid.holds.cell, hmid.holds.written, hmid.holds.dptr, hmid.holds.channels⟩,
      hscript, hmid.settings, rfl, rfl, ?_⟩
    change mid.cycles = m.cycles + (inner + 1)
    omega
  · apply step_closing_eq_opening hclosing hloops
    · rw [hscript]
      exact current?_of_drop hat
    · rw [hscript, hiptr]
      exact closing?_of_drop hbody hat
  · exact halted_of_current? hclosing

theorem after_eq_of_step_eq {m back : Machine} (h : m.step = back.step) {n : Nat} (hn : n ≠ 0) :
    m.after n = back.after n := by
  obtain ⟨k, rfl⟩ := Nat.exists_eq_succ_of_ne_zero hn
  rw [after_succ, after_succ, h]

/-- An evaluation is followed by steps over the text of the program. -/
theorem movedOn_of_evaluates {eof : EofPolicy} {program : Program} {s t : Store} {cost : Nat}
    (h : Evaluates eof program s t cost) {m : Machine} {post : Script} (hm : m.Holds s)
    (heof : m.settings.eof = eof) (hat : m.script.drop m.iptr = program.text ++ post) :
    ∃ n, MovedOn m (m.after n) program.text.length t cost := by
  induction h generalizing m post with
  | done s => exact ⟨0, hm, rfl, rfl, rfl, rfl, rfl⟩
  | action h ih =>
    have hfirst := movedOn_action hm (current?_of_drop hat)
    rw [heof] at hfirst
    obtain ⟨n, hn⟩ := ih hfirst.holds (by rw [hfirst.settings, heof])
      (hfirst.drop_eq [_] hat rfl)
    refine ⟨n + 1, ?_⟩
    rw [after_succ, Program.text, List.length_cons, Nat.add_comm _ 1]
    exact hfirst.trans hn
  | @comment s t c hc rest cost h ih =>
    have hfirst := movedOn_comment hm (current?_of_drop hat) hc
    obtain ⟨n, hn⟩ := ih hfirst.holds (by rw [hfirst.settings, heof])
      (hfirst.drop_eq [_] hat rfl)
    refine ⟨n + 1, ?_⟩
    rw [after_succ, Program.text, List.length_cons, Nat.add_comm _ 1, ← Nat.zero_add cost]
    exact hfirst.trans hn
  | @exit s t body rest cost hzero h ih =>
    have hloop := hat.trans (Program.text_loop_append body rest post)
    have hfirst := movedOn_exit hm body.text_balanced hloop hzero
    obtain ⟨n, hn⟩ := ih hfirst.holds (by rw [hfirst.settings, heof])
      (hfirst.drop_eq (.char '[' :: (body.text ++ [.char ']'])) (by simpa using hloop) (by simp))
    refine ⟨n + 1, ?_⟩
    have hlength : (Program.loop body rest).text.length =
        body.text.length + 2 + rest.text.length := by
      simp only [Program.text, List.length_cons, List.length_append]
      omega
    rw [after_succ, hlength]
    exact hfirst.trans hn
  | @iterate s u t body rest inner cost hne hbody h ihbody ih =>
    have hloop := hat.trans (Program.text_loop_append body rest post)
    obtain ⟨hentered, hsettings, hinside⟩ := entered hm hloop hne
    obtain ⟨k, hk⟩ := ihbody hentered (by rw [hsettings, heof]) hinside
    obtain ⟨back, hback, hstep, -⟩ := exists_back hm body.text_balanced hloop hne hk
    obtain ⟨n, hn⟩ := ih hback.holds (by rw [hback.settings, heof]) (hback.drop_eq [] hat rfl)
    have hpos : n ≠ 0 := by
      rintro rfl
      have hiptr := hn.iptr
      simp [Program.text] at hiptr
    refine ⟨k + 1 + n, ?_⟩
    rw [after_add, after_succ, after_eq_of_step_eq hstep hpos, ← Nat.zero_add (List.length _)]
    exact hback.trans hn

/-- Steps that end in a halt give an evaluation of the program that they began with. -/
theorem evaluates_of_halted {eof : EofPolicy} {n : Nat} {program : Program} {s : Store}
    {m : Machine} {post : Script} (hm : m.Holds s) (heof : m.settings.eof = eof)
    (hat : m.script.drop m.iptr = program.text ++ post) (hn : (m.after n).halted = true) :
    ∃ t cost, Evaluates eof program s t cost := by
  induction n using Nat.strongRecOn generalizing program s m post with
  | ind n ih =>
    cases program with
    | done => exact ⟨s, 0, .done s⟩
    | action a rest =>
      obtain ⟨k, rfl, hk⟩ := exists_succ_of_current? (current?_of_drop hat) hn
      have hfirst := movedOn_action hm (current?_of_drop hat)
      rw [heof] at hfirst
      obtain ⟨t, cost, h⟩ := ih k (by omega) hfirst.holds (by rw [hfirst.settings, heof])
        (hfirst.drop_eq [_] hat rfl) hk
      exact ⟨t, 1 + cost, .action h⟩
    | comment c hc rest =>
      obtain ⟨k, rfl, hk⟩ := exists_succ_of_current? (current?_of_drop hat) hn
      have hfirst := movedOn_comment hm (current?_of_drop hat) hc
      obtain ⟨t, cost, h⟩ := ih k (by omega) hfirst.holds (by rw [hfirst.settings, heof])
        (hfirst.drop_eq [_] hat rfl) hk
      exact ⟨t, cost, .comment h⟩
    | loop body rest =>
      have hloop := hat.trans (Program.text_loop_append body rest post)
      obtain ⟨k, rfl, hk⟩ := exists_succ_of_current? (current?_of_drop hat) hn
      by_cases hzero : s.current = 0
      · have hfirst := movedOn_exit hm body.text_balanced hloop hzero
        obtain ⟨t, cost, h⟩ := ih k (by omega) hfirst.holds (by rw [hfirst.settings, heof])
          (hfirst.drop_eq (.char '[' :: (body.text ++ [.char ']'])) (by simpa using hloop)
            (by simp)) hk
        exact ⟨t, 1 + cost, .exit hzero h⟩
      · obtain ⟨hentered, hsettings, hinside⟩ := entered hm hloop hzero
        rw [← hsettings] at heof
        obtain ⟨u, inner, hbody⟩ := ih k (by omega) hentered heof hinside hk
        obtain ⟨j, hj⟩ := movedOn_of_evaluates hbody hentered heof hinside
        obtain ⟨back, hback, hstep, hrunning⟩ :=
          exists_back hm body.text_balanced hloop hzero hj
        -- The body was passed before the machine halted, so fewer steps are left.
        have hjk : j < k := by
          by_contra hle
          rw [after_eq_of_halted hk (by omega), hk] at hrunning
          cases hrunning
        have hend : (back.after (k - j)).halted = true := by
          rw [← after_eq_of_step_eq hstep (by omega), ← after_add,
            Nat.add_sub_cancel' (Nat.le_of_lt hjk)]
          exact hk
        have hagain : back.script.drop back.iptr = (Program.loop body rest).text ++ post :=
          hback.drop_eq [] hat rfl
        obtain ⟨t, cost, h⟩ := ih (k - j) (by omega) hback.holds
          (by rw [hback.settings, ← hsettings, heof]) hagain hend
        exact ⟨t, inner + 1 + cost, .iterate hzero hbody h⟩

/-- An evaluation of the rest of the script leads to its end. -/
theorem halted_of_evaluates {eof : EofPolicy} {program : Program} {s t : Store} {cost : Nat}
    (h : Evaluates eof program s t cost) {m : Machine} (hm : m.Holds s)
    (heof : m.settings.eof = eof) (hat : m.script.drop m.iptr = program.text) :
    ∃ n, (m.after n).halted = true ∧ (m.after n).Holds t ∧
      (m.after n).cycles = m.cycles + cost := by
  obtain ⟨n, hn⟩ := movedOn_of_evaluates h hm heof (hat.trans (List.append_nil _).symm)
  have hlength := congrArg List.length hat
  rw [List.length_drop] at hlength
  refine ⟨n, ?_, hn.holds, hn.cycles⟩
  rw [halted_iff, current?, List.getElem?_eq_none_iff, hn.script, hn.iptr]
  omega

theorem install_holds_blank (m : Machine) (input output : Text) (script : Script) :
    ({ m with channels := .separate ⟨input⟩ ⟨output⟩ }.install script).Holds
      (.blank input output) where
  cell i := by
    change (((({} : Tape)).clear.get i).toNat : Int) = 0
    rw [Tape.get_clear]
    rfl
  written i := Tape.isWritten_clear {} i
  dptr := rfl
  channels := rfl

end Machine

/-- A loaded machine halts exactly if the one program with that text evaluates from
empty cells, and then it has the contents of the result and has spent its cost. -/
theorem halts_iff_evaluates (m : Machine) (input output : Text) {script : Script}
    (h : script.balanced = true) :
    ∃ program : Program, program.text = script ∧
      (∀ other : Program, other.text = script → other = program) ∧
      let loaded := ({ m with channels := .separate ⟨input⟩ ⟨output⟩ }.setScript script).state
      ((∃ n, (loaded.after n).halted = true) ↔
        ∃ result cost, Evaluates m.settings.eof program (.blank input output) result cost) ∧
      ∀ n result cost, (loaded.after n).halted = true →
        Evaluates m.settings.eof program (.blank input output) result cost →
          (loaded.after n).Holds result ∧ (loaded.after n).cycles = cost := by
  obtain ⟨program, rfl⟩ := Program.exists_text h
  refine ⟨program, rfl, fun other hother => Program.text_injective hother, ?_⟩
  rw [Machine.setScript_balanced _ h]
  have hblank := m.install_holds_blank input output program.text
  constructor
  · constructor
    · rintro ⟨n, hn⟩
      exact Machine.evaluates_of_halted hblank rfl (List.append_nil _).symm hn
    · rintro ⟨result, cost, heval⟩
      obtain ⟨n, hn, -⟩ := Machine.halted_of_evaluates heval hblank rfl rfl
      exact ⟨n, hn⟩
  · intro n result cost hn heval
    obtain ⟨k, hk, hholds, hcycles⟩ := Machine.halted_of_evaluates heval hblank rfl rfl
    rw [Machine.after_halted_unique hn hk]
    exact ⟨hholds, hcycles.trans (Nat.zero_add cost)⟩

/-- An inner loop that echoes the input inside an outer one: the machine halts, so the
program has a result, with the cost and the output of the machine. -/
theorem nested_echo_evaluates : ∃ program : Program,
    program.text = Text.ofString "+[>,[.,]<-]" ∧ ∃ result,
      Evaluates .zero program (.blank ['a'] []) result 11 ∧
        result.cell 0 = 0 ∧ result.written 1 = true ∧ result.output = Text.ofString "a" := by
  let m : Machine :=
    { settings := { eof := .zero }, memoryLength := ⟨1, by decide⟩, channels := .shared {} }
  have hbalanced : Script.balanced "+[>,[.,]<-]" = true := by decide
  obtain ⟨program, htext, -, hhalts, hresult⟩ := halts_iff_evaluates m ['a'] [] hbalanced
  obtain ⟨result, cost, heval⟩ := hhalts.mp ⟨11, by decide⟩
  obtain ⟨hholds, hcycles⟩ := hresult 11 result cost (by decide) heval
  obtain rfl : cost = 11 := hcycles.symm.trans (by decide)
  have hcell : result.cell 0 = 0 := (hholds.cell 0).symm.trans (by decide)
  have hwritten : result.written 1 = true := (hholds.written 1).symm.trans (by decide)
  have houtput := congrArg (·.output.buffer) hholds.channels
  exact ⟨program, htext, result, heval, hcell, hwritten, houtput.symm.trans (by decide)⟩

end Brainfuck
