import Brainfuck.Proofs.Safety

/-!
Comments are free. Leaving all comments out of a script moves each command to the
number of commands before it. A machine on the bare script takes the same steps at
commands and none at comments, so both stop in front of the same command, and nothing
but positions tells them apart.
-/
namespace Brainfuck

namespace Script

/-- The script without its comments. -/
def bare (script : Script) : Script := script.filter isCommand

/-- How many commands stand before a position. -/
def rank (script : Script) (position : Nat) : Nat := (script.take position).countP isCommand

theorem rank_eq_length_bare (script : Script) (position : Nat) :
    script.rank position = (bare (script.take position)).length := by
  rw [rank, bare, List.countP_eq_length_filter]

theorem rank_succ_command {script : Script} {position : Nat} {c : Letter}
    (h : script[position]? = some c) (hc : isCommand c = true) :
    script.rank (position + 1) = script.rank position + 1 := by
  rw [rank, List.take_add_one, h, List.countP_append]
  simp [rank, hc]

theorem rank_succ_comment {script : Script} {position : Nat} {c : Letter}
    (h : script[position]? = some c) (hc : isCommand c = false) :
    script.rank (position + 1) = script.rank position := by
  rw [rank, List.take_add_one, h, List.countP_append]
  simp [rank, hc]

theorem bare_split {pre inner post : Script} :
    bare (pre ++ .char '[' :: (inner ++ .char ']' :: post)) =
      bare pre ++ .char '[' :: (bare inner ++ .char ']' :: bare post) := by
  have ho : isCommand '[' = true := rfl
  have hc : isCommand ']' = true := rfl
  simp [bare, ho, hc]

theorem closes_bare (depth : Nat) (script : Script) :
    closes depth script.bare = closes depth script := by
  induction script generalizing depth with
  | nil => rfl
  | cons c script ih =>
    rcases bracket_cases c with rfl | rfl | ⟨ho, hc⟩
    · rw [bare, List.filter_cons_of_pos rfl, closes_opening, closes_opening]
      exact ih (depth + 1)
    · rw [bare, List.filter_cons_of_pos rfl]
      cases depth with
      | zero => rw [closes_closing_zero, closes_closing_zero]
      | succ depth =>
        rw [closes_closing_succ, closes_closing_succ]
        exact ih depth
    · rw [closes_other ho hc]
      cases hcommand : isCommand c with
      | true =>
        rw [bare, List.filter_cons_of_pos hcommand, closes_other ho hc]
        exact ih depth
      | false =>
        rw [bare, List.filter_cons_of_neg (by simp [hcommand])]
        exact ih depth

theorem balanced_bare (script : Script) : script.bare.balanced = script.balanced :=
  closes_bare 0 script

/-- A command is found in the bare script at its rank. -/
theorem getElem?_bare {script : Script} {position : Nat} {c : Letter}
    (h : script[position]? = some c) (hc : isCommand c = true) :
    script.bare[script.rank position]? = some c := by
  have hbare : script.bare =
      bare (script.take position) ++ c :: bare (script.drop (position + 1)) := by
    conv_lhs => rw [eq_take_cons_drop h]
    rw [bare, List.filter_append, List.filter_cons_of_pos hc]
    rfl
  rw [hbare, rank_eq_length_bare]
  simp

theorem length_bare_le_rank {script : Script} {position : Nat} (h : script.length ≤ position) :
    script.bare.length ≤ script.rank position := by
  have hall : script.bare.length = script.rank position := by
    rw [rank_eq_length_bare, List.take_of_length_le h]
  exact Nat.le_of_eq hall

/-- The offending bracket of the bare script is the same one. -/
theorem unbalancedFrom_bare (pre rest : Script) (opened : List Nat) :
    unbalancedFrom (rank (pre ++ rest) pre.length) (opened.map (rank (pre ++ rest))) rest.bare =
      (unbalancedFrom pre.length opened rest).map (rank (pre ++ rest)) := by
  induction rest generalizing pre opened with
  | nil => simp [bare, unbalancedFrom]
  | cons c rest ih =>
    have hnext : pre ++ c :: rest = (pre ++ [c]) ++ rest := by simp
    have hlength : (pre ++ [c]).length = pre.length + 1 := by simp
    have hget : (pre ++ c :: rest)[pre.length]? = some c := by simp
    have ih := fun opened => ih (pre ++ [c]) opened
    rw [← hnext, hlength] at ih
    rcases bracket_cases c with rfl | rfl | ⟨ho, hc⟩
    · have hrank := rank_succ_command hget rfl
      rw [bare, List.filter_cons_of_pos rfl]
      simp only [unbalancedFrom, if_true]
      rw [← hrank, ← List.map_cons]
      exact ih (pre.length :: opened)
    · have hrank := rank_succ_command hget rfl
      rw [bare, List.filter_cons_of_pos rfl]
      cases opened with
      | nil => simp [unbalancedFrom]
      | cons inner outer =>
        simp only [unbalancedFrom, List.map_cons]
        rw [← hrank]
        exact ih outer
    · simp only [unbalancedFrom, ho, hc, if_false]
      cases hcommand : isCommand c with
      | true =>
        have hrank := rank_succ_command hget hcommand
        rw [bare, List.filter_cons_of_pos hcommand]
        simp only [unbalancedFrom, ho, hc, if_false]
        rw [← hrank]
        exact ih opened
      | false =>
        have hrank := rank_succ_comment hget hcommand
        rw [bare, List.filter_cons_of_neg (by simp [hcommand]), ← hrank]
        exact ih opened

theorem unbalanced?_bare (script : Script) :
    script.bare.unbalanced? = script.unbalanced?.map script.rank := by
  exact unbalancedFrom_bare [] script []

/-- The loop of a bracket ends in the bare script at the rank of its end. -/
theorem closing?_bare (pre : Script) {inner : Script} (h : inner.balanced = true)
    (post : Script) :
    closing? (bare (pre ++ .char '[' :: (inner ++ .char ']' :: post)))
        (rank (pre ++ .char '[' :: (inner ++ .char ']' :: post)) pre.length) =
      some (rank (pre ++ .char '[' :: (inner ++ .char ']' :: post))
        (pre.length + 1 + inner.length)) := by
  have hstart :
      rank (pre ++ .char '[' :: (inner ++ .char ']' :: post)) pre.length = (bare pre).length := by
    rw [rank_eq_length_bare, List.take_left]
  have hend : rank (pre ++ .char '[' :: (inner ++ .char ']' :: post))
      (pre.length + 1 + inner.length) =
      (bare pre).length + 1 + (bare inner).length := by
    have hsplit : pre ++ .char '[' :: (inner ++ .char ']' :: post) =
        (pre ++ .char '[' :: inner) ++ .char ']' :: post := by
      simp
    have hlength : pre.length + 1 + inner.length = (pre ++ .char '[' :: inner).length := by
      simp only [List.length_append, List.length_cons]
      omega
    rw [rank_eq_length_bare, hlength, hsplit, List.take_left, bare, List.filter_append,
      List.filter_cons_of_pos rfl, List.length_append, List.length_cons]
    simp only [bare]
    omega
  rw [hstart, hend, bare_split]
  exact closing?_of_split (bare pre) (by rw [balanced_bare]; exact h) (bare post)

end Script

/-- The data pointer went out of the nominal memory. -/
def Notice.isExcursion : Notice → Bool
  | .leftMemory .. => true
  | _ => false

namespace Machine

/-- The machine on the bare script, in front of the same command. -/
def bare (m : Machine) : Machine :=
  { m with
    script := m.script.bare
    iptr := m.script.rank m.iptr
    loops := m.loops.map m.script.rank }

theorem install_bare (m : Machine) (script : Script) :
    (m.install script).bare = m.install script.bare := rfl

theorem current?_bare {m : Machine} {c : Letter} (h : m.current? = some c)
    (hc : isCommand c = true) : m.bare.current? = some c :=
  Script.getElem?_bare h hc

theorem current?_bare_none {m : Machine} (h : m.current? = none) : m.bare.current? = none := by
  rw [current?, List.getElem?_eq_none_iff] at h ⊢
  exact Script.length_bare_le_rank h

theorem stopsAt_bare (m : Machine) (limit : Int) (c : Letter) :
    m.bare.stopsAt limit c = m.stopsAt limit c := rfl

theorem bare_pass {m : Machine} {c : Letter} (h : m.current? = some c)
    (hc : isCommand c = false) : m.pass.bare = m.bare := by
  simp only [bare, pass, Script.rank_succ_comment h hc]

theorem bare_tick (m : Machine) {c : Letter} (h : m.current? = some c)
    (hc : isCommand c = true) : m.tick.bare = m.bare.tick := by
  simp only [bare, tick, Script.rank_succ_command h hc]

theorem readCell_bare (m : Machine) : m.bare.readCell = m.readCell.bare := by
  obtain ⟨chars, rest, hread⟩ : ∃ chars rest, m.channels.input.read 1 = (chars, rest) :=
    ⟨_, _, rfl⟩
  have hbare : m.bare.channels.input.read 1 = (chars, rest) := hread
  cases chars with
  | nil =>
    rw [readCell_nil hread, readCell_nil hbare]
    rfl
  | cons c more =>
    rw [readCell_cons hread, readCell_cons hbare]
    rfl

/-- Commands that work on the data do not see the script. -/
theorem execute_bare (m : Machine) {command : Command} (h : command.isBracket = false) :
    m.bare.execute command =
      ⟨(m.execute command).state.bare, (m.execute command).log, (m.execute command).result⟩ := by
  cases command with
  | right => rfl
  | left => rfl
  | increment => rfl
  | decrement => rfl
  | output => rfl
  | input => simp only [execute, readCell_bare]
  | opening => simp [Command.isBracket] at h
  | closing => simp [Command.isBracket] at h

/-- At a command the machine on the bare script takes the same step. -/
theorem step_bare {m : Machine} {c : Letter} (hm : m.WellNested) (h : m.current? = some c)
    (hc : isCommand c = true) : m.bare.step = ⟨m.step.state.bare, m.step.log, .ok true⟩ := by
  cases m.stepCase with
  | halted hnone =>
    rw [h] at hnone
    cases hnone
  | comment d hd hn =>
    obtain rfl := Option.some.inj (h.symm.trans hd)
    rw [isCommand, hn] at hc
    cases hc
  | data d command hd hcommand hb =>
    obtain rfl := Option.some.inj (h.symm.trans hd)
    obtain ⟨_, _, _, _, hstate, -⟩ := m.execute_data hb
    have hcurrent : (m.execute command).state.current? = some c := by
      rw [hstate]
      exact h
    rw [step_data h hcommand hb, step_data (current?_bare h hc) hcommand hb, m.execute_bare hb,
      bare_tick _ hcurrent hc]
  | enter hd hcell =>
    rw [step_enter hd hcell, step_enter (current?_bare hd rfl) hcell]
    rw [bare_tick { m with loops := m.iptr :: m.loops } hd rfl]
    rfl
  | skip position hd hcell hclosing =>
    obtain ⟨inner, post, hinner, hscript, rfl⟩ := hm.loop_of_closing? hd hclosing
    have hlength := hm.length_take
    have hbare := Script.closing?_bare (m.script.take m.iptr) hinner post
    have hpartners := Script.partners_of_split (m.script.take m.iptr) hinner post
    rw [← hscript, hlength] at hbare hpartners
    rw [step_skip hd hcell hclosing, step_skip (current?_bare hd rfl) hcell hbare]
    rw [bare_tick { m with iptr := m.iptr + 1 + inner.length } hpartners.2.2.1 rfl]
    rfl
  | noClosing hd hcell hclosing => exact absurd hclosing (hm.closing?_ne_none hd)
  | again position outer hd hcell hloops =>
    have hopening : m.script[position]? = some (.char '[') :=
      hm.getElem?_of_mem (by rw [hloops]; simp)
    have hbare : m.bare.loops = m.script.rank position :: outer.map m.script.rank := by
      simp only [bare, hloops, List.map_cons]
    rw [step_again hd hcell hloops, step_again (current?_bare hd rfl) hcell hbare]
    rw [bare_tick { m with iptr := position } hopening rfl]
    rfl
  | leave position outer hd hcell hloops =>
    have hbare : m.bare.loops = m.script.rank position :: outer.map m.script.rank := by
      simp only [bare, hloops, List.map_cons]
    rw [step_leave hd hcell hloops, step_leave (current?_bare hd rfl) hcell hbare]
    rw [bare_tick { m with loops := outer } hd rfl]
    rfl
  | noLoop hd hloops => exact absurd hloops (hm.loops_ne_nil hd)

/-- A drive over the bare script ends in front of the same command with the same log. -/
theorem driveFrom_bare (limit : Int) (log : List Notice) {m : Machine} (hm : m.WellNested) :
    driveFrom limit log m.bare =
      ⟨(driveFrom limit log m).state.bare, (driveFrom limit log m).log, .ok ()⟩ := by
  fun_induction driveFrom limit log m with
  | case1 log m hc => exact driveFrom_halted (current?_bare_none hc) limit log
  | case2 log m c hc hs =>
    exact driveFrom_stop (current?_bare hc (isCommand_of_stopsAt hs)) hs log
  | case3 log m c hc hs next more hn ih =>
    have hnext : next.WellNested := by
      have hstep := hm.step
      rwa [hn] at hstep
    have ih := ih hnext
    cases hcommand : isCommand c with
    | true =>
      have hgo : m.bare.stopsAt limit c = false := by simpa [stopsAt_bare] using hs
      have hbare := step_bare hm hc hcommand
      rw [hn] at hbare
      rw [driveFrom_step (current?_bare hc hcommand) hgo hbare]
      exact ih
    | false =>
      have hpass := step_comment hc (Command.ofLetter?_eq_none hcommand)
      rw [hn] at hpass
      cases hpass
      rw [List.append_nil] at ih ⊢
      rwa [bare_pass hc hcommand] at ih
  | case4 log m c hc hs next more hn =>
    have hnone := current?_of_step_false (show m.step.result = .ok false by rw [hn])
    rw [hc] at hnone
    cases hnone
  | case5 log m c hc hs next more fault hn =>
    have hok := hm.step_result
    rw [hn] at hok
    cases hok

theorem halted_drive_bare {m : Machine} (hm : m.WellNested) (limit : Int) :
    (m.drive limit).state.bare.halted = (m.drive limit).state.halted := by
  rw [drive]
  rcases driveFrom_end (hm.drive_ok limit) with hnone | ⟨c, hc, hs⟩
  · rw [(halted_iff _).mpr hnone, (halted_iff _).mpr (current?_bare_none hnone)]
  · have hbare := current?_bare hc (isCommand_of_stopsAt hs)
    rw [halted_of_current? hc, halted_of_current? hbare]

/-- Only the drive of a run reports excursions. -/
theorem run_excursions {m : Machine} {limit : Option Int} {driven : Outcome Machine Unit}
    (hdrive : m.drive (limit.getD m.settings.stepLimit.val) = driven)
    (h : driven.result = .ok ()) :
    (m.run limit).log.filter Notice.isExcursion = driven.log.filter Notice.isExcursion := by
  rw [run_of_drive_ok hdrive h, List.cons_append,
    List.filter_cons_of_neg (by simp [Notice.isExcursion]), List.filter_append]
  split <;> simp [Notice.isExcursion]

/-- A run over the bare script returns the same, leaves the same data behind, and reports
the same excursions. -/
theorem run_bare {m : Machine} (hm : m.WellNested) (limit : Option Int) :
    (m.bare.run limit).state = (m.run limit).state.bare ∧
      (m.bare.run limit).result = (m.run limit).result ∧
      (m.bare.run limit).log.filter Notice.isExcursion =
        (m.run limit).log.filter Notice.isExcursion := by
  have hhalted := halted_drive_bare hm (limit.getD m.settings.stepLimit.val)
  have hdrive : m.bare.drive (limit.getD m.bare.settings.stepLimit.val) = _ :=
    driveFrom_bare (limit.getD m.settings.stepLimit.val) [] hm
  refine ⟨?_, ?_, ?_⟩
  · rw [run_of_drive_ok rfl (hm.drive_ok _), run_of_drive_ok hdrive rfl]
    rfl
  · rw [run_of_drive_ok rfl (hm.drive_ok _), run_of_drive_ok hdrive rfl]
    change Except.ok (RunResult.mk _ _ (m.drive _).state.bare.halted
      (!(m.drive _).state.bare.halted)) = _
    rw [hhalted]
    rfl
  · rw [run_excursions rfl (hm.drive_ok _), run_excursions hdrive rfl]
    rfl

end Machine

/-- Comments are free. A balanced script and its bare form give the same result in a
single run, and loaded into any one machine they run to the same result, data, loop
depth and excursions. Of an unbalanced script the same bracket is reported, at the
number of commands before it. -/
theorem comments_are_free (script : Script) (input : Text) (limit : Option Int)
    {given : Option Settings} {environment : Environment} {settings : Settings}
    (hsettings : given.elim (Settings.ofEnvironment environment) .ok = .ok settings) :
    (script.balanced = true →
      (∃ result, (runOnce script input limit given environment).2 = .ok result ∧
        (runOnce script.bare input limit given environment).2 = .ok result) ∧
      ∀ m : Machine,
        let full := (m.loadScript script).state.run limit
        let bare := (m.loadScript script.bare).state.run limit
        (∃ result, full.result = .ok result ∧ bare.result = .ok result) ∧
          full.state.tape = bare.state.tape ∧ full.state.dptr = bare.state.dptr ∧
          full.state.channels = bare.state.channels ∧
          full.state.loops.length = bare.state.loops.length ∧
          full.log.filter Notice.isExcursion = bare.log.filter Notice.isExcursion) ∧
    (script.balanced = false →
      ∃ bracket position,
        (runOnce script input limit given environment).2 =
          .error (.fault (.unbalanced bracket position)) ∧
        (runOnce script.bare input limit given environment).2 =
          .error (.fault (.unbalanced bracket (script.rank position)))) := by
  constructor
  · intro h
    have hbare : script.bare.balanced = true := script.balanced_bare.trans h
    constructor
    · have hm := Machine.WellNested.install (Machine.start settings input) h
      obtain ⟨result, hrun⟩ := hm.exists_run limit
      refine ⟨result, runOnce_balanced hsettings h hrun, runOnce_balanced hsettings hbare ?_⟩
      rw [← Machine.install_bare, (Machine.run_bare hm limit).2.1]
      exact hrun
    · intro m
      have hm := Machine.WellNested.install m h
      obtain ⟨result, hrun⟩ := hm.exists_run limit
      obtain ⟨hstate, hresult, hlog⟩ := Machine.run_bare hm limit
      rw [m.loadScript_balanced h, m.loadScript_balanced hbare, ← m.install_bare]
      refine ⟨⟨result, hrun, hresult.trans hrun⟩, ?_, ?_, ?_, ?_, hlog.symm⟩
      · rw [hstate]
        rfl
      · rw [hstate]
        rfl
      · rw [hstate]
        rfl
      · rw [hstate]
        exact (List.length_map _).symm
  · intro h
    have hbare : script.bare.balanced = false := script.balanced_bare.trans h
    obtain ⟨position, bracket, hposition, hget, hbracket⟩ := Script.exists_unbalanced h
    have hcommand : isCommand bracket = true := by
      rcases hbracket with rfl | rfl <;> rfl
    have hrank : script.bare.unbalanced? = some (script.rank position) := by
      rw [script.unbalanced?_bare, hposition, Option.map_some]
    exact ⟨bracket, position, runOnce_unbalanced hsettings h hposition hget,
      runOnce_unbalanced hsettings hbare hrank (Script.getElem?_bare hget hcommand)⟩

/-- A loop among comments stopped by its limit, and a closing bracket that no loop needs. -/
theorem comments_are_free_in_loop :
    (∃ result, (runOnce "ab+c[d.e]" [] (some 5) none fun _ => none).2 = .ok result ∧
      (runOnce "+[.]" [] (some 5) none fun _ => none).2 = .ok result) ∧
      ∃ bracket position,
        (runOnce "a[b]c]" [] none none fun _ => none).2 =
          .error (.fault (.unbalanced bracket position)) ∧
        (runOnce "[]]" [] none none fun _ => none).2 =
          .error (.fault (.unbalanced bracket (Script.rank "a[b]c]" position))) := by
  constructor
  · exact ((comments_are_free "ab+c[d.e]" [] (some 5) rfl).1 (by decide)).1
  · exact (comments_are_free "a[b]c]" [] none rfl).2 (by decide)

end Brainfuck
