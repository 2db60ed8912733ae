import Brainfuck.Proofs.Sessions

/-!
The loop stack is determined by the script and the instruction pointer. It is pushed
when a loop is entered, left alone when a body is repeated or a loop is skipped, and
popped when a loop is left; in each case it lists the brackets that are open before
the new position. Nothing that is done to the data from outside touches this.
-/
namespace Brainfuck

open Script

namespace Machine

/-- The loop stack lists the open brackets before the instruction pointer. -/
structure WellNested (m : Machine) : Prop where
  balanced : m.script.balanced = true
  iptr_le : m.iptr ≤ m.script.length
  opened : Opened (m.script.take m.iptr) m.loops

theorem take_succ_of_current? {m : Machine} {c : Letter} (h : m.current? = some c) :
    m.script.take (m.iptr + 1) = m.script.take m.iptr ++ [c] := by
  rw [List.take_add_one, show m.script[m.iptr]? = some c from h]
  rfl

theorem script_of_current? {m : Machine} {c : Letter} (h : m.current? = some c) :
    m.script = m.script.take m.iptr ++ c :: m.script.drop (m.iptr + 1) :=
  eq_take_cons_drop h

namespace WellNested

theorem length_take {m : Machine} (h : m.WellNested) : (m.script.take m.iptr).length = m.iptr := by
  rw [List.length_take, Nat.min_eq_left h.iptr_le]

theorem closes_rest {m : Machine} (h : m.WellNested) :
    closes m.loops.length (m.script.drop m.iptr) = true := by
  have hbalanced := h.balanced
  rw [← List.take_append_drop m.iptr m.script, Script.balanced, h.opened.closes_append] at hbalanced
  simpa using hbalanced

/-- The loop at an opening bracket ends inside the script, where the scan finds it. -/
theorem exists_loop {m : Machine} (h : m.WellNested) (hc : m.current? = some (.char '[')) :
    ∃ inner post : Script, inner.balanced = true ∧
      m.script = m.script.take m.iptr ++ .char '[' :: (inner ++ .char ']' :: post) ∧
      m.script.closing? m.iptr = some (m.iptr + 1 + inner.length) := by
  have hscript := script_of_current? hc
  have hbalanced := h.balanced
  rw [hscript, Script.balanced, h.opened.closes_append, closes_opening] at hbalanced
  obtain ⟨inner, post, hrest, hinner, -⟩ := exists_balanced_split hbalanced
  rw [hrest] at hscript
  refine ⟨inner, post, hinner, hscript, ?_⟩
  have hclosing := closing?_of_split (m.script.take m.iptr) hinner post
  rwa [← hscript, h.length_take] at hclosing

theorem closing?_ne_none {m : Machine} (h : m.WellNested) (hc : m.current? = some (.char '[')) :
    m.script.closing? m.iptr ≠ none := by
  obtain ⟨_, _, -, -, hfound⟩ := h.exists_loop hc
  rw [hfound]
  simp

theorem loop_of_closing? {m : Machine} (h : m.WellNested) (hc : m.current? = some (.char '['))
    {position : Nat} (hclosing : m.script.closing? m.iptr = some position) :
    ∃ inner post : Script, inner.balanced = true ∧
      m.script = m.script.take m.iptr ++ .char '[' :: (inner ++ .char ']' :: post) ∧
      m.iptr + 1 + inner.length = position := by
  obtain ⟨inner, post, hinner, hscript, hfound⟩ := h.exists_loop hc
  exact ⟨inner, post, hinner, hscript, Option.some.inj (hfound.symm.trans hclosing)⟩

/-- At a closing bracket some loop is active. -/
theorem loops_ne_nil {m : Machine} (h : m.WellNested) (hc : m.current? = some (.char ']')) :
    m.loops ≠ [] := by
  intro hloops
  have hbalanced := h.balanced
  rw [script_of_current? hc, Script.balanced, h.opened.closes_append, hloops] at hbalanced
  simp at hbalanced

/-- Every position on the loop stack is that of an opening bracket. -/
theorem getElem?_of_mem {m : Machine} (h : m.WellNested) {position : Nat}
    (hp : position ∈ m.loops) : m.script[position]? = some (.char '[') := by
  have hget := h.opened.getElem?_of_mem hp
  have hlt : position < m.iptr := by
    have hlength := (List.getElem?_eq_some_iff.mp hget).1
    rwa [h.length_take] at hlength
  rwa [List.getElem?_take_of_lt hlt] at hget

theorem install (m : Machine) {script : Script} (h : script.balanced = true) :
    (m.install script).WellNested where
  balanced := h
  iptr_le := Nat.zero_le _
  opened := .none rfl

/-- Moving on by one character, with the loop stack that belongs there. -/
theorem advance {m : Machine} {c : Letter} (h : m.WellNested) (hc : m.current? = some c)
    {next : Machine} (hscript : next.script = m.script) (hiptr : next.iptr = m.iptr + 1)
    (hopened : Opened (m.script.take m.iptr ++ [c]) next.loops) : next.WellNested where
  balanced := by rw [hscript]; exact h.balanced
  iptr_le := by
    have hlt := lt_length_of_current? hc
    rw [hscript, hiptr]
    exact hlt
  opened := by
    rw [hscript, hiptr, take_succ_of_current? hc]
    exact hopened

theorem skip {m : Machine} (h : m.WellNested) {inner post : Script}
    (hinner : inner.balanced = true)
    (hscript : m.script = m.script.take m.iptr ++ .char '[' :: (inner ++ .char ']' :: post)) :
    { m with iptr := m.iptr + 1 + inner.length }.tick.WellNested := by
  have hlength := h.length_take
  have hsplit :
      m.script = (m.script.take m.iptr ++ .char '[' :: (inner ++ [.char ']'])) ++ post := by
    rw [List.append_assoc, List.cons_append, List.append_assoc]
    exact hscript
  have hend : (m.script.take m.iptr ++ Letter.char '[' :: (inner ++ [.char ']'])).length =
      m.iptr + 1 + inner.length + 1 := by
    simp only [List.length_append, List.length_cons, List.length_nil]
    omega
  refine ⟨h.balanced, ?_, ?_⟩
  · have htotal := congrArg List.length hsplit
    rw [List.length_append, hend] at htotal
    change m.iptr + 1 + inner.length + 1 ≤ m.script.length
    omega
  · change Opened (m.script.take (m.iptr + 1 + inner.length + 1)) m.loops
    rw [hsplit, ← hend, List.take_left]
    exact h.opened.append_loop hinner

/-- Jumping back to behind the innermost open bracket leaves the same brackets open. -/
theorem again {m : Machine} (h : m.WellNested) {position : Nat} {outer : List Nat}
    (hloops : m.loops = position :: outer) : { m with iptr := position }.tick.WellNested := by
  have hopened := h.opened
  rw [hloops] at hopened
  obtain ⟨before, inner, hbefore, rfl, houter, -⟩ := hopened.exists_inner
  have hlength := congrArg List.length hbefore
  rw [h.length_take, List.length_append, List.length_cons] at hlength
  have htake : m.script.take (before.length + 1) = before ++ [.char '['] := by
    calc
      m.script.take (before.length + 1) = (m.script.take m.iptr).take (before.length + 1) := by
        rw [List.take_take, Nat.min_eq_left (by omega)]
      _ = before ++ [.char '['] := by rw [hbefore, take_length_succ]
  refine ⟨h.balanced, ?_, ?_⟩
  · have hle := h.iptr_le
    change before.length + 1 ≤ m.script.length
    omega
  · change Opened (m.script.take (before.length + 1)) m.loops
    rw [htake, hloops]
    exact houter.append_opening

theorem step {m : Machine} (h : m.WellNested) : m.step.state.WellNested := by
  cases m.stepCase with
  | halted hc =>
    rw [step_halted hc]
    exact h
  | comment c hc hn =>
    obtain ⟨ho, hcl⟩ := Command.ofLetter?_none_ne_bracket hn
    rw [step_comment hc hn]
    exact h.advance hc rfl rfl (h.opened.append_other ho hcl)
  | data c command hc hcommand hb =>
    obtain ⟨ho, hcl⟩ := Command.ofLetter?_ne_bracket hcommand hb
    obtain ⟨_, _, _, _, hstate, -⟩ := m.execute_data hb
    rw [step_data hc hcommand hb, hstate]
    exact h.advance hc rfl rfl (h.opened.append_other ho hcl)
  | enter hc hcell =>
    rw [step_enter hc hcell]
    have hopened := h.opened.append_opening
    rw [h.length_take] at hopened
    exact h.advance hc rfl rfl hopened
  | skip position hc hcell hclosing =>
    obtain ⟨inner, post, hinner, hscript, rfl⟩ := h.loop_of_closing? hc hclosing
    rw [step_skip hc hcell hclosing]
    exact h.skip hinner hscript
  | noClosing hc hcell hclosing => exact absurd hclosing (h.closing?_ne_none hc)
  | again position outer hc hcell hloops =>
    rw [step_again hc hcell hloops]
    exact h.again hloops
  | leave position outer hc hcell hloops =>
    rw [step_leave hc hcell hloops]
    have hopened := h.opened
    rw [hloops] at hopened
    exact h.advance hc rfl rfl hopened.append_closing
  | noLoop hc hloops => exact absurd hloops (h.loops_ne_nil hc)

/-- The loop stack, outermost first, is the list of brackets still open. -/
theorem blocks_eq {m : Machine} (h : m.WellNested) :
    m.blocks = openBefore m.script m.iptr := by
  have hopen := h.opened.openBefore_eq (m.script.drop m.iptr)
  rw [List.take_append_drop, h.length_take] at hopen
  exact hopen.symm

theorem blocks_of_halted {m : Machine} (h : m.WellNested) (hhalted : m.halted = true) :
    m.blocks = [] := by
  have hle : m.script.length ≤ m.iptr := by simpa [halted] using hhalted
  have hrest := h.closes_rest
  rw [List.drop_of_length_le hle] at hrest
  have hloops : m.loops.length = 0 := by simpa using hrest
  rw [blocks, List.length_eq_zero_iff.mp hloops]
  rfl

theorem length_loops {m : Machine} (h : m.WellNested) :
    m.loops.length + (m.script.take m.iptr).count (.char ']') =
      (m.script.take m.iptr).count (.char '[') :=
  h.opened.length_add_count

end WellNested

end Machine

namespace Session

theorem wellNested_kept : Kept Request.KeepsControl Machine.WellNested where
  fresh _ _ _ := ⟨rfl, Nat.le_refl _, .none rfl⟩
  install m _ h _ := .install m h
  step _ h := h.step
  input _ _ h := ⟨h.balanced, h.iptr_le, h.opened⟩
  output _ _ h := ⟨h.balanced, h.iptr_le, h.opened⟩
  tape _ _ _ h := ⟨h.balanced, h.iptr_le, h.opened⟩
  script _ hr := False.elim hr
  iptr _ hr := False.elim hr
  dptr _ _ _ h := ⟨h.balanced, h.iptr_le, h.opened⟩

/-- In every reachable session the script is balanced, the instruction pointer lies
inside it or at its end, and the loop stack lists the brackets before the pointer whose
partner is not before it. -/
theorem reachable_blocks_eq_openBefore {s : Session} (h : Reachable Request.KeepsControl s) :
    s.machine.script.balanced = true ∧ s.machine.iptr ≤ s.machine.script.length ∧
      s.machine.blocks = s.machine.script.openBefore s.machine.iptr ∧
      (s.machine.halted = true → s.machine.blocks = []) ∧
      ∀ t : Tracer, ((t.snapshot s.machine).loopDepth : Int) =
        (s.machine.script.take s.machine.iptr).count (.char '[') -
          (s.machine.script.take s.machine.iptr).count (.char ']') := by
  have hm := wellNested_kept.reachable h
  refine ⟨hm.balanced, hm.iptr_le, hm.blocks_eq, hm.blocks_of_halted, ?_⟩
  intro t
  have hlength := hm.length_loops
  change (s.machine.loops.length : Int) = _
  omega

/-- Repeating the inner one of two loops on a cell that was written from outside. -/
theorem reachable_blocks_nested : ∃ s : Session, Reachable Request.KeepsControl s ∧
    s.machine.iptr = 5 ∧ s.machine.blocks = [1, 4] ∧
      s.machine.script.openBefore s.machine.iptr = [1, 4] := by
  have hfresh := @Reachable.fresh Request.KeepsControl none none (.separate {} {}) _ rfl
  have hloaded := hfresh.request (.loadScript "+[>+[-]<-]") trivial
  have hinner := hloaded.request (.step 5) trivial
  have hmoved := hinner.request (.assignDptr (-7)) trivial
  have hwritten := hmoved.request (.tape (.store (-7) 300)) trivial
  have hrepeated := hwritten.request (.step 2) trivial
  have hblocks := (reachable_blocks_eq_openBefore hrepeated).2.2.1
  exact ⟨_, hrepeated, by decide, by decide, hblocks.symm.trans (by decide)⟩

end Session

end Brainfuck
