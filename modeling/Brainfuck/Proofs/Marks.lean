import Brainfuck.Proofs.LoopStack

/-!
The mark in the line of the program. The current character is shown in brackets, which are
characters of the language themselves. The line tells two positions of a script apart unless
the brackets of the script take the place of those of the mark, and that happens only at the
two ends of a loop with nothing in it but empty loops.
-/
namespace Brainfuck

namespace Script

/-- Loops without a body, one behind the other. -/
def emptyLoops : Nat → Script
  | 0 => []
  | n + 1 => .char '[' :: .char ']' :: emptyLoops n

theorem emptyLoops_balanced (n : Nat) : (emptyLoops n).balanced = true := by
  induction n with
  | zero => rfl
  | succ n ih =>
    rw [emptyLoops, balanced, closes_opening, closes_closing_succ]
    exact ih

theorem emptyLoops_append (n : Nat) :
    emptyLoops n ++ [.char '[', .char ']'] = .char '[' :: .char ']' :: emptyLoops n := by
  induction n with
  | zero => rfl
  | succ n ih => rw [emptyLoops, List.cons_append, List.cons_append, ih]

/-- Only empty loops look the same with one more in front and with one more behind. -/
theorem exists_emptyLoops : ∀ {body : Script},
    body ++ [.char '[', .char ']'] = .char '[' :: .char ']' :: body → ∃ n, body = emptyLoops n
  | [], _ => ⟨0, rfl⟩
  | [c], h => by simp at h
  | c :: d :: rest, h => by
    simp only [List.cons_append, List.cons.injEq] at h
    obtain ⟨rfl, rfl, hrest⟩ := h
    obtain ⟨n, rfl⟩ := exists_emptyLoops hrest
    exact ⟨n + 1, rfl⟩

/-- The brackets at `i` and `j` belong to one loop, and in it are only empty loops. -/
def Hollow (script : Script) (i j : Nat) : Prop :=
  script.Partners i j ∧ ∃ n, (script.take j).drop (i + 1) = emptyLoops n

theorem hollow_split_iff (pre body post : Script) (c d : Letter) :
    Hollow (pre ++ c :: (body ++ d :: post)) pre.length (pre.length + 1 + body.length) ↔
      c = '[' ∧ d = ']' ∧ ∃ n, body = emptyLoops n := by
  rw [Hollow, partners_split_iff, take_split, drop_length_succ]
  constructor
  · rintro ⟨⟨hc, hd, -⟩, hloops⟩
    exact ⟨hc, hd, hloops⟩
  · rintro ⟨hc, hd, n, rfl⟩
    exact ⟨⟨hc, hd, emptyLoops_balanced n⟩, n, rfl⟩

end Script

open Script

namespace Observed

theorem markedFrom_of_lt {iptr position : Nat} (h : iptr < position) (script : Script) :
    markedFrom iptr position script = script := by
  induction script generalizing position with
  | nil => rfl
  | cons c rest ih => rw [markedFrom, if_neg (by omega), ih (by omega)]

theorem markedFrom_of_le {iptr position : Nat} {script : Script}
    (h : position + script.length ≤ iptr) : markedFrom iptr position script = script := by
  induction script generalizing position with
  | nil => rfl
  | cons c rest ih =>
    rw [List.length_cons] at h
    rw [markedFrom, if_neg (by omega), ih (by omega)]

theorem markedFrom_split (position : Nat) (pre post : Script) (c : Letter) :
    markedFrom (position + pre.length) position (pre ++ c :: post) =
      pre ++ .char '[' :: c :: .char ']' :: post := by
  induction pre generalizing position with
  | nil =>
    rw [List.nil_append, markedFrom, List.length_nil, Nat.add_zero, if_pos rfl,
      markedFrom_of_lt (Nat.lt_succ_self position), List.nil_append]
  | cons first pre ih =>
    have hrest := ih (position + 1)
    rw [show position + 1 + pre.length = position + (pre.length + 1) by omega] at hrest
    rw [List.cons_append, markedFrom, List.length_cons, if_neg (by omega), hrest, List.cons_append]

/-- Marks at two positions look the same only if what is between them can take their place. -/
theorem marked_split_eq_iff (pre body post : Script) (c d : Letter) :
    markedFrom pre.length 0 (pre ++ c :: (body ++ d :: post)) =
        markedFrom (pre.length + 1 + body.length) 0 (pre ++ c :: (body ++ d :: post)) ↔
      c = '[' ∧ d = ']' ∧ ∃ n, body = emptyLoops n := by
  have hfirst := markedFrom_split 0 pre (body ++ d :: post) c
  have hlast := markedFrom_split 0 (pre ++ c :: body) post d
  rw [Nat.zero_add] at hfirst hlast
  rw [List.length_append, List.length_cons, List.append_assoc, List.append_assoc, List.cons_append,
    List.cons_append, show pre.length + (body.length + 1) = pre.length + 1 + body.length by omega]
    at hlast
  rw [hfirst, hlast, List.append_cancel_left_eq, List.cons.injEq]
  constructor
  · -- What stands behind the second mark is the same on both sides, and so is its last bracket.
    rintro ⟨rfl, h⟩
    have hbody : (.char '[' :: .char ']' :: body ++ [d]) ++ post =
        (body ++ [.char '[', d] ++ [.char ']']) ++ post := by
      simpa using h
    obtain ⟨hcomm, hd⟩ := List.append_inj' (List.append_cancel_right hbody) rfl
    obtain rfl : d = ']' := List.singleton_inj.mp hd
    exact ⟨rfl, rfl, exists_emptyLoops hcomm.symm⟩
  · rintro ⟨rfl, rfl, n, rfl⟩
    refine ⟨rfl, ?_⟩
    have hcomm := congrArg (· ++ .char ']' :: post) (emptyLoops_append n)
    simpa using hcomm.symm

variable {a b : Machine}

theorem programLine_of_lt (h : a.iptr < a.script.length) :
    programLine a = Text.ofString "Program:  " ++ markedFrom a.iptr 0 a.script := by
  have hhalted : a.halted = false := by
    rw [Machine.halted, decide_eq_false_iff_not]
    omega
  unfold programLine
  rw [hhalted, if_neg Bool.false_ne_true, List.append_nil]

theorem programLine_of_le (h : a.script.length ≤ a.iptr) :
    programLine a = Text.ofString "Program:  " ++ (a.script ++ Text.ofString "[END]") := by
  have hhalted : a.halted = true := by
    rw [Machine.halted, decide_eq_true_eq]
    exact h
  unfold programLine
  rw [hhalted, if_pos rfl, markedFrom_of_le (by omega), List.append_assoc]

/-- A mark takes two more characters, the mark of the end takes five. -/
theorem programLine_ne_of_halted (hscript : a.script = b.script) (ha : a.iptr < a.script.length)
    (hb : b.script.length ≤ b.iptr) : programLine a ≠ programLine b := by
  intro h
  obtain ⟨c, hc⟩ : ∃ c, a.script[a.iptr]? = some c := ⟨_, List.getElem?_eq_getElem ha⟩
  have hmarked := markedFrom_split 0 (a.script.take a.iptr) (a.script.drop (a.iptr + 1)) c
  rw [← eq_take_cons_drop hc, Nat.zero_add, List.length_take, Nat.min_eq_left (Nat.le_of_lt ha)]
    at hmarked
  rw [programLine_of_lt ha, programLine_of_le hb, List.append_cancel_left_eq, hmarked,
    ← hscript] at h
  have hlength := congrArg List.length h
  simp only [List.length_append, List.length_cons, List.length_take, List.length_drop] at hlength
  have hend : (Text.ofString "[END]").length = 5 := by decide
  omega

theorem programLine_eq_iff (hscript : a.script = b.script) (hlt : a.iptr < b.iptr)
    (hle : b.iptr ≤ b.script.length) :
    programLine a = programLine b ↔ a.script.Hollow a.iptr b.iptr := by
  have ha : a.iptr < a.script.length := by
    rw [hscript]
    omega
  by_cases hb : b.iptr < b.script.length
  · obtain ⟨pre, body, post, c, d, hsplit, hi, hj⟩ := exists_split_at hlt hb
    rw [programLine_of_lt ha, programLine_of_lt hb, List.append_cancel_left_eq, hscript, hsplit,
      hi, hj, marked_split_eq_iff, hollow_split_iff]
  · -- Behind the end of the script there is no bracket.
    refine iff_of_false (programLine_ne_of_halted hscript ha (by omega)) ?_
    rintro ⟨⟨-, -, hclosing, -⟩, -⟩
    rw [hscript] at hclosing
    have hinside := (List.getElem?_eq_some_iff.mp hclosing).1
    omega

end Observed

namespace Session

/-- The line of the program tells the positions of a script apart, but for the two ends of hollow
loops. In reachable sessions with one script and different instruction pointers the lines are
the same exactly if the pointers are at the brackets of a loop that has only empty loops in it. -/
theorem program_lines_differ_unless_hollow {s t : Session}
    (hs : Reachable Request.KeepsControl s) (ht : Reachable Request.KeepsControl t)
    (hscript : s.machine.script = t.machine.script) (hne : s.machine.iptr ≠ t.machine.iptr) :
    Observed.programLine s.machine = Observed.programLine t.machine ↔
      s.machine.script.Hollow s.machine.iptr t.machine.iptr ∨
        s.machine.script.Hollow t.machine.iptr s.machine.iptr := by
  have hsle := (wellNested_kept.reachable hs).iptr_le
  have htle := (wellNested_kept.reachable ht).iptr_le
  rcases Nat.lt_or_gt_of_ne hne with hlt | hgt
  · rw [Observed.programLine_eq_iff hscript hlt htle]
    refine ⟨Or.inl, ?_⟩
    rintro (hhollow | hhollow)
    · exact hhollow
    · exact absurd hhollow.1.1 (by omega)
  · rw [eq_comm, Observed.programLine_eq_iff hscript.symm hgt hsle, hscript]
    refine ⟨Or.inr, ?_⟩
    rintro (hhollow | hhollow)
    · exact absurd hhollow.1.1 (by omega)
    · exact hhollow

/-- At both ends of a loop around an empty one the lines are the same, and inside it they are
not. The end is reached because the cell is cleared from outside. -/
theorem program_lines_differ_unless_hollow_nested :
    ∃ s t u : Session, Reachable Request.KeepsControl s ∧ Reachable Request.KeepsControl t ∧
      Reachable Request.KeepsControl u ∧
      s.machine.iptr = 1 ∧ t.machine.iptr = 2 ∧ u.machine.iptr = 4 ∧
      Observed.programLine s.machine = Observed.programLine u.machine ∧
      Observed.programLine t.machine ≠ Observed.programLine u.machine := by
  have hfresh := @Reachable.fresh Request.KeepsControl none none (.separate {} {}) _ rfl
  have hloaded := hfresh.request (.loadScript "+[[]]") trivial
  have hopening := hloaded.request (.step 1) trivial
  have hentered := hopening.request (.step 1) trivial
  have hcleared := hentered.request (.tape (.store 0 0)) trivial
  have hclosing := hcleared.request (.step 1) trivial
  refine ⟨_, _, _, hopening, hentered, hclosing, by decide, by decide, by decide, ?_, ?_⟩
  · apply (program_lines_differ_unless_hollow hopening hclosing (by decide) (by decide)).mpr
    exact Or.inl ⟨by decide, 1, by decide⟩
  · intro h
    rcases (program_lines_differ_unless_hollow hentered hclosing (by decide) (by decide)).mp h with
      hhollow | hhollow
    · exact absurd hhollow.1 (by decide)
    · exact absurd hhollow.1 (by decide)

/-- The line of the program does not tell the two brackets of an empty loop apart, and a machine
gets from one to the other by a step. -/
theorem empty_loop_hides_position :
    ¬ ∀ s t : Session, Reachable Request.KeepsControl s → Reachable Request.KeepsControl t →
      s.machine.script = t.machine.script → s.machine.iptr ≠ t.machine.iptr →
      Observed.programLine s.machine ≠ Observed.programLine t.machine := by
  intro hall
  have hfresh := @Reachable.fresh Request.KeepsControl none none (.separate {} {}) _ rfl
  have hloaded := hfresh.request (.loadScript "+[]") trivial
  have hopening := hloaded.request (.step 1) trivial
  have hclosing := hopening.request (.step 1) trivial
  exact hall _ _ hopening hclosing (by decide) (by decide) (by decide)

end Session

end Brainfuck
