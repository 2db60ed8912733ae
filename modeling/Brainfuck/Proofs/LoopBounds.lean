import Brainfuck.Proofs.Comments
import Brainfuck.Proofs.Unmatched

/-!
The current cell at the bounds of loops. A machine gets behind a closing bracket by leaving
a loop or by skipping one, and behind an opening bracket by entering a loop or by repeating
its body; the cell is zero in the first two cases and not zero in the others. Comments change
no cell, so a loop with nothing but comments between it and the end of another loop is never
entered, nor is one with nothing but comments before it: the machine never stands inside.
-/
namespace Brainfuck

namespace Script

theorem bare_append (part rest : Script) : bare (part ++ rest) = part.bare ++ rest.bare :=
  List.filter_append ..

theorem bare_eq_nil {part : Script} (h : ∀ c ∈ part, isCommand c = false) : part.bare = [] := by
  rw [bare, List.filter_eq_nil_iff]
  simpa using h

/-- The last command before a position. -/
def lastBefore? (script : Script) (position : Nat) : Option Letter :=
  (bare (script.take position)).getLast?

theorem lastBefore?_succ_command {script : Script} {position : Nat} {c : Letter}
    (h : script[position]? = some c) (hc : isCommand c = true) :
    script.lastBefore? (position + 1) = some c := by
  have hlast : bare [c] = [c] := List.filter_cons_of_pos hc
  rw [lastBefore?, List.take_add_one, h, Option.toList_some, bare_append, hlast,
    List.getLast?_concat]

theorem lastBefore?_succ_comment {script : Script} {position : Nat} {c : Letter}
    (h : script[position]? = some c) (hc : isCommand c = false) :
    script.lastBefore? (position + 1) = script.lastBefore? position := by
  have hlast : bare [c] = [] := bare_eq_nil (by simpa using hc)
  unfold lastBefore?
  rw [List.take_add_one, h, Option.toList_some, bare_append, hlast, List.append_nil]

theorem lastBefore?_of_command {script : Script} {position : Nat} {c : Letter}
    (hpos : 0 < position) (h : script[position - 1]? = some c) (hc : isCommand c = true) :
    script.lastBefore? position = some c := by
  have hlast := lastBefore?_succ_command h hc
  rwa [Nat.sub_add_cancel hpos] at hlast

/-- Only comments stand between a position and the end of a loop or the beginning of the
script. -/
def BehindLoop (script : Script) (position : Nat) : Prop :=
  script.lastBefore? position = none ∨ script.lastBefore? position = some (.char ']')

theorem behindLoop_of_split {before comments : Script}
    (hbefore : before = [] ∨ before.getLast? = some (.char ']'))
    (hcomments : ∀ c ∈ comments, isCommand c = false) (rest : Script) :
    BehindLoop (before ++ comments ++ rest) (before ++ comments).length := by
  rw [BehindLoop, lastBefore?, List.take_left, bare_append, bare_eq_nil hcomments,
    List.append_nil]
  rcases hbefore with rfl | hlast
  · exact Or.inl rfl
  · obtain ⟨start, rfl⟩ := List.getLast?_eq_some_iff.mp hlast
    have hclosing : bare [.char ']'] = [.char ']'] := rfl
    rw [bare_append, hclosing, List.getLast?_concat]
    exact Or.inr rfl

end Script

namespace Machine

/-- A loop whose end is still ahead is active once it has begun. -/
theorem WellNested.mem_loops {m : Machine} (h : m.WellNested) {i j : Nat}
    (hpartners : m.script.Partners i j) (hi : i < m.iptr) (hj : m.iptr ≤ j) : i ∈ m.loops := by
  have hopen : i ∈ m.script.openBefore m.iptr := by
    rw [Script.openBefore, List.mem_filter, List.mem_range, decide_eq_true_eq]
    refine ⟨hi, hpartners.2.1, ?_⟩
    intro k hk hother
    have hsame := hpartners.right_unique hother
    omega
  rwa [← h.blocks_eq, blocks, List.mem_reverse] at hopen

/-- The cell is zero behind a loop and at the beginning, it is not zero at the beginning of a
body, and no loop is active that begins where the cell has to be zero. -/
structure Settled (m : Machine) : Prop extends WellNested m where
  zero : m.script.BehindLoop m.iptr → m.cell = 0
  nonzero : m.script.lastBefore? m.iptr = some (.char '[') → m.cell ≠ 0
  entered : ∀ position ∈ m.loops, ¬ m.script.BehindLoop position

namespace Settled

/-- At the beginning of a script the tape is empty. -/
theorem beginning {m : Machine} (h : m.WellNested) (hiptr : m.iptr = 0) (htape : m.tape = {})
    (hloops : m.loops = []) : m.Settled where
  toWellNested := h
  zero _ := by
    rw [cell, htape]
    simp [Tape.get]
  nonzero hlast := by
    rw [hiptr] at hlast
    cases hlast
  entered position hposition := by
    rw [hloops] at hposition
    cases hposition

/-- What has to be known of a machine right behind a command. -/
theorem behind_command {m : Machine} (h : m.WellNested) {position : Nat} {c : Letter}
    (hc : m.script[position]? = some c) (hcommand : isCommand c = true)
    (hiptr : m.iptr = position + 1) (hzero : c = ']' → m.cell = 0)
    (hnonzero : c = '[' → m.cell ≠ 0)
    (hentered : ∀ position ∈ m.loops, ¬ m.script.BehindLoop position) : m.Settled := by
  have hlast := Script.lastBefore?_succ_command hc hcommand
  rw [← hiptr] at hlast
  refine ⟨h, ?_, ?_, hentered⟩
  · intro hbehind
    rw [Script.BehindLoop, hlast] at hbehind
    rcases hbehind with hnone | hclosing
    · cases hnone
    · exact hzero (Option.some.inj hclosing)
  · intro hopening
    rw [hlast] at hopening
    exact hnonzero (Option.some.inj hopening)

/-- One step keeps the cell as it has to be at the bounds of loops. -/
theorem step {m : Machine} (h : m.Settled) : m.step.state.Settled := by
  have hnested := h.toWellNested.step
  cases m.stepCase with
  | halted hc =>
    rw [step_halted hc]
    exact h
  | comment c hc hn =>
    have hlast : m.script.lastBefore? (m.iptr + 1) = m.script.lastBefore? m.iptr :=
      Script.lastBefore?_succ_comment hc (by rw [isCommand, hn]; rfl)
    rw [step_comment hc hn] at hnested ⊢
    refine ⟨hnested, ?_, ?_, h.entered⟩
    · change m.script.BehindLoop (m.iptr + 1) → m.cell = 0
      rw [Script.BehindLoop, hlast]
      exact h.zero
    · change m.script.lastBefore? (m.iptr + 1) = some (.char '[') → m.cell ≠ 0
      rw [hlast]
      exact h.nonzero
  | data c command hc hcommand hb =>
    obtain ⟨ho, hcl⟩ := Command.ofLetter?_ne_bracket hcommand hb
    obtain ⟨_, _, _, _, hstate, -⟩ := m.execute_data hb
    rw [step_data hc hcommand hb, hstate] at hnested ⊢
    exact behind_command hnested hc (by rw [isCommand, hcommand]; rfl) rfl
      (fun heq => absurd heq hcl) (fun heq => absurd heq ho) h.entered
  | enter hc hcell =>
    rw [step_enter hc hcell] at hnested ⊢
    refine behind_command hnested hc rfl rfl (fun heq => absurd heq (by decide))
      (fun _ => hcell) ?_
    -- Only here a loop becomes active, and the cell says that it does not begin behind another.
    intro position hposition
    rcases List.mem_cons.mp hposition with rfl | hposition
    · exact fun hbehind => hcell (h.zero hbehind)
    · exact h.entered position hposition
  | skip position hc hcell hclosing =>
    obtain ⟨j, hpartners⟩ := Script.exists_partner h.balanced hc
    obtain rfl : j = position := Option.some.inj (hpartners.closing?_eq.symm.trans hclosing)
    rw [step_skip hc hcell hclosing] at hnested ⊢
    exact behind_command hnested hpartners.2.2.1 rfl rfl (fun _ => hcell)
      (fun heq => absurd heq (by decide)) h.entered
  | noClosing hc hcell hclosing => exact absurd hclosing (h.closing?_ne_none hc)
  | again position outer hc hcell hloops =>
    have hopening : m.script[position]? = some (.char '[') := by
      apply h.getElem?_of_mem
      rw [hloops]
      exact List.mem_cons_self
    rw [step_again hc hcell hloops] at hnested ⊢
    exact behind_command hnested hopening rfl rfl (fun heq => absurd heq (by decide))
      (fun _ => hcell) h.entered
  | leave position outer hc hcell hloops =>
    rw [step_leave hc hcell hloops] at hnested ⊢
    refine behind_command hnested hc rfl rfl (fun _ => hcell)
      (fun heq => absurd heq (by decide)) ?_
    intro other hother
    apply h.entered other
    rw [hloops]
    exact List.mem_cons_of_mem position hother
  | noLoop hc hloops => exact absurd hloops (h.loops_ne_nil hc)

/-- The machine is not inside a loop that begins where the cell has to be zero. -/
theorem outside {m : Machine} (h : m.Settled) {i j : Nat} (hpartners : m.script.Partners i j)
    (hbehind : m.script.BehindLoop i) : m.iptr ≤ i ∨ j < m.iptr := by
  by_contra hinside
  have hactive : i ∈ m.loops := h.mem_loops hpartners (by omega) (by omega)
  exact h.entered i hactive hbehind

end Settled

end Machine

namespace Session

/-- Neither the script nor a pointer nor a cell is written directly. -/
def Request.KeepsData : Request → Prop
  | .assignScript _ | .assignIptr _ | .assignDptr _ => False
  | .tape op => op.Reads
  | _ => True

theorem settled_kept : Kept Request.KeepsData Machine.Settled where
  fresh _ _ _ := .beginning (wellNested_kept.fresh _ _ _) rfl rfl rfl
  install m _ hbalanced _ := .beginning (.install m hbalanced) rfl rfl rfl
  step _ h := h.step
  input _ _ h := ⟨wellNested_kept.input _ _ h.toWellNested, h.zero, h.nonzero, h.entered⟩
  output _ _ h := ⟨wellNested_kept.output _ _ h.toWellNested, h.zero, h.nonzero, h.entered⟩
  tape _ hreads m h := by
    rw [m.tape.perform_reads hreads]
    exact h
  script _ hr := False.elim hr
  iptr _ hr := False.elim hr
  dptr _ hr := False.elim hr

/-- The bounds of loops, at every step of a machine from a reachable session on. Behind a
closing bracket the current cell is zero, and behind an opening bracket it is not. A loop with
nothing but comments between it and a closing bracket or the beginning of the script is never
entered: the machine stands neither in its body nor at its end. -/
theorem loop_bounds {s : Session} (hs : Reachable Request.KeepsData s) :
    (∀ n, let m := s.machine.after n
      (0 < m.iptr → m.script[m.iptr - 1]? = some (.char ']') → m.cell = 0) ∧
      (0 < m.iptr → m.script[m.iptr - 1]? = some (.char '[') → m.cell ≠ 0)) ∧
    ∀ before comments body rest : Script,
      s.machine.script = before ++ comments ++ .char '[' :: (body ++ .char ']' :: rest) →
      before = [] ∨ before.getLast? = some (.char ']') → (∀ c ∈ comments, isCommand c = false) →
      body.balanced = true → ∀ n,
        (s.machine.after n).iptr ≤ (before ++ comments).length ∨
          (before ++ comments).length + 1 + body.length < (s.machine.after n).iptr := by
  have hsettled : ∀ n, (s.machine.after n).Settled :=
    Machine.after_induction (fun _ h => h.step) (settled_kept.reachable hs)
  constructor
  · intro n m
    refine ⟨fun hpos hclosing => (hsettled n).zero (Or.inr ?_),
      fun hpos hopening => (hsettled n).nonzero ?_⟩
    · exact Script.lastBefore?_of_command hpos hclosing rfl
    · exact Script.lastBefore?_of_command hpos hopening rfl
  · intro before comments body rest hscript hbefore hcomments hbody n
    have hpartners := Script.partners_of_split (before ++ comments) hbody rest
    have hbehind := Script.behindLoop_of_split hbefore hcomments
      (.char '[' :: (body ++ .char ']' :: rest))
    rw [← hscript, ← s.machine.script_after n] at hpartners hbehind
    exact (hsettled n).outside hpartners hbehind

/-- A byte that is fed to the machine and counted down, and a loop behind a comment that is
then skipped. -/
theorem loop_bounds_behind_comment :
    ∃ s : Session, Reachable Request.KeepsData s ∧ s.machine.iptr = 4 ∧ s.machine.cell = 0 ∧
      (s.machine.after 2).iptr = 9 ∧
      ∀ n, (s.machine.after n).iptr ≤ 5 ∨ 8 < (s.machine.after n).iptr := by
  have hfresh := @Reachable.fresh Request.KeepsData none none (.separate {} {}) _ rfl
  have hloaded := hfresh.request (.loadScript ",[-]x[.+]") trivial
  have hfed := hloaded.request (.input (.write (some [Char.ofNat 2]))) trivial
  have hleft := hfed.request (.step 6) trivial
  have hcomment : ∀ c ∈ Text.ofString "x", isCommand c = false := by decide
  obtain ⟨hcell, hnever⟩ := loop_bounds hleft
  exact ⟨_, hleft, by decide, (hcell 0).1 (by decide) (by decide), by decide,
    hnever ",[-]" "x" ".+" [] (by decide) (Or.inr (by decide)) hcomment (by decide)⟩

end Session

end Brainfuck
