import Brainfuck.Proofs.Refinement
import Mathlib.Data.Int.ModEq
import Mathlib.Tactic.Ring

/-!
Counting loops. A piece of script without brackets, input and output moves the data pointer
by a fixed distance and adds a fixed number to each cell around it. If the body of a loop is
such a piece, comes back to where it began and takes one from the cell there, then it is
repeated as often as that cell says, and what the whole loop adds to the other cells, the
steps that it makes and the cycles that it spends are that many times those of the body.
-/
namespace Brainfuck

namespace Script

/-- How far the moves of a piece of script take the data pointer to the right. -/
def displacement (part : Script) : Int := part.count (.char '>') - part.count (.char '<')

/-- How often `c` stands at a place where the moves before it have led to offset `k`. -/
def countAt (part : Script) (c : Letter) (k : Int) : Nat :=
  (List.range part.length).countP fun i =>
    part[i]? = some c ∧ displacement (part.take i) = k

/-- What a piece of script adds to the cell at offset `k` from where it begins. -/
def netChange (part : Script) (k : Int) : Int := part.countAt '+' k - part.countAt '-' k

theorem displacement_append (part rest : Script) :
    displacement (part ++ rest) = part.displacement + rest.displacement := by
  unfold displacement
  rw [List.count_append, List.count_append]
  omega

/-- Offsets in the second piece are counted from where the first has led. -/
theorem countAt_append (part rest : Script) (c : Letter) (k : Int) :
    countAt (part ++ rest) c k = part.countAt c k + rest.countAt c (k - part.displacement) := by
  unfold countAt
  rw [List.length_append, List.range_add, List.countP_append, List.countP_map]
  congr 1
  · apply List.countP_congr
    intro i hi
    rw [List.mem_range] at hi
    rw [List.getElem?_append_left hi, List.take_append_of_le_length (Nat.le_of_lt hi)]
  · apply List.countP_congr
    intro i hi
    rw [Function.comp_apply, List.getElem?_append_right (by omega), Nat.add_sub_cancel_left,
      List.take_length_add_append, displacement_append, decide_eq_true_eq, decide_eq_true_eq]
    apply and_congr_right'
    omega

theorem netChange_append (part rest : Script) (k : Int) :
    netChange (part ++ rest) k = part.netChange k + rest.netChange (k - part.displacement) := by
  unfold netChange
  rw [countAt_append, countAt_append]
  omega

theorem countAt_singleton (c d : Letter) (k : Int) :
    countAt [c] d k = if c = d ∧ k = 0 then 1 else 0 := by
  have hempty : displacement [] = 0 := rfl
  have hzero : (0 = k) = (k = 0) := propext eq_comm
  simp [countAt, hempty, hzero]

theorem netChange_increment (k : Int) : netChange [.char '+'] k = if k = 0 then 1 else 0 := by
  simp [netChange, countAt_singleton]

theorem netChange_decrement (k : Int) : netChange [.char '-'] k = if k = 0 then -1 else 0 := by
  by_cases hk : k = 0
  · simp [netChange, countAt_singleton, hk]
  · simp [netChange, countAt_singleton, hk]

theorem netChange_other {c : Letter} (hplus : c ≠ '+') (hminus : c ≠ '-') (k : Int) :
    netChange [c] k = 0 := by
  simp [netChange, countAt_singleton, hplus, hminus]

/-- A character that is neither a bracket nor input nor output. -/
def Plain (c : Letter) : Prop := c ≠ '[' ∧ c ≠ ']' ∧ c ≠ '.' ∧ c ≠ ','

theorem balanced_of_plain {part : Script} (h : ∀ c ∈ part, Plain c) : part.balanced = true := by
  induction part with
  | nil => rfl
  | cons c part ih =>
    obtain ⟨ho, hc, -⟩ := h c List.mem_cons_self
    rw [balanced, closes_other ho hc]
    exact ih fun d hd => h d (List.mem_cons_of_mem c hd)

end Script

namespace Machine

open Script

/-- The next `n` steps are all made and lead to another machine. -/
inductive Makes : Machine → Nat → Machine → Prop
  | stop (m : Machine) : Makes m 0 m
  | step {m final : Machine} {n : Nat} (h : m.step.result = .ok true)
      (rest : Makes m.step.state n final) : Makes m (n + 1) final

namespace Makes

theorem one {m next : Machine} {log : List Notice} (h : m.step = ⟨next, log, .ok true⟩) :
    Makes m 1 next := by
  have hok : m.step.result = .ok true := by rw [h]
  have hrest : Makes m.step.state 0 next := by
    rw [h]
    exact .stop next
  exact .step hok hrest

theorem trans {m mid final : Machine} {n k : Nat} (h : Makes m n mid) (hrest : Makes mid k final) :
    Makes m (n + k) final := by
  induction h with
  | stop m => rwa [Nat.zero_add]
  | step hok _ ih =>
    rw [Nat.add_right_comm]
    exact .step hok (ih hrest)

theorem advanceFrom {m final : Machine} {n : Nat} (h : Makes m n final) (steps : Nat)
    (log : List Notice) :
    ∃ more, advanceFrom steps log n m =
      ⟨final, more, .ok ⟨if steps + n = 0 then none else some true, steps + n⟩⟩ := by
  induction h generalizing steps log with
  | stop m => exact ⟨log, rfl⟩
  | @step m final n hok _ ih =>
    obtain ⟨more, hmore⟩ := ih (steps + 1) (log ++ m.step.log)
    refine ⟨more, ?_⟩
    simp only [Machine.advanceFrom, hok]
    rw [hmore, show steps + 1 + n = steps + (n + 1) by omega]

end Makes

theorem toNat_byte_emod (byte : UInt8) : (byte.toNat : Int) % 256 = byte.toNat := by
  have hlt : byte.toNat < 256 := byte.toNat_lt
  omega

/-- The next steps are all made, and do the following to the data: they move the data pointer
by `shift`, add `change` to the cells around it, and spend `cost` cycles. -/
structure Works (m : Machine) (steps : Nat) (final : Machine) (shift : Int)
    (change : Int → Int) (cost : Nat) : Prop where
  makes : Makes m steps final
  script : final.script = m.script
  channels : final.channels = m.channels
  dptr : final.dptr = m.dptr + shift
  cycles : final.cycles = m.cycles + cost
  cell : ∀ k, ((final.tape.get (m.dptr + k)).toNat : Int) =
    ((m.tape.get (m.dptr + k)).toNat + change k) % 256

namespace Works

theorem refl (m : Machine) : Works m 0 m 0 (fun _ => 0) 0 where
  makes := .stop m
  script := rfl
  channels := rfl
  dptr := (Int.add_zero _).symm
  cycles := rfl
  cell k := by rw [Int.add_zero, toNat_byte_emod]

theorem trans {m mid final : Machine} {n more cost rest : Nat} {shift further : Int}
    {change add : Int → Int} (h : Works m n mid shift change cost)
    (hrest : Works mid more final further add rest) :
    Works m (n + more) final (shift + further) (fun k => change k + add (k - shift))
      (cost + rest) where
  makes := h.makes.trans hrest.makes
  script := hrest.script.trans h.script
  channels := hrest.channels.trans h.channels
  dptr := by rw [hrest.dptr, h.dptr, Int.add_assoc]
  cycles := by rw [hrest.cycles, h.cycles, Nat.add_assoc]
  cell k := by
    have hfirst := h.cell k
    have hsecond := hrest.cell (k - shift)
    rw [h.dptr, show m.dptr + shift + (k - shift) = m.dptr + k by omega, hfirst] at hsecond
    omega

theorem congr {m final : Machine} {n n' cost cost' : Nat} {shift shift' : Int}
    {change change' : Int → Int} (h : Works m n final shift change cost) (hsteps : n = n')
    (hshift : shift = shift') (hchange : ∀ k, change k = change' k) (hcost : cost = cost') :
    Works m n' final shift' change' cost' := by
  obtain rfl : change = change' := funext hchange
  subst hsteps hshift hcost
  exact h

/-- A step at a bracket leaves the data alone. -/
theorem of_bracket {m next : Machine} {log : List Notice} {iptr : Nat} {loops : List Nat}
    (h : m.step = ⟨{ m with iptr, loops }.tick, log, .ok true⟩)
    (hnext : next = { m with iptr, loops }.tick) : Works m 1 next 0 (fun _ => 0) 1 := by
  subst hnext
  refine ⟨.one h, rfl, rfl, (Int.add_zero _).symm, rfl, fun k => ?_⟩
  rw [Int.add_zero, toNat_byte_emod]
  rfl

/-- The current cell, if the data pointer is back where it was. -/
theorem toNat_cell {m final : Machine} {n cost : Nat} {change : Int → Int}
    (h : Works m n final 0 change cost) :
    (final.cell.toNat : Int) = (m.cell.toNat + change 0) % 256 := by
  have hcell := h.cell 0
  rw [Int.add_zero] at hcell
  unfold Machine.cell
  rw [h.dptr, Int.add_zero]
  exact hcell

end Works

/-- Writing to one cell adds to that cell alone. -/
theorem toNat_get_set (tape : Tape) (i : Int) {byte : UInt8} {change : Int}
    (h : (byte.toNat : Int) = ((tape.get i).toNat + change) % 256) (k : Int) :
    (((tape.set i byte).get (i + k)).toNat : Int) =
      ((tape.get (i + k)).toNat + if k = 0 then change else 0) % 256 := by
  rw [Tape.get_set]
  by_cases hk : k = 0
  · rw [hk, Int.add_zero, if_pos rfl, if_pos rfl]
    exact h
  · rw [if_neg (by omega), if_neg hk, Int.add_zero, toNat_byte_emod]

/-- A step at a plain character does what the character alone says. -/
theorem works_plain {m : Machine} {c : Letter} (hc : m.current? = some c) (hplain : Plain c) :
    Works m 1 m.step.state (displacement [c]) (netChange [c]) ([c].countP isCommand) ∧
      m.step.state.iptr = m.iptr + 1 ∧ m.step.state.loops = m.loops := by
  have hsame : (∀ k, netChange [c] k = 0) → ∀ k, ((m.tape.get (m.dptr + k)).toNat : Int) =
      ((m.tape.get (m.dptr + k)).toNat + netChange [c] k) % 256 := by
    intro hchange k
    rw [hchange, Int.add_zero, toNat_byte_emod]
  obtain ⟨ho, hcl, hout, hin⟩ := hplain
  cases hcommand : Command.ofLetter? c with
  | none =>
    have hne : ∀ command, c ≠ Command.letter command := by
      rintro command rfl
      cases command <;> cases hcommand
    have hright : c ≠ '>' := hne .right
    have hleft : c ≠ '<' := hne .left
    have hstep := step_comment hc hcommand
    rw [hstep]
    refine ⟨⟨.one hstep, rfl, rfl, ?_, ?_, ?_⟩, rfl, rfl⟩
    · rw [displacement, List.count_cons_of_ne hright, List.count_cons_of_ne hleft]
      exact (Int.add_zero _).symm
    · simp [isCommand, hcommand, pass]
    · exact hsame (netChange_other (hne .increment) (hne .decrement))
  | some command =>
    obtain rfl := Command.eq_letter hcommand
    cases command with
    | right =>
      have hstep := step_data hc hcommand rfl
      rw [hstep]
      refine ⟨⟨.one hstep, rfl, rfl, rfl, rfl, ?_⟩, rfl, rfl⟩
      exact hsame (netChange_other (by decide) (by decide))
    | left =>
      have hstep := step_data hc hcommand rfl
      rw [hstep]
      refine ⟨⟨.one hstep, rfl, rfl, rfl, rfl, ?_⟩, rfl, rfl⟩
      exact hsame (netChange_other (by decide) (by decide))
    | increment =>
      have hstep := step_data hc hcommand rfl
      rw [hstep]
      refine ⟨⟨.one hstep, rfl, rfl, (Int.add_zero _).symm, rfl, fun k => ?_⟩, rfl, rfl⟩
      rw [show Command.increment.letter = '+' from rfl, netChange_increment]
      exact toNat_get_set m.tape m.dptr (toNat_byte_add_one _) k
    | decrement =>
      have hstep := step_data hc hcommand rfl
      rw [hstep]
      refine ⟨⟨.one hstep, rfl, rfl, (Int.add_zero _).symm, rfl, fun k => ?_⟩, rfl, rfl⟩
      rw [show Command.decrement.letter = '-' from rfl, netChange_decrement]
      exact toNat_get_set m.tape m.dptr (toNat_byte_sub_one _) k
    | output => exact absurd rfl hout
    | input => exact absurd rfl hin
    | opening => exact absurd rfl ho
    | closing => exact absurd rfl hcl

/-- Steps over a plain piece of script do what the piece says. -/
theorem exists_works_plain {m : Machine} {part rest : Script} (hplain : ∀ c ∈ part, Plain c)
    (hat : m.script.drop m.iptr = part ++ rest) :
    ∃ final, Works m part.length final part.displacement part.netChange
        (part.countP isCommand) ∧
      final.iptr = m.iptr + part.length ∧ final.loops = m.loops := by
  induction part generalizing m with
  | nil => exact ⟨m, .refl m, rfl, rfl⟩
  | cons c part ih =>
    have hc : m.current? = some c := current?_of_drop hat
    obtain ⟨hfirst, hiptr, hloops⟩ := works_plain hc (hplain c List.mem_cons_self)
    have hnext : m.step.state.script.drop m.step.state.iptr = part ++ rest := by
      rw [hfirst.script, hiptr, ← List.drop_drop, hat]
      rfl
    obtain ⟨final, hworks, hend, hstack⟩ :=
      ih (fun d hd => hplain d (List.mem_cons_of_mem c hd)) hnext
    have hsplit : c :: part = [c] ++ part := rfl
    refine ⟨final, (hfirst.trans hworks).congr ?_ ?_ ?_ ?_, ?_, ?_⟩
    · rw [List.length_cons, Nat.add_comm]
    · rw [hsplit, displacement_append]
    · intro k
      rw [hsplit, netChange_append]
    · rw [hsplit, List.countP_append]
    · rw [hend, hiptr, List.length_cons]
      omega
    · rw [hstack, hloops]

section Rounds

variable {body post : Script} (hplain : ∀ c ∈ body, Plain c) (hmoves : body.displacement = 0)
  (hcount : body.netChange 0 ≡ -1 [ZMOD 256])

include hplain hmoves hcount

/-- Once through the body: the machine is at the closing bracket with the same loop stack, and
one has been taken from the current cell. -/
theorem exists_round {m : Machine} (hat : m.script.drop m.iptr = body ++ .char ']' :: post)
    {n : Nat} (hcell : m.cell.toNat = n + 1) :
    ∃ mid, Works m body.length mid 0 body.netChange (body.countP isCommand) ∧
      mid.current? = some (.char ']') ∧ mid.iptr = m.iptr + body.length ∧ mid.loops = m.loops ∧
      mid.cell.toNat = n := by
  obtain ⟨mid, hworks, hiptr, hloops⟩ := exists_works_plain hplain hat
  rw [hmoves] at hworks
  have hclosing : mid.script.drop mid.iptr = .char ']' :: post := by
    rw [hworks.script, hiptr, ← List.drop_drop, hat, List.drop_left]
  refine ⟨mid, hworks, current?_of_drop hclosing, hiptr, hloops, ?_⟩
  have hlt : m.cell.toNat < 256 := m.cell.toNat_lt
  have hone : body.netChange 0 % 256 = -1 % 256 := hcount
  have hleft := hworks.toNat_cell
  omega

/-- All rounds that are left, as many as the current cell says, and out of the loop. -/
theorem exists_rounds {m : Machine} {position : Nat} {outer : List Nat}
    (hat : m.script.drop m.iptr = body ++ .char ']' :: post) (hiptr : m.iptr = position + 1)
    (hloops : m.loops = position :: outer) {n : Nat} (hcell : m.cell.toNat = n + 1) :
    ∃ final, Works m ((n + 1) * (body.length + 1)) final 0
        (fun k => (n + 1 : Nat) * body.netChange k) ((n + 1) * (body.countP isCommand + 1)) ∧
      final.iptr = m.iptr + body.length + 1 ∧ final.loops = outer := by
  induction n generalizing m with
  | zero =>
    obtain ⟨mid, hworks, hclosing, hend, hstack, hzero⟩ :=
      exists_round hplain hmoves hcount hat hcell
    have hstep := step_leave hclosing (UInt8.toNat_inj.mp hzero) (hstack.trans hloops)
    have hleave := Works.of_bracket hstep rfl
    refine ⟨_, (hworks.trans hleave).congr ?_ rfl ?_ ?_, ?_, rfl⟩
    · omega
    · intro k
      simp
    · omega
    · exact congrArg (· + 1) hend
  | succ n ih =>
    obtain ⟨mid, hworks, hclosing, hend, hstack, hleft⟩ :=
      exists_round hplain hmoves hcount hat hcell
    have hne : mid.cell ≠ 0 := by
      intro hzero
      rw [hzero] at hleft
      cases hleft
    have hstep := step_again hclosing hne (hstack.trans hloops)
    have hagain := Works.of_bracket hstep rfl
    -- Back behind the opening bracket it is the same situation with one round less.
    have hback : mid.script.drop (position + 1) = body ++ .char ']' :: post := by
      rw [hworks.script, ← hiptr]
      exact hat
    obtain ⟨final, hrest, hlast, houter⟩ := ih (m := { mid with iptr := position }.tick) hback rfl
      (hstack.trans hloops) hleft
    refine ⟨final, (hworks.trans (hagain.trans hrest)).congr ?_ rfl ?_ ?_, ?_, houter⟩
    · ring
    · intro k
      rw [Int.sub_zero, Int.sub_zero]
      push_cast
      ring
    · ring
    · rw [hlast, hiptr]
      rfl

/-- The whole loop, from its opening bracket on. -/
theorem exists_counted {m : Machine}
    (hat : m.script.drop m.iptr = .char '[' :: (body ++ .char ']' :: post)) :
    ∃ final, Works m (1 + m.cell.toNat * (body.length + 1)) final 0
        (fun k => m.cell.toNat * body.netChange k)
        (1 + m.cell.toNat * (body.countP isCommand + 1)) ∧
      final.iptr = m.iptr + body.length + 2 ∧ final.loops = m.loops := by
  have hc : m.current? = some (.char '[') := current?_of_drop hat
  cases hn : m.cell.toNat with
  | zero =>
    have hclosing := closing?_of_drop (balanced_of_plain hplain) hat
    have hstep := step_skip hc (UInt8.toNat_inj.mp hn) hclosing
    refine ⟨_, (Works.of_bracket hstep rfl).congr ?_ rfl ?_ ?_, ?_, rfl⟩
    · omega
    · intro k
      simp
    · omega
    · change m.iptr + 1 + body.length + 1 = m.iptr + body.length + 2
      omega
  | succ n =>
    have hne : m.cell ≠ 0 := by
      intro hzero
      rw [hzero] at hn
      cases hn
    have hstep := step_enter hc hne
    have henter := Works.of_bracket hstep rfl
    have hinside : m.script.drop (m.iptr + 1) = body ++ .char ']' :: post := by
      rw [← List.drop_drop, hat]
      rfl
    obtain ⟨final, hrounds, hend, hloops⟩ :=
      exists_rounds (m := { m with loops := m.iptr :: m.loops }.tick) hplain hmoves hcount
        hinside rfl rfl hn
    refine ⟨final, (henter.trans hrounds).congr rfl rfl ?_ rfl, ?_, hloops⟩
    · intro k
      rw [Int.sub_zero, Int.zero_add]
    · rw [hend]
      change m.iptr + 1 + body.length + 1 = m.iptr + body.length + 2
      omega

end Rounds

/-- A counting loop in closed form. Let the body of a loop have no bracket, input or output,
let its moves cancel out, and let it add minus one modulo 256 to the cell where it begins.
At the opening bracket with `n` in the current cell, a machine needs one step and one more than
the body has characters for each of `n` rounds to be behind the loop, with the data pointer,
the loop stack and the channels as before. It has spent one cycle and one more than the body
has commands for each round, and has added `n` times what the body adds to every cell, modulo
256; the cell that was counted down is zero. -/
theorem counting_loop_closed_form {m : Machine} {pre body post : Script}
    (hscript : m.script = pre ++ .char '[' :: (body ++ .char ']' :: post))
    (hiptr : m.iptr = pre.length)
    (hplain : ∀ c ∈ body, c ≠ '[' ∧ c ≠ ']' ∧ c ≠ '.' ∧ c ≠ ',')
    (hmoves : body.displacement = 0) (hcount : body.netChange 0 ≡ -1 [ZMOD 256]) :
    let n := m.cell.toNat
    let steps := 1 + n * (body.length + 1)
    ∃ final log, m.advance steps = ⟨final, log, .ok ⟨some true, steps⟩⟩ ∧
      final.script = m.script ∧ final.iptr = pre.length + body.length + 2 ∧
      final.dptr = m.dptr ∧ final.blocks = m.blocks ∧ final.channels = m.channels ∧
      final.cycles = m.cycles + (1 + n * (body.countP isCommand + 1)) ∧
      (body = [.char '-'] → final.cycles = m.cycles + (2 * n + 1)) ∧
      (∀ k, ((final.tape.get (m.dptr + k)).toNat : Int) =
        ((m.tape.get (m.dptr + k)).toNat + n * body.netChange k) % 256) ∧
      final.tape.get m.dptr = 0 := by
  intro n steps
  have hat : m.script.drop m.iptr = .char '[' :: (body ++ .char ']' :: post) := by
    rw [hscript, hiptr, List.drop_left]
  obtain ⟨final, hworks, hend, hloops⟩ := exists_counted hplain hmoves hcount hat
  obtain ⟨log, hadvance⟩ := hworks.makes.advanceFrom 0 []
  rw [Nat.zero_add, if_neg (by omega)] at hadvance
  have hdptr : final.dptr = m.dptr := hworks.dptr.trans (Int.add_zero _)
  refine ⟨final, log, hadvance, hworks.script, by rw [hend, hiptr], hdptr, ?_, hworks.channels,
    hworks.cycles, ?_, hworks.cell, ?_⟩
  · rw [blocks, blocks, hloops]
  · rintro rfl
    have hone : [.char '-'].countP isCommand = 1 := by decide
    rw [hworks.cycles, hone]
    omega
  · -- The counted cell has lost its value once in each round.
    have hone : (256 : Int) ∣ body.netChange 0 + 1 := by
      have hdvd := hcount.symm.dvd
      rwa [Int.sub_neg] at hdvd
    obtain ⟨q, hq⟩ := hone
    have hcell := hworks.toNat_cell
    have hzero : (n : Int) + n * body.netChange 0 = 256 * (n * q) := by
      rw [show body.netChange 0 = 256 * q - 1 by omega]
      ring
    rw [hzero, Int.mul_emod_right] at hcell
    rw [← hdptr]
    exact UInt8.toNat_inj.mp (by exact_mod_cast hcell)

/-- Three rounds to the left of the nominal memory, with a comment in the body: the cell on the
right goes up by three in each round and the one on the left wraps around below zero. -/
theorem counting_loop_left_of_memory :
    ∃ s : Session, Session.Reachable Session.Request.KeepsControl s ∧ s.machine.dptr = -1 ∧
      ∃ final log, s.machine.advance 34 = ⟨final, log, .ok ⟨some true, 34⟩⟩ ∧
        final.iptr = 16 ∧ final.cycles = s.machine.cycles + 31 ∧ final.tape.get (-1) = 0 ∧
        ((final.tape.get (-1 + 1)).toNat : Int) = 9 ∧
        ((final.tape.get (-1 + -1)).toNat : Int) = 253 := by
  have hfresh := @Session.Reachable.fresh Session.Request.KeepsControl none none
    (.separate {} {}) _ rfl
  have hloaded := hfresh.request (.loadScript "<+++[->+++<x<->]") trivial
  let front : Script := "<+++"
  let body : Script := "->+++<x<->"
  obtain ⟨s, hs, hscript, hiptr, hdptr, hthree, hright, hleft⟩ : ∃ s : Session,
      Session.Reachable Session.Request.KeepsControl s ∧
      s.machine.script = front ++ .char '[' :: (body ++ .char ']' :: []) ∧
      s.machine.iptr = front.length ∧ s.machine.dptr = -1 ∧ s.machine.cell.toNat = 3 ∧
      s.machine.tape.get (-1 + 1) = 0 ∧ s.machine.tape.get (-1 + -1) = 0 :=
    ⟨_, hloaded.request (.step 4) trivial, by decide, by decide, by decide, by decide, by decide,
      by decide⟩
  have hplain : ∀ c ∈ body, c ≠ '[' ∧ c ≠ ']' ∧ c ≠ '.' ∧ c ≠ ',' := by decide
  obtain ⟨final, log, hadvance, -, hend, -, -, -, hcycles, -, hcells, hzero⟩ :=
    counting_loop_closed_form hscript hiptr hplain (by decide) (by decide)
  have hnine := hcells 1
  have hbelow := hcells (-1)
  rw [hthree] at hadvance hcycles hnine hbelow
  rw [hdptr] at hzero hnine hbelow
  rw [hright] at hnine
  rw [hleft] at hbelow
  exact ⟨s, hs, hdptr, final, log, hadvance, hend, hcycles, hzero, hnine, hbelow⟩

end Machine

end Brainfuck
