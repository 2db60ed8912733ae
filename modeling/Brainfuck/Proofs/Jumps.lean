import Brainfuck.Proofs.LoopStack
import Brainfuck.Proofs.Unmatched
import Mathlib.Data.Set.Function

/-!
Jumps at brackets. A loop that is not entered is skipped by a scan of the script, and a loop
that goes on is repeated by means of the loop stack. Both go by the same pairs of brackets:
the scan finds the partner of an opening bracket, these partners are all closing brackets of
the script, each of one opening bracket, and at a closing bracket the innermost active loop is
the one whose partner it is.
-/
namespace Brainfuck

namespace Script

/-- The closing bracket that belongs to the opening one at `i`. -/
def partner (script : Script) (i : Nat) : Nat := (script.closing? i).getD 0

theorem Partners.partner_eq {script : Script} {i j : Nat} (h : script.Partners i j) :
    script.partner i = j := by
  rw [partner, h.closing?_eq]
  rfl

theorem partners_partner {script : Script} (h : script.balanced = true) {i : Nat}
    (hi : script[i]? = some (.char '[')) : script.Partners i (script.partner i) := by
  obtain ⟨j, hj⟩ := exists_partner h hi
  rwa [hj.partner_eq]

theorem partners_iff {script : Script} (h : script.balanced = true) {i : Nat}
    (hi : script[i]? = some (.char '[')) (j : Nat) :
    script.Partners i j ↔ j = script.partner i := by
  constructor
  · intro hj
    exact hj.partner_eq.symm
  · rintro rfl
    exact partners_partner h hi

/-- Opening and closing brackets of a balanced script correspond to each other. -/
theorem partner_bijOn {script : Script} (h : script.balanced = true) :
    Set.BijOn script.partner {i | script[i]? = some (.char '[')}
      {j | script[j]? = some (.char ']')} := by
  refine ⟨?_, ?_, ?_⟩
  · intro i hi
    exact (partners_partner h hi).2.2.1
  · intro i hi k hk hsame
    have hfirst := partners_partner h hi
    rw [hsame] at hfirst
    exact hfirst.left_unique (partners_partner h hk)
  · intro j hj
    obtain ⟨i, hi⟩ := exists_opening_partner h hj
    exact ⟨i, hi.2.1, hi.partner_eq⟩

end Script

namespace Machine

/-- A loop that is not entered is left behind its closing bracket. -/
theorem step_skip_partners {m : Machine} {j : Nat} (h : m.script.Partners m.iptr j)
    (hcell : m.cell = 0) :
    m.step = ⟨{ m with iptr := j + 1, cycles := m.cycles + 1 }, [], .ok true⟩ :=
  step_skip h.2.1 hcell h.closing?_eq

/-- At a closing bracket the innermost active loop is the one that it closes. -/
theorem WellNested.exists_partner {m : Machine} (h : m.WellNested)
    (hc : m.current? = some (.char ']')) :
    ∃ position outer, m.loops = position :: outer ∧ m.script.Partners position m.iptr := by
  cases hloops : m.loops with
  | nil => exact absurd hloops (h.loops_ne_nil hc)
  | cons position outer =>
    have hopened := h.opened
    rw [hloops] at hopened
    have hpartners := hopened.partners (m.script.drop (m.iptr + 1))
    rw [← script_of_current? hc, h.length_take] at hpartners
    exact ⟨position, outer, rfl, hpartners⟩

end Machine

namespace Session

/-- Skipping and repeating go by the same pairs of brackets. In a balanced script each opening
bracket has one closing bracket with a balanced part between the two, to which a machine on a
zero cell skips with its loop stack unchanged; these pairs map the opening brackets one to one
onto the closing ones. In a reachable session a machine at a closing bracket goes back behind
the opening bracket of the same pair or, on a zero cell, takes just that one off the stack. -/
theorem skips_and_repeats_agree {script : Script} (h : script.balanced = true) :
    (∀ i, script[i]? = some (.char '[') →
      (∀ j, i < j ∧ script[j]? = some (.char ']') ∧
          Script.balanced ((script.take j).drop (i + 1)) = true ↔
        j = script.partner i) ∧
      ∀ m : Machine, m.script = script → m.iptr = i → m.cell = 0 →
        m.step = ⟨{ m with iptr := script.partner i + 1, cycles := m.cycles + 1 }, [], .ok true⟩) ∧
    Set.BijOn script.partner {i | script[i]? = some (.char '[')}
      {j | script[j]? = some (.char ']')} ∧
    ∀ s : Session, Reachable Request.KeepsControl s → s.machine.script = script →
      script[s.machine.iptr]? = some (.char ']') →
        let m := s.machine
        ∃ i, script[i]? = some (.char '[') ∧ script.partner i = m.iptr ∧
          (m.cell ≠ 0 →
            m.step = ⟨{ m with iptr := i + 1, cycles := m.cycles + 1 }, [], .ok true⟩) ∧
          (m.cell = 0 → ∃ outer, m.loops = i :: outer ∧ m.step =
            ⟨{ m with iptr := m.iptr + 1, cycles := m.cycles + 1, loops := outer }, [], .ok true⟩ ∧
            m.blocks = m.step.state.blocks ++ [i]) := by
  refine ⟨?_, Script.partner_bijOn h, ?_⟩
  · intro i hi
    constructor
    · intro j
      rw [← Script.partners_iff h hi]
      exact ⟨fun ⟨hij, hj, hinner⟩ => ⟨hij, hi, hj, hinner⟩,
        fun ⟨hij, _, hj, hinner⟩ => ⟨hij, hj, hinner⟩⟩
    · rintro m rfl rfl hcell
      exact Machine.step_skip_partners (Script.partners_partner h hi) hcell
  · rintro s hs rfl hc m
    have hm : m.WellNested := wellNested_kept.reachable hs
    obtain ⟨i, outer, hloops, hpartners⟩ := hm.exists_partner hc
    refine ⟨i, hpartners.2.1, hpartners.partner_eq, ?_, ?_⟩
    · intro hcell
      exact Machine.step_again hc hcell hloops
    · intro hcell
      have hstep := Machine.step_leave hc hcell hloops
      refine ⟨outer, hloops, hstep, ?_⟩
      rw [hstep, Machine.blocks, hloops, List.reverse_cons]
      rfl

/-- At the end of the inner one of two loops, on a zero cell and on one written from outside. -/
theorem skips_and_repeats_agree_nested :
    (∃ s : Session, Reachable Request.KeepsControl s ∧ s.machine.iptr = 6 ∧
      s.machine.blocks = [1, 4] ∧ s.machine.blocks = s.machine.step.state.blocks ++ [4]) ∧
    ∃ s : Session, Reachable Request.KeepsControl s ∧ s.machine.iptr = 6 ∧
      s.machine.step.state.iptr = 4 + 1 := by
  have hbalanced : Script.balanced "+[>+[-]<-]" = true := by decide
  obtain ⟨-, hpairs, hclosing⟩ := skips_and_repeats_agree hbalanced
  have hfour : ∀ i, (Text.ofString "+[>+[-]<-]")[i]? = some (.char '[') →
      Script.partner "+[>+[-]<-]" i = 6 → i = 4 := by
    intro i hi hsix
    exact hpairs.injOn hi (show (Text.ofString "+[>+[-]<-]")[4]? = some (.char '[') by decide)
      (hsix.trans (by decide))
  have hfresh := @Reachable.fresh Request.KeepsControl none none (.separate {} {}) _ rfl
  have hloaded := hfresh.request (.loadScript "+[>+[-]<-]") trivial
  have hzero := hloaded.request (.step 6) trivial
  have hwritten := hzero.request (.tape (.store 1 300)) trivial
  constructor
  · obtain ⟨i, hi, hsix, -, hleave⟩ := hclosing _ hzero (by decide) (by decide)
    obtain rfl := hfour i hi (hsix.trans (by decide))
    obtain ⟨_, -, -, hblocks⟩ := hleave (by decide)
    exact ⟨_, hzero, by decide, by decide, hblocks⟩
  · obtain ⟨i, hi, hsix, hagain, -⟩ := hclosing _ hwritten (by decide) (by decide)
    obtain rfl := hfour i hi (hsix.trans (by decide))
    exact ⟨_, hwritten, by decide, congrArg (·.state.iptr) (hagain (by decide))⟩

end Session

end Brainfuck
