import Brainfuck.Proofs.Comments
import Brainfuck.Proofs.Endings
import Brainfuck.Proofs.Loading
import Mathlib.Data.Nat.Find

/-!
Excursions of the data pointer. A machine remembers whether its pointer was outside of the
nominal memory at the last move, and as long as nobody else moves the pointer this is where
it still is. So a move is reported exactly if it leads from the inside to the outside, and
over any number of requests there is one report for each such crossing: the pointer has to
come back, by itself or because a script is loaded, before it can be reported again.
-/
namespace Brainfuck

namespace Machine

/-- The data pointer is inside the nominal memory. -/
def Inside (m : Machine) : Prop := 0 ≤ m.dptr ∧ m.dptr < m.memoryLength.val

instance (m : Machine) : Decidable m.Inside := inferInstanceAs (Decidable (_ ∧ _))

/-- From one machine to the other the data pointer has gone out of the nominal memory. -/
def Leaves (a b : Machine) : Prop := a.Inside ∧ ¬ b.Inside

instance (a b : Machine) : Decidable (a.Leaves b) := inferInstanceAs (Decidable (_ ∧ _))

theorem inside_congr {a b : Machine} (hdptr : b.dptr = a.dptr)
    (hlength : b.memoryLength = a.memoryLength) : b.Inside ↔ a.Inside := by
  unfold Inside
  rw [hdptr, hlength]

theorem not_leaves_of_same {a b : Machine} (hdptr : b.dptr = a.dptr)
    (hlength : b.memoryLength = a.memoryLength) : ¬ a.Leaves b := by
  rintro ⟨ha, hb⟩
  exact hb ((inside_congr hdptr hlength).mpr ha)

/-- The machine knows whether its data pointer is outside. -/
def Aware (m : Machine) : Prop := m.outside = true ↔ ¬ m.Inside

theorem isOutside_iff (m : Machine) (dptr : Int) :
    m.isOutside dptr = true ↔ ¬ (0 ≤ dptr ∧ dptr < m.memoryLength.val) := by
  rw [isOutside, Bool.not_eq_true', ← Bool.not_eq_true, Bool.and_eq_true, decide_eq_true_eq,
    decide_eq_true_eq]

theorem inside_of_zero {m : Machine} (h : m.dptr = 0) : m.Inside := by
  have hpos := m.memoryLength.pos
  unfold Inside
  omega

theorem aware_of_zero {m : Machine} (hdptr : m.dptr = 0) (houtside : m.outside = false) :
    m.Aware := by
  unfold Aware
  rw [houtside]
  exact iff_of_false (by decide) (not_not_intro (inside_of_zero hdptr))

/-- A step moves the data pointer, or leaves it alone together with what is known about it
and reports no excursion. -/
theorem step_moves_or_keeps (m : Machine) :
    (∃ offset : Int, (offset = 1 ∨ offset = -1) ∧
      m.step = ⟨(m.movePointer offset).state.tick, (m.movePointer offset).log, .ok true⟩) ∨
    m.step.state.dptr = m.dptr ∧ m.step.state.outside = m.outside ∧
      m.step.log.filter Notice.isExcursion = [] := by
  cases m.stepCase with
  | halted hc =>
    rw [step_halted hc]
    exact Or.inr ⟨rfl, rfl, rfl⟩
  | comment c hc hn =>
    rw [step_comment hc hn]
    exact Or.inr ⟨rfl, rfl, rfl⟩
  | data c command hc hcommand hb =>
    rw [step_data hc hcommand hb]
    cases command with
    | right => exact Or.inl ⟨1, Or.inl rfl, rfl⟩
    | left => exact Or.inl ⟨-1, Or.inr rfl, rfl⟩
    | increment => exact Or.inr ⟨rfl, rfl, rfl⟩
    | decrement => exact Or.inr ⟨rfl, rfl, rfl⟩
    | output => exact Or.inr ⟨rfl, rfl, rfl⟩
    | input =>
      have hread : m.readCell.dptr = m.dptr ∧ m.readCell.outside = m.outside := by
        unfold readCell
        split <;> exact ⟨rfl, rfl⟩
      exact Or.inr ⟨hread.1, hread.2, rfl⟩
    | opening => simp [Command.isBracket] at hb
    | closing => simp [Command.isBracket] at hb
  | enter hc hcell =>
    rw [step_enter hc hcell]
    exact Or.inr ⟨rfl, rfl, rfl⟩
  | skip position hc hcell hclosing =>
    rw [step_skip hc hcell hclosing]
    exact Or.inr ⟨rfl, rfl, rfl⟩
  | noClosing hc hcell hclosing =>
    rw [step_noClosing hc hcell hclosing]
    exact Or.inr ⟨rfl, rfl, rfl⟩
  | again position outer hc hcell hloops =>
    rw [step_again hc hcell hloops]
    exact Or.inr ⟨rfl, rfl, rfl⟩
  | leave position outer hc hcell hloops =>
    rw [step_leave hc hcell hloops]
    exact Or.inr ⟨rfl, rfl, rfl⟩
  | noLoop hc hloops =>
    by_cases hcell : m.cell = 0
    · rw [step_noLoopToLeave hc hcell hloops]
      exact Or.inr ⟨rfl, rfl, rfl⟩
    · rw [step_noLoopToRepeat hc hcell hloops]
      exact Or.inr ⟨rfl, rfl, rfl⟩

/-- The report that the data pointer of this machine is outside. -/
def excursion (m : Machine) : Notice := .leftMemory m.dptr m.memoryLength.val

namespace Aware

theorem step {m : Machine} (h : m.Aware) : m.step.state.Aware := by
  rcases m.step_moves_or_keeps with ⟨offset, -, hstep⟩ | ⟨hdptr, houtside, -⟩
  · rw [hstep]
    exact m.isOutside_iff (m.dptr + offset)
  · unfold Aware
    rw [houtside, inside_congr hdptr m.memoryLength_step]
    exact h

/-- An excursion is reported exactly when the pointer leaves the nominal memory. -/
theorem excursions_step {m : Machine} (h : m.Aware) :
    m.step.log.filter Notice.isExcursion =
      if m.Leaves m.step.state then [m.step.state.excursion] else [] := by
  rcases m.step_moves_or_keeps with ⟨offset, -, hstep⟩ | ⟨hdptr, -, hlog⟩
  · have hbefore : m.outside = false ↔ m.Inside := by
      rw [← Bool.not_eq_true, show m.outside = true ↔ ¬ m.Inside from h, not_not]
    have hcross : (m.isOutside (m.dptr + offset) && !m.outside) = true ↔
        m.Leaves (m.movePointer offset).state.tick := by
      rw [Bool.and_eq_true, Bool.not_eq_true', hbefore, isOutside_iff]
      exact and_comm
    rw [hstep]
    by_cases hleaves : m.Leaves (m.movePointer offset).state.tick
    · rw [if_pos hleaves]
      simp only [movePointer, hcross.mpr hleaves]
      rfl
    · have hstays := mt hcross.mp hleaves
      rw [if_neg hleaves]
      simp only [movePointer, if_neg hstays]
      rfl
  · rw [hlog, if_neg (not_leaves_of_same hdptr m.memoryLength_step)]

theorem warns_iff {m : Machine} (h : m.Aware) :
    (∃ notice ∈ m.step.log, notice.isExcursion = true) ↔ m.Leaves m.step.state := by
  have hstep := h.excursions_step
  constructor
  · rintro ⟨notice, hnotice, hexcursion⟩
    by_contra hstays
    have hmem := List.mem_filter.mpr ⟨hnotice, hexcursion⟩
    rw [hstep, if_neg hstays] at hmem
    cases hmem
  · intro hleaves
    have hmem : m.step.state.excursion ∈ m.step.log.filter Notice.isExcursion := by
      rw [hstep, if_pos hleaves]
      exact List.mem_singleton_self _
    exact ⟨_, List.mem_filter.mp hmem⟩

end Aware

/-- The data pointer can only leave at one of the two ends. -/
theorem dptr_of_leaves {m : Machine} (h : m.Leaves m.step.state) :
    m.step.state.dptr = -1 ∨ m.step.state.dptr = m.memoryLength.val := by
  have hlength := m.memoryLength_step
  obtain ⟨hbefore, hafter⟩ := h
  unfold Inside at hbefore hafter
  rw [hlength] at hafter
  rcases m.step_moves_or_keeps with ⟨offset, hoffset, hstep⟩ | ⟨hdptr, -⟩
  · have hdptr : m.step.state.dptr = m.dptr + offset := by
      rw [hstep]
      rfl
    omega
  · omega

/-- The neighbours in a history between which the data pointer leaves the nominal memory. -/
def crossings (history : List Machine) : List (Machine × Machine) :=
  (history.zip history.tail).filter fun pair => pair.1.Leaves pair.2

theorem crossings_singleton (a : Machine) : crossings [a] = [] := rfl

theorem crossings_cons_cons (a b : Machine) (rest : List Machine) :
    crossings (a :: b :: rest) =
      (if a.Leaves b then [(a, b)] else []) ++ crossings (b :: rest) := by
  unfold crossings
  rw [List.tail_cons, List.zip_cons_cons, List.filter_cons]
  by_cases h : a.Leaves b <;> simp [h]

/-- Nothing is crossed between two histories that meet without a crossing. -/
theorem crossings_append {a b : Machine} (h : ¬ a.Leaves b) (first rest : List Machine) :
    crossings (first ++ a :: b :: rest) = crossings (first ++ [a]) ++ crossings (b :: rest) := by
  induction first with
  | nil =>
    rw [List.nil_append, List.nil_append, crossings_cons_cons, if_neg h, crossings_singleton]
  | cons c first ih =>
    cases first with
    | nil =>
      simp only [List.cons_append, List.nil_append] at ih ⊢
      rw [crossings_cons_cons c a, crossings_cons_cons c a, ih, List.append_assoc]
    | cons d first =>
      simp only [List.cons_append] at ih ⊢
      rw [crossings_cons_cons c d, crossings_cons_cons c d, ih, List.append_assoc]

theorem leaves_of_mem_crossings {history : List Machine} {pair : Machine × Machine}
    (h : pair ∈ crossings history) : pair.1.Leaves pair.2 := by
  have hleaves := (List.mem_filter.mp h).2
  exact of_decide_eq_true hleaves

/-- The first crossing of a history, with what is around it. -/
theorem exists_first_crossing {history : List Machine} {pair : Machine × Machine}
    {others : List (Machine × Machine)} (h : crossings history = pair :: others) :
    ∃ before after, history = before ++ pair.1 :: pair.2 :: after := by
  induction history with
  | nil => cases h
  | cons a history ih =>
    cases history with
    | nil => cases h
    | cons b rest =>
      rw [crossings_cons_cons] at h
      split at h
      · obtain ⟨rfl, -⟩ := List.cons.inj h
        exact ⟨[], rest, rfl⟩
      · obtain ⟨before, after, hsplit⟩ := ih h
        exact ⟨a :: before, after, congrArg (a :: ·) hsplit⟩

/-- The machine right behind a crossing is outside, so the next crossing begins later. -/
theorem exists_next_crossing {history : List Machine} {pair next : Machine × Machine}
    {earlier later : List (Machine × Machine)}
    (h : crossings history = earlier ++ pair :: next :: later) :
    ∃ before between after,
      history = before ++ pair.2 :: (between ++ next.1 :: next.2 :: after) := by
  induction history generalizing earlier with
  | nil => simp [crossings] at h
  | cons a history ih =>
    cases history with
    | nil => simp [crossings_singleton] at h
    | cons b rest =>
      have hpair : pair.1.Leaves pair.2 :=
        leaves_of_mem_crossings (by rw [h]; exact List.mem_append_right _ List.mem_cons_self)
      have hnext : next.1.Leaves next.2 :=
        leaves_of_mem_crossings (by rw [h]; simp)
      rw [crossings_cons_cons] at h
      split at h
      · cases earlier with
        | nil =>
          obtain ⟨rfl, hlater⟩ := List.cons.inj h
          obtain ⟨before, after, hsplit⟩ := exists_first_crossing hlater
          cases before with
          | nil =>
            obtain ⟨hsame, -⟩ := List.cons.inj hsplit
            exact absurd (hsame ▸ hnext.1) hpair.2
          | cons c between =>
            obtain ⟨-, hrest⟩ := List.cons.inj hsplit
            exact ⟨[a], between, after, by rw [hrest]; rfl⟩
        | cons first earlier =>
          obtain ⟨-, hrest⟩ := List.cons.inj h
          obtain ⟨before, between, after, hsplit⟩ := ih hrest
          exact ⟨a :: before, between, after, congrArg (a :: ·) hsplit⟩
      · obtain ⟨before, between, after, hsplit⟩ := ih h
        exact ⟨a :: before, between, after, congrArg (a :: ·) hsplit⟩

theorem visited_succ_last (m : Machine) (n : Nat) :
    m.visited (n + 1) = m.visited n ++ [m.after n] :=
  m.visited_add n 1

namespace Aware

/-- The steps of a machine report one excursion for each crossing. -/
theorem excursions_reports {m : Machine} (h : m.Aware) (n : Nat) :
    (m.reports n).filter Notice.isExcursion =
      (crossings (m.visited (n + 1))).map fun pair => pair.2.excursion := by
  induction n generalizing m with
  | zero => rfl
  | succ n ih =>
    rw [reports_succ, List.filter_append, h.excursions_step, ih h.step, visited_succ m (n + 1),
      visited_succ m.step.state n, crossings_cons_cons, List.map_append]
    split <;> rfl

/-- The pointer that a step reports is next to one of the two ends. -/
theorem excursion_at_end {m : Machine} (h : m.Aware) {n : Nat} {notice : Notice}
    (hnotice : notice ∈ (m.reports n).filter Notice.isExcursion) :
    notice = .leftMemory (-1) m.memoryLength.val ∨
      notice = .leftMemory m.memoryLength.val m.memoryLength.val := by
  induction n generalizing m with
  | zero => cases hnotice
  | succ n ih =>
    have hlength := m.memoryLength_step
    rw [reports_succ, List.filter_append, List.mem_append] at hnotice
    rcases hnotice with hfirst | hrest
    · rw [h.excursions_step] at hfirst
      split at hfirst
      · next hleaves =>
        rw [List.mem_singleton] at hfirst
        rw [hfirst, excursion, hlength]
        rcases dptr_of_leaves hleaves with hleft | hright
        · exact Or.inl (by rw [hleft])
        · exact Or.inr (by rw [hright])
      · cases hfirst
    · have hlater := ih h.step hrest
      rwa [hlength] at hlater

end Aware

theorem exists_end (m : Machine) (limit : Int) : ∃ n, ¬ (m.after n).GoesOn limit := by
  obtain ⟨n, -, ⟨hrests, -⟩ | ⟨-, fault, hfault, -⟩⟩ := driveFrom_ends limit [] m
  · refine ⟨n, ?_⟩
    rintro ⟨hgo, -⟩
    rw [hrests] at hgo
    cases hgo
  · refine ⟨n, ?_⟩
    rintro ⟨-, hok⟩
    rw [hfault] at hok
    cases hok

instance (m : Machine) (limit : Int) : Decidable (m.GoesOn limit) :=
  inferInstanceAs (Decidable (_ ∧ _))

/-- How many steps a drive under the limit makes. -/
def stepsUnder (m : Machine) (limit : Int) : Nat := Nat.find (m.exists_end limit)

namespace WellNested

theorem restsAfter_stepsUnder {m : Machine} (hm : m.WellNested) (limit : Int) :
    m.RestsAfter limit (m.stepsUnder limit) where
  rests := by
    by_contra hgo
    rw [Bool.not_eq_true] at hgo
    have hhalted : (m.after (m.stepsUnder limit)).halted = false := by
      rw [← Bool.not_eq_true, halted_iff]
      intro hnone
      rw [rests_of_halted hnone] at hgo
      cases hgo
    have hok := (hm.after (m.stepsUnder limit)).step_result
    rw [hhalted] at hok
    exact Nat.find_spec (m.exists_end limit) ⟨hgo, hok⟩
  before k hk := (not_not.mp (Nat.find_min (m.exists_end limit) hk)).1

/-- An advance makes the steps that there are to make. -/
theorem advanceFrom_eq {m : Machine} (hm : m.WellNested) (steps : Nat) (log : List Notice)
    (count : Nat) :
    (advanceFrom steps log count m).state = m.after (m.stepsMade count) ∧
      (advanceFrom steps log count m).log = log ++ m.reports (m.stepsMade count) := by
  induction count generalizing m steps log with
  | zero => exact ⟨rfl, (List.append_nil log).symm⟩
  | succ count ih =>
    have hresult := hm.step_result
    cases h : m.halted with
    | true =>
      rw [advanceFrom, step_halted (m.halted_iff.mp h), stepsMade_of_halted h]
      exact ⟨rfl, rfl⟩
    | false =>
      rw [h] at hresult
      simp only [advanceFrom, hresult, Bool.not_false]
      rw [stepsMade_succ h, after_succ, reports_succ, ← List.append_assoc]
      exact ih hm.step (steps + 1) (log ++ m.step.log)

/-- A walk makes the same steps. -/
theorem walkFrom_eq {m : Machine} (hm : m.WellNested) (seen : List View) (log : List Notice)
    (count : Nat) :
    (walkFrom seen log count m).state = m.after (m.stepsMade count) ∧
      (walkFrom seen log count m).log = log ++ m.reports (m.stepsMade count) := by
  induction count generalizing m seen log with
  | zero => exact ⟨rfl, (List.append_nil log).symm⟩
  | succ count ih =>
    have hresult := hm.step_result
    cases h : m.halted with
    | true =>
      rw [walkFrom, step_halted (m.halted_iff.mp h), stepsMade_of_halted h]
      exact ⟨rfl, rfl⟩
    | false =>
      rw [h] at hresult
      simp only [walkFrom, hresult, Bool.not_false]
      rw [stepsMade_succ h, after_succ, reports_succ, ← List.append_assoc]
      exact ih hm.step (m.step.state.view :: seen) (log ++ m.step.log)

end WellNested

end Machine

namespace Observed

/-- One step of the tracer is a trace of length one. -/
theorem step_eq (o : Observed) :
    o.step.state.machine = o.machine.after (o.machine.stepsMade 1) ∧
      o.step.log = o.machine.reports (o.machine.stepsMade 1) := by
  rw [o.machine_step, o.log_step]
  cases h : o.machine.halted with
  | true =>
    rw [Machine.step_halted (o.machine.halted_iff.mp h), Machine.stepsMade_of_halted h]
    exact ⟨rfl, rfl⟩
  | false =>
    rw [Machine.stepsMade_succ h]
    exact ⟨rfl, (List.append_nil _).symm⟩

end Observed

namespace Session

/-- Neither the script nor a pointer is assigned directly. -/
def Request.KeepsPointers : Request → Prop
  | .assignScript _ | .assignIptr _ | .assignDptr _ => False
  | _ => True

theorem Request.KeepsPointers.keepsControl {r : Request} (h : r.KeepsPointers) :
    r.KeepsControl := by
  cases r with
  | assignScript script => exact h
  | assignIptr iptr => exact h
  | _ => trivial

theorem aware_kept : Kept Request.KeepsPointers Machine.Aware where
  fresh _ _ _ := Machine.aware_of_zero rfl rfl
  install _ _ _ _ := Machine.aware_of_zero rfl rfl
  step _ h := h.step
  input _ _ h := h
  output _ _ h := h
  tape _ _ _ h := h
  script _ hr := False.elim hr
  iptr _ hr := False.elim hr
  dptr _ hr := False.elim hr

/-- How many steps a request makes. -/
def stepsOf (s : Session) : Request → Nat
  | .step count | .walk count => s.machine.stepsMade count.toNat
  | .run limit => s.machine.stepsUnder (limit.getD s.machine.settings.stepLimit.val)
  | .traceStep => s.tracer.elim 0 fun _ => s.machine.stepsMade 1
  | .trace count => s.tracer.elim 0 fun _ => s.machine.stepsMade count.toNat
  | _ => 0

/-- The machine before, between and behind all steps of some requests. -/
def history (s : Session) : List Request → List Machine
  | [] => [s.machine]
  | r :: rest => s.machine.visited (s.stepsOf r + 1) ++ (s.handle r).session.history rest

theorem exists_history (s : Session) (requests : List Request) :
    ∃ rest, s.history requests = s.machine :: rest := by
  cases requests with
  | nil => exact ⟨[], rfl⟩
  | cons r rest => exact ⟨_, rfl⟩

/-- An answer after `n` steps: its excursions are those of the steps, and nothing else that
was done leads out of the nominal memory. -/
structure Answer.Follows (m : Machine) (n : Nat) (answer : Answer) : Prop where
  log : answer.log.filter Notice.isExcursion = (m.reports n).filter Notice.isExcursion
  stays : ¬ (m.after n).Leaves answer.session.machine

namespace Answer.Follows

theorem of_steps {m : Machine} {n : Nat} {answer : Answer}
    (hstate : answer.session.machine = m.after n) (hlog : answer.log = m.reports n) :
    Follows m n answer where
  log := by rw [hlog]
  stays := by
    rw [hstate]
    exact Machine.not_leaves_of_same rfl rfl

/-- A request that makes no step and leaves the data pointer where it is. -/
theorem of_same {m : Machine} {answer : Answer}
    (hdptr : answer.session.machine.dptr = m.dptr)
    (hlength : answer.session.machine.memoryLength = m.memoryLength)
    (hlog : answer.log = []) : Follows m 0 answer where
  log := by rw [hlog]; rfl
  stays := Machine.not_leaves_of_same hdptr hlength

/-- A request to load a script, which puts the data pointer inside or changes nothing. -/
theorem of_load {m : Machine} {answer : Answer}
    (hlog : answer.log.filter Notice.isExcursion = [])
    (hstate : answer.session.machine = m ∨
      ∃ script, answer.session.machine = m.install script) : Follows m 0 answer where
  log := hlog
  stays := by
    rcases hstate with hstate | ⟨script, hstate⟩
    · rw [hstate]
      exact Machine.not_leaves_of_same rfl rfl
    · rw [hstate]
      exact fun h => h.2 (Machine.inside_of_zero rfl)

end Answer.Follows

open Answer

theorem follows_run {s : Session} (hm : s.machine.WellNested) (limit : Option Int) :
    Follows s.machine (s.stepsOf (.run limit)) (s.handle (.run limit)) := by
  have hdrive := hm.drive_eq (hm.restsAfter_stepsUnder
    (limit.getD s.machine.settings.stepLimit.val))
  refine ⟨Machine.run_excursions hdrive rfl, ?_⟩
  have hstate : (s.handle (.run limit)).session.machine =
      (s.machine.after (s.stepsOf (.run limit))).drain.2 :=
    congrArg Outcome.state (Machine.run_of_drive_ok hdrive rfl)
  rw [hstate]
  exact Machine.not_leaves_of_same rfl rfl

/-- Every request follows the steps that it makes. -/
theorem follows_handle {s : Session} (hm : s.machine.WellNested) {r : Request}
    (hr : r.KeepsPointers) : Follows s.machine (s.stepsOf r) (s.handle r) := by
  cases r with
  | setScript script =>
    by_cases h : script.balanced = true
    · rw [handle, Machine.setScript_balanced _ h]
      exact .of_load rfl (Or.inr ⟨script, rfl⟩)
    · rw [handle, Machine.setScript_unbalanced _ h]
      exact .of_load rfl (Or.inl rfl)
  | loadScript script =>
    by_cases h : script.balanced = true
    · rw [handle, Machine.loadScript_balanced _ h]
      exact .of_load rfl (Or.inr ⟨script, rfl⟩)
    · rw [handle, Machine.loadScript_unbalanced _ h]
      exact .of_load rfl (Or.inl rfl)
  | step count =>
    obtain ⟨hstate, hlog⟩ := hm.advanceFrom_eq 0 [] count.toNat
    exact .of_steps hstate hlog
  | walk count =>
    obtain ⟨hstate, hlog⟩ := hm.walkFrom_eq [] [] count.toNat
    exact .of_steps hstate hlog
  | run limit => exact follows_run hm limit
  | script => exact .of_same rfl rfl rfl
  | memoryLength => exact .of_same rfl rfl rfl
  | cell index => exact .of_same rfl rfl rfl
  | tape op => exact .of_same rfl rfl rfl
  | input op => exact .of_same rfl rfl rfl
  | output op => exact .of_same rfl rfl rfl
  | assignScript script => exact False.elim hr
  | assignIptr iptr => exact False.elim hr
  | assignDptr dptr => exact False.elim hr
  | openTracer range =>
    rw [handle]
    split <;> exact .of_same rfl rfl rfl
  | snapshot =>
    rw [handle, observe]
    split <;> exact .of_same rfl rfl rfl
  | traceStep =>
    rw [handle, observe, stepsOf]
    cases s.tracer with
    | none => exact .of_same rfl rfl rfl
    | some tracer =>
      obtain ⟨hstate, hlog⟩ := Observed.step_eq ⟨s.machine, tracer⟩
      exact .of_steps hstate hlog
  | trace count =>
    rw [handle, observe, stepsOf]
    cases s.tracer with
    | none => exact .of_same rfl rfl rfl
    | some tracer =>
      have htrace := Observed.trace_eq (o := ⟨s.machine, tracer⟩) hm count
      have hstate := Observed.machine_after ⟨s.machine, tracer⟩ (s.machine.stepsMade count.toNat)
      refine .of_steps ?_ (congrArg Outcome.log htrace)
      exact (congrArg (·.state.machine) htrace).trans hstate
  | render =>
    rw [handle, observe]
    split <;> exact .of_same rfl rfl rfl

/-- What is reported over some requests: one excursion for each crossing of their history. -/
theorem warnings_eq_crossings {s : Session} (hs : Reachable Request.KeepsPointers s)
    {requests : List Request} (hr : ∀ r ∈ requests, r.KeepsPointers) :
    ((s.handleAll requests).flatMap (·.log)).filter Notice.isExcursion =
      (Machine.crossings (s.history requests)).map fun pair => pair.2.excursion := by
  induction requests generalizing s with
  | nil => rfl
  | cons r requests ih =>
    have hfirst := hr r List.mem_cons_self
    have hm := wellNested_kept.reachable (hs.mono fun _ => Request.KeepsPointers.keepsControl)
    have hfollows := follows_handle hm hfirst
    have hrest := ih (hs.request r hfirst) fun k hk => hr k (List.mem_cons_of_mem r hk)
    obtain ⟨later, hlater⟩ := (s.handle r).session.exists_history requests
    rw [handleAll_cons, List.flatMap_cons, List.filter_append, hrest, hfollows.log,
      (aware_kept.reachable hs).excursions_reports, history, hlater, Machine.visited_succ_last,
      List.append_assoc, List.singleton_append, Machine.crossings_append hfollows.stays,
      List.map_append]

theorem warning_at_end {s : Session} (hs : Reachable Request.KeepsPointers s)
    {requests : List Request} (hr : ∀ r ∈ requests, r.KeepsPointers) {notice : Notice}
    (h : notice ∈ ((s.handleAll requests).flatMap (·.log)).filter Notice.isExcursion) :
    notice = .leftMemory (-1) s.machine.memoryLength.val ∨
      notice = .leftMemory s.machine.memoryLength.val s.machine.memoryLength.val := by
  induction requests generalizing s with
  | nil => cases h
  | cons r requests ih =>
    have hfirst := hr r List.mem_cons_self
    have hm := wellNested_kept.reachable (hs.mono fun _ => Request.KeepsPointers.keepsControl)
    rw [handleAll_cons, List.flatMap_cons, List.filter_append, List.mem_append] at h
    rcases h with hnow | hlater
    · rw [(follows_handle hm hfirst).log] at hnow
      exact (aware_kept.reachable hs).excursion_at_end hnow
    · have hmake := (make_preserved s.machine).handle rfl r trivial
      have hlength : (s.handle r).session.machine.memoryLength = s.machine.memoryLength :=
        congrArg (·.2.1) hmake
      have hend := ih (hs.request r hfirst) (fun k hk => hr k (List.mem_cons_of_mem r hk)) hlater
      rwa [hlength] at hend

/-- One warning for each excursion. As long as only the machine moves its data pointer, it
knows whether the pointer is outside of the nominal memory, and a step is reported exactly
if it leads out of it. Over any requests there is one warning for each crossing, in their
order, each with a pointer next to one of the two ends, and between two warnings the pointer
has been inside again. -/
theorem one_warning_per_excursion {s : Session} (hs : Reachable Request.KeepsPointers s) :
    let m := s.machine
    (m.outside = true ↔ ¬ (0 ≤ m.dptr ∧ m.dptr < m.memoryLength.val)) ∧
    ((∃ notice ∈ m.step.log, notice.isExcursion = true) ↔ m.Inside ∧ ¬ m.step.state.Inside) ∧
    ∀ requests : List Request, (∀ r ∈ requests, r.KeepsPointers) →
      let warnings := ((s.handleAll requests).flatMap (·.log)).filter Notice.isExcursion
      let history := s.history requests
      warnings = (Machine.crossings history).map
          (fun pair => .leftMemory pair.2.dptr pair.2.memoryLength.val) ∧
        warnings.length = (Machine.crossings history).length ∧
        (∀ notice ∈ warnings, notice = .leftMemory (-1) m.memoryLength.val ∨
          notice = .leftMemory m.memoryLength.val m.memoryLength.val) ∧
        ∀ earlier warning next later, warnings = earlier ++ warning :: next :: later →
          ∃ before first between back second after,
            history = before ++ first :: (between ++ back :: second :: after) ∧
              warning = first.excursion ∧ ¬ first.Inside ∧ back.Inside ∧
              next = second.excursion ∧ ¬ second.Inside := by
  intro m
  have haware := aware_kept.reachable hs
  refine ⟨haware, ?_, ?_⟩
  · exact haware.warns_iff
  · intro requests hr warnings history
    have hwarnings : warnings = _ := warnings_eq_crossings hs hr
    refine ⟨hwarnings, ?_, fun notice => warning_at_end hs hr, ?_⟩
    · rw [hwarnings, List.length_map]
    · intro earlier warning next later hsplit
      rw [hwarnings] at hsplit
      obtain ⟨_, _, hcrossings, -, hrest⟩ := List.map_eq_append_iff.mp hsplit
      obtain ⟨pair, _, rfl, rfl, hothers⟩ := List.map_eq_cons_iff.mp hrest
      obtain ⟨other, _, rfl, rfl, -⟩ := List.map_eq_cons_iff.mp hothers
      obtain ⟨start, between, after, hhistory⟩ := Machine.exists_next_crossing hcrossings
      have hleaves : ∀ crossing ∈ Machine.crossings history, crossing.1.Leaves crossing.2 :=
        fun _ => Machine.leaves_of_mem_crossings
      have hpair := hleaves pair (by rw [hcrossings]; simp)
      have hother := hleaves other (by rw [hcrossings]; simp)
      exact ⟨start, pair.2, between, other.1, other.2, after, hhistory, rfl, hpair.2, hother.1,
        rfl, hother.2⟩

/-- Out on the left and further, back and out on the right; then a new script, which puts the
pointer back, leads out on the left again. -/
theorem one_warning_per_excursion_after_reload :
    ∃ s : Session, Reachable Request.KeepsPointers s ∧
      ((s.handleAll [.step 7, .loadScript "<<", .walk 5]).flatMap (·.log)).filter
          Notice.isExcursion =
        [.leftMemory (-1) 2, .leftMemory 2 2, .leftMemory (-1) 2] := by
  have hfresh := @Reachable.fresh Request.KeepsPointers none (some (.int 2)) (.separate {} {}) _ rfl
  have hloaded := hfresh.request (.loadScript "<<>>>>>") trivial
  have hkeeps : ∀ r ∈ [Request.step 7, .loadScript "<<", .walk 5], r.KeepsPointers := by
    simp [Request.KeepsPointers]
  obtain ⟨hwarnings, -⟩ := (one_warning_per_excursion hloaded).2.2 _ hkeeps
  exact ⟨_, hloaded, hwarnings.trans (by decide)⟩

end Session

end Brainfuck
