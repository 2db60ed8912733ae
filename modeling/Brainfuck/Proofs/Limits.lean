import Brainfuck.Proofs.Streams
import Brainfuck.Proofs.Traces

/-!
Where a run stops. Under a limit a machine goes on until it halts or stands in front of a
command with no cycle left, and a drive ends at the first such moment. These moments are
ordered as the limits are, so a run that is interrupted and resumed ends where a run under
the greater limit ends, and a single run uses up exactly the cycles that it is given or
that it needs.
-/
namespace Brainfuck

namespace Machine

/-- Whether a run under the limit goes no further. -/
def rests (m : Machine) (limit : Int) : Bool := m.current?.all (m.stopsAt limit)

theorem rests_of_halted {m : Machine} (h : m.current? = none) (limit : Int) :
    m.rests limit = true := by
  rw [rests, h]
  rfl

theorem rests_eq_stopsAt {m : Machine} {c : Letter} (h : m.current? = some c) (limit : Int) :
    m.rests limit = m.stopsAt limit c := by
  rw [rests, h]
  rfl

/-- Less is left under a smaller limit. -/
theorem rests_of_le {m : Machine} {a b : Int} (hab : a ≤ b) (h : m.rests b = true) :
    m.rests a = true := by
  cases hc : m.current? with
  | none => exact rests_of_halted hc a
  | some c =>
    rw [rests_eq_stopsAt hc, stopsAt, Bool.and_eq_true, decide_eq_true_eq] at h ⊢
    exact ⟨Int.le_trans hab h.1, h.2⟩

theorem not_rests_of_le {m : Machine} {a b : Int} (hab : a ≤ b) (h : m.rests a = false) :
    m.rests b = false := by
  rw [← Bool.not_eq_true] at h ⊢
  exact fun hb => h (rests_of_le hab hb)

/-- The machine first rests under the limit after `n` steps. -/
structure RestsAfter (m : Machine) (limit : Int) (n : Nat) : Prop where
  rests : (m.after n).rests limit = true
  before : ∀ k < n, (m.after k).rests limit = false

namespace RestsAfter

theorem le_of_rests {m : Machine} {limit : Int} {n k : Nat} (h : m.RestsAfter limit n)
    (hk : (m.after k).rests limit = true) : n ≤ k := by
  by_contra hlt
  rw [h.before k (by omega)] at hk
  cases hk

theorem unique {m : Machine} {limit : Int} {n k : Nat} (hn : m.RestsAfter limit n)
    (hk : m.RestsAfter limit k) : n = k :=
  Nat.le_antisymm (hn.le_of_rests hk.rests) (hk.le_of_rests hn.rests)

theorem mono {m : Machine} {a b : Int} {n k : Nat} (hab : a ≤ b) (ha : m.RestsAfter a n)
    (hb : m.RestsAfter b k) : n ≤ k :=
  ha.le_of_rests (rests_of_le hab hb.rests)

/-- Resting under one limit and then under another is resting under the greater one. -/
theorem resume {m : Machine} {a b : Int} {n k : Nat} (ha : m.RestsAfter a n)
    (hb : (m.after n).RestsAfter b k) : m.RestsAfter (max a b) (n + k) where
  rests := by
    rw [after_add]
    rcases Int.le_total a b with hab | hba
    · rw [Int.max_eq_right hab]
      exact hb.rests
    · have hk : k = 0 := Nat.le_zero.mp (hb.le_of_rests (rests_of_le hba ha.rests))
      rw [Int.max_eq_left hba, hk]
      exact ha.rests
  before j hj := by
    by_cases hjn : j < n
    · exact not_rests_of_le (Int.le_max_left a b) (ha.before j hjn)
    · obtain ⟨i, rfl⟩ := Nat.exists_eq_add_of_le (Nat.not_lt.mp hjn)
      rw [after_add]
      exact not_rests_of_le (Int.le_max_right a b) (hb.before i (by omega))

end RestsAfter

/-- A drive under the limit makes a step here and goes on behind it. -/
def GoesOn (m : Machine) (limit : Int) : Prop :=
  m.rests limit = false ∧ m.step.result = .ok true

/-- Every drive goes on for some number of steps, and then it rests or the next step fails. -/
theorem driveFrom_ends (limit : Int) (log : List Notice) (m : Machine) :
    ∃ n, (∀ k < n, (m.after k).GoesOn limit) ∧
      ((m.after n).rests limit = true ∧
          driveFrom limit log m = ⟨m.after n, log ++ m.reports n, .ok ()⟩ ∨
        (m.after n).rests limit = false ∧ ∃ fault, (m.after n).step.result = .error fault ∧
          driveFrom limit log m =
            ⟨(m.after n).step.state, log ++ m.reports (n + 1), .error fault⟩) := by
  have hstart : ∀ k : Machine, ∀ i < 0, (k.after i).GoesOn limit :=
    fun k i hi => absurd hi (Nat.not_lt_zero i)
  -- Along the recursion of the drive, which ends by the measure of its definition.
  fun_induction driveFrom limit log m with
  | case1 log m hc =>
    refine ⟨0, hstart m, Or.inl ⟨rests_of_halted hc limit, ?_⟩⟩
    simp
  | case2 log m c hc hs =>
    refine ⟨0, hstart m, Or.inl ⟨(rests_eq_stopsAt hc limit).trans hs, ?_⟩⟩
    simp
  | case3 log m c hc hs next more hn ih =>
    obtain ⟨n, hbefore, hend⟩ := ih
    have hgo : m.rests limit = false := (rests_eq_stopsAt hc limit).trans (by simpa using hs)
    have hafter : ∀ k, m.after (k + 1) = next.after k := by
      intro k
      rw [after_succ, hn]
    have hreports : ∀ k, log ++ m.reports (k + 1) = log ++ more ++ next.reports k := by
      intro k
      rw [reports_succ, hn, List.append_assoc]
    refine ⟨n + 1, ?_, ?_⟩
    · intro k hk
      cases k with
      | zero => exact ⟨hgo, by rw [after_zero, hn]⟩
      | succ k =>
        rw [hafter]
        exact hbefore k (by omega)
    · rw [hafter, hreports, hreports]
      exact hend
  | case4 log m c hc hs next more hn =>
    have hnone := current?_of_step_false (show m.step.result = .ok false by rw [hn])
    rw [hc] at hnone
    cases hnone
  | case5 log m c hc hs next more fault hn =>
    have hgo : m.rests limit = false := (rests_eq_stopsAt hc limit).trans (by simpa using hs)
    refine ⟨0, hstart m, Or.inr ⟨hgo, fault, by rw [after_zero, hn], ?_⟩⟩
    simp [reports_succ, hn]

/-- A step uses no cycle, or it stands at a command and uses one. -/
theorem cycles_step (m : Machine) :
    m.step.state.cycles = m.cycles ∨
      ∃ c, m.current? = some c ∧ isCommand c = true ∧ m.step.state.cycles = m.cycles + 1 := by
  cases hc : m.current? with
  | none => exact Or.inl (by rw [step_halted hc])
  | some c =>
    cases hcommand : Command.ofLetter? c with
    | none => exact Or.inl (by rw [step_comment hc hcommand]; rfl)
    | some command =>
      have hcycles := m.execute_cycles command
      simp only [step, hc, hcommand]
      split
      · exact Or.inr ⟨c, rfl, by simp [isCommand, hcommand], by rw [tick, hcycles]⟩
      · exact Or.inl hcycles

theorem cycles_le_after (m : Machine) (n : Nat) : m.cycles ≤ (m.after n).cycles := by
  refine after_induction (P := fun k => m.cycles ≤ k.cycles) ?_ (Nat.le_refl _) n
  intro k hk
  rcases k.cycles_step with hsame | ⟨-, -, -, hnext⟩ <;> omega

/-- A command that does not fail uses a cycle. -/
theorem WellNested.cycles_command {m : Machine} (h : m.WellNested) {c : Letter}
    (hc : m.current? = some c) (hcommand : isCommand c = true) :
    m.step.state.cycles = m.cycles + 1 := by
  have hok := h.step_result
  rw [halted_of_current? hc] at hok
  obtain ⟨command, hofChar⟩ := Option.isSome_iff_exists.mp hcommand
  have hcycles := m.execute_cycles command
  simp only [Machine.step, hc, hofChar] at hok ⊢
  split at hok
  · exact congrArg (· + 1) hcycles
  · cases hok

/-- As long as a drive goes on, the limit holds for what it uses. -/
theorem cycles_le_of_before {m : Machine} {limit : Int} {n : Nat}
    (h : ∀ k < n, (m.after k).rests limit = false) :
    ((m.after n).cycles : Int) ≤ max limit m.cycles := by
  induction n with
  | zero => exact Int.le_max_right _ _
  | succ n ih =>
    have hle := ih fun k hk => h k (by omega)
    rw [after_succ_last]
    rcases (m.after n).cycles_step with hsame | ⟨c, hc, hcommand, hnext⟩
    · rwa [hsame]
    · have hgo := h n (by omega)
      rw [rests_eq_stopsAt hc, stopsAt, hcommand, Bool.and_true, decide_eq_false_iff_not] at hgo
      rw [hnext]
      omega

namespace RestsAfter

theorem cycles_le {m : Machine} {limit : Int} {n : Nat} (h : m.RestsAfter limit n) :
    ((m.after n).cycles : Int) ≤ max limit m.cycles :=
  cycles_le_of_before h.before

/-- A machine that rests without having halted stands at a command beyond the limit. -/
theorem exists_command {m : Machine} {limit : Int} {n : Nat} (h : m.RestsAfter limit n)
    (hn : (m.after n).halted = false) :
    ∃ c, (m.after n).current? = some c ∧ isCommand c = true ∧ limit ≤ (m.after n).cycles := by
  obtain ⟨c, hc⟩ := exists_current? hn
  have hrests := h.rests
  rw [rests_eq_stopsAt hc, stopsAt, Bool.and_eq_true, decide_eq_true_eq] at hrests
  exact ⟨c, hc, hrests.2, hrests.1⟩

/-- A machine that rests without having halted has used up the limit. -/
theorem cycles_eq {m : Machine} {limit : Int} {n : Nat} (h : m.RestsAfter limit n)
    (hn : (m.after n).halted = false) : ((m.after n).cycles : Int) = max limit m.cycles := by
  have hle := h.cycles_le
  have hstart := m.cycles_le_after n
  obtain ⟨-, -, -, hlimit⟩ := h.exists_command hn
  omega

end RestsAfter

/-- A machine that rests without having halted needs a cycle more before it halts. -/
theorem WellNested.cycles_lt {m : Machine} (hm : m.WellNested) {limit : Int} {n k : Nat}
    (h : m.RestsAfter limit n) (hn : (m.after n).halted = false)
    (hk : (m.after k).halted = true) : (m.after n).cycles < (m.after k).cycles := by
  obtain ⟨c, hc, hcommand, -⟩ := h.exists_command hn
  have hnk : n < k := by
    by_contra hle
    rw [after_eq_of_halted hk (by omega), hk] at hn
    cases hn
  obtain ⟨more, rfl⟩ : ∃ more, k = n + 1 + more := Nat.exists_eq_add_of_le hnk
  have hnext := (hm.after n).cycles_command hc hcommand
  have hlater := (m.after (n + 1)).cycles_le_after more
  rw [← after_add, after_succ_last m n] at hlater
  omega

/-- Whether a machine that rests has halted, and the cycles that it has used, are told by
the limit and the cycles that it needs in all. -/
theorem WellNested.rests_sharp {m : Machine} (hm : m.WellNested) {limit : Int} {n k : Nat}
    (h : m.RestsAfter limit n) (hk : (m.after k).halted = true) :
    ((m.after n).cycles : Int) = min ((m.after k).cycles : Int) (max limit m.cycles) ∧
      (m.after n).halted = decide (((m.after k).cycles : Int) ≤ max limit m.cycles) := by
  cases hn : (m.after n).halted with
  | true =>
    have hle := h.cycles_le
    rw [after_halted_unique hn hk] at hle ⊢
    exact ⟨(Int.min_eq_left hle).symm, (decide_eq_true hle).symm⟩
  | false =>
    have hcycles := h.cycles_eq hn
    have hlt := hm.cycles_lt h hn hk
    have hgt : ¬ ((m.after k).cycles : Int) ≤ max limit m.cycles := by omega
    exact ⟨by omega, (decide_eq_false hgt).symm⟩

/-- The drive of a well nested machine does not fail, so it goes on until it rests. -/
theorem WellNested.exists_drive {m : Machine} (hm : m.WellNested) (limit : Int) :
    ∃ n, m.RestsAfter limit n ∧ m.drive limit = ⟨m.after n, m.reports n, .ok ()⟩ := by
  obtain ⟨n, hbefore, ⟨hrests, hdrive⟩ | ⟨-, fault, -, hdrive⟩⟩ := driveFrom_ends limit [] m
  · exact ⟨n, ⟨hrests, fun k hk => (hbefore k hk).1⟩, hdrive⟩
  · have hok := hm.drive_ok limit
    rw [drive, hdrive] at hok
    cases hok

theorem WellNested.drive_eq {m : Machine} (hm : m.WellNested) {limit : Int} {n : Nat}
    (h : m.RestsAfter limit n) : m.drive limit = ⟨m.after n, m.reports n, .ok ()⟩ := by
  obtain ⟨k, hk, hdrive⟩ := hm.exists_drive limit
  rw [h.unique hk]
  exact hdrive

theorem WellNested.exists_rest {m : Machine} (hm : m.WellNested) (limit : Int) :
    ∃ n, m.RestsAfter limit n := by
  obtain ⟨n, hn, -⟩ := hm.exists_drive limit
  exact ⟨n, hn⟩

/-- What a run returns if it stops here. -/
def report (m : Machine) : RunResult := ⟨m.drain.1, m.cycles, m.halted, !m.halted⟩

/-- A run drains the machine when it first rests. -/
theorem WellNested.run_eq {m : Machine} (hm : m.WellNested) (limit : Option Int) {n : Nat}
    (h : m.RestsAfter (limit.getD m.settings.stepLimit.val) n) :
    (m.run limit).state = (m.after n).drain.2 ∧ (m.run limit).result = .ok (m.after n).report := by
  rw [run_of_drive_ok (hm.drive_eq h) rfl]
  exact ⟨rfl, rfl⟩

theorem WellNested.drain {m : Machine} (hm : m.WellNested) : m.drain.2.WellNested :=
  ⟨hm.balanced, hm.iptr_le, hm.opened⟩

theorem RestsAfter.of_drain {m : Machine} (h : m.channels.isSeparate = true) {limit : Int}
    {n : Nat} (hn : m.drain.2.RestsAfter limit n) : m.RestsAfter limit n where
  rests := by
    rw [← after_drain h]
    exact hn.rests
  before k hk := by
    rw [← after_drain h]
    exact hn.before k hk

end Machine

namespace Session

/-- Interrupted runs resume without loss. A run under one limit and then one under another
leave the machine as a single run under the greater limit does, their outputs make up the
output of that run, and the second returns the rest of its result. -/
theorem interrupted_runs_resume {s : Session} (hs : Reachable Request.KeepsControl s)
    {input output : Channel} (hchannels : s.machine.channels = .separate input output)
    (a b : Int) :
    let first := s.machine.run (some a)
    let second := first.state.run (some b)
    let single := s.machine.run (some (max a b))
    second.state = single.state ∧
      ∃ begun resumed whole, first.result = .ok begun ∧ second.result = .ok resumed ∧
        single.result = .ok whole ∧ begun.output ++ resumed.output = whole.output ∧
        resumed.cycles = whole.cycles ∧ resumed.halted = whole.halted ∧
        resumed.hitLimit = whole.hitLimit := by
  intro first second single
  have hm := wellNested_kept.reachable hs
  have hseparate : s.machine.channels.isSeparate = true := by rw [hchannels]; rfl
  obtain ⟨n, hn⟩ := hm.exists_rest a
  have hmid : (s.machine.after n).channels.isSeparate = true :=
    (s.machine.isSeparate_after n).trans hseparate
  obtain ⟨k, hk⟩ := (hm.after n).drain.exists_rest b
  obtain ⟨hfirst, hbegun⟩ := hm.run_eq (some a) hn
  obtain ⟨hsecond, hresumed⟩ := (hm.after n).drain.run_eq (some b) hk
  obtain ⟨hsingle, hwhole⟩ := hm.run_eq (some (max a b)) (hn.resume (.of_drain hmid hk))
  have hresume : second = (s.machine.after n).drain.2.run (some b) :=
    congrArg (Machine.run · (some b)) hfirst
  have hdrain := Machine.drain_after hmid k
  have hsame := Machine.after_drain hmid k
  rw [← Machine.after_add] at hdrain hsame
  have hcycles := congrArg Machine.cycles hsame
  have hhalted := congrArg Machine.halted hsame
  rw [hresume]
  refine ⟨?_, _, _, _, hbegun, hresumed, hwhole, ?_, ?_, ?_, ?_⟩
  · exact hsecond.trans ((congrArg Prod.snd hdrain).symm.trans hsingle.symm)
  · exact (congrArg Prod.fst hdrain).symm
  · exact hcycles
  · exact hhalted
  · exact congrArg not hhalted

/-- A loop among comments, entered before the first run, interrupted inside and resumed with
a limit that is first smaller and then greater. -/
theorem interrupted_loop_resumes : ∃ s : Session, Reachable Request.KeepsControl s ∧
    s.machine.blocks = [3] ∧ ∀ b ∈ [(-1 : Int), 9],
      ((s.machine.run (some 4)).state.run (some b)).state =
        (s.machine.run (some (max 4 b))).state := by
  have hfresh := @Reachable.fresh Request.KeepsControl none none (.separate ⟨['a']⟩ {}) _ rfl
  have hloaded := hfresh.request (.loadScript "a+b[c.d+e]") trivial
  have hentered := hloaded.request (.step 5) trivial
  exact ⟨_, hentered, by decide, fun b _ => (interrupted_runs_resume hentered rfl 4 b).1⟩

end Session

section RunOnce

variable {code : Script} {input : Text} {given : Option Settings}
  {environment : Environment} {settings : Settings}

theorem runOnce_of_restsAfter
    (hsettings : given.elim (Settings.ofEnvironment environment) .ok = .ok settings)
    (h : code.balanced = true) (limit : Option Int) {n : Nat}
    (hn : ((Machine.start settings input).install code).RestsAfter
      (limit.getD settings.stepLimit.val) n) :
    (runOnce code input limit given environment).2 =
      .ok (((Machine.start settings input).install code).after n).report :=
  runOnce_balanced hsettings h ((Machine.WellNested.install _ h).run_eq limit hn).2

/-- The cycle limit is sharp and monotone. If a loaded machine halts after some steps, a
run uses the cycles that these take or else all that it is given, and it halts exactly if
the limit allows for them; if it never halts, a run uses all that it is given. The output
under a limit begins with the output under any smaller one. -/
theorem cycle_limit_is_sharp
    (hsettings : given.elim (Settings.ofEnvironment environment) .ok = .ok settings)
    (hcode : code.balanced = true) :
    let loaded := ((Machine.start settings input).loadScript code).state
    (∀ n, (loaded.after n).halted = true → ∀ limit : Option Int,
      ∃ result, (runOnce code input limit given environment).2 = .ok result ∧
        (result.cycles : Int) =
          min ((loaded.after n).cycles : Int) (max (limit.getD settings.stepLimit.val) 0) ∧
        result.halted =
          decide (((loaded.after n).cycles : Int) ≤ max (limit.getD settings.stepLimit.val) 0) ∧
        result.hitLimit = !result.halted) ∧
    ((∀ n, (loaded.after n).halted = false) → ∀ limit : Option Int,
      ∃ result, (runOnce code input limit given environment).2 = .ok result ∧
        (result.cycles : Int) = max (limit.getD settings.stepLimit.val) 0 ∧
        result.halted = false ∧ result.hitLimit = true) ∧
    ∀ low high : Option Int,
      low.getD settings.stepLimit.val ≤ high.getD settings.stepLimit.val →
        ∃ less more, (runOnce code input low given environment).2 = .ok less ∧
          (runOnce code input high given environment).2 = .ok more ∧
          less.output <+: more.output := by
  intro loaded
  have hloaded : loaded = (Machine.start settings input).install code := by
    rw [show loaded = ((Machine.start settings input).loadScript code).state from rfl,
      Machine.loadScript_balanced _ hcode]
  have hm : loaded.WellNested := hloaded ▸ Machine.WellNested.install _ hcode
  have hrun : ∀ limit : Option Int, ∃ n, loaded.RestsAfter (limit.getD settings.stepLimit.val) n ∧
      (runOnce code input limit given environment).2 = .ok (loaded.after n).report := by
    intro limit
    obtain ⟨n, hn⟩ := hm.exists_rest (limit.getD settings.stepLimit.val)
    rw [hloaded] at hn ⊢
    exact ⟨n, hn, runOnce_of_restsAfter hsettings hcode limit hn⟩
  have hstart : loaded.cycles = 0 := by rw [hloaded]; rfl
  have hseparate : ∀ n, (loaded.after n).channels.isSeparate = true := by
    intro n
    rw [Machine.isSeparate_after, hloaded]
    rfl
  refine ⟨?_, ?_, ?_⟩
  · intro n hn limit
    obtain ⟨k, hk, hresult⟩ := hrun limit
    have hsharp := hm.rests_sharp hk hn
    rw [hstart] at hsharp
    exact ⟨_, hresult, hsharp.1, hsharp.2, rfl⟩
  · intro hnever limit
    obtain ⟨k, hk, hresult⟩ := hrun limit
    have hcycles := hk.cycles_eq (hnever k)
    rw [hstart] at hcycles
    exact ⟨_, hresult, hcycles, hnever k, congrArg not (hnever k)⟩
  · intro low high hle
    obtain ⟨n, hn, hless⟩ := hrun low
    obtain ⟨k, hk, hmore⟩ := hrun high
    obtain ⟨more, rfl⟩ := Nat.exists_eq_add_of_le (hn.mono hle hk)
    have hdrain := Machine.drain_after (hseparate n) more
    rw [← Machine.after_add] at hdrain
    exact ⟨_, _, hless, hmore, _, (congrArg Prod.fst hdrain).symm⟩

end RunOnce

/-- An empty loop on a cell that is not zero never ends. -/
theorem Machine.never_halts_of_empty_loop {m : Machine} {position : Nat} {outer : List Nat}
    (hc : m.current? = some (.char ']')) (hcell : m.cell ≠ 0) (hloops : m.loops = position :: outer)
    (hempty : m.iptr = position + 1) (n : Nat) : (m.after n).halted = false := by
  induction n generalizing m with
  | zero => exact halted_of_current? hc
  | succ n ih =>
    rw [after_succ, step_again hc hcell hloops]
    have hagain : { m with iptr := position }.tick.current? = some (.char ']') := by
      rw [← hc, current?, current?, hempty]
      rfl
    exact ih hagain hcell hloops rfl

/-- A loop that is stopped one cycle before its end, the same one with a limit that just
suffices, and an empty loop under the limit of the default settings. -/
theorem cycle_limit_at_boundary :
    (∃ result, (runOnce "a+b[.-]c" [] (some 4) none fun _ => none).2 = .ok result ∧
      result.cycles = 4 ∧ result.halted = false) ∧
    (∃ result, (runOnce "a+b[.-]c" [] (some 5) none fun _ => none).2 = .ok result ∧
      result.cycles = 5 ∧ result.halted = true) ∧
    ∃ result, (runOnce "+[]" [] none none fun _ => none).2 = .ok result ∧
      result.cycles = 5000 ∧ result.hitLimit = true := by
  have hends := (@cycle_limit_is_sharp "a+b[.-]c" [] none (fun _ => none)
    Settings.defaults rfl (by decide)).1 8 (by decide)
  have hstays := (@cycle_limit_is_sharp "+[]" [] none (fun _ => none)
    Settings.defaults rfl (by decide)).2.1
  refine ⟨?_, ?_, ?_⟩
  · obtain ⟨result, hrun, hcycles, hhalted, -⟩ := hends (some 4)
    exact ⟨result, hrun, Int.ofNat.inj (hcycles.trans (by decide)), hhalted.trans (by decide)⟩
  · obtain ⟨result, hrun, hcycles, hhalted, -⟩ := hends (some 5)
    exact ⟨result, hrun, Int.ofNat.inj (hcycles.trans (by decide)), hhalted.trans (by decide)⟩
  · have hnever : ∀ n, (((Machine.start Settings.defaults []).loadScript
        "+[]").state.after n).halted = false := by
      rintro (_ | _ | n)
      · decide
      · decide
      · rw [Nat.add_assoc, Nat.add_comm, Machine.after_add]
        exact Machine.never_halts_of_empty_loop (by decide) (by decide) rfl (by decide) n
    obtain ⟨result, hrun, hcycles, -, hhit⟩ := hstays hnever none
    exact ⟨result, hrun, Int.ofNat.inj (hcycles.trans (by decide)), hhit⟩

end Brainfuck
