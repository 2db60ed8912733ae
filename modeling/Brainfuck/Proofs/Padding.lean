import Brainfuck.Proofs.Limits

/-!
The end of the input as padding. Under a policy that stores something at the end of the
input, reading there is like reading one more character that stands for what is stored. A
run under a limit reads no more characters than it has cycles, so an input with that many
such characters behind it gives the same result, and under it no policy matters any more.
-/
namespace Brainfuck

/-- The character that reads as what the policy stores at the end of the input. -/
def EofPolicy.filler? : EofPolicy → Option Letter
  | .unchanged => none
  | .zero => some (.char (Char.ofNat 0))
  | .max => some (.char (Char.ofNat 255))

namespace Machine

theorem atEof_eq_store {m : Machine} {fill : Letter} (h : m.settings.eof.filler? = some fill) :
    m.atEof = m.tape.store m.dptr fill.code := by
  unfold atEof
  cases heof : m.settings.eof with
  | unchanged =>
    rw [heof] at h
    cases h
  | zero =>
    rw [heof] at h
    cases h
    rfl
  | max =>
    rw [heof] at h
    cases h
    rfl

/-- The machine under another policy, with padding behind its input. -/
def padded (m : Machine) (policy : EofPolicy) (padding : Text) : Machine :=
  { m.extended padding [] with settings := { m.settings with eof := policy } }

theorem padded_unseen (policy : EofPolicy) (padding : Text) :
    Unseen fun m => m.padded policy padding where
  data _ _ := rfl
  cell _ := rfl

/-- Reading before the end of the input. -/
theorem readCell_padded {m : Machine} {c : Letter} {rest : Text} {output : Channel}
    (h : m.channels = .separate ⟨c :: rest⟩ output) (policy : EofPolicy) (padding : Text) :
    (m.padded policy padding).readCell = m.readCell.padded policy padding := by
  have hpadded : (m.padded policy padding).channels =
      .separate ⟨c :: (rest ++ padding)⟩ ⟨[] ++ output.buffer⟩ := by
    rw [padded, extended, h]
    rfl
  rw [readCell_separate h, readCell_separate hpadded]
  rfl

/-- Reading at the end of the input takes one character of the padding. -/
theorem readCell_padded_end {m : Machine} {fill : Letter} {output : Channel}
    (h : m.channels = .separate {} output) (hfill : m.settings.eof.filler? = some fill)
    (policy : EofPolicy) (padding : Text) :
    (m.padded policy (fill :: padding)).readCell = m.readCell.padded policy padding := by
  have hpadded : (m.padded policy (fill :: padding)).channels =
      .separate ⟨fill :: padding⟩ ⟨[] ++ output.buffer⟩ := by
    rw [padded, extended, h]
    rfl
  have hempty : m.channels.input.buffer = [] := by rw [h]; rfl
  rw [readCell_separate hpadded, readCell_of_empty hempty, atEof_eq_store hfill]
  simp only [padded, extended, h]
  rfl

theorem execute_padded {m : Machine} (hm : m.channels.isSeparate = true) (policy : EofPolicy)
    (padding : Text) {command : Command} (hb : command.isBracket = false)
    (h : command = .input → m.channels.input.buffer ≠ []) :
    (m.padded policy padding).execute command =
      ⟨(m.execute command).state.padded policy padding, (m.execute command).log,
        (m.execute command).result⟩ := by
  cases command with
  | right => rfl
  | left => rfl
  | increment => rfl
  | decrement => rfl
  | output =>
    have hwrite := m.writeCell_extended padding []
    exact congrArg (fun k : Machine => Outcome.mk
      { k with settings := { m.settings with eof := policy } } [] (.ok ())) hwrite
  | input =>
    obtain ⟨⟨buffer⟩, output, hchannels⟩ := Channels.exists_separate hm
    cases buffer with
    | nil => exact absurd (by rw [hchannels]; rfl) (h rfl)
    | cons c rest => simp only [execute, readCell_padded hchannels]
  | opening => simp [Command.isBracket] at hb
  | closing => simp [Command.isBracket] at hb

/-- A step uses up one character of the padding at most, and only together with a cycle. -/
theorem step_padded {m : Machine} (hm : m.channels.isSeparate = true) {fill : Letter}
    (hfill : m.settings.eof.filler? = some fill) (policy : EofPolicy) {count : Nat}
    (hcount : m.starved = true → 0 < count) :
    ∃ left, (m.padded policy (List.replicate count fill)).step.state =
        m.step.state.padded policy (List.replicate left fill) ∧
      m.cycles + count ≤ m.step.state.cycles + left := by
  cases hstarved : m.starved with
  | true =>
    obtain ⟨left, rfl⟩ := Nat.exists_eq_succ_of_ne_zero (Nat.ne_of_gt (hcount hstarved))
    obtain ⟨hc, hempty⟩ := of_starved hstarved
    obtain ⟨⟨buffer⟩, output, hchannels⟩ := Channels.exists_separate hm
    obtain rfl : buffer = [] := by rwa [hchannels] at hempty
    have hpadded :
        (m.padded policy (List.replicate (left + 1) fill)).current? = some (.char ',') := hc
    have hcycles : m.readCell.cycles = m.cycles := m.execute_cycles .input
    rw [step_data hc rfl rfl, step_data hpadded rfl rfl]
    refine ⟨left, congrArg tick (readCell_padded_end hchannels hfill policy _), ?_⟩
    change m.cycles + (left + 1) ≤ m.readCell.cycles + 1 + left
    omega
  | false =>
    have hstep := (padded_unseen policy (List.replicate count fill)).step (m := m) ?_
    · refine ⟨count, congrArg Outcome.state hstep, ?_⟩
      have hcycles := m.cycles_le_after 1
      exact Nat.add_le_add_right hcycles count
    · intro c command hc hcommand hb
      apply execute_padded hm policy _ hb
      rintro rfl hempty
      rw [starved_of_input hc hcommand hempty] at hstarved
      cases hstarved

/-- A run reads no more padding than it has cycles, so the padded machine keeps pace until
both rest. -/
theorem RestsAfter.exists_padded {m : Machine} {limit : Int} {n : Nat}
    (h : m.RestsAfter limit n) (hm : m.channels.isSeparate = true) {fill : Letter}
    (hfill : m.settings.eof.filler? = some fill) (policy : EofPolicy) {count : Nat}
    (hcount : limit ≤ m.cycles + count) :
    ∀ k ≤ n, ∃ left : Nat, (m.padded policy (List.replicate count fill)).after k =
        (m.after k).padded policy (List.replicate left fill) ∧
      limit ≤ (m.after k).cycles + left := by
  intro k hk
  induction k with
  | zero => exact ⟨count, rfl, hcount⟩
  | succ k ih =>
    obtain ⟨left, hafter, hleft⟩ := ih (by omega)
    have hseparate := (m.isSeparate_after k).trans hm
    have heof : (m.after k).settings.eof.filler? = some fill := by rw [settings_after, hfill]
    -- In front of an input command the run still has a cycle, hence a character of padding.
    have hstarved : (m.after k).starved = true → 0 < left := by
      intro hstarved
      obtain ⟨hc, -⟩ := of_starved hstarved
      have hgo := h.before k (by omega)
      rw [rests_eq_stopsAt hc, stopsAt, show isCommand ',' = true from rfl, Bool.and_true,
        decide_eq_false_iff_not] at hgo
      omega
    obtain ⟨rest, hstep, hcycles⟩ := step_padded hseparate heof policy hstarved
    refine ⟨rest, ?_, ?_⟩
    · rw [after_succ_last, after_succ_last, hafter, hstep]
    · rw [after_succ_last]
      omega

theorem report_padded {m : Machine} (hm : m.channels.isSeparate = true) (policy : EofPolicy)
    (padding : Text) : (m.padded policy padding).report = m.report := by
  obtain ⟨input, output, hchannels⟩ := Channels.exists_separate hm
  have hdrain : (m.padded policy padding).drain.1 = m.drain.1 := by
    simp only [drain, Machine.padded, extended, hchannels, Channels.extended, Channels.output,
      Channel.read_size, List.nil_append]
  rw [report, hdrain]
  rfl

/-- The padded machine rests at the same moment with the same report. -/
theorem RestsAfter.padded {m : Machine} {limit : Int} {n : Nat} (h : m.RestsAfter limit n)
    (hm : m.channels.isSeparate = true) {fill : Letter}
    (hfill : m.settings.eof.filler? = some fill) (policy : EofPolicy) {count : Nat}
    (hcount : limit ≤ m.cycles + count) :
    (m.padded policy (List.replicate count fill)).RestsAfter limit n ∧
      ((m.padded policy (List.replicate count fill)).after n).report = (m.after n).report := by
  have hpace := h.exists_padded hm hfill policy hcount
  refine ⟨⟨?_, ?_⟩, ?_⟩
  · obtain ⟨left, hafter, -⟩ := hpace n (Nat.le_refl n)
    rw [hafter]
    exact h.rests
  · intro k hk
    obtain ⟨left, hafter, -⟩ := hpace k (Nat.le_of_lt hk)
    rw [hafter]
    exact h.before k hk
  · obtain ⟨left, hafter, -⟩ := hpace n (Nat.le_refl n)
    rw [hafter, report_padded ((m.isSeparate_after n).trans hm)]

end Machine

/-- A policy that stores something at the end of the input is padding. Under it a run
returns what it returns under any policy on the input with enough characters behind it
that read as what the policy stores. -/
theorem eof_policy_is_padding {code : Script} (hcode : code.balanced = true)
    (input : Text) (limit : Int) {given : Option Settings} {environment : Environment}
    {settings : Settings}
    (hsettings : given.elim (Settings.ofEnvironment environment) .ok = .ok settings)
    {fill : Letter} (hfill : settings.eof.filler? = some fill) {other : Option Settings}
    {surroundings : Environment} {policy : EofPolicy}
    (hother : other.elim (Settings.ofEnvironment surroundings) .ok =
      .ok { settings with eof := policy }) {count : Nat} (hcount : max limit 0 ≤ count) :
    ∃ result, (runOnce code input (some limit) given environment).2 = .ok result ∧
      (runOnce code (input ++ List.replicate count fill) (some limit) other surroundings).2 =
        .ok result := by
  have hm := Machine.WellNested.install (Machine.start settings input) hcode
  obtain ⟨n, hn⟩ := hm.exists_rest limit
  obtain ⟨hrests, hreport⟩ := hn.padded rfl hfill policy
    (show limit ≤ ((0 : Nat) : Int) + count by omega)
  refine ⟨_, runOnce_of_restsAfter hsettings hcode (some limit) hn, ?_⟩
  rw [← hreport]
  exact runOnce_of_restsAfter hother hcode (some limit) hrests

/-- Echoing an input under the two policies, against inputs that are long enough. -/
theorem eof_policy_is_padding_in_echo :
    (∃ result,
      (runOnce ",[.,]" ['a'] (some 6) (some { eof := .zero }) fun _ => none).2 =
        .ok result ∧
      (runOnce ",[.,]" ('a' :: List.replicate 6 (.char (Char.ofNat 0))) (some 6)
        (some { eof := .unchanged }) fun _ => none).2 = .ok result) ∧
    ∃ result,
      (runOnce ",[.,]" ['a'] (some (-6)) (some { eof := .max }) fun _ => none).2 =
        .ok result ∧
      (runOnce ",[.,]" ('a' :: List.replicate 1 (.char (Char.ofNat 255))) (some (-6))
        (some { eof := .zero }) fun _ => none).2 = .ok result := by
  constructor
  · exact eof_policy_is_padding (by decide) ['a'] 6 rfl rfl rfl (by decide)
  · exact eof_policy_is_padding (by decide) ['a'] (-6) rfl rfl rfl (by decide)

end Brainfuck
