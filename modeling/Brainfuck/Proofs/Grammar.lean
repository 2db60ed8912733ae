import Brainfuck.Proofs.Brackets

/-!
The grammar of scripts. A script is derived from nothing by putting a character that is no
bracket in front of it, or a pair of brackets around another script. The count that goes up
and down with the brackets accepts exactly these scripts, and so does the list of the
positions at which brackets are open: each script that is not derived has a bracket to blame.
-/
namespace Brainfuck.Script

/-- The scripts of the grammar. -/
inductive Derived : Script → Prop
  | empty : Derived []
  | other {c : Letter} {rest : Script} (ho : c ≠ '[') (hc : c ≠ ']') (h : Derived rest) :
      Derived (c :: rest)
  | loop {body rest : Script} (hbody : Derived body) (hrest : Derived rest) :
      Derived (.char '[' :: (body ++ .char ']' :: rest))

theorem Derived.balanced {script : Script} (h : Derived script) : script.balanced = true := by
  unfold Script.balanced
  induction h with
  | empty => rfl
  | other ho hc _ ih =>
    rw [closes_other ho hc]
    exact ih
  | loop _ _ ihbody ihrest =>
    rw [closes_opening, closes_balanced_append ihbody, closes_closing_succ]
    exact ihrest

/-- A balanced script is derived: its first bracket opens a shorter balanced script, and
another one follows the bracket that closes it. -/
theorem Derived.of_balanced {script : Script} (h : script.balanced = true) : Derived script := by
  induction hn : script.length using Nat.strongRecOn generalizing script with
  | ind n ih =>
    cases script with
    | nil => exact .empty
    | cons c rest =>
      rw [List.length_cons] at hn
      rcases bracket_cases c with rfl | rfl | ⟨ho, hc⟩
      · rw [Script.balanced, closes_opening] at h
        obtain ⟨body, post, rfl, hbody, hpost⟩ := exists_balanced_split h
        rw [List.length_append, List.length_cons] at hn
        have hinner : Derived body := ih body.length (by omega) hbody rfl
        have houter : Derived post := ih post.length (by omega) hpost rfl
        exact .loop hinner houter
      · rw [Script.balanced, closes_closing_zero] at h
        cases h
      · rw [Script.balanced, closes_other ho hc] at h
        exact .other ho hc (ih rest.length (by omega) h rfl)

/-- The count of open brackets and the list of their positions accept exactly the scripts of
the grammar. -/
theorem validators_accept_grammar (script : Script) :
    (script.balanced = true ↔ Derived script) ∧
      (script.balanced = true ↔ script.unbalanced? = none) := by
  constructor
  · exact ⟨Derived.of_balanced, Derived.balanced⟩
  · exact (unbalancedFrom_eq_none_iff 0 [] script).symm

end Brainfuck.Script
