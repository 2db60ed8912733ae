import Brainfuck.Text.Letter

/-!
Scripts, their commands and their brackets. A script is any text: eight characters
are commands, all other letters are comments. A script is balanced when its
brackets pair up, and then every opening bracket has one closing bracket.
-/
namespace Brainfuck

inductive Command where
  | right
  | left
  | increment
  | decrement
  | output
  | input
  | opening
  | closing
deriving DecidableEq

def Command.ofLetter? : Letter → Option Command
  | .char '>' => some .right
  | .char '<' => some .left
  | .char '+' => some .increment
  | .char '-' => some .decrement
  | .char '.' => some .output
  | .char ',' => some .input
  | .char '[' => some .opening
  | .char ']' => some .closing
  | _ => none

def isCommand (c : Letter) : Bool := (Command.ofLetter? c).isSome

abbrev Script := Text

namespace Script

/-- Whether a script closes all brackets that it opens and `depth` more. -/
def closes : Nat → Script → Bool
  | depth, [] => depth == 0
  | depth, c :: rest =>
      if c = '[' then closes (depth + 1) rest
      else if c = ']' then
        match depth with
        | 0 => false
        | outer + 1 => closes outer rest
      else closes depth rest

/-- Every opening bracket has a closing one. -/
def balanced (script : Script) : Bool := closes 0 script

/-- The offending bracket of the part of a script that begins at `position`, the
brackets at `opened` being open, innermost first. -/
def unbalancedFrom : Nat → List Nat → Script → Option Nat
  | _, opened, [] => opened.head?
  | position, opened, c :: rest =>
      if c = '[' then unbalancedFrom (position + 1) (position :: opened) rest
      else if c = ']' then
        match opened with
        | [] => some position
        | _ :: outer => unbalancedFrom (position + 1) outer rest
      else unbalancedFrom (position + 1) opened rest

/-- The position of the first closing bracket without partner, or else of the
innermost opening bracket that is never closed. -/
def unbalanced? (script : Script) : Option Nat := unbalancedFrom 0 [] script

@[simp]
theorem closes_nil (depth : Nat) : closes depth [] = (depth == 0) := rfl

@[simp]
theorem closes_opening (depth : Nat) (rest : Script) :
    closes depth (.char '[' :: rest) = closes (depth + 1) rest := by
  simp [closes]

@[simp]
theorem closes_closing_zero (rest : Script) : closes 0 (.char ']' :: rest) = false := by
  simp [closes]

@[simp]
theorem closes_closing_succ (depth : Nat) (rest : Script) :
    closes (depth + 1) (.char ']' :: rest) = closes depth rest := by
  simp [closes]

theorem closes_other {c : Letter} (ho : c ≠ '[') (hc : c ≠ ']') (depth : Nat) (rest : Script) :
    closes depth (c :: rest) = closes depth rest := by
  simp [closes, ho, hc]

theorem bracket_cases (c : Letter) : c = '[' ∨ c = ']' ∨ c ≠ '[' ∧ c ≠ ']' := by
  by_cases ho : c = '['
  · exact Or.inl ho
  · by_cases hc : c = ']'
    · exact Or.inr (Or.inl hc)
    · exact Or.inr (Or.inr ⟨ho, hc⟩)

theorem unbalancedFrom_eq_none_iff (position : Nat) (opened : List Nat) (script : Script) :
    unbalancedFrom position opened script = none ↔ closes opened.length script = true := by
  induction script generalizing position opened with
  | nil => simp [unbalancedFrom]
  | cons c script ih =>
    rcases bracket_cases c with rfl | rfl | ⟨ho, hc⟩
    · simpa [unbalancedFrom] using ih (position + 1) (position :: opened)
    · cases opened with
      | nil => simp [unbalancedFrom]
      | cons inner outer => simpa [unbalancedFrom] using ih (position + 1) outer
    · rw [closes_other ho hc]
      simpa [unbalancedFrom, ho, hc] using ih (position + 1) opened

theorem unbalancedFrom_bracket {pre rest : Script} {opened : List Nat} {position : Nat}
    (hopened : ∀ i ∈ opened, (pre ++ rest)[i]? = some (.char '['))
    (h : unbalancedFrom pre.length opened rest = some position) :
    (pre ++ rest)[position]? = some (.char '[') ∨ (pre ++ rest)[position]? = some (.char ']') := by
  induction rest generalizing pre opened with
  | nil => exact Or.inl (hopened position (List.mem_of_head? h))
  | cons c rest ih =>
    have hnext : pre ++ c :: rest = (pre ++ [c]) ++ rest := by simp
    have hlength : pre.length + 1 = (pre ++ [c]).length := by simp
    rcases bracket_cases c with rfl | rfl | ⟨ho, hc⟩
    · simp only [unbalancedFrom, if_true, hlength] at h
      rw [hnext] at hopened ⊢
      refine ih ?_ h
      intro i hi
      rcases List.mem_cons.mp hi with rfl | hi
      · simp
      · exact hopened i hi
    · cases opened with
      | nil =>
        simp only [unbalancedFrom] at h
        obtain rfl := Option.some.inj h
        simp
      | cons inner outer =>
        simp only [unbalancedFrom, hlength] at h
        rw [hnext] at hopened ⊢
        exact ih (fun i hi => hopened i (List.mem_cons_of_mem _ hi)) h
    · simp only [unbalancedFrom, ho, hc, if_false, hlength] at h
      rw [hnext] at hopened ⊢
      exact ih hopened h

theorem bracket_of_unbalanced? {script : Script} {position : Nat}
    (h : script.unbalanced? = some position) :
    ∃ bracket, script[position]? = some bracket ∧ (bracket = '[' ∨ bracket = ']') := by
  have hbracket : ([] ++ script)[position]? = some (.char '[') ∨
      ([] ++ script)[position]? = some (.char ']') :=
    unbalancedFrom_bracket (by simp) h
  rcases hbracket with ho | hc
  · exact ⟨'[', ho, Or.inl rfl⟩
  · exact ⟨']', hc, Or.inr rfl⟩

theorem lt_of_unbalanced? {script : Script} {position : Nat}
    (h : script.unbalanced? = some position) : position < script.length := by
  obtain ⟨bracket, hget, -⟩ := bracket_of_unbalanced? h
  exact (List.getElem?_eq_some_iff.mp hget).1

theorem isSome_unbalanced? {script : Script} (h : ¬ script.balanced) :
    script.unbalanced?.isSome = true := by
  rw [Option.isSome_iff_ne_none]
  intro hnone
  exact h ((unbalancedFrom_eq_none_iff 0 [] script).mp hnone)

theorem exists_unbalanced {script : Script} (h : script.balanced = false) :
    ∃ position bracket, script.unbalanced? = some position ∧
      script[position]? = some bracket ∧ (bracket = '[' ∨ bracket = ']') := by
  obtain ⟨position, hposition⟩ :=
    Option.isSome_iff_exists.mp (isSome_unbalanced? (Bool.eq_false_iff.mp h))
  obtain ⟨bracket, hbracket⟩ := bracket_of_unbalanced? hposition
  exact ⟨position, bracket, hposition, hbracket⟩

/-- The place of the bracket that makes a script unbalanced. -/
def offender (script : Script) (h : ¬ script.balanced) : Fin script.length :=
  ⟨script.unbalanced?.get (isSome_unbalanced? h), lt_of_unbalanced? (Option.some_get _).symm⟩

/-- The closing bracket that ends `depth` inner loops and the one around them, in
the part of a script that begins at `position`. -/
def closingFrom : Nat → Nat → Script → Option Nat
  | _, _, [] => none
  | depth, position, c :: rest =>
      if c = '[' then closingFrom (depth + 1) (position + 1) rest
      else if c = ']' then
        match depth with
        | 0 => some position
        | inner + 1 => closingFrom inner (position + 1) rest
      else closingFrom depth (position + 1) rest

/-- The closing bracket that belongs to an opening one at `position`. -/
def closing? (script : Script) (position : Nat) : Option Nat :=
  closingFrom 0 (position + 1) (script.drop (position + 1))

end Script

end Brainfuck
