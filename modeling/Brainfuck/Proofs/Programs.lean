import Brainfuck.Settings.Basic
import Brainfuck.Proofs.Grammar
import Mathlib.Logic.Function.Basic

/-!
Structured programs. A balanced script is the text of exactly one tree of actions,
comments and loops. Such a tree is evaluated like any program with while loops, on
bytes by address, a data pointer, an input and an output, and its cost is counted
along: nothing here knows about instruction pointers, jumps or a stack.
-/
namespace Brainfuck

/-- A command that is no bracket. -/
inductive Action where
  | right
  | left
  | increment
  | decrement
  | output
  | input
deriving DecidableEq

namespace Action

def letter : Action → Letter
  | .right => '>'
  | .left => '<'
  | .increment => '+'
  | .decrement => '-'
  | .output => '.'
  | .input => ','

def command : Action → Command
  | .right => .right
  | .left => .left
  | .increment => .increment
  | .decrement => .decrement
  | .output => .output
  | .input => .input

theorem ofLetter?_letter (a : Action) : Command.ofLetter? a.letter = some a.command := by
  cases a <;> rfl

theorem isCommand_letter (a : Action) : isCommand a.letter = true := by
  cases a <;> rfl

theorem letter_ne_bracket (a : Action) : a.letter ≠ '[' ∧ a.letter ≠ ']' := by
  cases a <;> decide

theorem letter_injective {a b : Action} (h : a.letter = b.letter) : a = b := by
  have hcommand := congrArg Command.ofLetter? h
  rw [ofLetter?_letter, ofLetter?_letter] at hcommand
  cases a <;> cases b <;> simp_all [command]

theorem exists_letter {c : Letter} (h : isCommand c = true) (ho : c ≠ '[') (hc : c ≠ ']') :
    ∃ a : Action, a.letter = c := by
  unfold isCommand Command.ofLetter? at h
  split at h
  · exact ⟨.right, rfl⟩
  · exact ⟨.left, rfl⟩
  · exact ⟨.increment, rfl⟩
  · exact ⟨.decrement, rfl⟩
  · exact ⟨.output, rfl⟩
  · exact ⟨.input, rfl⟩
  · exact False.elim (ho rfl)
  · exact False.elim (hc rfl)
  · simp at h

end Action

/-- A row of actions, comments and loops. -/
inductive Program where
  | done
  | action (a : Action) (rest : Program)
  | comment (c : Letter) (h : isCommand c = false) (rest : Program)
  | loop (body rest : Program)

namespace Program

def text : Program → Script
  | .done => []
  | .action a rest => a.letter :: rest.text
  | .comment c _ rest => c :: rest.text
  | .loop body rest => .char '[' :: (body.text ++ .char ']' :: rest.text)

theorem text_loop_append (body rest : Program) (post : Script) :
    (loop body rest).text ++ post =
      .char '[' :: (body.text ++ .char ']' :: (rest.text ++ post)) := by
  simp [text]

theorem comment_ne_bracket {c : Letter} (h : isCommand c = false) : c ≠ '[' ∧ c ≠ ']' :=
  Command.ofLetter?_none_ne_bracket (Command.ofLetter?_eq_none h)

theorem text_derived (program : Program) : Script.Derived program.text := by
  induction program with
  | done => exact .empty
  | action a rest ih => exact .other a.letter_ne_bracket.1 a.letter_ne_bracket.2 ih
  | comment c h rest ih =>
    obtain ⟨ho, hc⟩ := comment_ne_bracket h
    exact .other ho hc ih
  | loop body rest ihbody ihrest => exact .loop ihbody ihrest

theorem text_balanced (program : Program) : program.text.balanced = true :=
  program.text_derived.balanced

/-- Every balanced script is the text of a program: the grammar derives one as it goes. -/
theorem exists_text {script : Script} (h : script.balanced = true) :
    ∃ program : Program, program.text = script := by
  have hderived := Script.Derived.of_balanced h
  clear h
  induction hderived with
  | empty => exact ⟨.done, rfl⟩
  | @other c rest ho hc _ ih =>
    obtain ⟨tail, rfl⟩ := ih
    cases hcommand : isCommand c with
    | true =>
      obtain ⟨a, rfl⟩ := Action.exists_letter hcommand ho hc
      exact ⟨.action a tail, rfl⟩
    | false => exact ⟨.comment c hcommand tail, rfl⟩
  | loop _ _ ihbody ihrest =>
    obtain ⟨body, rfl⟩ := ihbody
    obtain ⟨tail, rfl⟩ := ihrest
    exact ⟨.loop body tail, rfl⟩

/-- No two programs have the same text. -/
theorem text_injective {p q : Program} (h : p.text = q.text) : p = q := by
  induction p generalizing q with
  | done => cases q <;> first | rfl | cases h
  | action a rest ih =>
    cases q with
    | done => cases h
    | action b other =>
      obtain ⟨hchar, hrest⟩ := List.cons.inj h
      rw [Action.letter_injective hchar, ih hrest]
    | comment c hc other =>
      obtain ⟨hchar, -⟩ := List.cons.inj h
      rw [← hchar, a.isCommand_letter] at hc
      cases hc
    | loop body other => exact False.elim (a.letter_ne_bracket.1 (List.cons.inj h).1)
  | comment c hc rest ih =>
    cases q with
    | done => cases h
    | action b other =>
      obtain ⟨hchar, -⟩ := List.cons.inj h
      rw [hchar, b.isCommand_letter] at hc
      cases hc
    | comment d hd other =>
      obtain ⟨hchar, hrest⟩ := List.cons.inj h
      subst hchar
      rw [ih hrest]
    | loop body other => exact False.elim ((comment_ne_bracket hc).1 (List.cons.inj h).1)
  | loop body rest ihbody ihrest =>
    cases q with
    | done => cases h
    | action b other => exact False.elim (b.letter_ne_bracket.1 (List.cons.inj h).1.symm)
    | comment d hd other =>
      exact False.elim ((comment_ne_bracket hd).1 (List.cons.inj h).1.symm)
    | loop other tail =>
      obtain ⟨-, hrest⟩ := List.cons.inj h
      obtain ⟨hbody, htail⟩ :=
        Script.closing_split_unique body.text_balanced other.text_balanced hrest
      rw [ihbody hbody, ihrest htail]

end Program

/-- What a program works on: the value of each cell and whether it was ever written,
the data pointer, and the letters still to be read and those written so far. -/
structure Store where
  cell : Int → Int
  written : Int → Bool
  dptr : Int
  input : Text
  output : Text

namespace Store

/-- Nothing written yet, the pointer at address zero. -/
def blank (input output : Text) : Store where
  cell _ := 0
  written _ := false
  dptr := 0
  input := input
  output := output

def current (s : Store) : Int := s.cell s.dptr

/-- Stores a value modulo 256 at the pointer. -/
def write (s : Store) (value : Int) : Store :=
  { s with
    cell := Function.update s.cell s.dptr (value % 256)
    written := Function.update s.written s.dptr true }

/-- Reads one letter; at the end of the input the policy decides. -/
def read (eof : EofPolicy) (s : Store) : Store :=
  match s.input, eof with
  | letter :: rest, _ => { s.write letter.code with input := rest }
  | [], .unchanged => s
  | [], .zero => s.write 0
  | [], .max => s.write 255

def act (eof : EofPolicy) (s : Store) : Action → Store
  | .right => { s with dptr := s.dptr + 1 }
  | .left => { s with dptr := s.dptr - 1 }
  | .increment => s.write (s.current + 1)
  | .decrement => s.write (s.current - 1)
  | .output => { s with output := s.output ++ [.char (Char.ofNat s.current.toNat)] }
  | .input => s.read eof

end Store

/-- Evaluation of a program with its cost. An action costs one and a comment nothing; a
loop costs one in the end and one more than its body for each iteration. -/
inductive Evaluates (eof : EofPolicy) : Program → Store → Store → Nat → Prop
  | done (s : Store) : Evaluates eof .done s s 0
  | action {s t : Store} {a : Action} {rest : Program} {cost : Nat}
      (h : Evaluates eof rest (s.act eof a) t cost) :
      Evaluates eof (.action a rest) s t (1 + cost)
  | comment {s t : Store} {c : Letter} {hc : isCommand c = false} {rest : Program} {cost : Nat}
      (h : Evaluates eof rest s t cost) : Evaluates eof (.comment c hc rest) s t cost
  | exit {s t : Store} {body rest : Program} {cost : Nat} (hzero : s.current = 0)
      (h : Evaluates eof rest s t cost) : Evaluates eof (.loop body rest) s t (1 + cost)
  | iterate {s u t : Store} {body rest : Program} {inner cost : Nat} (hne : s.current ≠ 0)
      (hbody : Evaluates eof body s u inner) (h : Evaluates eof (.loop body rest) u t cost) :
      Evaluates eof (.loop body rest) s t (inner + 1 + cost)

end Brainfuck
