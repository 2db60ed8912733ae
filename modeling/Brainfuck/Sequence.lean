/-!
Operations carried out one after the other, each on what the one before it has left.
An operation is given by its answer, and the answer tells what is left.
-/
namespace Brainfuck.Sequence

variable {σ ω α : Type} (answer : σ → ω → α) (left : α → σ)

def answers : σ → List ω → List α
  | _, [] => []
  | s, op :: ops => answer s op :: answers (left (answer s op)) ops

/-- What is left in the end. -/
def final (s : σ) (ops : List ω) : σ := ops.foldl (fun s op => left (answer s op)) s

end Brainfuck.Sequence
