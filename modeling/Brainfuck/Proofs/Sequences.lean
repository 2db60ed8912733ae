import Brainfuck.Sequence
import Mathlib.Data.List.Forall2

/-!
Sequences of operations. The answers to operations in two parts are those to the first part and
then those to the second. What every operation keeps is kept by all of them, and of two things
that answer alike as long as they are related, and stay related by doing so, both give the same
kind of answers throughout.
-/
namespace Brainfuck.Sequence

variable {σ ω α : Type} {answer : σ → ω → α} {left : α → σ}

theorem answers_append (s : σ) (ops more : List ω) :
    answers answer left s (ops ++ more) =
      answers answer left s ops ++ answers answer left (final answer left s ops) more := by
  induction ops generalizing s with
  | nil => rfl
  | cons op ops ih => exact congrArg (answer s op :: ·) (ih (left (answer s op)))

theorem final_keeps {β : Type} (view : σ → β) {ops : List ω}
    (h : ∀ s, ∀ op ∈ ops, view (left (answer s op)) = view s) (s : σ) :
    view (final answer left s ops) = view s :=
  List.foldlRecOn (motive := fun t => view t = view s) ops _ rfl
    fun t ht op hop => (h t op hop).trans ht

/-- Two runs side by side. -/
theorem forall₂_answers {τ β : Type} {reply : τ → ω → β} {rest : β → τ} {R : σ → τ → Prop}
    {Q : α → β → Prop} {ops : List ω}
    (hanswer : ∀ s t, R s t → ∀ op ∈ ops, Q (answer s op) (reply t op))
    (hleft : ∀ a b, Q a b → R (left a) (rest b)) {s : σ} {t : τ} (h : R s t) :
    List.Forall₂ Q (answers answer left s ops) (answers reply rest t ops) ∧
      R (final answer left s ops) (final reply rest t ops) := by
  induction ops generalizing s t with
  | nil => exact ⟨.nil, h⟩
  | cons op ops ih =>
    have hfirst := hanswer s t h op List.mem_cons_self
    have hrest := ih (fun s t h op hop => hanswer s t h op (List.mem_cons_of_mem _ hop))
      (hleft _ _ hfirst)
    exact ⟨.cons hfirst hrest.1, hrest.2⟩

end Brainfuck.Sequence
