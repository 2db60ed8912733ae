import Brainfuck.Script
import Mathlib.Data.List.Induction

/-!
Scripts split at their brackets. A script that closes more brackets than it opens
splits in front of the first closing bracket that is left over, and what stands
before that is balanced. A prefix of a balanced script is a row of balanced pieces
with one open bracket between each two of them, and these brackets are exactly the
ones whose partner lies behind the prefix.
-/
namespace Brainfuck

namespace Command

def isBracket : Command → Bool
  | .opening | .closing => true
  | _ => false

/-- The character that stands for a command. -/
def letter : Command → Letter
  | .right => '>'
  | .left => '<'
  | .increment => '+'
  | .decrement => '-'
  | .output => '.'
  | .input => ','
  | .opening => '['
  | .closing => ']'

theorem eq_letter {c : Letter} {command : Command} (h : ofLetter? c = some command) :
    c = command.letter := by
  unfold ofLetter? at h
  split at h <;> cases h <;> rfl

theorem ofLetter?_eq_opening {c : Letter} (h : ofLetter? c = some .opening) : c = '[' := eq_letter h

theorem ofLetter?_eq_closing {c : Letter} (h : ofLetter? c = some .closing) : c = ']' := eq_letter h

theorem ofLetter?_ne_bracket {c : Letter} {command : Command}
    (h : ofLetter? c = some command) (hb : command.isBracket = false) : c ≠ '[' ∧ c ≠ ']' := by
  constructor
  · rintro rfl
    cases h
    simp [isBracket] at hb
  · rintro rfl
    cases h
    simp [isBracket] at hb

theorem ofLetter?_none_ne_bracket {c : Letter} (h : ofLetter? c = none) :
    c ≠ '[' ∧ c ≠ ']' := by
  constructor
  · rintro rfl
    cases h
  · rintro rfl
    cases h

theorem ofLetter?_eq_none {c : Letter} (h : isCommand c = false) : ofLetter? c = none := by
  simpa [isCommand] using h

end Command

namespace Script

/-- A part that closes `inner` brackets leaves the others to what follows. -/
theorem closes_append {inner : Nat} {part : Script} (h : closes inner part = true)
    (outer : Nat) (rest : Script) :
    closes (inner + outer) (part ++ rest) = closes outer rest := by
  induction part generalizing inner with
  | nil =>
    have hinner : inner = 0 := by simpa using h
    simp [hinner]
  | cons c part ih =>
    rcases bracket_cases c with rfl | rfl | ⟨ho, hc⟩
    · rw [closes_opening] at h
      rw [List.cons_append, closes_opening, show inner + outer + 1 = inner + 1 + outer by omega]
      exact ih h
    · cases inner with
      | zero => simp at h
      | succ inner =>
        rw [closes_closing_succ] at h
        rw [List.cons_append, show inner + 1 + outer = inner + outer + 1 by omega,
          closes_closing_succ]
        exact ih h
    · rw [closes_other ho hc] at h
      rw [List.cons_append, closes_other ho hc]
      exact ih h

theorem closes_balanced_append {part : Script} (h : part.balanced = true) (depth : Nat)
    (rest : Script) : closes depth (part ++ rest) = closes depth rest := by
  simpa using closes_append h depth rest

theorem count_closing {depth : Nat} {script : Script} (h : closes depth script = true) :
    script.count (.char '[') + depth = script.count (.char ']') := by
  induction script generalizing depth with
  | nil => simpa using h
  | cons c script ih =>
    rcases bracket_cases c with rfl | rfl | ⟨ho, hc⟩
    · rw [closes_opening] at h
      have hcount := ih h
      rw [List.count_cons_self, List.count_cons_of_ne (by decide)]
      omega
    · cases depth with
      | zero => simp at h
      | succ depth =>
        rw [closes_closing_succ] at h
        have hcount := ih h
        rw [List.count_cons_self, List.count_cons_of_ne (by decide)]
        omega
    · rw [closes_other ho hc] at h
      rw [List.count_cons_of_ne ho, List.count_cons_of_ne hc]
      exact ih h

/-- A script that closes `inner + outer + 1` brackets splits in front of the bracket
that ends the `inner` ones and one more. -/
theorem exists_closing_split {inner outer : Nat} {script : Script}
    (h : closes (inner + outer + 1) script = true) :
    ∃ part rest, script = part ++ .char ']' :: rest ∧ closes inner part = true ∧
      closes outer rest = true := by
  induction script generalizing inner with
  | nil => simp at h
  | cons c script ih =>
    rcases bracket_cases c with rfl | rfl | ⟨ho, hc⟩
    · rw [closes_opening, show inner + outer + 1 + 1 = inner + 1 + outer + 1 by omega] at h
      obtain ⟨part, rest, rfl, hpart, hrest⟩ := ih h
      exact ⟨.char '[' :: part, rest, rfl, by rwa [closes_opening], hrest⟩
    · rw [closes_closing_succ] at h
      cases inner with
      | zero => exact ⟨[], script, rfl, rfl, by simpa using h⟩
      | succ inner =>
        rw [show inner + 1 + outer = inner + outer + 1 by omega] at h
        obtain ⟨part, rest, rfl, hpart, hrest⟩ := ih h
        exact ⟨.char ']' :: part, rest, rfl, by rwa [closes_closing_succ], hrest⟩
    · rw [closes_other ho hc] at h
      obtain ⟨part, rest, rfl, hpart, hrest⟩ := ih h
      exact ⟨c :: part, rest, rfl, by rwa [closes_other ho hc], hrest⟩

/-- What closes one bracket more begins with a balanced part and that bracket. -/
theorem exists_balanced_split {depth : Nat} {script : Script}
    (h : closes (depth + 1) script = true) :
    ∃ part rest : Script, script = part ++ .char ']' :: rest ∧ part.balanced = true ∧
      closes depth rest = true := by
  rw [← Nat.zero_add depth] at h
  exact exists_closing_split h

/-- The forward scan stops at the bracket behind a part that closes what is open. -/
theorem closingFrom_append {depth : Nat} {part : Script} (h : closes depth part = true)
    (position : Nat) (rest : Script) :
    closingFrom depth position (part ++ .char ']' :: rest) = some (position + part.length) := by
  induction part generalizing depth position with
  | nil =>
    have hdepth : depth = 0 := by simpa using h
    simp [hdepth, closingFrom]
  | cons c part ih =>
    have hlength : position + (c :: part).length = position + 1 + part.length := by
      simp only [List.length_cons]
      omega
    rw [hlength, List.cons_append]
    rcases bracket_cases c with rfl | rfl | ⟨ho, hc⟩
    · rw [closes_opening] at h
      simpa [closingFrom] using ih h (position + 1)
    · cases depth with
      | zero => simp at h
      | succ depth =>
        rw [closes_closing_succ] at h
        simpa [closingFrom] using ih h (position + 1)
    · rw [closes_other ho hc] at h
      simpa [closingFrom, ho, hc] using ih h (position + 1)

/-- There is only one way to split off a balanced part in front of a closing bracket. -/
theorem closing_split_unique {part other rest tail : Script} (hpart : part.balanced = true)
    (hother : other.balanced = true) (h : part ++ .char ']' :: rest = other ++ .char ']' :: tail) :
    part = other ∧ rest = tail := by
  have hclosing := closingFrom_append hpart 0 rest
  rw [h, closingFrom_append hother 0 tail] at hclosing
  have hlength : part.length = other.length := by
    have heq := Option.some.inj hclosing
    omega
  obtain ⟨hsame, hrest⟩ := List.append_inj h hlength
  exact ⟨hsame, (List.cons.inj hrest).2⟩

theorem drop_length_succ (pre rest : Script) (c : Letter) :
    (pre ++ c :: rest).drop (pre.length + 1) = rest := by
  simp [List.drop_append]

theorem take_length_succ (pre rest : Script) (c : Letter) :
    (pre ++ c :: rest).take (pre.length + 1) = pre ++ [c] := by
  rw [show pre ++ c :: rest = (pre ++ [c]) ++ rest by simp]
  exact List.take_left' (by simp)

/-- The closing bracket of an opening one stands behind the balanced part after it. -/
theorem closing?_of_split (pre : Script) {inner : Script} (h : inner.balanced = true)
    (post : Script) :
    closing? (pre ++ .char '[' :: (inner ++ .char ']' :: post)) pre.length =
      some (pre.length + 1 + inner.length) := by
  rw [closing?, drop_length_succ]
  exact closingFrom_append h (pre.length + 1) post

/-- The brackets at `i` and `j` belong together: what stands between them is balanced. -/
def Partners (script : Script) (i j : Nat) : Prop :=
  i < j ∧ script[i]? = some (.char '[') ∧ script[j]? = some (.char ']') ∧
    balanced ((script.take j).drop (i + 1)) = true

instance (script : Script) (i j : Nat) : Decidable (Partners script i j) := by
  unfold Partners
  infer_instance

/-- The opening brackets before `position` whose partner is not before it, ascending. -/
def openBefore (script : Script) (position : Nat) : List Nat :=
  (List.range position).filter fun i =>
    script[i]? = some (.char '[') ∧ ∀ j < position, ¬ script.Partners i j

theorem eq_take_cons_drop {script : Script} {i : Nat} {c : Letter} (h : script[i]? = some c) :
    script = script.take i ++ c :: script.drop (i + 1) := by
  obtain ⟨hlt, rfl⟩ := List.getElem?_eq_some_iff.mp h
  rw [← List.drop_eq_getElem_cons hlt, List.take_append_drop]

/-- Two positions cut a script into five parts. -/
theorem exists_split_at {script : Script} {i j : Nat} (hij : i < j) (hj : j < script.length) :
    ∃ (pre body post : Script) (c d : Letter), script = pre ++ c :: (body ++ d :: post) ∧
      i = pre.length ∧ j = pre.length + 1 + body.length := by
  have hi : i < (script.take j).length := by
    rw [List.length_take]
    omega
  refine ⟨(script.take j).take i, (script.take j).drop (i + 1), script.drop (j + 1),
    (script.take j)[i], script[j], ?_, ?_, ?_⟩
  · calc
      script = script.take j ++ script[j] :: script.drop (j + 1) :=
        eq_take_cons_drop (List.getElem?_eq_getElem hj)
      _ = ((script.take j).take i ++ (script.take j)[i] :: (script.take j).drop (i + 1)) ++
          script[j] :: script.drop (j + 1) := by
        rw [← eq_take_cons_drop (List.getElem?_eq_getElem hi)]
      _ = _ := by simp only [List.append_assoc, List.cons_append]
  · rw [List.length_take]
    omega
  · simp only [List.length_take, List.length_drop]
    omega

section Split

variable (pre body post : Script) (c d : Letter)

theorem take_split :
    (pre ++ c :: (body ++ d :: post)).take (pre.length + 1 + body.length) = pre ++ c :: body := by
  have hsplit : pre ++ c :: (body ++ d :: post) = (pre ++ c :: body) ++ d :: post := by simp
  have hlength : (pre ++ c :: body).length = pre.length + 1 + body.length := by
    simp only [List.length_append, List.length_cons]
    omega
  rw [hsplit, ← hlength, List.take_left]

theorem getElem?_split :
    (pre ++ c :: (body ++ d :: post))[pre.length + 1 + body.length]? = some d := by
  rw [List.getElem?_append_right (by omega),
    show pre.length + 1 + body.length - pre.length = body.length + 1 by omega]
  simp

theorem partners_split_iff :
    Partners (pre ++ c :: (body ++ d :: post)) pre.length (pre.length + 1 + body.length) ↔
      c = '[' ∧ d = ']' ∧ body.balanced = true := by
  have hfirst : (pre ++ c :: (body ++ d :: post))[pre.length]? = some c := by simp
  rw [Partners, hfirst, getElem?_split, take_split, drop_length_succ, Option.some.injEq,
    Option.some.injEq]
  exact and_iff_right (by omega)

end Split

theorem partners_of_split (pre : Script) {inner : Script} (h : inner.balanced = true)
    (post : Script) :
    Partners (pre ++ .char '[' :: (inner ++ .char ']' :: post)) pre.length
      (pre.length + 1 + inner.length) :=
  (partners_split_iff pre inner post '[' ']').mpr ⟨rfl, rfl, h⟩

/-- Partners come with the split of the script around them. -/
theorem Partners.exists_split {script : Script} {i j : Nat} (h : script.Partners i j) :
    ∃ pre inner post : Script, script = pre ++ .char '[' :: (inner ++ .char ']' :: post) ∧
      inner.balanced = true ∧ i = pre.length ∧ j = pre.length + 1 + inner.length := by
  have hj : j < script.length := (List.getElem?_eq_some_iff.mp h.2.2.1).1
  obtain ⟨pre, inner, post, c, d, rfl, rfl, rfl⟩ := exists_split_at h.1 hj
  obtain ⟨rfl, rfl, hinner⟩ := (partners_split_iff pre inner post c d).mp h
  exact ⟨pre, inner, post, rfl, hinner, rfl, rfl⟩

/-- A prefix in which exactly the brackets at `opened`, innermost first, are open. -/
inductive Opened : Script → List Nat → Prop
  | none {part : Script} (h : part.balanced = true) : Opened part []
  | bracket {pre inner : Script} {opened : List Nat} (hpre : Opened pre opened)
      (h : inner.balanced = true) : Opened (pre ++ .char '[' :: inner) (pre.length :: opened)

namespace Opened

/-- What is left open by a prefix has to be closed by the rest. -/
theorem closes_append {pre : Script} {opened : List Nat} (h : Opened pre opened)
    (depth : Nat) (rest : Script) :
    closes depth (pre ++ rest) = closes (depth + opened.length) rest := by
  induction h generalizing depth rest with
  | none hpart => simpa using closes_balanced_append hpart depth rest
  | bracket hpre hinner ih =>
    rw [List.append_assoc, List.cons_append, ih, closes_opening,
      closes_balanced_append hinner, List.length_cons]
    rfl

/-- As many brackets are open as more are opened than closed. -/
theorem length_add_count {pre : Script} {opened : List Nat} (h : Opened pre opened) :
    opened.length + pre.count (.char ']') = pre.count (.char '[') := by
  induction h with
  | none hpart => simpa using (count_closing hpart).symm
  | bracket hpre hinner ih =>
    have hcount := count_closing hinner
    simp only [List.length_cons, List.count_append, List.count_cons_self,
      List.count_cons_of_ne (show Letter.char '[' ≠ ']' by decide)]
    omega

theorem getElem?_of_mem {pre : Script} {opened : List Nat} (h : Opened pre opened) {i : Nat}
    (hi : i ∈ opened) : pre[i]? = some (.char '[') := by
  induction h with
  | none hpart => cases hi
  | @bracket pre inner opened hpre hinner ih =>
    rcases List.mem_cons.mp hi with rfl | hi
    · simp
    · have hlt : i < pre.length := (List.getElem?_eq_some_iff.mp (ih hi)).1
      rw [List.getElem?_append_left hlt]
      exact ih hi

theorem append_balanced {pre part : Script} {opened : List Nat} (h : Opened pre opened)
    (hpart : part.balanced = true) : Opened (pre ++ part) opened := by
  cases h with
  | none hpre => exact .none (by rw [balanced, closes_balanced_append hpre]; exact hpart)
  | @bracket pre inner opened hpre hinner =>
    rw [List.append_assoc, List.cons_append]
    exact .bracket hpre (by rw [balanced, closes_balanced_append hinner]; exact hpart)

theorem append_other {pre : Script} {opened : List Nat} (h : Opened pre opened) {c : Letter}
    (ho : c ≠ '[') (hc : c ≠ ']') : Opened (pre ++ [c]) opened :=
  h.append_balanced (by rw [balanced, closes_other ho hc]; rfl)

theorem append_opening {pre : Script} {opened : List Nat} (h : Opened pre opened) :
    Opened (pre ++ [.char '[']) (pre.length :: opened) :=
  .bracket h rfl

theorem append_loop {pre inner : Script} {opened : List Nat} (h : Opened pre opened)
    (hinner : inner.balanced = true) :
    Opened (pre ++ .char '[' :: (inner ++ [.char ']'])) opened := by
  apply h.append_balanced
  rw [balanced, closes_opening, closes_balanced_append hinner]
  rfl

/-- The innermost open bracket is followed by a balanced part. -/
theorem exists_inner {pre : Script} {position : Nat} {outer : List Nat}
    (h : Opened pre (position :: outer)) :
    ∃ before inner : Script, pre = before ++ .char '[' :: inner ∧ position = before.length ∧
      Opened before outer ∧ inner.balanced = true := by
  cases h with
  | @bracket before inner _ hbefore hinner => exact ⟨before, inner, rfl, rfl, hbefore, hinner⟩

theorem append_closing {pre : Script} {position : Nat} {outer : List Nat}
    (h : Opened pre (position :: outer)) : Opened (pre ++ [.char ']']) outer := by
  obtain ⟨before, inner, rfl, -, hbefore, hinner⟩ := h.exists_inner
  simpa using hbefore.append_loop hinner

end Opened

/-- Every prefix of a balanced script is a row of balanced pieces and open brackets. -/
theorem exists_opened {pre rest : Script} (h : (pre ++ rest).balanced = true) :
    ∃ opened, Opened pre opened ∧ closes opened.length rest = true := by
  have haux : ∃ opened, Opened pre opened := by
    induction pre using List.reverseRecOn generalizing rest with
    | nil => exact ⟨[], .none rfl⟩
    | append_singleton pre c ih =>
      rw [List.append_assoc, List.singleton_append] at h
      obtain ⟨opened, hpre⟩ := ih h
      rcases bracket_cases c with rfl | rfl | ⟨ho, hc⟩
      · exact ⟨_, hpre.append_opening⟩
      · cases opened with
        | nil =>
          rw [balanced, hpre.closes_append] at h
          simp at h
        | cons position outer => exact ⟨outer, hpre.append_closing⟩
      · exact ⟨opened, hpre.append_other ho hc⟩
  obtain ⟨opened, hpre⟩ := haux
  refine ⟨opened, hpre, ?_⟩
  rw [balanced, hpre.closes_append] at h
  simpa using h

/-- Every opening bracket of a balanced script has a partner. -/
theorem exists_partner {script : Script} (h : script.balanced = true) {i : Nat}
    (hi : script[i]? = some (.char '[')) : ∃ j, script.Partners i j := by
  have hsplit := eq_take_cons_drop hi
  rw [hsplit] at h
  obtain ⟨opened, -, hrest⟩ := exists_opened h
  rw [closes_opening] at hrest
  obtain ⟨inner, post, hinner, hbalanced, -⟩ := exists_balanced_split hrest
  have hlength : (script.take i).length = i := by
    have hlt : i < script.length := (List.getElem?_eq_some_iff.mp hi).1
    simp only [List.length_take]
    omega
  have hpartners := partners_of_split (script.take i) hbalanced post
  rw [← hinner, ← hsplit, hlength] at hpartners
  exact ⟨_, hpartners⟩

theorem Partners.embed {part : Script} {i j : Nat} (h : part.Partners i j) (pre rest : Script) :
    Partners (pre ++ part ++ rest) (pre.length + i) (pre.length + j) := by
  obtain ⟨before, inner, post, rfl, hinner, rfl, rfl⟩ := h.exists_split
  have hpartners := partners_of_split (pre ++ before) hinner (post ++ rest)
  simpa [Nat.add_assoc] using hpartners

/-- A bracket before a balanced part has no partner inside of it. -/
theorem Partners.outside {pre part rest : Script} {i j : Nat}
    (h : Partners (pre ++ part ++ rest) i j) (hpart : part.balanced = true)
    (hi : i < pre.length) : j < pre.length ∨ pre.length + part.length ≤ j := by
  by_contra hj
  have hlow : pre.length ≤ j := by omega
  have hhigh : j - pre.length < part.length := by omega
  obtain ⟨-, -, hclosing, hinner⟩ := h
  have hget : part[j - pre.length]? = some (.char ']') := by
    rwa [List.append_assoc, List.getElem?_append_right hlow,
      List.getElem?_append_left hhigh] at hclosing
  have htake : (pre ++ part ++ rest).take j = pre ++ part.take (j - pre.length) := by
    rw [List.append_assoc, List.take_append, List.take_of_length_le hlow,
      List.take_append_of_le_length (Nat.le_of_lt hhigh)]
  rw [htake, List.drop_append_of_le_length hi] at hinner
  rw [eq_take_cons_drop hget] at hpart
  obtain ⟨opened, hopened, hrest⟩ := exists_opened hpart
  obtain ⟨outer, -, hleft⟩ := exists_opened hinner
  rw [← List.append_nil (part.take _), hopened.closes_append] at hleft
  cases opened with
  | nil => simp at hrest
  | cons position opened => simp at hleft

@[simp]
theorem openBefore_zero (script : Script) : openBefore script 0 = [] := rfl

/-- An opening bracket is open right behind it. -/
theorem openBefore_succ_opening {script : Script} {n : Nat} (h : script[n]? = some (.char '[')) :
    openBefore script (n + 1) = openBefore script n ++ [n] := by
  have hnot : ∀ i, ¬ script.Partners i n := by
    intro i hpartners
    have hclosing := hpartners.2.2.1
    rw [h] at hclosing
    simp at hclosing
  rw [openBefore, List.range_succ, List.filter_append]
  congr 1
  · apply List.filter_congr
    intro i hi
    simp only [decide_eq_decide]
    constructor
    · rintro ⟨hopening, hno⟩
      exact ⟨hopening, fun j hj => hno j (by omega)⟩
    · rintro ⟨hopening, hno⟩
      refine ⟨hopening, fun j hj => ?_⟩
      rcases Nat.lt_succ_iff_lt_or_eq.mp hj with hj | rfl
      · exact hno j hj
      · exact hnot i
  · have hself : ∀ j < n + 1, ¬ script.Partners n j := by
      intro j hj hpartners
      have hlt := hpartners.1
      omega
    simpa [h] using hself

/-- A balanced part opens nothing and closes nothing of what is open before it. -/
theorem openBefore_append_balanced {part : Script} (hpart : part.balanced = true)
    (pre rest : Script) :
    openBefore (pre ++ part ++ rest) (pre.length + part.length) =
      openBefore (pre ++ part ++ rest) pre.length := by
  rw [openBefore, List.range_add, List.filter_append]
  have hinside : ((List.range part.length).map (pre.length + ·)).filter (fun i =>
      (pre ++ part ++ rest)[i]? = some (.char '[') ∧ ∀ j < pre.length + part.length,
        ¬ Partners (pre ++ part ++ rest) i j) = [] := by
    rw [List.filter_eq_nil_iff]
    intro i hi
    obtain ⟨k, hk, rfl⟩ := List.mem_map.mp hi
    rw [List.mem_range] at hk
    rw [decide_eq_true_eq]
    rintro ⟨hopening, hno⟩
    rw [List.append_assoc, List.getElem?_append_right (by omega), Nat.add_sub_cancel_left,
      List.getElem?_append_left hk] at hopening
    obtain ⟨j, hj⟩ := exists_partner hpart hopening
    have hlt : j < part.length := (List.getElem?_eq_some_iff.mp hj.2.2.1).1
    exact hno (pre.length + j) (by omega) (hj.embed pre rest)
  rw [hinside, List.append_nil]
  apply List.filter_congr
  intro i hi
  rw [List.mem_range] at hi
  simp only [decide_eq_decide]
  constructor
  · rintro ⟨hopening, hno⟩
    exact ⟨hopening, fun j hj => hno j (by omega)⟩
  · rintro ⟨hopening, hno⟩
    refine ⟨hopening, fun j hj hpartners => ?_⟩
    rcases hpartners.outside hpart hi with hlow | hhigh
    · exact hno j hlow hpartners
    · omega

/-- The brackets that a prefix leaves open are those whose partner is not in it. -/
theorem Opened.openBefore_eq {pre : Script} {opened : List Nat} (h : Opened pre opened)
    (rest : Script) : openBefore (pre ++ rest) pre.length = opened.reverse := by
  induction h generalizing rest with
  | @none part hpart => simpa using openBefore_append_balanced hpart [] rest
  | @bracket pre inner opened hpre hinner ih =>
    have hscript : pre ++ .char '[' :: inner ++ rest = (pre ++ [.char '[']) ++ inner ++ rest := by
      simp
    have hlength : (pre ++ .char '[' :: inner).length =
        (pre ++ [Letter.char '[']).length + inner.length := by
      simp only [List.length_append, List.length_cons, List.length_nil]
      omega
    rw [hlength, hscript, openBefore_append_balanced hinner]
    rw [← hscript, List.length_append, List.length_singleton, openBefore_succ_opening (by simp)]
    rw [List.append_assoc, ih, List.reverse_cons]

end Script

end Brainfuck
