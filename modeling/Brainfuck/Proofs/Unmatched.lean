import Brainfuck.Proofs.Brackets
import Mathlib.Order.Bounds.Basic

/-!
Brackets without partner. Each bracket has at most one partner, so the brackets of a script
that have none can be counted. The bracket that is reported of an unbalanced script is one of
them: the first closing bracket that comes too early, or else the last opening bracket without
partner, behind which everything is balanced. Without it there is one such bracket less.
-/
namespace Brainfuck.Script

/-- The forward scan finds the partner. -/
theorem Partners.closing?_eq {script : Script} {i j : Nat} (h : script.Partners i j) :
    script.closing? i = some j := by
  obtain ⟨pre, inner, post, rfl, hinner, rfl, rfl⟩ := h.exists_split
  exact closing?_of_split pre hinner post

theorem Partners.lt_length {script : Script} {i j : Nat} (h : script.Partners i j) :
    j < script.length :=
  (List.getElem?_eq_some_iff.mp h.2.2.1).1

theorem Partners.right_unique {script : Script} {i j k : Nat} (hj : script.Partners i j)
    (hk : script.Partners i k) : j = k :=
  Option.some.inj (hj.closing?_eq.symm.trans hk.closing?_eq)

/-- An opening bracket between two partners has its own partner between them. -/
theorem Partners.exists_between {script : Script} {i j k : Nat} (h : script.Partners i j)
    (hik : i < k) (hkj : k < j) (hk : script[k]? = some (.char '[')) :
    ∃ l < j, script.Partners k l := by
  obtain ⟨pre, inner, post, rfl, hinner, rfl, rfl⟩ := h.exists_split
  have hsplit : pre ++ .char '[' :: (inner ++ .char ']' :: post) =
      (pre ++ [.char '[']) ++ inner ++ .char ']' :: post := by
    simp
  obtain ⟨d, rfl⟩ : ∃ d, k = (pre ++ [Letter.char '[']).length + d :=
    Nat.exists_eq_add_of_le (by rw [List.length_append, List.length_singleton]; omega)
  rw [List.length_append, List.length_singleton] at hkj
  have hget : inner[d]? = some (.char '[') := by
    rwa [hsplit, List.append_assoc, List.getElem?_append_right (by omega),
      Nat.add_sub_cancel_left, List.getElem?_append_left (by omega)] at hk
  obtain ⟨e, he⟩ := exists_partner hinner hget
  have hlt := he.lt_length
  refine ⟨(pre ++ [Letter.char '[']).length + e, ?_, ?_⟩
  · rw [List.length_append, List.length_singleton]
    omega
  · rw [hsplit]
    exact he.embed (pre ++ [.char '[']) (.char ']' :: post)

theorem Partners.left_unique {script : Script} {i j k : Nat} (hi : script.Partners i k)
    (hj : script.Partners j k) : i = j := by
  -- The later one of two openings would have its partner before `k`.
  have hle : ∀ {a b : Nat}, script.Partners a k → script.Partners b k → b ≤ a := by
    intro a b ha hb
    by_contra hab
    obtain ⟨l, hl, hpartners⟩ := ha.exists_between (by omega) hb.1 hb.2.1
    have hsame := hb.right_unique hpartners
    omega
  exact Nat.le_antisymm (hle hj hi) (hle hi hj)

/-- The innermost open bracket is the partner of a closing one that follows. -/
theorem Opened.partners {pre : Script} {position : Nat} {outer : List Nat}
    (h : Opened pre (position :: outer)) (rest : Script) :
    Partners (pre ++ .char ']' :: rest) position pre.length := by
  obtain ⟨before, inner, rfl, rfl, -, hinner⟩ := h.exists_inner
  have hpartners := partners_of_split before hinner rest
  have hlength : (before ++ .char '[' :: inner).length = before.length + 1 + inner.length := by
    simp only [List.length_append, List.length_cons]
    omega
  rwa [hlength, List.append_assoc, List.cons_append]

/-- Every closing bracket of a balanced script has a partner. -/
theorem exists_opening_partner {script : Script} (h : script.balanced = true) {j : Nat}
    (hj : script[j]? = some (.char ']')) : ∃ i, script.Partners i j := by
  have hsplit := eq_take_cons_drop hj
  rw [hsplit] at h
  obtain ⟨opened, hopened, hrest⟩ := exists_opened h
  cases opened with
  | nil => simp at hrest
  | cons position outer =>
    have hlength : (script.take j).length = j := by
      have hlt : j < script.length := (List.getElem?_eq_some_iff.mp hj).1
      simp only [List.length_take]
      omega
    have hpartners := hopened.partners (script.drop (j + 1))
    rw [← hsplit, hlength] at hpartners
    exact ⟨position, hpartners⟩

/-- The bracket at `i` belongs together with another one. -/
def HasPartner (script : Script) (i : Nat) : Prop :=
  ∃ j < script.length, script.Partners i j ∨ script.Partners j i

instance (script : Script) (i : Nat) : Decidable (HasPartner script i) :=
  inferInstanceAs (Decidable (∃ j < script.length, _))

/-- The positions of the brackets without partner, ascending. -/
def unmatched (script : Script) : List Nat :=
  (List.range script.length).filter fun i =>
    (script[i]? = some (.char '[') ∨ script[i]? = some (.char ']')) ∧ ¬ script.HasPartner i

theorem partners_append_left {pre rest : Script} {i j : Nat} (hj : j < pre.length) :
    Partners (pre ++ rest) i j ↔ pre.Partners i j := by
  unfold Partners
  rw [List.getElem?_append_left hj, List.take_append_of_le_length (Nat.le_of_lt hj)]
  apply and_congr_right
  intro hij
  rw [List.getElem?_append_left (by omega)]

theorem partners_append_right (pre rest : Script) (i j : Nat) :
    Partners (pre ++ rest) (pre.length + i) (pre.length + j) ↔ rest.Partners i j := by
  have hdrop : ((pre ++ rest).take (pre.length + j)).drop (pre.length + i + 1) =
      (rest.take j).drop (i + 1) := by
    rw [List.take_length_add_append, Nat.add_assoc, List.drop_length_add_append]
  unfold Partners
  rw [hdrop, List.getElem?_append_right (by omega), List.getElem?_append_right (by omega),
    Nat.add_sub_cancel_left, Nat.add_sub_cancel_left]
  exact and_congr_left' (by omega)

/-- No bracket of the first part has its partner in the second. -/
def Uncrossed (pre rest : Script) : Prop :=
  ∀ i j, i < pre.length → pre.length ≤ j → ¬ Partners (pre ++ rest) i j

namespace Uncrossed

theorem hasPartner_left {pre rest : Script} (h : Uncrossed pre rest) {i : Nat}
    (hi : i < pre.length) : HasPartner (pre ++ rest) i ↔ pre.HasPartner i := by
  constructor
  · rintro ⟨j, -, hright | hleft⟩
    · have hj : j < pre.length := by
        by_contra hj
        exact h i j hi (by omega) hright
      exact ⟨j, hj, Or.inl ((partners_append_left hj).mp hright)⟩
    · have hlt := hleft.1
      exact ⟨j, by omega, Or.inr ((partners_append_left hi).mp hleft)⟩
  · rintro ⟨j, hj, hpartners⟩
    refine ⟨j, by rw [List.length_append]; omega, ?_⟩
    rwa [partners_append_left hj, partners_append_left hi]

theorem hasPartner_right {pre rest : Script} (h : Uncrossed pre rest) (i : Nat) :
    HasPartner (pre ++ rest) (pre.length + i) ↔ rest.HasPartner i := by
  constructor
  · rintro ⟨j, hj, hpartners⟩
    -- The partner cannot lie in the first part.
    have hle : pre.length ≤ j := by
      rcases hpartners with hright | hleft
      · have hlt := hright.1
        omega
      · by_contra hlt
        exact h j (pre.length + i) (by omega) (by omega) hleft
    obtain ⟨k, rfl⟩ := Nat.exists_eq_add_of_le hle
    rw [partners_append_right, partners_append_right] at hpartners
    rw [List.length_append] at hj
    exact ⟨k, by omega, hpartners⟩
  · rintro ⟨j, hj, hpartners⟩
    refine ⟨pre.length + j, by rw [List.length_append]; omega, ?_⟩
    rwa [partners_append_right, partners_append_right]

/-- The brackets without partner are those of the two parts. -/
theorem unmatched_append {pre rest : Script} (h : Uncrossed pre rest) :
    (pre ++ rest).unmatched = pre.unmatched ++ rest.unmatched.map (pre.length + ·) := by
  unfold unmatched
  rw [List.length_append, List.range_add, List.filter_append, List.filter_map]
  congr 1
  · apply List.filter_congr
    intro i hi
    rw [List.mem_range] at hi
    rw [decide_eq_decide, h.hasPartner_left hi, List.getElem?_append_left hi]
  · congr 1
    apply List.filter_congr
    intro i hi
    rw [Function.comp_apply, decide_eq_decide, h.hasPartner_right,
      List.getElem?_append_right (by omega), Nat.add_sub_cancel_left]

theorem balanced_left {part : Script} (h : part.balanced = true) (rest : Script) :
    Uncrossed part rest := by
  intro i j hi hj hpartners
  have hopening : part[i]? = some (.char '[') := by
    have hget := hpartners.2.1
    rwa [List.getElem?_append_left hi] at hget
  obtain ⟨k, hk⟩ := exists_partner h hopening
  have hlt := hk.lt_length
  have hsame := hpartners.right_unique ((partners_append_left hlt).mpr hk)
  omega

theorem balanced_right (pre : Script) {part : Script} (h : part.balanced = true) :
    Uncrossed pre part := by
  intro i j hi hj hpartners
  have hlt := hpartners.lt_length
  rw [List.length_append] at hlt
  have hinside : Partners (pre ++ part ++ []) i j := by rwa [List.append_nil]
  rcases hinside.outside h hi with hlow | hhigh
  · omega
  · omega

theorem closing (rest : Script) : Uncrossed [.char ']'] rest := by
  intro i j hi _ hpartners
  obtain rfl : i = 0 := Nat.lt_one_iff.mp hi
  have hopening := hpartners.2.1
  simp at hopening

theorem opening (pre : Script) : Uncrossed pre [.char '['] := by
  intro i j _ hj hpartners
  have hlt := hpartners.lt_length
  rw [List.length_append, List.length_singleton] at hlt
  obtain rfl : j = pre.length := by omega
  have hclosing := hpartners.2.2.1
  simp at hclosing

end Uncrossed

theorem unmatched_of_balanced {part : Script} (h : part.balanced = true) :
    part.unmatched = [] := by
  unfold unmatched
  rw [List.filter_eq_nil_iff]
  intro i hi
  rw [List.mem_range] at hi
  rw [decide_eq_true_eq, not_and, not_not]
  rintro (hopening | hclosing)
  · obtain ⟨j, hj⟩ := exists_partner h hopening
    exact ⟨j, hj.lt_length, Or.inl hj⟩
  · obtain ⟨j, hj⟩ := exists_opening_partner h hclosing
    exact ⟨j, Nat.lt_trans hj.1 hi, Or.inr hj⟩

theorem unmatched_balanced_append {part : Script} (h : part.balanced = true) (rest : Script) :
    (part ++ rest).unmatched = rest.unmatched.map (part.length + ·) := by
  rw [(Uncrossed.balanced_left h rest).unmatched_append, unmatched_of_balanced h, List.nil_append]

theorem unmatched_append_balanced (pre : Script) {part : Script} (h : part.balanced = true) :
    (pre ++ part).unmatched = pre.unmatched := by
  rw [(Uncrossed.balanced_right pre h).unmatched_append, unmatched_of_balanced h, List.map_nil,
    List.append_nil]

theorem unmatched_closing (rest : Script) :
    unmatched (.char ']' :: rest) = 0 :: rest.unmatched.map (1 + ·) :=
  (Uncrossed.closing rest).unmatched_append

theorem unmatched_opening (pre : Script) :
    (pre ++ [Letter.char '[']).unmatched = pre.unmatched ++ [pre.length] :=
  (Uncrossed.opening pre).unmatched_append

/-- Where a script is blamed: at a closing bracket behind a balanced part, or at the innermost
bracket that is open at its end. -/
inductive Blamed : Script → Nat → Prop
  | closing {before : Script} (h : before.balanced = true) (after : Script) :
      Blamed (before ++ .char ']' :: after) before.length
  | opening {script : Script} {position : Nat} {outer : List Nat}
      (h : Opened script (position :: outer)) : Blamed script position

theorem blamed_of_unbalancedFrom {pre rest : Script} {opened : List Nat} {position : Nat}
    (hpre : Opened pre opened) (h : unbalancedFrom pre.length opened rest = some position) :
    Blamed (pre ++ rest) position := by
  induction rest generalizing pre opened with
  | nil =>
    rw [List.append_nil]
    cases opened with
    | nil => cases h
    | cons inner outer =>
      obtain rfl : inner = position := Option.some.inj h
      exact .opening hpre
  | cons c rest ih =>
    have hnext : pre ++ c :: rest = (pre ++ [c]) ++ rest := by simp
    have hlength : pre.length + 1 = (pre ++ [c]).length := by simp
    rcases bracket_cases c with rfl | rfl | ⟨ho, hc⟩
    · simp only [unbalancedFrom, if_true, hlength] at h
      rw [hnext]
      exact ih hpre.append_opening h
    · cases opened with
      | nil =>
        simp only [unbalancedFrom] at h
        obtain rfl := Option.some.inj h
        cases hpre with
        | none hbalanced => exact .closing hbalanced rest
      | cons inner outer =>
        simp only [unbalancedFrom, hlength] at h
        rw [hnext]
        exact ih hpre.append_closing h
    · simp only [unbalancedFrom, ho, hc, if_false, hlength] at h
      rw [hnext]
      exact ih (hpre.append_other ho hc) h

theorem blamed_of_unbalanced? {script : Script} {position : Nat}
    (h : script.unbalanced? = some position) : Blamed script position := by
  have hempty : Opened [] [] := .none rfl
  exact blamed_of_unbalancedFrom hempty h

theorem exists_blamed {script : Script} (h : script.balanced = false) :
    ∃ position, script.unbalanced? = some position ∧ Blamed script position := by
  obtain ⟨position, -, hposition, -⟩ := exists_unbalanced h
  exact ⟨position, hposition, blamed_of_unbalanced? hposition⟩

theorem closes_replicate (n : Nat) : closes n (List.replicate n (.char ']')) = true := by
  induction n with
  | zero => rfl
  | succ n ih =>
    rw [List.replicate_succ, closes_closing_succ]
    exact ih

/-- As long as brackets can still be closed, none was closed too early. -/
theorem Opened.count_le {script : Script} {opened : List Nat} (h : Opened script opened)
    {part : Script} (hpart : part <+: script) :
    part.count (.char ']') ≤ part.count (.char '[') := by
  obtain ⟨rest, rfl⟩ := hpart
  have hbalanced :
      (part ++ rest ++ List.replicate opened.length (Letter.char ']')).balanced = true := by
    rw [balanced, h.closes_append, Nat.zero_add]
    exact closes_replicate opened.length
  rw [List.append_assoc] at hbalanced
  obtain ⟨inner, hinner, -⟩ := exists_opened hbalanced
  have hcount := hinner.length_add_count
  omega

/-- A closing bracket behind a balanced part comes too early. -/
theorem count_lt_of_closing {before : Script} (h : before.balanced = true) :
    (before ++ [Letter.char ']']).count (.char '[') <
      (before ++ [Letter.char ']']).count (.char ']') := by
  have hsame := count_closing h
  rw [List.count_append, List.count_append, List.count_singleton_self,
    List.count_eq_zero_of_not_mem (show Letter.char '[' ∉ [.char ']'] by decide)]
  omega

theorem eraseIdx_length (pre rest : Script) (c : Letter) :
    (pre ++ c :: rest).eraseIdx pre.length = pre ++ rest := by
  rw [List.eraseIdx_append_of_length_le (Nat.le_refl _), Nat.sub_self]
  rfl

namespace Blamed

/-- Without the bracket that is blamed there is one less without partner. -/
theorem unmatched_eraseIdx {script : Script} {position : Nat} (h : Blamed script position) :
    (unmatched (script.eraseIdx position)).length + 1 = script.unmatched.length := by
  cases h with
  | @closing before hbefore after =>
    rw [eraseIdx_length, unmatched_balanced_append hbefore, unmatched_balanced_append hbefore,
      unmatched_closing]
    simp
  | opening h =>
    obtain ⟨before, inner, rfl, rfl, -, hinner⟩ := h.exists_inner
    have hsplit : before ++ .char '[' :: inner = (before ++ [.char '[']) ++ inner := by simp
    rw [eraseIdx_length, hsplit, unmatched_append_balanced _ hinner,
      unmatched_append_balanced _ hinner, unmatched_opening]
    simp

/-- Where a bracket is closed too early, the first such place is blamed. -/
theorem isLeast {script : Script} {position : Nat} (h : Blamed script position)
    (hearly : ∃ part, part <+: script ∧ part.count (.char '[') < part.count (.char ']')) :
    script[position]? = some (.char ']') ∧
      IsLeast {i | (script.take (i + 1)).count (.char '[') <
        (script.take (i + 1)).count (.char ']')} position := by
  obtain ⟨part, hpart, hcount⟩ := hearly
  cases h with
  | opening h =>
    have hle := h.count_le hpart
    omega
  | @closing before hbefore after =>
    refine ⟨by simp, ?_, ?_⟩
    · rw [Set.mem_ofPred_eq, take_length_succ]
      exact count_lt_of_closing hbefore
    · intro i hi
      by_contra hlt
      have hopened : Opened before [] := .none hbefore
      have htake : (before ++ .char ']' :: after).take (i + 1) = before.take (i + 1) :=
        List.take_append_of_le_length (by omega)
      have hle := hopened.count_le (List.take_prefix (i + 1) before)
      rw [Set.mem_ofPred_eq, htake] at hi
      omega

/-- Otherwise the last opening bracket without partner is blamed, and what follows it is
balanced. -/
theorem isGreatest {script : Script} {position : Nat} (h : Blamed script position)
    (hnever : ∀ part, part <+: script → part.count (.char ']') ≤ part.count (.char '[')) :
    IsGreatest {i | script[i]? = some (.char '[') ∧ ∀ j, ¬ script.Partners i j} position ∧
      balanced (script.drop (position + 1)) = true := by
  cases h with
  | @closing before hbefore after =>
    have hlt := count_lt_of_closing hbefore
    have hle := hnever (before ++ [.char ']']) ⟨after, by simp⟩
    omega
  | opening h =>
    obtain ⟨before, inner, rfl, rfl, -, hinner⟩ := h.exists_inner
    have hsplit : before ++ .char '[' :: inner = (before ++ [.char '[']) ++ inner := by simp
    have hlength : (before ++ [Letter.char '[']).length = before.length + 1 := by simp
    refine ⟨⟨⟨by simp, ?_⟩, ?_⟩, ?_⟩
    · intro j hpartners
      have hlt := hpartners.1
      rw [hsplit] at hpartners
      exact Uncrossed.balanced_right _ hinner _ j (by omega) (by omega) hpartners
    · rintro i ⟨hopening, hnone⟩
      by_contra hlt
      obtain ⟨d, rfl⟩ : ∃ d, i = (before ++ [Letter.char '[']).length + d :=
        Nat.exists_eq_add_of_le (by omega)
      rw [hsplit, List.getElem?_append_right (by omega), Nat.add_sub_cancel_left] at hopening
      obtain ⟨e, he⟩ := exists_partner hinner hopening
      rw [hsplit] at hnone
      exact hnone _ ((partners_append_right _ _ d e).mpr he)
    · rwa [drop_length_succ]

end Blamed

/-- The bracket that is reported. If some prefix closes more brackets than it opens, it is the
closing bracket at the end of the shortest one. Otherwise, of an unbalanced script, it is the
last opening bracket without partner, and what follows it is balanced. Without the reported
bracket the script has exactly one bracket without partner less. -/
theorem reported_bracket (script : Script) :
    ((∃ part, part <+: script ∧ part.count (.char '[') < part.count (.char ']')) →
      ∃ i, script.unbalanced? = some i ∧ script[i]? = some (.char ']') ∧
        IsLeast {i | (script.take (i + 1)).count (.char '[') <
          (script.take (i + 1)).count (.char ']')} i) ∧
    ((∀ part, part <+: script → part.count (.char ']') ≤ part.count (.char '[')) →
      script.balanced = false →
      ∃ i, script.unbalanced? = some i ∧
        IsGreatest {i | script[i]? = some (.char '[') ∧ ∀ j, ¬ script.Partners i j} i ∧
        balanced (script.drop (i + 1)) = true) ∧
    ∀ i, script.unbalanced? = some i →
      (unmatched (script.eraseIdx i)).length + 1 = script.unmatched.length := by
  refine ⟨?_, ?_, ?_⟩
  · intro hearly
    have hbalanced : script.balanced = false := by
      rw [← Bool.not_eq_true]
      intro hbalanced
      obtain ⟨part, hpart, hcount⟩ := hearly
      have hopened : Opened script [] := .none hbalanced
      have hle := hopened.count_le hpart
      omega
    obtain ⟨i, hi, hblamed⟩ := exists_blamed hbalanced
    exact ⟨i, hi, hblamed.isLeast hearly⟩
  · intro hnever hbalanced
    obtain ⟨i, hi, hblamed⟩ := exists_blamed hbalanced
    exact ⟨i, hi, hblamed.isGreatest hnever⟩
  · intro i hi
    exact (blamed_of_unbalanced? hi).unmatched_eraseIdx

/-- A closing bracket that comes too early, with open brackets behind it; and two brackets
that stay open around one loop, of which the inner one is reported. -/
theorem reported_bracket_of_both_kinds :
    let early : Script := "[a]][["
    let late : Script := "[[+[]-"
    (∃ i, early.unbalanced? = some i ∧ i = 3 ∧
      IsLeast {i | (early.take (i + 1)).count (.char '[') <
        (early.take (i + 1)).count (.char ']')} i) ∧
    (∃ i, late.unbalanced? = some i ∧ i = 1 ∧
      IsGreatest {i | late[i]? = some (.char '[') ∧ ∀ j, ¬ late.Partners i j} i) ∧
    (unmatched (late.eraseIdx 1)).length + 1 = late.unmatched.length := by
  intro early late
  have hempty : Opened [] [] := .none rfl
  have houter : Opened "[" [0] := hempty.append_opening
  have hinner : Opened "[[" [1, 0] := houter.append_opening
  have hopened : Opened late [1, 0] :=
    hinner.append_balanced (show balanced "+[]-" = true by decide)
  obtain ⟨i, hi, -, hleast⟩ := (reported_bracket early).1 ⟨"[a]]", ⟨"[[", rfl⟩, by decide⟩
  obtain ⟨j, hj, hgreatest, -⟩ := (reported_bracket late).2.1
    (fun _ => hopened.count_le) (by decide)
  refine ⟨⟨i, hi, ?_, hleast⟩, ⟨j, hj, ?_, hgreatest⟩, ?_⟩
  · exact Option.some.inj (hi.symm.trans (by decide))
  · exact Option.some.inj (hj.symm.trans (by decide))
  · exact (reported_bracket late).2.2 1 (by decide)

end Brainfuck.Script
