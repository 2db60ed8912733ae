import Brainfuck.Proofs.Memory
import Brainfuck.Tracer.Render
import Mathlib.Algebra.Group.Int.Defs

/-!
The columns of a picture. The cells of the window, the caret and the addresses are three rows
of fields with one character between each two. As long as the fields in front are as wide as
a column, a field begins where its column does. A byte never needs more than a column, so the
first two rows always stand one under the other. An address may need more, and then it and
all that follow it are out of place.
-/
namespace Brainfuck

namespace Numeral

theorem isDigit_of_mem_natChars {n : Nat} {c : Char} (h : c ∈ natChars n) : c.isDigit = true :=
  Nat.isDigit_of_mem_toDigits (by decide) (by decide) h

/-- The library writes numbers in the same way. -/
theorem toList_toString_nat (n : Nat) : (toString n).toList = natChars n := Nat.toList_repr

theorem toList_toString_int (n : Int) : (toString n).toList = intChars n := by
  cases n with
  | ofNat n => exact toList_toString_nat n
  | negSucc n => simp [toString, Int.repr, natChars, intChars]

theorem length_natChars_le_iff {d : Nat} (hd : 0 < d) (n : Nat) :
    (natChars n).length ≤ d ↔ n < 10 ^ d :=
  Nat.length_toDigits_le_iff (by decide) hd

theorem length_natChars_le_three_iff (n : Nat) : (natChars n).length ≤ 3 ↔ n < 1000 :=
  length_natChars_le_iff (by decide) n

theorem intChars_of_nonneg {n : Int} (h : 0 ≤ n) : intChars n = natChars n.toNat := by
  obtain ⟨m, rfl⟩ := Int.eq_ofNat_of_zero_le h
  rfl

theorem length_intChars_le_three_iff {n : Int} (h : 0 ≤ n) :
    (intChars n).length ≤ 3 ↔ n < 1000 := by
  rw [intChars_of_nonneg h, length_natChars_le_three_iff]
  omega

theorem intChars_ne_nil (n : Int) : intChars n ≠ [] := by
  cases n with
  | ofNat n => exact Nat.toDigits_ne_nil
  | negSucc n => exact List.cons_ne_nil _ _

theorem isDigit_of_mem_intChars {n : Int} {c : Char} (h : c ∈ intChars n) :
    c = '-' ∨ c.isDigit = true := by
  cases n with
  | ofNat n => exact Or.inr (isDigit_of_mem_natChars h)
  | negSucc n =>
    rcases List.mem_cons.mp h with hsign | hdigit
    · exact Or.inl hsign
    · exact Or.inr (isDigit_of_mem_natChars hdigit)

theorem not_mem_intChars {c : Char} (hsign : c ≠ '-') (hdigit : c.isDigit = false) (n : Int) :
    c ∉ intChars n := by
  intro h
  rcases isDigit_of_mem_intChars h with rfl | hc
  · exact hsign rfl
  · rw [hdigit] at hc
    cases hc

theorem isWritable_iff (n : Int) : isWritable n = true ↔ n.natAbs < 10 ^ 4300 := by
  rw [isWritable, decide_eq_true_eq, maxDigits]
  exact length_natChars_le_iff (by decide) n.natAbs

theorem written_of_short {α : Type} {numbers : List Int}
    (h : ∀ n ∈ numbers, n.natAbs < 10 ^ 4300) (text : α) :
    written numbers text = .ok text := by
  have hnone : numbers.find? (fun n => !isWritable n) = none := by
    rw [List.find?_eq_none]
    intro n hn
    simp [(isWritable_iff n).mpr (h n hn)]
  rw [written, hnone]

theorem exists_written_error {α : Type} {numbers : List Int}
    (h : ¬ ∀ n ∈ numbers, n.natAbs < 10 ^ 4300) (text : α) :
    ∃ cause, written numbers text = .error cause ∧ cause.number ∈ numbers ∧
      10 ^ 4300 ≤ cause.number.natAbs := by
  cases hfind : numbers.find? (fun n => !isWritable n) with
  | none =>
    refine absurd (fun n hn => ?_) h
    have hwritable := List.find?_eq_none.mp hfind n hn
    exact (isWritable_iff n).mp (by simpa using hwritable)
  | some n =>
    have hlong : isWritable n = false := by simpa using List.find?_some hfind
    refine ⟨⟨n⟩, by rw [written, hfind], List.mem_of_find?_eq_some hfind, ?_⟩
    rw [← Nat.not_lt, ← isWritable_iff, hlong]
    exact Bool.false_ne_true

end Numeral

namespace Observed

open Numeral

section Words

/-- What stands between the blanks of a text. -/
def words (text : List Char) : List (List Char) := (text.splitOn ' ').filter (· ≠ [])

theorem words_append_blank (left right : List Char) :
    words (left ++ ' ' :: right) = words left ++ words right := by
  rw [words, List.splitOn_eq_splitOnP, List.splitOnP_append_cons left right (by decide),
    List.filter_append]
  rfl

theorem words_replicate_append (n : Nat) (text : List Char) :
    words (List.replicate n ' ' ++ text) = words text := by
  induction n with
  | zero => rfl
  | succ n ih => exact (words_append_blank [] _).trans ih

theorem words_of_not_mem {text : List Char} (hblank : ' ' ∉ text) (hne : text ≠ []) :
    words text = [text] := by
  have hsplit : text.splitOn ' ' = [text] := by
    rw [List.splitOn_eq_splitOnP]
    apply List.splitOnP_eq_singleton
    intro c hc
    simp only [beq_eq_false_iff_ne]
    rintro rfl
    exact hblank hc
  rw [words, hsplit]
  simp [hne]

theorem words_intercalate (fields : List (List Char)) :
    words ([' '].intercalate fields) = fields.flatMap words := by
  induction fields with
  | nil => rfl
  | cons field fields ih =>
    cases fields with
    | nil => simp
    | cons next fields =>
      rw [List.intercalate_cons_cons, List.append_assoc, List.singleton_append,
        words_append_blank, ih]
      rfl

end Words

/-- A field is found behind the fields before it, each with its separator. -/
theorem intercalate_split (separator : Char) (front : List (List Char)) (field : List Char)
    (back : List (List Char)) :
    [separator].intercalate (front ++ field :: back) =
      front.flatMap (· ++ [separator]) ++ (field ++ back.flatMap (separator :: ·)) := by
  induction front with
  | nil =>
    induction back generalizing field with
    | nil => simp
    | cons next back ih =>
      have hnext := ih next
      simp only [List.nil_append, List.flatMap_nil] at hnext ⊢
      rw [List.intercalate_cons_cons, hnext]
      simp
  | cons first front ih =>
    obtain ⟨second, rest, hrest⟩ : ∃ second rest, front ++ field :: back = second :: rest :=
      List.exists_cons_of_ne_nil (by simp)
    rw [List.cons_append, hrest, List.intercalate_cons_cons, ← hrest, ih]
    simp

section Rows

/-- A row of a picture: fields with a separator between each two, behind a head and in front
of a tail. -/
def row (head : List Char) (separator : Char) (field : Nat → List Char) (count : Nat)
    (tail : List Char) : List Char :=
  head ++ [separator].intercalate ((List.range count).map field) ++ tail

/-- What stands in front of the `k`-th field. -/
def rowFront (head : List Char) (separator : Char) (field : Nat → List Char) (k : Nat) :
    List Char :=
  head ++ (List.range k).flatMap fun i => field i ++ [separator]

/-- What stands behind the `k`-th field. -/
def rowBack (separator : Char) (field : Nat → List Char) (count : Nat) (tail : List Char)
    (k : Nat) : List Char :=
  ((List.range' (k + 1) (count - (k + 1))).flatMap fun i => separator :: field i) ++ tail

variable {head tail : List Char} {separator : Char} {field : Nat → List Char} {count k : Nat}

theorem row_split (hk : k < count) :
    row head separator field count tail =
      rowFront head separator field k ++ (field k ++ rowBack separator field count tail k) := by
  have hrange : List.range count = List.range k ++ k :: List.range' (k + 1) (count - (k + 1)) := by
    have happend := @List.range'_append_1 0 k (count - (k + 1) + 1)
    rw [Nat.zero_add] at happend
    rw [List.range_eq_range', List.range_eq_range', ← List.range'_succ, happend]
    congr 1
    omega
  rw [row, hrange, List.map_append, List.map_cons, intercalate_split, List.flatMap_map,
    List.flatMap_map, rowFront, rowBack]
  simp only [List.append_assoc]

theorem take_row (hhead : head.length = 11) :
    (row head separator field count tail).take 11 = head := by
  rw [row, List.append_assoc, ← hhead, List.take_left]

theorem drop_row (hhead : head.length = 11) :
    (row head separator field count tail).drop 11 =
      [separator].intercalate ((List.range count).map field) ++ tail := by
  rw [row, List.append_assoc, ← hhead, List.drop_left]

theorem length_rowFront (hhead : head.length = 11) (hwidth : ∀ i < k, (field i).length = 3) :
    (rowFront head separator field k).length = 11 + 4 * k := by
  induction k with
  | zero => simpa [rowFront] using hhead
  | succ k ih =>
    have hbefore := ih fun i hi => hwidth i (by omega)
    have hfield := hwidth k (by omega)
    simp only [rowFront, List.length_append, List.range_succ, List.flatMap_append,
      List.flatMap_singleton, List.length_singleton] at hbefore ⊢
    omega

/-- Behind fields of the width of a column a field begins at its own column. -/
theorem drop_row_column (hhead : head.length = 11) (hk : k < count)
    (hwidth : ∀ i < k, (field i).length = 3) :
    (row head separator field count tail).drop (11 + 4 * k) =
      field k ++ rowBack separator field count tail k := by
  rw [row_split hk, ← length_rowFront hhead hwidth, List.drop_left]

theorem row_column (hhead : head.length = 11) (hk : k < count)
    (hwidth : ∀ i ≤ k, (field i).length = 3) :
    ((row head separator field count tail).drop (11 + 4 * k)).take 3 = field k := by
  rw [drop_row_column hhead hk fun i hi => hwidth i (Nat.le_of_lt hi), ← hwidth k (Nat.le_refl k),
    List.take_left]

/-- Between two columns stands the separator, and behind the last one the tail. -/
theorem getElem?_row_behind (hhead : head.length = 11) (hk : k < count)
    (hwidth : ∀ i ≤ k, (field i).length = 3) :
    (row head separator field count tail)[14 + 4 * k]? =
      if k + 1 = count then tail.head? else some separator := by
  have hfield := hwidth k (Nat.le_refl k)
  rw [show 14 + 4 * k = 11 + 4 * k + 3 by omega, ← List.getElem?_drop,
    drop_row_column hhead hk fun i hi => hwidth i (Nat.le_of_lt hi), ← hfield,
    List.getElem?_append_right (Nat.le_refl _), Nat.sub_self, rowBack]
  by_cases hlast : k + 1 = count
  · simp [hlast, List.head?_eq_getElem?]
  · obtain ⟨rest, hrest⟩ : ∃ rest, count - (k + 1) = rest + 1 :=
      ⟨count - (k + 1) - 1, by omega⟩
    simp [hlast, hrest, List.range'_succ]

theorem length_row (hhead : head.length = 11) (hcount : 0 < count)
    (hwidth : ∀ i < count, (field i).length = 3) :
    (row head separator field count tail).length + 1 = 11 + 4 * count + tail.length := by
  -- Nothing but the tail stands behind the last field.
  have hlast : count - 1 < count := by omega
  have hbehind : count - (count - 1 + 1) = 0 := by omega
  rw [row_split hlast, List.length_append, List.length_append,
    length_rowFront hhead fun i hi => hwidth i (by omega), hwidth _ hlast, rowBack, hbehind]
  simp only [List.range'_zero, List.flatMap_nil, List.nil_append]
  omega

theorem not_mem_rowFront {c : Char} (hhead : c ∉ head) (hseparator : c ≠ separator)
    (hfield : ∀ i < k, c ∉ field i) : c ∉ rowFront head separator field k := by
  simp only [rowFront, List.mem_append, List.mem_flatMap, List.mem_range, List.mem_singleton]
  rintro (hc | ⟨i, hi, hc | hc⟩)
  · exact hhead hc
  · exact hfield i hi hc
  · exact hseparator hc

theorem not_mem_rowBack {c : Char} (htail : c ∉ tail) (hseparator : c ≠ separator)
    (hfield : ∀ i, k < i → c ∉ field i) : c ∉ rowBack separator field count tail k := by
  simp only [rowBack, List.mem_append, List.mem_flatMap, List.mem_range'_1, List.mem_cons]
  rintro (⟨i, hi, hc | hc⟩ | hc)
  · exact hseparator hc
  · exact hfield i (by omega) hc
  · exact htail hc

theorem not_mem_row {c : Char} (hhead : c ∉ head) (hseparator : c ≠ separator)
    (hfield : ∀ i, c ∉ field i) (htail : c ∉ tail) :
    c ∉ row head separator field count tail := by
  cases count with
  | zero => simpa [row] using ⟨hhead, htail⟩
  | succ count =>
    rw [row_split (Nat.zero_lt_succ count)]
    simp only [List.mem_append, not_or]
    exact ⟨not_mem_rowFront hhead hseparator fun i _ => hfield i, hfield 0,
      not_mem_rowBack htail hseparator fun i _ => hfield i⟩

end Rows

/-- A text stands right-aligned in the `k`-th column of a row: the text and the blanks in front
of it are the three characters from place `11 + 4 * k` on. -/
def StandsIn (text line : List Char) (k : Nat) : Prop :=
  text.length ≤ 3 ∧
    (line.drop (11 + 4 * k)).take 3 = List.replicate (3 - text.length) ' ' ++ text

instance (text line : List Char) (k : Nat) : Decidable (StandsIn text line k) :=
  inferInstanceAs (Decidable (_ ∧ _))

theorem length_inColumn {text : List Char} (h : text.length ≤ 3) : (inColumn text).length = 3 := by
  simp only [inColumn, columnWidth, List.length_append, List.length_replicate]
  omega

/-- Behind texts that fit into a column a text stands in its own one. -/
theorem standsIn_row {head tail : List Char} {separator : Char} {text : Nat → List Char}
    {count k : Nat} (hhead : head.length = 11) (hk : k < count)
    (hshort : ∀ i ≤ k, (text i).length ≤ 3) :
    StandsIn (text k) (row head separator (fun i => inColumn (text i)) count tail) k := by
  refine ⟨hshort k (Nat.le_refl k), ?_⟩
  rw [row_column hhead hk fun i hi => length_inColumn (hshort i hi)]
  rfl

variable (o : Observed)

/-- The value of the `k`-th cell of the window. -/
def cellText (k : Nat) : List Char := natChars (o.machine.tape.get (o.windowStart + k)).toNat

/-- The address of the `k`-th cell of the window. -/
def addressText (k : Nat) : List Char := intChars (o.windowStart + k)

/-- What stands under the `k`-th cell of the window: a caret under the one in the middle. -/
def slot (k : Nat) : List Char :=
  if k = o.tracer.showRange.val / 2 then [' ', '^', ' '] else [' ', ' ', ' ']

theorem windowCells_eq :
    o.windowCells = (List.range o.tracer.showRange.val).map fun (k : Nat) =>
      o.machine.tape.get (o.windowStart + k) := by
  have hle : o.windowStart ≤ o.windowStart + o.tracer.showRange.val := by omega
  have hcount : (o.windowStart + o.tracer.showRange.val - o.windowStart).toNat =
      o.tracer.showRange.val := by omega
  rw [windowCells, o.machine.tape.window_eq_lookups hle, hcount]
  simp [Tape.lookups]

theorem memoryLine_eq :
    o.memoryLine = row "Memory:   [".toList '|' (fun k => inColumn (o.cellText k))
      o.tracer.showRange.val [']'] := by
  unfold memoryLine
  rw [windowCells_eq, List.map_map]
  rfl

theorem pointerLine_eq :
    o.pointerLine = row "Pointer:   ".toList ' ' o.slot o.tracer.showRange.val [] := by
  have hcaret (k : Nat) :
      o.windowStart + k = o.machine.dptr ↔ k = o.tracer.showRange.val / 2 := by
    rw [windowStart]
    omega
  unfold pointerLine
  rw [addresses, List.map_map, row, List.append_nil]
  simp only [Function.comp_def, hcaret]
  rfl

theorem addressLine_eq :
    o.addressLine = row "Address:   ".toList ' ' (fun k => inColumn (o.addressText k))
      o.tracer.showRange.val [] := by
  unfold addressLine
  rw [addresses, List.map_map, row, List.append_nil]
  rfl

theorem length_cellText (k : Nat) : (o.cellText k).length ≤ 3 := by
  have hlt : (o.machine.tape.get (o.windowStart + k)).toNat < 256 := UInt8.toNat_lt _
  exact (length_natChars_le_three_iff _).mpr (by omega)

theorem length_slot (k : Nat) : (o.slot k).length = 3 := by
  rw [slot]
  split <;> rfl

theorem half_lt : o.tracer.showRange.val / 2 < o.tracer.showRange.val :=
  Nat.div_lt_self o.tracer.showRange.pos (by decide)

/-- The value of a cell stands in the column of the cell. -/
theorem cellText_standsIn {k : Nat} (hk : k < o.tracer.showRange.val) :
    StandsIn (o.cellText k) o.memoryLine k := by
  rw [memoryLine_eq]
  exact standsIn_row (by decide) hk fun i _ => o.length_cellText i

theorem pointerLine_column {k : Nat} (hk : k < o.tracer.showRange.val) :
    (o.pointerLine.drop (11 + 4 * k)).take 3 = o.slot k := by
  rw [pointerLine_eq]
  exact row_column (by decide) hk fun i _ => o.length_slot i

/-- The row of the caret, split at the caret. -/
theorem exists_pointerLine_split : ∃ left right, o.pointerLine = left ++ '^' :: right ∧
    left.length = 11 + 4 * (o.tracer.showRange.val / 2) + 1 ∧ '^' ∉ left ∧ '^' ∉ right := by
  have hslot {i : Nat} (hi : i ≠ o.tracer.showRange.val / 2) : '^' ∉ o.slot i := by
    simp [slot, hi]
  have hmiddle : o.slot (o.tracer.showRange.val / 2) = [' ', '^', ' '] := if_pos rfl
  have hbefore : '^' ∉ rowFront "Pointer:   ".toList ' ' o.slot (o.tracer.showRange.val / 2) :=
    not_mem_rowFront (by decide) (by decide) fun i hi => hslot (Nat.ne_of_lt hi)
  have hbehind :
      '^' ∉ rowBack ' ' o.slot o.tracer.showRange.val [] (o.tracer.showRange.val / 2) :=
    not_mem_rowBack List.not_mem_nil (by decide) fun i hi => hslot (Nat.ne_of_gt hi)
  refine ⟨rowFront "Pointer:   ".toList ' ' o.slot (o.tracer.showRange.val / 2) ++ [' '],
    ' ' :: rowBack ' ' o.slot o.tracer.showRange.val [] (o.tracer.showRange.val / 2),
    ?_, ?_, ?_, ?_⟩
  · rw [pointerLine_eq, row_split o.half_lt, hmiddle]
    simp
  · rw [List.length_append, length_rowFront (by decide) fun i _ => o.length_slot i]
    rfl
  · simpa using hbefore
  · simpa using hbehind

/-- Between the blanks of the row of addresses stand the addresses. -/
theorem words_addressLine :
    words (o.addressLine.drop 11) = (List.range o.tracer.showRange.val).map o.addressText := by
  have hword (k : Nat) : words (inColumn (o.addressText k)) = [o.addressText k] := by
    rw [inColumn, words_replicate_append]
    exact words_of_not_mem (not_mem_intChars (by decide) (by decide) _) (intChars_ne_nil _)
  rw [addressLine_eq, drop_row (by decide), List.append_nil, words_intercalate, List.flatMap_map]
  simp only [hword]
  exact List.map_eq_flatMap.symm

theorem length_memoryLine : o.memoryLine.length = 11 + 4 * o.tracer.showRange.val := by
  rw [memoryLine_eq]
  exact Nat.succ.inj (length_row (by decide) o.tracer.showRange.pos fun i _ =>
    length_inColumn (o.length_cellText i))

theorem length_pointerLine : o.pointerLine.length + 1 = 11 + 4 * o.tracer.showRange.val := by
  rw [pointerLine_eq]
  exact length_row (by decide) o.tracer.showRange.pos fun i _ => o.length_slot i

theorem memoryLine_behind_column {k : Nat} (hk : k < o.tracer.showRange.val) :
    o.memoryLine[14 + 4 * k]? =
      some (if k + 1 = o.tracer.showRange.val then ']' else '|') := by
  rw [memoryLine_eq, getElem?_row_behind (by decide) hk fun i _ =>
    length_inColumn (o.length_cellText i)]
  split <;> rfl

theorem pointerLine_behind_column {k : Nat} (hk : k + 1 < o.tracer.showRange.val) :
    o.pointerLine[14 + 4 * k]? = some ' ' := by
  rw [pointerLine_eq, getElem?_row_behind (by decide) (by omega) fun i _ => o.length_slot i]
  exact if_neg (Nat.ne_of_lt hk)

/-- All integers that a picture writes, but for those that are always short. -/
def figures : List Int := o.addresses ++ [(o.machine.cycles : Int), o.machine.loops.length]

/-- The rows of cells, of the caret and of addresses as lines, one below the other. -/
def rows : Text :=
  Text.ofChars (o.memoryLine ++ '\n' :: (o.pointerLine ++ '\n' :: o.addressLine))

theorem exists_render_split (h : ∀ n ∈ o.figures, n.natAbs < 10 ^ 4300) :
    ∃ above below, o.render = .ok (above ++ .char '\n' :: (o.rows ++ .char '\n' :: below)) := by
  obtain ⟨haddresses, hcounters⟩ := List.forall_mem_append.mp h
  refine ⟨programLine o.machine,
    Text.ofChars (counterLine o.machine ++ '\n' :: outputLine o.machine), ?_⟩
  rw [render, lines, written_of_short haddresses, written_of_short hcounters]
  apply congrArg Except.ok
  simp only [List.map_cons, List.map_nil, List.intercalate_cons_cons, List.intercalate_singleton,
    rows, Text.ofChars, List.map_append, List.append_assoc, List.cons_append, List.nil_append]

/-- A picture with a number that is too long is refused. -/
theorem exists_render_error (h : ¬ ∀ n ∈ o.figures, n.natAbs < 10 ^ 4300) :
    ∃ cause, o.render = .error cause ∧ cause.number ∈ o.figures ∧
      10 ^ 4300 ≤ cause.number.natAbs := by
  rw [figures, List.forall_mem_append] at h
  by_cases haddresses : ∀ n ∈ o.addresses, n.natAbs < 10 ^ 4300
  · obtain ⟨cause, hwritten, hmem, hlong⟩ := exists_written_error (fun hcounters =>
      h ⟨haddresses, hcounters⟩) (counterLine o.machine)
    refine ⟨cause, ?_, List.mem_append_right _ hmem, hlong⟩
    rw [render, lines, written_of_short haddresses, hwritten]
    rfl
  · obtain ⟨cause, hwritten, hmem, hlong⟩ := exists_written_error haddresses o.addressLine
    refine ⟨cause, ?_, List.mem_append_left _ hmem, hlong⟩
    rw [render, lines, hwritten]
    rfl

/-- The numbers in a picture are short if the addresses of its window and its counters are. -/
theorem forall_figures_iff (bound : Nat) :
    (∀ n ∈ o.figures, n.natAbs < bound) ↔
      (∀ k < o.tracer.showRange.val, (o.windowStart + k).natAbs < bound) ∧
        o.machine.cycles < bound ∧ o.machine.loops.length < bound := by
  rw [figures, List.forall_mem_append, addresses, List.forall_mem_map]
  simp

/-- Every picture shows the address of the data pointer. -/
theorem dptr_mem_figures : o.machine.dptr ∈ o.figures := by
  apply List.mem_append_left
  rw [addresses, List.mem_map]
  refine ⟨o.tracer.showRange.val / 2, List.mem_range.mpr o.half_lt, ?_⟩
  rw [windowStart]
  omega

theorem exists_render_error_of_dptr (h : 10 ^ 4300 ≤ o.machine.dptr.natAbs) :
    ∃ cause, o.render = .error cause := by
  obtain ⟨cause, hrender, -⟩ := o.exists_render_error fun hshort =>
    Nat.not_lt.mpr h (hshort _ o.dptr_mem_figures)
  exact ⟨cause, hrender⟩

theorem not_mem_inColumn {c : Char} {text : List Char} (hblank : c ≠ ' ') (h : c ∉ text) :
    c ∉ inColumn text := by
  simp [inColumn, hblank, h]

theorem newline_not_mem_rows :
    '\n' ∉ o.memoryLine ∧ '\n' ∉ o.pointerLine ∧ '\n' ∉ o.addressLine := by
  refine ⟨?_, ?_, ?_⟩
  · rw [memoryLine_eq]
    refine not_mem_row (by decide) (by decide) (fun i => ?_) (by decide)
    apply not_mem_inColumn (by decide)
    intro hc
    have hdigit := isDigit_of_mem_natChars hc
    cases hdigit
  · rw [pointerLine_eq]
    refine not_mem_row (by decide) (by decide) (fun i => ?_) (by decide)
    rw [slot]
    split <;> decide
  · rw [addressLine_eq]
    exact not_mem_row (by decide) (by decide)
      (fun i => not_mem_inColumn (by decide) (not_mem_intChars (by decide) (by decide) _))
      (by decide)

/-- The picture points at the right cell. There is one as long as the addresses of its window and
its counters have at most 4300 digits, and else it is refused because of such a number. Its rows
of cells, of the caret and of addresses are lines of their own behind heads of eleven characters.
In the first one the value of each cell of the window stands right-aligned in a column of three
characters. The second one has the same columns, and its only caret is in the middle of the
column of the cell at the data pointer. The words of the third one are the addresses of the
cells. -/
theorem rows_point_at_cell (o : Observed) :
    let r := o.tracer.showRange.val
    let start : Int := o.machine.dptr - (r : Int) / 2
    let short := (∀ k < r, (start + k).natAbs < 10 ^ 4300) ∧
      o.machine.cycles < 10 ^ 4300 ∧ o.machine.loops.length < 10 ^ 4300
    (short → ∃ above below,
      o.render = .ok (above ++ .char '\n' :: (o.rows ++ .char '\n' :: below))) ∧
    (¬ short → ∃ cause, o.render = .error cause ∧ 10 ^ 4300 ≤ cause.number.natAbs) ∧
    ('\n' ∉ o.memoryLine ∧ '\n' ∉ o.pointerLine ∧ '\n' ∉ o.addressLine) ∧
    (o.memoryLine.take 11 = "Memory:   [".toList ∧ o.memoryLine.length = 11 + 4 * r ∧
      ∀ k < r, StandsIn (toString (o.machine.tape.get (start + k)).toNat).toList o.memoryLine k ∧
        o.memoryLine[14 + 4 * k]? = some (if k + 1 = r then ']' else '|')) ∧
    (o.pointerLine.take 11 = "Pointer:   ".toList ∧ o.pointerLine.length + 1 = 11 + 4 * r ∧
      (∀ k < r, (o.pointerLine.drop (11 + 4 * k)).take 3 =
        if k = r / 2 then [' ', '^', ' '] else [' ', ' ', ' ']) ∧
      (∀ k, k + 1 < r → o.pointerLine[14 + 4 * k]? = some ' ') ∧
      o.pointerLine.count '^' = 1 ∧ o.pointerLine[11 + 4 * (r / 2) + 1]? = some '^' ∧
      r / 2 < r ∧ start + (r / 2 : Nat) = o.machine.dptr ∧
      StandsIn (toString o.machine.cell.toNat).toList o.memoryLine (r / 2)) ∧
    (o.addressLine.take 11 = "Address:   ".toList ∧
      words (o.addressLine.drop 11) =
        (List.range r).map fun (k : Nat) => (toString (start + k)).toList) := by
  intro r start
  have hstart : o.windowStart = start := by
    simp only [windowStart, start, r]
    omega
  have hmiddle : start + (r / 2 : Nat) = o.machine.dptr := by
    simp only [start]
    omega
  obtain ⟨left, right, hcaret, hleft, hnotLeft, hnotRight⟩ := o.exists_pointerLine_split
  intro short
  have hshort : (∀ n ∈ o.figures, n.natAbs < 10 ^ 4300) ↔ short := by
    rw [forall_figures_iff, hstart]
  refine ⟨fun h => o.exists_render_split (hshort.mpr h), ?_, o.newline_not_mem_rows,
    ⟨?_, o.length_memoryLine, ?_⟩, ⟨?_, o.length_pointerLine, fun k hk => o.pointerLine_column hk,
      fun k hk => o.pointerLine_behind_column hk, ?_, ?_, o.half_lt, hmiddle, ?_⟩, ?_, ?_⟩
  · intro h
    obtain ⟨cause, hrender, -, hlong⟩ := o.exists_render_error (mt hshort.mp h)
    exact ⟨cause, hrender, hlong⟩
  · rw [memoryLine_eq]
    exact take_row (by decide)
  · intro k hk
    have hcell := o.cellText_standsIn hk
    rw [cellText, hstart, ← toList_toString_nat] at hcell
    exact ⟨hcell, o.memoryLine_behind_column hk⟩
  · rw [pointerLine_eq]
    exact take_row (by decide)
  · rw [hcaret, List.count_append, List.count_cons_self, List.count_eq_zero_of_not_mem hnotLeft,
      List.count_eq_zero_of_not_mem hnotRight]
  · rw [hcaret, ← hleft]
    simp
  · have hcell := o.cellText_standsIn o.half_lt
    rw [cellText, hstart, hmiddle, ← toList_toString_nat] at hcell
    exact hcell
  · rw [addressLine_eq]
    exact take_row (by decide)
  · simp only [words_addressLine, toList_toString_int, ← hstart]
    rfl

/-- An even window around a full cell to the left of zero. -/
theorem rows_point_at_cell_left_of_zero :
    let m : Machine :=
      { settings := {}, memoryLength := ⟨1, by decide⟩, tape := Tape.set {} (-1) 255, dptr := -1
        channels := .separate {} {} }
    let o : Observed := ⟨m, { showRange := ⟨4, by decide⟩ }⟩
    (∃ above below, o.render = .ok (above ++ .char '\n' :: (o.rows ++ .char '\n' :: below))) ∧
      StandsIn ['2', '5', '5'] o.memoryLine 2 ∧ o.pointerLine[20]? = some '^' ∧
      words (o.addressLine.drop 11) = [['-', '3'], ['-', '2'], ['-', '1'], ['0']] := by
  intro m o
  have hsmall {n d : Nat} (h : n < 10) (hd : d ≠ 0) : n < 10 ^ d :=
    Nat.lt_of_lt_of_le h (Nat.le_self_pow hd 10)
  have hzero {d : Nat} (hd : d ≠ 0) : 0 < 10 ^ d := hsmall (by decide) hd
  have hwindow : ∀ k : Nat, k < 4 → (-3 + (k : Int)).natAbs < 10 := by decide
  have hhalf : o.tracer.showRange.val / 2 = 2 := by decide
  have hstart : o.machine.dptr - (o.tracer.showRange.val : Int) / 2 = -3 := by decide
  have hvalue : natChars o.machine.cell.toNat = ['2', '5', '5'] := by decide
  obtain ⟨hpicture, -, -, -, ⟨-, -, -, -, -, hcaret, -, -, hcell⟩, -, haddresses⟩ :=
    rows_point_at_cell o
  rw [toList_toString_nat, hvalue, hhalf] at hcell
  rw [hhalf] at hcaret
  simp only [toList_toString_int, hstart] at haddresses
  refine ⟨hpicture ⟨fun k hk => ?_, hzero (by decide), hzero (by decide)⟩, hcell, hcaret,
    haddresses.trans (by decide)⟩
  rw [hstart]
  exact hsmall (hwindow k hk) (by decide)

/-- The address of the data pointer itself may be too long for a picture. -/
theorem long_address_refused :
    let m : Machine :=
      { settings := {}, memoryLength := ⟨1, by decide⟩, dptr := 10 ^ 4300
        channels := .separate {} {} }
    let o : Observed := ⟨m, { showRange := ⟨1, by decide⟩ }⟩
    ¬ ∃ above below, o.render = .ok (above ++ .char '\n' :: (o.rows ++ .char '\n' :: below)) := by
  intro m o
  have hpower (d : Nat) : 10 ^ d ≤ ((10 : Int) ^ d).natAbs := (Int.natAbs_pow 10 d).ge
  have hlong : 10 ^ 4300 ≤ o.machine.dptr.natAbs := hpower 4300
  obtain ⟨cause, hrender⟩ := o.exists_render_error_of_dptr hlong
  rintro ⟨above, below, htext⟩
  rw [hrender] at htext
  cases htext

/-- The cells of the window are cells of the nominal memory. -/
def InNominalMemory : Prop :=
  0 ≤ o.windowStart ∧ o.windowStart + o.tracer.showRange.val ≤ o.machine.memoryLength.val

instance : Decidable o.InNominalMemory := inferInstanceAs (Decidable (_ ∧ _))

/-- Where addresses are not negative, they ascend to the first one that is too wide, so one stands
in its column exactly if it fits into a column. -/
theorem addressText_standsIn_iff (hstart : 0 ≤ o.windowStart) {k : Nat}
    (hk : k < o.tracer.showRange.val) :
    StandsIn (o.addressText k) o.addressLine k ↔ o.windowStart + k < 1000 := by
  constructor
  · rintro ⟨hshort, -⟩
    exact (length_intChars_le_three_iff (by omega)).mp hshort
  · intro hlast
    rw [addressLine_eq]
    refine standsIn_row (by decide) hk fun i hi => ?_
    exact (length_intChars_le_three_iff (by omega)).mpr (by omega)

/-- Addresses below one thousand stand under their cells. In a window inside the nominal memory
the value of each cell and its place for a caret share one column of three characters. Its
address stands in the same column if it is below one thousand and only then, so that all of
them do in a nominal memory of up to one thousand cells. -/
theorem short_addresses_stand_under_cells (o : Observed) (h : o.InNominalMemory) {k : Nat}
    (hk : k < o.tracer.showRange.val) :
    StandsIn (natChars (o.machine.tape.get (o.windowStart + k)).toNat) o.memoryLine k ∧
    ((o.pointerLine.drop (11 + 4 * k)).take 3 =
      if o.windowStart + k = o.machine.dptr then [' ', '^', ' '] else [' ', ' ', ' ']) ∧
    (StandsIn (intChars (o.windowStart + k)) o.addressLine k ↔ o.windowStart + k < 1000) ∧
    (o.machine.memoryLength.val ≤ 1000 →
      StandsIn (intChars (o.windowStart + k)) o.addressLine k) := by
  have haddress := o.addressText_standsIn_iff h.1 hk
  refine ⟨o.cellText_standsIn hk, ?_, haddress, ?_⟩
  · rw [pointerLine_column o hk, slot]
    congr 1
    rw [windowStart, eq_iff_iff]
    omega
  · intro hlength
    have hlast := h.2
    exact haddress.mpr (by omega)

/-- Around address 1000 of the default memory: the last short address is in its column, and the
next one is not. -/
theorem short_addresses_stand_under_cells_near_1000 :
    let m : Machine :=
      { settings := {}, memoryLength := ⟨30000, by decide⟩, dptr := 1000
        channels := .separate {} {} }
    let o : Observed := ⟨m, { showRange := ⟨10, by decide⟩ }⟩
    o.InNominalMemory ∧ o.windowStart = 995 ∧ StandsIn (intChars 999) o.addressLine 4 ∧
      ¬ StandsIn (intChars 1000) o.addressLine 5 := by
  intro m o
  have hinside : o.InNominalMemory := by decide
  obtain ⟨-, -, hshort, -⟩ := short_addresses_stand_under_cells o hinside (k := 4) (by decide)
  obtain ⟨-, -, hlong, -⟩ := short_addresses_stand_under_cells o hinside (k := 5) (by decide)
  rw [show o.windowStart + (4 : Nat) = 999 by decide] at hshort
  rw [show o.windowStart + (5 : Nat) = 1000 by decide] at hlong
  exact ⟨hinside, by decide, hshort.mpr (by decide), fun h => absurd (hlong.mp h) (by decide)⟩

/-- In the default memory there are addresses that do not stand under their cells. -/
theorem long_address_out_of_column :
    ¬ ∀ (o : Observed) (k : Nat), o.InNominalMemory → k < o.tracer.showRange.val →
      StandsIn (intChars (o.windowStart + k)) o.addressLine k := by
  intro hall
  let m : Machine :=
    { settings := {}, memoryLength := ⟨30000, by decide⟩, dptr := 1000
      channels := .separate {} {} }
  have hstands := hall ⟨m, { showRange := ⟨10, by decide⟩ }⟩ 5 (by decide) (by decide)
  exact absurd hstands (by decide)

end Observed

end Brainfuck
