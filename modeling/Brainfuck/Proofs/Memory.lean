import Brainfuck.Tape
import Brainfuck.Proofs.Sequences
import Mathlib.Data.Finset.Sort

/-!
The tape as a memory. What a tape holds is a total function from indices to the integers below
256 together with the set of the indices that were written, and every operation does to the
tape what it does to these two, so that a sequence of operations cannot tell the tape from
them. A window is made by scattering the written cells into zeros, and this comes to the same
as looking up each index of it, in whatever order the cells are scattered.
-/
namespace Brainfuck

namespace Tape

theorem mem_items_iff (tape : Tape) (i : Int) (byte : UInt8) :
    (i, byte) ∈ tape.items ↔ tape.isWritten i = true ∧ tape.get i = byte := by
  rw [items, Std.TreeMap.mem_toList_iff_getElem?_eq_some, isWritten, get,
    Std.TreeMap.contains_eq_isSome_getElem?, Std.TreeMap.getD_eq_getD_getElem?]
  cases tape.cells[i]? <;> simp

theorem mem_map_fst_items_iff (tape : Tape) (i : Int) :
    i ∈ tape.items.map Prod.fst ↔ tape.isWritten i = true := by
  rw [List.mem_map]
  constructor
  · rintro ⟨⟨j, byte⟩, hcell, rfl⟩
    exact ((tape.mem_items_iff j byte).mp hcell).1
  · intro hwritten
    exact ⟨(i, tape.get i), (tape.mem_items_iff i _).mpr ⟨hwritten, rfl⟩, rfl⟩

theorem get_of_not_isWritten {tape : Tape} {i : Int} (h : tape.isWritten i = false) :
    tape.get i = 0 := by
  rw [isWritten, Std.TreeMap.contains_eq_isSome_getElem?, Option.isSome_eq_false_iff,
    Option.isNone_iff_eq_none] at h
  rw [get, Std.TreeMap.getD_eq_getD_getElem?, h]
  rfl

theorem items_ascending (tape : Tape) : tape.items.Pairwise fun a b => a.1 < b.1 := by
  apply List.Pairwise.imp _ Std.TreeMap.ordered_keys_toList
  intro a b hab
  exact compare_lt_iff_lt.mp hab

theorem keys_ascending (tape : Tape) : (tape.items.map Prod.fst).Pairwise (· < ·) :=
  List.pairwise_map.mpr tape.items_ascending

theorem size_scatter (start stop : Int) (view : Array UInt8) (i : Int) (byte : UInt8) :
    (scatter start stop view i byte).size = view.size := by
  unfold scatter
  split
  · exact Array.size_setIfInBounds
  · rfl

theorem getElem?_scatter {start stop : Int} {view : Array UInt8} {k : Nat} (hk : k < view.size)
    (hstop : start + k < stop) (i : Int) (byte : UInt8) :
    (scatter start stop view i byte)[k]? = if i = start + k then some byte else view[k]? := by
  unfold scatter
  by_cases hi : i = start + k
  · have hindex : (i - start).toNat = k := by omega
    have hinside : (decide (start ≤ i) && decide (i < stop)) = true := by
      rw [Bool.and_eq_true, decide_eq_true_eq, decide_eq_true_eq]
      omega
    rw [if_pos hinside, if_pos hi, hindex, Array.getElem?_setIfInBounds_self_of_lt hk]
  · rw [if_neg hi]
    split
    · next hinside =>
      rw [Bool.and_eq_true, decide_eq_true_eq] at hinside
      have hindex : (i - start).toNat ≠ k := by omega
      exact Array.getElem?_setIfInBounds_ne hindex
    · rfl

/-- Copies cells into a view of those from `start` up to `stop`, one after the other. -/
def scatterAll (start stop : Int) (view : Array UInt8) (cells : List (Int × UInt8)) :
    Array UInt8 :=
  cells.foldl (fun view cell => scatter start stop view cell.1 cell.2) view

theorem size_scatterAll (start stop : Int) (view : Array UInt8) (cells : List (Int × UInt8)) :
    (scatterAll start stop view cells).size = view.size := by
  induction cells generalizing view with
  | nil => rfl
  | cons cell cells ih => exact (ih _).trans (size_scatter start stop view cell.1 cell.2)

/-- Cells that are told by a function end up in a view as the function says, and so do the
entries that were right before. -/
theorem getElem?_scatterAll {start stop : Int} {value : Int → UInt8}
    {cells : List (Int × UInt8)} (hcells : ∀ cell ∈ cells, value cell.1 = cell.2)
    {view : Array UInt8} {k : Nat} (hk : k < view.size) (hstop : start + k < stop)
    (h : start + k ∈ cells.map Prod.fst ∨ view[k]? = some (value (start + k))) :
    (scatterAll start stop view cells)[k]? = some (value (start + k)) := by
  induction cells generalizing view with
  | nil => exact h.resolve_left List.not_mem_nil
  | cons cell cells ih =>
    apply ih (fun cell hcell => hcells cell (List.mem_cons_of_mem _ hcell))
      (by rwa [size_scatter])
    rw [getElem?_scatter hk hstop]
    by_cases hcell : cell.1 = start + k
    · right
      rw [if_pos hcell, ← hcell, hcells cell List.mem_cons_self]
    · rw [if_neg hcell]
      rcases h with hmem | hview
      · exact Or.inl ((List.mem_cons.mp hmem).resolve_left (Ne.symm hcell))
      · exact Or.inr hview

/-- The values of `count` cells from `start` on, looked up one by one. -/
def lookups (tape : Tape) (start : Int) (count : Nat) : Array UInt8 :=
  (Array.range count).map fun (k : Nat) => tape.get (start + k)

theorem size_lookups (tape : Tape) (start : Int) (count : Nat) :
    (tape.lookups start count).size = count := by
  rw [lookups, Array.size_map, Array.size_range]

theorem getElem?_lookups (tape : Tape) (start : Int) {count k : Nat} (hk : k < count) :
    (tape.lookups start count)[k]? = some (tape.get (start + k)) := by
  simp [lookups, hk]

theorem lookups_append (tape : Tape) (start : Int) (count more : Nat) :
    tape.lookups start count ++ tape.lookups (start + count) more =
      tape.lookups start (count + more) := by
  unfold lookups
  rw [Array.range_add, Array.map_append, Array.map_map]
  congr 2
  funext k
  rw [Function.comp_apply, Int.natCast_add, Int.add_assoc]

/-- Scattering all written cells into zeros is looking up each cell. -/
theorem scatterAll_eq_lookups {tape : Tape} {order : List (Int × UInt8)}
    (horder : order.Perm tape.items) {start stop : Int} {count : Nat}
    (hcount : stop = start + count) :
    scatterAll start stop (Array.replicate count 0) order = tape.lookups start count := by
  have hcells : ∀ cell ∈ order, tape.get cell.1 = cell.2 := by
    rintro ⟨i, byte⟩ hcell
    exact ((tape.mem_items_iff i byte).mp (horder.mem_iff.mp hcell)).2
  have hsize : (scatterAll start stop (Array.replicate count 0) order).size = count := by
    rw [size_scatterAll, Array.size_replicate]
  apply Array.ext_getElem?
  intro k
  by_cases hk : k < count
  · rw [tape.getElem?_lookups start hk]
    apply getElem?_scatterAll hcells
    · rwa [Array.size_replicate]
    · omega
    · -- A cell that was never written is zero, as the view is to begin with.
      cases hwritten : tape.isWritten (start + k) with
      | true =>
        left
        rw [(horder.map Prod.fst).mem_iff, mem_map_fst_items_iff, hwritten]
      | false =>
        right
        rw [get_of_not_isWritten hwritten, Array.getElem?_replicate, if_pos hk]
  · rw [Array.getElem?_eq_none (by omega), Array.getElem?_eq_none (by rw [size_lookups]; omega)]

/-- A window shows the value of each of its cells. -/
theorem window_eq_lookups (tape : Tape) {start stop : Int} (h : start ≤ stop) :
    tape.window start stop = .ok (tape.lookups start (stop - start).toNat) := by
  have hcount : stop = start + (stop - start).toNat := by omega
  have hscatter := scatterAll_eq_lookups (List.Perm.refl tape.items) hcount
  rw [window, if_neg (by omega), Std.TreeMap.foldl_eq_foldl_toList]
  exact congrArg Except.ok hscatter

theorem window_of_reversed (tape : Tape) {start stop : Int} (h : stop < start) :
    tape.window start stop = .error ⟨start, stop⟩ := by
  rw [window, if_pos h]

end Tape

/-- A total function from indices to values, with the indices that were written. -/
structure Memory where
  value : Int → Int := fun _ => 0
  written : Finset Int := ∅

namespace Memory

/-- What an operation tells about a memory, in plain numbers. -/
inductive Reply where
  | done
  | value (v : Int)
  | count (n : Nat)
  | truth (b : Bool)
  | cells (items : List (Int × Int))
  | view (values : List Int)
  | reversed (start stop : Int)
  | description

/-- Stores a value modulo 256. -/
def put (memory : Memory) (index value : Int) : Memory where
  value := Function.update memory.value index (value % 256)
  written := insert index memory.written

/-- The values of the written indices, by ascending index. -/
def items (memory : Memory) : List (Int × Int) :=
  memory.written.sort.map fun i => (i, memory.value i)

/-- Carries out one operation. The text of a description is not told. -/
def perform (memory : Memory) : Tape.Op → Reply × Memory
  | .get index => (.value (memory.value index), memory)
  | .store index value => (.done, memory.put index value)
  | .increment index =>
      let next := memory.put index (memory.value index + 1)
      (.value (next.value index), next)
  | .decrement index =>
      let next := memory.put index (memory.value index - 1)
      (.value (next.value index), next)
  | .size => (.count memory.written.card, memory)
  | .isWritten index => (.truth (index ∈ memory.written), memory)
  | .items => (.cells memory.items, memory)
  | .clear => (.done, {})
  | .window start stop =>
      if stop < start then (.reversed start stop, memory)
      else
        let indices := List.range (stop - start).toNat
        (.view (indices.map fun (k : Nat) => memory.value (start + k)), memory)
  | .describe => (.description, memory)

/-- The replies to operations in order, each with the memory after it. -/
def performAll (memory : Memory) (ops : List Tape.Op) : List (Reply × Memory) :=
  Sequence.answers perform Prod.snd memory ops

def carryOut (memory : Memory) (ops : List Tape.Op) : Memory :=
  Sequence.final perform Prod.snd memory ops

end Memory

namespace Tape

/-- A byte as a plain number. -/
def plainCell (cell : Int × UInt8) : Int × Int := (cell.1, cell.2.toNat)

/-- A reply in plain numbers. -/
def Reply.plain : Reply → Memory.Reply
  | .done => .done
  | .byte b => .value b.toNat
  | .count n => .count n
  | .truth b => .truth b
  | .cells items => .cells (items.map plainCell)
  | .view bytes => .view (bytes.toList.map fun (b : UInt8) => (b.toNat : Int))
  | .reversed w => .reversed w.start w.stop
  | .description _ => .description

/-- The tape holds the values of the memory and has written the same indices. -/
structure Refines (tape : Tape) (memory : Memory) : Prop where
  get : ∀ i, ((tape.get i).toNat : Int) = memory.value i
  isWritten : ∀ i, tape.isWritten i = true ↔ i ∈ memory.written

namespace Refines

variable {tape : Tape} {memory : Memory}

theorem fresh : Refines {} {} where
  get i := by simp [Tape.get]
  isWritten i := by simp [Tape.isWritten]

theorem put (h : tape.Refines memory) (i : Int) {byte : UInt8} {value : Int}
    (hbyte : (byte.toNat : Int) = value % 256) :
    (tape.set i byte).Refines (memory.put i value) where
  get j := by
    rw [get_set, Memory.put]
    by_cases hj : i = j
    · subst hj
      simpa using hbyte
    · have hne : j ≠ i := Ne.symm hj
      simpa [hj, hne] using h.get j
  isWritten j := by
    have hj := h.isWritten j
    rw [isWritten_set, Memory.put, Bool.or_eq_true, decide_eq_true_eq, Finset.mem_insert, hj,
      eq_comm]

theorem keys_toFinset (h : tape.Refines memory) :
    (tape.items.map Prod.fst).toFinset = memory.written := by
  ext i
  rw [List.mem_toFinset, mem_map_fst_items_iff, h.isWritten]

theorem size (h : tape.Refines memory) : tape.size = memory.written.card := by
  rw [← h.keys_toFinset, List.toFinset_card_of_nodup tape.keys_ascending.nodup, List.length_map,
    items, Std.TreeMap.length_toList]
  rfl

theorem items (h : tape.Refines memory) : tape.items.map plainCell = memory.items := by
  have hsort : memory.written.sort = tape.items.map Prod.fst := by
    rw [← h.keys_toFinset]
    apply (List.toFinset_sort _ tape.keys_ascending.nodup).mpr
    exact tape.keys_ascending.imp Int.le_of_lt
  rw [Memory.items, hsort, List.map_map]
  apply List.map_congr_left
  rintro ⟨i, byte⟩ hcell
  rw [plainCell, Function.comp_apply, ← h.get, ((tape.mem_items_iff i byte).mp hcell).2]

theorem lookups (h : tape.Refines memory) (start : Int) (count : Nat) :
    (tape.lookups start count).toList.map (fun byte => (byte.toNat : Int)) =
      (List.range count).map fun (k : Nat) => memory.value (start + k) := by
  rw [Tape.lookups, Array.toList_map, Array.toList_range, List.map_map]
  apply List.map_congr_left
  intro k _
  exact h.get (start + k)

/-- One operation tells the same of both and does the same to both. -/
theorem perform (h : tape.Refines memory) (op : Op) :
    (tape.perform op).1.plain = (memory.perform op).1 ∧
      (tape.perform op).2.Refines (memory.perform op).2 := by
  cases op with
  | get i => exact ⟨congrArg Memory.Reply.value (h.get i), h⟩
  | store i value => exact ⟨rfl, h.put i (toNat_byte_ofInt value)⟩
  | increment i =>
    have hbyte := toNat_byte_add_one (tape.get i)
    rw [h.get] at hbyte
    have hnext := h.put i hbyte
    exact ⟨congrArg Memory.Reply.value (hnext.get i), hnext⟩
  | decrement i =>
    have hbyte := toNat_byte_sub_one (tape.get i)
    rw [h.get] at hbyte
    have hnext := h.put i hbyte
    exact ⟨congrArg Memory.Reply.value (hnext.get i), hnext⟩
  | size => exact ⟨congrArg Memory.Reply.count h.size, h⟩
  | isWritten i =>
    have hwritten : tape.isWritten i = decide (i ∈ memory.written) := by
      rw [Bool.eq_iff_iff, h.isWritten, decide_eq_true_eq]
    exact ⟨congrArg Memory.Reply.truth hwritten, h⟩
  | items => exact ⟨congrArg Memory.Reply.cells h.items, h⟩
  | clear => exact ⟨rfl, fresh⟩
  | window start stop =>
    by_cases hreversed : stop < start
    · simp only [Tape.perform, Memory.perform, tape.window_of_reversed hreversed, if_pos hreversed]
      exact ⟨rfl, h⟩
    · have hwindow := tape.window_eq_lookups (Int.not_lt.mp hreversed)
      simp only [Tape.perform, Memory.perform, hwindow, if_neg hreversed]
      exact ⟨congrArg Memory.Reply.view (h.lookups start (stop - start).toNat), h⟩
  | describe => exact ⟨rfl, h⟩

theorem performAll (h : tape.Refines memory) (ops : List Op) :
    List.Forall₂ (fun answer told => answer.1.plain = told.1 ∧ answer.2.Refines told.2)
        (tape.performAll ops) (memory.performAll ops) ∧
      (tape.carryOut ops).Refines (memory.carryOut ops) :=
  Sequence.forall₂_answers (fun _ _ h op _ => h.perform op) (fun _ _ hanswer => hanswer.2) h

end Refines

end Tape

/-- A tape refines a total function. In any sequence of operations on a new tape, each of them
returns what the plain memory returns, and after it the tape agrees with that memory in every
value and in which cells are written, counts them, and lists them with their values by strictly
ascending index. The operations that only look at a tape leave it as it is. -/
theorem tape_refines_memory (ops : List Tape.Op) :
    List.Forall₂
      (fun answer told =>
        answer.1.plain = told.1 ∧
          (∀ i, ((answer.2.get i).toNat : Int) = told.2.value i) ∧
          (∀ i, answer.2.isWritten i = true ↔ i ∈ told.2.written) ∧
          answer.2.size = told.2.written.card ∧
          answer.2.items.map Tape.plainCell = told.2.items ∧
          answer.2.items.Pairwise fun a b => a.1 < b.1)
      (Tape.performAll {} ops) (Memory.performAll {} ops) ∧
    ∀ (tape : Tape) (op : Tape.Op), op.Reads → (tape.perform op).2 = tape := by
  refine ⟨?_, fun tape op hop => tape.perform_reads hop⟩
  apply (Tape.Refines.fresh.performAll ops).1.imp
  rintro ⟨reply, tape⟩ ⟨told, memory⟩ ⟨hreply, hrefines⟩
  exact ⟨hreply, hrefines.get, hrefines.isWritten, hrefines.size, hrefines.items,
    tape.items_ascending⟩

/-- Windows agree with pointwise lookup. A window of a tape that any operations have led to is
refused exactly if it ends before it begins. Otherwise it has one entry for each of its cells,
which is the value of the cell and thereby the number that the memory holds there, and it does
not matter in which order the written cells are scattered into it. Hence two windows side by
side make up one. -/
theorem window_is_pointwise (ops : List Tape.Op) (start stop : Int) :
    let tape := Tape.carryOut {} ops
    let memory := Memory.carryOut {} ops
    (tape.window start stop = .error ⟨start, stop⟩ ↔ stop < start) ∧
    (start ≤ stop → ∃ view, tape.window start stop = .ok view ∧
      (view.size : Int) = stop - start ∧
      (∀ k : Nat, k < view.size → view[k]? = some (tape.get (start + k)) ∧
        ((tape.get (start + k)).toNat : Int) = memory.value (start + k)) ∧
      ∀ order : List (Int × UInt8), order.Perm tape.items →
        Tape.scatterAll start stop (Array.replicate view.size 0) order = view) ∧
    ∀ last, start ≤ stop → stop ≤ last → ∃ left right,
      tape.window start stop = .ok left ∧ tape.window stop last = .ok right ∧
        tape.window start last = .ok (left ++ right) := by
  intro tape memory
  have hrefines : tape.Refines memory := (Tape.Refines.fresh.performAll ops).2
  refine ⟨⟨?_, tape.window_of_reversed⟩, ?_, ?_⟩
  · intro herror
    by_contra hle
    rw [tape.window_eq_lookups (Int.not_lt.mp hle)] at herror
    cases herror
  · intro hle
    refine ⟨_, tape.window_eq_lookups hle, ?_, ?_, ?_⟩
    · rw [Tape.size_lookups]
      omega
    · intro k hk
      rw [Tape.size_lookups] at hk
      exact ⟨tape.getElem?_lookups start hk, hrefines.get (start + k)⟩
    · intro order horder
      rw [Tape.size_lookups]
      exact Tape.scatterAll_eq_lookups horder (by omega)
  · intro last hle hlast
    have hcount : (last - start).toNat = (stop - start).toNat + (last - stop).toNat := by omega
    have hstop : start + ((stop - start).toNat : Int) = stop := by omega
    have happend := tape.lookups_append start (stop - start).toNat (last - stop).toNat
    rw [hstop, ← hcount] at happend
    refine ⟨_, _, tape.window_eq_lookups hle, tape.window_eq_lookups hlast, ?_⟩
    rw [happend]
    exact tape.window_eq_lookups (Int.le_trans hle hlast)

/-- Cells written from right to left and one of them twice, around an end of the window. -/
theorem window_is_pointwise_around_zero :
    let tape := Tape.carryOut {} [.store 2 300, .decrement (-3), .store (-1) 7, .store 2 (-1)]
    tape.window 3 (-3) = .error ⟨3, -3⟩ ∧
      (∃ left right, tape.window (-3) (-1) = .ok left ∧ tape.window (-1) 3 = .ok right ∧
        tape.window (-3) 3 = .ok (left ++ right)) ∧
      ∃ view, tape.window (-3) 3 = .ok view ∧ view.toList = [255, 0, 7, 0, 0, 255] ∧
        Tape.scatterAll (-3) 3 (Array.replicate view.size 0) [(2, 255), (-3, 255), (-1, 7)] =
          view := by
  intro tape
  have hpointwise := window_is_pointwise
    [.store 2 300, .decrement (-3), .store (-1) 7, .store 2 (-1)]
  refine ⟨(hpointwise 3 (-3)).1.mpr (by decide),
    (hpointwise (-3) (-1)).2.2 3 (by decide) (by decide), ?_⟩
  obtain ⟨view, hview, -, -, horder⟩ := (hpointwise (-3) 3).2.1 (by decide)
  have hexact : tape.window (-3) 3 = .ok #[255, 0, 7, 0, 0, 255] := by rfl
  obtain rfl : view = #[255, 0, 7, 0, 0, 255] := Except.ok.inj (hview.symm.trans hexact)
  exact ⟨_, hview, rfl, horder _ (by decide)⟩

end Brainfuck
