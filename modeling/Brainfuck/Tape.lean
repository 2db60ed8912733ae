import Std.Data.TreeMap
import Brainfuck.Numeral.Integer
import Brainfuck.Sequence

/-!
The memory: cells at all integer indices, each holding a byte. A cell that was
never written reads as zero and takes no room. A tape is seen through its values
and through which of its cells are written, and each operation is told by what it
does to the two.
-/
namespace Brainfuck

theorem toNat_byte_add_one (byte : UInt8) : ((byte + 1).toNat : Int) = (byte.toNat + 1) % 256 := by
  rw [UInt8.toNat_add]
  rfl

theorem toNat_byte_sub_one (byte : UInt8) : ((byte - 1).toNat : Int) = (byte.toNat - 1) % 256 := by
  have hlt : byte.toNat < 256 := byte.toNat_lt
  have hone : (1 : UInt8).toNat = 1 := rfl
  rw [UInt8.toNat_sub, hone]
  omega

theorem toNat_byte_ofInt (value : Int) : ((UInt8.ofInt value).toNat : Int) = value % 256 := by
  have hlow : 0 ≤ value % 256 := Int.emod_nonneg value (by decide)
  have hhigh : value % 256 < 256 := Int.emod_lt_of_pos value (by decide)
  rw [UInt8.ofInt, UInt8.toNat_ofNat']
  omega

structure Tape where
  cells : Std.TreeMap Int UInt8 := ∅

namespace Tape

def get (tape : Tape) (index : Int) : UInt8 := tape.cells.getD index 0

def set (tape : Tape) (index : Int) (byte : UInt8) : Tape := ⟨tape.cells.insert index byte⟩

/-- Stores an integer modulo 256. -/
def store (tape : Tape) (index value : Int) : Tape := tape.set index (UInt8.ofInt value)

def increment (tape : Tape) (index : Int) : Tape := tape.set index (tape.get index + 1)

def decrement (tape : Tape) (index : Int) : Tape := tape.set index (tape.get index - 1)

def size (tape : Tape) : Nat := tape.cells.size

def isWritten (tape : Tape) (index : Int) : Bool := tape.cells.contains index

def items (tape : Tape) : List (Int × UInt8) := tape.cells.toList

def clear (_ : Tape) : Tape := {}

@[simp]
theorem get_set (tape : Tape) (i j : Int) (byte : UInt8) :
    (tape.set i byte).get j = if i = j then byte else tape.get j := by
  simp [get, set, Std.TreeMap.getD_insert]

@[simp]
theorem isWritten_set (tape : Tape) (i j : Int) (byte : UInt8) :
    (tape.set i byte).isWritten j = (decide (i = j) || tape.isWritten j) := by
  rw [Bool.eq_iff_iff]
  simp [isWritten, set, Std.TreeMap.contains_insert]

@[simp]
theorem get_clear (tape : Tape) (i : Int) : tape.clear.get i = 0 := by
  simp [get, clear]

@[simp]
theorem isWritten_clear (tape : Tape) (i : Int) : tape.clear.isWritten i = false := by
  simp [isWritten, clear]

structure ReversedWindow where
  start : Int
  stop : Int
deriving DecidableEq

def ReversedWindow.message (w : ReversedWindow) : String :=
  let text :=
    "window end " ++ Numeral.intText w.stop ++ " is before start " ++ Numeral.intText w.start
  match Numeral.written [w.stop, w.start] text with
  | .ok text => text
  | .error cause => cause.message

/-- Copies one cell into a view of those from `start` up to `stop`, if it is among them. -/
def scatter (start stop : Int) (view : Array UInt8) (index : Int) (byte : UInt8) : Array UInt8 :=
  if start ≤ index && index < stop then view.setIfInBounds (index - start).toNat byte else view

/-- The cells from `start` up to but not including `stop`: a zero view into which
the written cells are scattered. -/
def window (tape : Tape) (start stop : Int) : Except ReversedWindow (Array UInt8) :=
  if stop < start then .error ⟨start, stop⟩
  else .ok (tape.cells.foldl (scatter start stop) (Array.replicate (stop - start).toNat 0))

def describe (tape : Tape) : Except Numeral.Unwritable String :=
  let cells := tape.items.map fun (index, byte) =>
    Numeral.intText index ++ ": " ++ Numeral.natText byte.toNat
  Numeral.written (tape.items.map Prod.fst) ("Tape(\x7b" ++ ", ".intercalate cells ++ "\x7d)")

inductive Op where
  | get (index : Int)
  | store (index value : Int)
  | increment (index : Int)
  | decrement (index : Int)
  | size
  | isWritten (index : Int)
  | items
  | clear
  | window (start stop : Int)
  | describe
deriving DecidableEq

inductive Reply where
  | done
  | byte (value : UInt8)
  | count (n : Nat)
  | truth (b : Bool)
  | cells (items : List (Int × UInt8))
  | view (bytes : Array UInt8)
  | reversed (window : ReversedWindow)
  | description (text : Except Numeral.Unwritable String)

def perform (tape : Tape) : Op → Reply × Tape
  | .get index => (.byte (tape.get index), tape)
  | .store index value => (.done, tape.store index value)
  | .increment index => (.byte ((tape.increment index).get index), tape.increment index)
  | .decrement index => (.byte ((tape.decrement index).get index), tape.decrement index)
  | .size => (.count tape.size, tape)
  | .isWritten index => (.truth (tape.isWritten index), tape)
  | .items => (.cells tape.items, tape)
  | .clear => (.done, tape.clear)
  | .window start stop => match tape.window start stop with
    | .ok bytes => (.view bytes, tape)
    | .error window => (.reversed window, tape)
  | .describe => (.description tape.describe, tape)

/-- The replies to operations in order, each with the tape after it. -/
def performAll (tape : Tape) (ops : List Op) : List (Reply × Tape) :=
  Sequence.answers perform Prod.snd tape ops

def carryOut (tape : Tape) (ops : List Op) : Tape := Sequence.final perform Prod.snd tape ops

/-- The operations that only look at a tape. -/
def Op.Reads : Op → Prop
  | .store _ _ | .increment _ | .decrement _ | .clear => False
  | _ => True

theorem perform_reads (tape : Tape) {op : Op} (h : op.Reads) : (tape.perform op).2 = tape := by
  cases op with
  | store index value => cases h
  | increment index => cases h
  | decrement index => cases h
  | clear => cases h
  | window start stop =>
    rw [perform]
    split <;> rfl
  | _ => rfl

end Tape

end Brainfuck
