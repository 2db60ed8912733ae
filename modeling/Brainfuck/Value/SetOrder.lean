import Brainfuck.Value

/-!
The order in which the numbers of a set are listed. They lie in a table that has more
places than there are numbers. The residue of a number gives its place; if that is
taken, a fixed sequence of further places is tried. Equal numbers have equal residues,
whatever their kind. A set with other elements is listed as it was written.
-/
namespace Brainfuck.Value.SetOrder

/-- Residues are taken modulo this prime, for which the sixty-first power of two is one. -/
def modulus : Nat := 0x1fffffffffffffff

def infiniteResidue : Nat := 314159

/-- A residue with the sign of its number; minus one is not used. -/
def withSign (negative : Bool) (residue : Nat) : Int :=
  if negative then if residue == 1 then -2 else -Int.ofNat residue else residue

def residue? : Value → Option Int
  | .real x => match Numeral.Double.ofFloat x with
    | .finite negative m q _ =>
        some (withSign negative (m * Nat.pow 2 (q.emod 61).toNat % modulus))
    | .infinite negative => some (withSign negative infiniteResidue)
    | .nan => none
  | value => value.toInteger?.map fun n => withSign (n < 0) (n.natAbs % modulus)

/-- Doubles a size until it lies above a bound. -/
def growAbove (bound : Nat) : Nat → Nat → Nat
  | 0, size => size
  | fuel + 1, size => if bound < size then size else growAbove bound fuel (size * 2)

def tableSize (count : Nat) : Nat := if count < 5 then 8 else growAbove (2 * count) count 8

/-- The places that are tried together: ten in a row if they lie in the table. -/
def row (size place : Nat) : List Nat :=
  if place + 9 < size then (List.range 10).map (place + ·) else [place]

abbrev Table := Array (Option Value)

def isFree (table : Table) (place : Nat) : Bool :=
  match table[place]? with
  | some none => true
  | _ => false

/-- Lays an element into the first free place, from a place on. -/
def lay (value : Value) : Nat → Table → Nat → Nat → Table
  | 0, table, _, _ => table
  | fuel + 1, table, place, rest =>
      match (row table.size place).find? (isFree table) with
      | some free => table.modify free fun _ => some value
      -- The next place depends on more and more of the residue.
      | none => lay value fuel table ((place * 5 + 1 + rest / 32) % table.size) (rest / 32)

def residueCount : Nat := 0x10000000000000000

def layAll (elements : List (Value × Int)) : Table :=
  let size := tableSize elements.length
  elements.foldl (fun table (value, residue) =>
    let code := (residue.emod residueCount).toNat
    lay value (size + 13) table (code % size) code) (Array.replicate size none)

def arrange (items : List Value) : List Value :=
  match items.mapM fun item => (residue? item).map (item, ·) with
  | some elements => (layAll elements).toList.filterMap id
  | none => items

end Brainfuck.Value.SetOrder
