import Brainfuck.Numeral.Integer

/-!
The shortest decimal text of a double. A finite double is a mantissa times a
power of two, and the reals that round to it form an interval. The text has the
fewest digits with which some decimal lies in the interval, and of those the
decimal nearest to the double.
-/
namespace Brainfuck.Numeral

/-- What the sixty-four bits of a double stand for: `m * 2 ^ q` when finite. The
gap below a power of two is half the gap above it, which `narrow` records. -/
inductive Double where
  | nan
  | infinite (negative : Bool)
  | finite (negative : Bool) (m : Nat) (q : Int) (narrow : Bool)
deriving DecidableEq

def fractionUnit : Nat := 0x10000000000000

def Double.ofBits (bits : Nat) : Double :=
  let negative := bits >>> 63 == 1
  let exponent := (bits >>> 52) % 0x800
  let fraction := bits % fractionUnit
  if exponent == 0x7ff then
    if fraction == 0 then .infinite negative else .nan
  else if exponent == 0 then .finite negative fraction (-1074) false
  else .finite negative (fraction + fractionUnit) (Int.ofNat exponent - 1075)
    (fraction == 0 && exponent != 1)

def Double.ofFloat (x : Float) : Double := .ofBits x.toBits.toNat

def Double.toInt? : Double → Option Int
  | .finite negative m q _ =>
      let sign : Int := if negative then -1 else 1
      let up := Nat.pow 2 q.toNat
      let down := Nat.pow 2 (-q).toNat
      if m % down == 0 then some (sign * Int.ofNat (m * up / down)) else none
  | _ => none

structure Decimal where
  digits : Nat
  exponent : Int
deriving DecidableEq

/-- The number `n * base ^ e` as a fraction. -/
def scaled (base : Nat) (n : Nat) (e : Int) : Nat × Nat :=
  (n * Nat.pow base e.toNat, Nat.pow base (-e).toNat)

def fractionLt (a b : Nat × Nat) : Bool := a.1 * b.2 < b.1 * a.2

def fractionLe (a b : Nat × Nat) : Bool := a.1 * b.2 ≤ b.1 * a.2

/-- The reals that round to a double, the ends included when its mantissa is even. -/
def roundsTo (m : Nat) (q : Int) (narrow : Bool) (d : Decimal) : Bool :=
  let low := scaled 2 (4 * m - if narrow then 1 else 2) (q - 2)
  let high := scaled 2 (4 * m + 2) (q - 2)
  let x := scaled 10 d.digits d.exponent
  if m % 2 == 0 then fractionLe low x && fractionLe x high
  else fractionLt low x && fractionLt x high

def magnitude (x : Nat × Nat) : Int :=
  Int.ofNat (natChars (x.1 * Nat.pow 10 400 / x.2)).length - 400

/-- The better of the two neighbours of a double among the multiples of
`10 ^ exponent`, if either rounds to it; of two at one distance the even one. -/
def neighbour? (m : Nat) (q : Int) (narrow : Bool) (exponent : Int) : Option Decimal :=
  let x := scaled 2 m q
  let unit := scaled 10 1 exponent
  let below := x.1 * unit.2 / (x.2 * unit.1)
  let rest := x.1 * unit.2 % (x.2 * unit.1)
  let whole := x.2 * unit.1
  let lower : Decimal := ⟨below, exponent⟩
  let upper : Decimal := ⟨below + 1, exponent⟩
  match roundsTo m q narrow lower, roundsTo m q narrow upper with
  | true, true =>
      if 2 * rest < whole || (2 * rest == whole && below % 2 == 0) then some lower else some upper
  | true, false => some lower
  | false, true => some upper
  | false, false => none

/-- The shortest decimal that rounds to the positive double `m * 2 ^ q`. Seventeen
digits are always enough. -/
def shortest (m : Nat) (q : Int) (narrow : Bool) : Decimal :=
  let top := magnitude (scaled 2 m q)
  ((List.range 17).findSome? fun i => neighbour? m q narrow (top - (i + 1 : Nat))).getD ⟨0, 0⟩

/-- How a decimal is laid out: positional while the exponent of its first digit
lies in a range, otherwise with a signed exponent of at least `exponentWidth` digits. -/
structure Layout where
  leastPositional : Int
  leastScientific : Int
  exponentWidth : Nat

def layout : Layout := ⟨-4, 16, 2⟩

def padZeros (width : Nat) (text : List Char) : List Char :=
  List.replicate (width - text.length) '0' ++ text

def significant (d : Decimal) : List Char :=
  ((natChars d.digits).reverse.dropWhile (· == '0')).reverse

/-- A positive decimal in digits; a point or an exponent always stands in it. -/
def Layout.write (l : Layout) (d : Decimal) : List Char :=
  let digits := significant d
  let point : Int := (natChars d.digits).length + d.exponent
  let exponent := point - 1
  if l.leastPositional ≤ exponent && exponent < l.leastScientific then
    if point ≤ 0 then '0' :: '.' :: (List.replicate (-point).toNat '0' ++ digits)
    else if digits.length ≤ point.toNat then
      digits ++ List.replicate (point.toNat - digits.length) '0' ++ ['.', '0']
    else digits.take point.toNat ++ '.' :: digits.drop point.toNat
  else
    let mantissa := match digits with
      | first :: second :: rest => first :: '.' :: second :: rest
      | short => short
    mantissa ++ 'e' :: (if exponent < 0 then '-' else '+') ::
      padZeros l.exponentWidth (natChars exponent.natAbs)

def Double.text : Double → List Char
  | .nan => "nan".toList
  | .infinite negative => (if negative then "-inf" else "inf").toList
  | .finite negative m q narrow =>
      let magnitude := if m == 0 then "0.0".toList else layout.write (shortest m q narrow)
      if negative then '-' :: magnitude else magnitude

def floatText (x : Float) : String := String.ofList (Double.ofFloat x).text

end Brainfuck.Numeral
