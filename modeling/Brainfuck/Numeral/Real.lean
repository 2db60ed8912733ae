import Brainfuck.Numeral.Integer

/-!
Texts of doubles: an optional sign, digits with an optional point, an optional
exponent, or one of the words for infinity and for no number. Single underscores
may stand between digits.
-/
namespace Brainfuck.Numeral

inductive RealError where
  | malformed (text : Text)
deriving DecidableEq

def RealError.message : RealError → String
  | .malformed text => "could not convert string to float: " ++ Text.quote text

def decimalDigits (text : List Char) : List Nat :=
  text.filterMap (digitIn? 10)

/-- The double nearest to `digits * 10 ^ exponent`. An exponent outside every
double's range is answered without computing the power. -/
def ofDecimal (digits : List Nat) (exponent : Int) : Float :=
  let digits := digits.dropWhile (· == 0)
  let top := (digits.length : Int) + exponent
  if digits.isEmpty || top < -400 then 0.0
  else if 400 < top then 1.0 / 0.0
  else Float.ofScientific (ofDigits 10 digits) (exponent < 0) exponent.natAbs

def readExponent? : List Char → Option Int
  | [] => some 0
  | mark :: rest =>
      if mark == 'e' || mark == 'E' then
        let (negative, digits) := splitSign rest
        if digits.isEmpty || !digits.all Char.isDigit then none
        else
          let n := ofDigits 10 (decimalDigits digits)
          some (if negative then -Int.ofNat n else n)
      else none

/-- An unsigned number: digits before and after an optional point, one at least. -/
def readMagnitude? (text : List Char) : Option Float :=
  let whole := text.takeWhile Char.isDigit
  let (fraction, rest) := match text.dropWhile Char.isDigit with
    | '.' :: after => (after.takeWhile Char.isDigit, after.dropWhile Char.isDigit)
    | after => ([], after)
  if whole.isEmpty && fraction.isEmpty then none
  else (readExponent? rest).map fun e =>
    ofDecimal (decimalDigits (whole ++ fraction)) (e - fraction.length)

/-- Drops the underscores of a text, each of which has to stand between two digits;
`before` is the character in front of the text. -/
def dropGroupMarks? (before : Char) : List Char → Option (List Char)
  | [] => if before == '_' then none else some []
  | c :: rest =>
      if c == '_' then
        if before.isDigit then dropGroupMarks? c rest else none
      else if before == '_' && !c.isDigit then none
      else (dropGroupMarks? c rest).map (c :: ·)

def readUnsigned? (body : List Char) : Option Float :=
  let word := String.ofList (body.map Char.toLower)
  if word == "inf" || word == "infinity" then some (1.0 / 0.0)
  else if word == "nan" then some (0.0 / 0.0)
  else readMagnitude? body

def readReal (text : Text) : Except RealError Float :=
  match dropGroupMarks? ' ' (trimmed text) with
  | none => .error (.malformed text)
  | some plain =>
      let (negative, body) := splitSign plain
      match readUnsigned? body with
      | none => .error (.malformed text)
      | some x => .ok (if negative then -x else x)

end Brainfuck.Numeral
