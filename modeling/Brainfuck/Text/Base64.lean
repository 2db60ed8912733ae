/-!
Bytes written in base sixty-four: four characters carry three bytes. Characters
outside the alphabet are passed over. Equal signs fill up the last group and end the
data; without them the last group has to be complete.
-/
namespace Brainfuck.Text.Base64

def sextet? (c : Char) : Option Nat :=
  if c.isUpper then some (c.toNat - 'A'.toNat)
  else if c.isLower then some (c.toNat - 'a'.toNat + 26)
  else if c.isDigit then some (c.toNat - '0'.toNat + 52)
  else if c == '+' then some 62
  else if c == '/' then some 63
  else none

/-- The bytes that a group of sextets fills completely. -/
def groupBytes : List Nat → List UInt8
  | a :: b :: rest => UInt8.ofNat (a * 4 + b / 16) :: match rest with
    | [] => []
    | c :: last => UInt8.ofNat (b % 16 * 16 + c / 4) :: last.map fun d => .ofNat (c % 4 * 64 + d)
  | _ => []

/-- Decodes what follows the sextets `held` of an open group and the `pads` equal
signs that stand directly behind them. -/
def decodeFrom (held : List Nat) (pads : Nat) : List Char → Option (List UInt8)
  | [] => if held.isEmpty then some [] else none
  | c :: rest =>
      if c == '=' then
        if held.length < 2 then decodeFrom held pads rest
        else if 4 ≤ held.length + pads + 1 then some (groupBytes held)
        else decodeFrom held (pads + 1) rest
      else match sextet? c with
        | none => decodeFrom held pads rest
        | some s =>
            if held.length < 3 then decodeFrom (held ++ [s]) 0 rest
            else (decodeFrom [] 0 rest).map (groupBytes (held ++ [s]) ++ ·)

def decode? (text : List Char) : Option (List UInt8) := decodeFrom [] 0 text

end Brainfuck.Text.Base64
