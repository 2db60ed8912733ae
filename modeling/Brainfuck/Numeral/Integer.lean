import Brainfuck.Text.Digit
import Brainfuck.Text.Quoted

/-!
Integer texts. An integer may be surrounded by blanks, has at most one sign, and
its digits may be grouped by single underscores. Digits of every script count as
decimal digits, and so do the blanks of every script. Decimal texts of more than a
fixed number of digits are neither read nor written.
-/
namespace Brainfuck.Numeral

def natChars (n : Nat) : List Char := Nat.toDigits 10 n

def intChars : Int → List Char
  | .ofNat n => natChars n
  | .negSucc n => '-' :: natChars (n + 1)

def intText (n : Int) : String := String.ofList (intChars n)

def natText (n : Nat) : String := String.ofList (natChars n)

/-- The longest decimal text that is read or written, in digits. -/
def maxDigits : Nat := 4300

def isWritable (n : Int) : Bool := (natChars n.natAbs).length ≤ maxDigits

def limitText : String :=
  "Exceeds the limit (" ++ natText maxDigits ++ " digits) for integer string conversion"

def limitHint : String := "; use sys.set_int_max_str_digits() to increase the limit"

def unwritableText : String := limitText ++ limitHint

structure Unwritable where
  number : Int
deriving DecidableEq

def Unwritable.message (_ : Unwritable) : String := unwritableText

/-- A text with some integers in it, unless one of them is too long to be written. -/
def written {α : Type} (numbers : List Int) (text : α) : Except Unwritable α :=
  match numbers.find? fun n => !isWritable n with
  | some n => .error ⟨n⟩
  | none => .ok text

inductive IntegerError where
  | malformed (base : Nat) (text : Text)
  | tooLong (digits : Nat)
deriving DecidableEq

/-- The offending text is quoted, and the quotation is cut after 200 characters. -/
def IntegerError.message : IntegerError → String
  | .malformed base text =>
      "invalid literal for int() with base " ++ natText base ++ ": " ++
        String.ofList ((Text.quoteChars text).take 200)
  | .tooLong digits => limitText ++ ": value has " ++ natText digits ++ " digits" ++ limitHint

/-- The seven-bit form of a letter: blanks become spaces and digits plain digits;
what has no such form becomes a character no numeral contains. -/
def plainForm : Letter → Char
  | .surrogate _ => '?'
  | .char c =>
      if c.toNat < 127 then c
      else if Text.isBlank c then ' '
      else match Text.digitValue? c with
        | some d => Nat.digitChar d
        | none => '?'

def trimLeft (text : List Char) : List Char := text.dropWhile Text.isPlainBlank

def trimRight (text : List Char) : List Char := (trimLeft text.reverse).reverse

def trimmed (text : Text) : List Char := trimRight (trimLeft (text.map plainForm))

def splitSign : List Char → Bool × List Char
  | '-' :: rest => (true, rest)
  | '+' :: rest => (false, rest)
  | text => (false, text)

/-- The value of a digit below `base`, letters of either case standing for ten and more. -/
def digitIn? (base : Nat) (c : Char) : Option Nat :=
  let value :=
    if c.isDigit then c.toNat - '0'.toNat
    else if c.isLower then c.toNat - 'a'.toNat + 10
    else if c.isUpper then c.toNat - 'A'.toNat + 10
    else base
  if value < base then some value else none

/-- Digits, at least one, with single underscores between them. -/
def grouped? (base : Nat) : List Char → Option (List Nat)
  | [] => none
  | [c] => (digitIn? base c).map ([·])
  | c :: '_' :: rest => do
      let d ← digitIn? base c
      let ds ← grouped? base rest
      return d :: ds
  | c :: rest => do
      let d ← digitIn? base c
      let ds ← grouped? base rest
      return d :: ds

def ofDigits (base : Nat) (digits : List Nat) : Nat :=
  digits.foldl (fun value d => value * base + d) 0

/-- The mark that may precede the digits of bases two, eight and sixteen. -/
def dropBaseMark (base : Nat) : List Char → List Char
  | '0' :: mark :: rest =>
      if [(2, 'b'), (8, 'o'), (16, 'x')].contains (base, mark.toLower) then rest
      else '0' :: mark :: rest
  | text => text

/-- Only bases other than powers of two have a longest text. -/
def overlong (base : Nat) (digits : List Nat) : Bool :=
  base != 2 && base != 8 && base != 16 && maxDigits < digits.length

def isDigitOrMark (base : Nat) (c : Char) : Bool := (digitIn? base c).isSome || c == '_'

/-- Reads an integer in the given base. The digits are looked at first: wrong groups
are reported before too many digits, and those before what follows the digits. -/
def readInteger (base : Nat) (text : Text) : Except IntegerError Int :=
  let (negative, signed) := splitSign (trimmed text)
  let body := dropBaseMark base signed
  match grouped? base (body.takeWhile (isDigitOrMark base)) with
  | none => .error (.malformed base text)
  | some digits =>
      if overlong base digits then .error (.tooLong digits.length)
      else if !(body.dropWhile (isDigitOrMark base)).isEmpty then .error (.malformed base text)
      else .ok (if negative then -Int.ofNat (ofDigits base digits) else ofDigits base digits)

end Brainfuck.Numeral
