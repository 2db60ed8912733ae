import Brainfuck.Text.Letter
import Brainfuck.Text.Printable

/-!
Quoted texts, as they stand in messages and listings. A text is put in single
quotes, unless it holds a single quote and no double one; the quote in use and
the backslash are escaped, and so is every letter that is not printable. Bytes are
quoted like texts, but only the plain ones are shown as characters.
-/
namespace Brainfuck.Text

def singleQuote : Char := '\x27'
def doubleQuote : Char := '\x22'
def backslash : Char := '\x5c'

def hexDigits : Nat → Nat → List Char
  | 0, _ => []
  | width + 1, n => hexDigits width (n / 16) ++ [Nat.digitChar (n % 16)]

def quoteMark (text : Text) : Char :=
  if text.contains (.char singleQuote) && !text.contains (.char doubleQuote) then doubleQuote
  else singleQuote

/-- One character inside quotes `mark`, as itself if it is `shown`. -/
def escapeChar (shown : Char → Bool) (mark c : Char) : List Char :=
  if c == mark || c == backslash then [backslash, c]
  else if c == '\n' then [backslash, 'n']
  else if c == '\r' then [backslash, 'r']
  else if c == '\t' then [backslash, 't']
  else if shown c then [c]
  else if c.toNat < 0x100 then backslash :: 'x' :: hexDigits 2 c.toNat
  else if c.toNat < 0x10000 then backslash :: 'u' :: hexDigits 4 c.toNat
  else backslash :: 'U' :: hexDigits 8 c.toNat

def escapeLetter (shown : Char → Bool) (mark : Char) : Letter → List Char
  | .char c => escapeChar shown mark c
  | .surrogate offset => backslash :: 'u' :: hexDigits 4 (Letter.surrogate offset).code

/-- A text in quotes, escaped but for the characters that are `shown`. -/
def quoteWith (shown : Char → Bool) (text : Text) : List Char :=
  let mark := quoteMark text
  mark :: text.flatMap (escapeLetter shown mark) ++ [mark]

def quoteChars (text : Text) : List Char := quoteWith isPrintable text

def quote (text : Text) : String := String.ofList (quoteChars text)

def commaSeparated (parts : List String) : String := ", ".intercalate parts

def isPlain (c : Char) : Bool := 0x20 ≤ c.toNat && c.toNat < 0x7f

def quoteBytes (bytes : List UInt8) : String :=
  "b" ++ String.ofList (quoteWith isPlain (bytes.map fun b => .char (Char.ofNat b.toNat)))

end Brainfuck.Text
