/-!
A place in the text of a document: what is still to be read, and the index, line
and column reached. A byte order mark takes no column.
-/
namespace Brainfuck.Document

def isBreak (c : Char) : Bool :=
  c == '\n' || c == '\u0085' || c == '\u2028' || c == '\u2029'

def byteOrderMark : Char := '\ufeff'

def isAllowed (c : Char) : Bool :=
  let n := c.toNat
  n == 0x09 || n == 0x0a || n == 0x0d || (0x20 ≤ n && n ≤ 0x7e) || n == 0x85 ||
    (0xa0 ≤ n && n ≤ 0xfffd) || 0x10000 ≤ n

def endsLine : Option Char → Bool
  | none => true
  | some c => isBreak c

def endsSpaced : Option Char → Bool
  | none => true
  | some c => c == ' ' || isBreak c

def endsWord : Option Char → Bool
  | none => true
  | some c => c == ' ' || c == '\t' || isBreak c

def isNameChar (c : Char) : Bool := c.isAlphanum || c == '-' || c == '_'

structure Cursor where
  rest : List Char
  index : Nat := 0
  line : Nat := 0
  column : Nat := 0

namespace Cursor

def peek (c : Cursor) : Option Char := c.rest.head?

def peekAt (c : Cursor) (n : Nat) : Option Char := c.rest[n]?

/-- Bounds the number of characters that a loop can still read. -/
def bound (c : Cursor) : Nat := c.rest.length + 1

def advance (c : Cursor) : Cursor :=
  match c.rest with
  | [] => c
  | x :: rest =>
      if isBreak x then ⟨rest, c.index + 1, c.line + 1, 0⟩
      else if x == byteOrderMark then ⟨rest, c.index + 1, c.line, c.column⟩
      else ⟨rest, c.index + 1, c.line, c.column + 1⟩

def advanceBy : Nat → Cursor → Cursor
  | 0, c => c
  | n + 1, c => advanceBy n c.advance

def span (p : Char → Bool) (c : Cursor) : List Char × Cursor :=
  let run := c.rest.takeWhile p
  (run, c.advanceBy run.length)

def skip (p : Char → Bool) (c : Cursor) : Cursor := (c.span p).2

def skipSpaces (c : Cursor) : Cursor := c.skip (· == ' ')

def skipBlanks (c : Cursor) : Cursor := c.skip fun x => x == ' ' || x == '\t'

/-- A comment reaches to the end of its line. -/
def skipComment (c : Cursor) : Cursor :=
  if c.peek == some '#' then c.skip (!isBreak ·) else c

/-- Reads the end of a line, if one stands here. A next-line character is read as
a line feed. -/
def lineBreak? (c : Cursor) : Option (Char × Cursor) :=
  match c.peek with
  | some x => if isBreak x then some (if x == '\u0085' then '\n' else x, c.advance) else none
  | none => none

/-- Three dashes or three points, set off from what follows. -/
def atSeparator (c : Cursor) : Bool :=
  (c.rest.take 3 == ['-', '-', '-'] || c.rest.take 3 == ['.', '.', '.']) && endsWord (c.peekAt 3)

/-- Spaces and a comment may stand before the end of a line, nothing else. -/
def restOfLine? (c : Cursor) : Option Cursor :=
  let c := c.skipSpaces.skipComment
  if endsLine c.peek then
    some (match c.lineBreak? with
      | some (_, next) => next
      | none => c)
  else none

end Cursor

/-- The text of one line end between two lines that are joined, with the blank
lines after it: a lone line feed becomes a space. -/
def joinLines (first : Char) (breaks : List Char) : List Char :=
  if first != '\n' then first :: breaks
  else if breaks.isEmpty then [' ']
  else breaks

end Brainfuck.Document
