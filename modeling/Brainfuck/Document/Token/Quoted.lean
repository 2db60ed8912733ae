import Brainfuck.Document.Cursor
import Brainfuck.Document.Fault

/-!
Scalars in quotes. Inside single quotes only the quote is escaped, by doubling it;
inside double quotes the backslash escapes. Lines are joined by a space.
-/
namespace Brainfuck.Document.Quoted

inductive Style where
  | single
  | double
deriving DecidableEq

def Style.mark : Style → Char
  | .single => Text.singleQuote
  | .double => Text.doubleQuote

def escapes : List (Char × Char) := [
  ('0', '\x00'), ('a', '\x07'), ('b', '\x08'), ('t', '\x09'), ('\t', '\x09'), ('n', '\x0a'),
  ('v', '\x0b'), ('f', '\x0c'), ('r', '\x0d'), ('e', '\x1b'), (' ', ' '),
  (Text.doubleQuote, Text.doubleQuote), (Text.backslash, Text.backslash), ('/', '/'),
  ('N', '\u0085'), ('_', '\u00a0'), ('L', '\u2028'), ('P', '\u2029')]

/-- Escapes by code point, with their number of digits. -/
def codeEscapes : List (Char × Nat) := [('x', 2), ('u', 4), ('U', 8)]

def readCode (width : Nat) (c : Cursor) : Except Fault (Letter × Cursor) :=
  let digits := (c.rest.take width).filterMap (Numeral.digitIn? 16)
  if digits.length < width then .error .malformed
  else
    let code := Numeral.ofDigits 16 digits
    if 0x7fffffff < code then .error .characterSize
    else if 0x10ffff < code then .error .characterRange
    else .ok (Letter.ofCode code, c.advanceBy width)

/-- The blank lines inside quotes; a document separator may not begin one. -/
def breaks : Nat → Cursor → Except Fault (List Char × Cursor)
  | 0, c => .ok ([], c)
  | n + 1, c =>
      if c.atSeparator then .error .malformed
      else
        let c := c.skipBlanks
        match c.lineBreak? with
        | none => .ok ([], c)
        | some (x, next) => do
            let (more, last) ← breaks n next
            return (x :: more, last)

def escaped (c : Cursor) : Except Fault (Text × Cursor) :=
  match c.peek with
  | none => .error .malformed
  | some x =>
      match escapes.lookup x, codeEscapes.lookup x, c.lineBreak? with
      | some y, _, _ => .ok ([.char y], c.advance)
      | none, some width, _ => do
          let (letter, next) ← readCode width c.advance
          return ([letter], next)
      | none, none, some (_, next) => do
          let (more, last) ← breaks next.bound next
          return (Text.ofChars more, last)
      | none, none, none => .error .malformed

/-- A run of blanks, or the blanks around the end of a line. -/
def spaces (c : Cursor) : Except Fault (List Char × Cursor) :=
  let (run, next) := c.span fun x => x == ' ' || x == '\t'
  match next.peek, next.lineBreak? with
  | none, _ => .error .malformed
  | some _, none => .ok (run, next)
  | some _, some (x, after) => do
      let (more, last) ← breaks after.bound after
      return (joinLines x more, last)

def isOrdinary (c : Char) : Bool :=
  c != Text.singleQuote && c != Text.doubleQuote && c != Text.backslash && c != ' ' && c != '\t' &&
    !isBreak c

def body (style : Style) : Nat → Cursor → Except Fault (Text × Cursor)
  | 0, _ => .error .malformed
  | n + 1, c =>
      let (run, c) := c.span isOrdinary
      let before := Text.ofChars run
      match c.peek with
      | none => .error .malformed
      | some x => do
          if style == .single && x == Text.singleQuote &&
              c.peekAt 1 == some Text.singleQuote then
            let (more, last) ← body style n (c.advanceBy 2)
            return (before ++ .char x :: more, last)
          else if x == style.mark then
            return (before, c.advance)
          else if x == Text.backslash && style == .double then
            let (piece, next) ← escaped c.advance
            let (more, last) ← body style n next
            return (before ++ piece ++ more, last)
          else if x == Text.singleQuote || x == Text.doubleQuote || x == Text.backslash then
            let (more, last) ← body style n c.advance
            return (before ++ .char x :: more, last)
          else
            let (piece, next) ← spaces c
            let (more, last) ← body style n next
            return (before ++ Text.ofChars piece ++ more, last)

def read (style : Style) (c : Cursor) : Except Fault (Text × Cursor) :=
  body style c.bound c.advance

end Brainfuck.Document.Quoted
