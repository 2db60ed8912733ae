import Brainfuck.Document.Cursor
import Brainfuck.Document.Fault

/-!
Literal and folded block scalars. The lines of a block scalar share an indentation,
given in its head or taken from its first line; the head also says what becomes of
the line ends after the last line.
-/
namespace Brainfuck.Document.Block

inductive Style where
  | literal
  | folded
deriving DecidableEq

inductive Chomping where
  | strip
  | clip
  | keep
deriving DecidableEq

structure Head where
  chomping : Chomping := .clip
  increment : Option Nat := none

def chomping? (c : Cursor) : Option Chomping :=
  match c.peek with
  | some '+' => some .keep
  | some '-' => some .strip
  | _ => none

/-- An indentation is a digit other than zero. -/
def increment (c : Cursor) : Except Fault (Option Nat × Cursor) :=
  match c.peek.bind (Numeral.digitIn? 10) with
  | none => .ok (none, c)
  | some 0 => .error .malformed
  | some n => .ok (some n, c.advance)

/-- The two signs of a head stand in either order. -/
def head (c : Cursor) : Except Fault (Head × Cursor) := do
  let (h, c) ← match chomping? c with
    | some chomping => do
        let (n, c) ← increment c.advance
        pure (⟨chomping, n⟩, c)
    | none => do
        let (n, c) ← increment c
        match n, chomping? c with
        | some n, some chomping => pure (⟨chomping, some n⟩, c.advance)
        | n, _ => pure (⟨.clip, n⟩, c)
  if endsSpaced c.peek then
    match c.restOfLine? with
    | some next => return (h, next)
    | none => throw .malformed
  else throw .malformed

/-- The blank lines before the first line, and the deepest column they reach. -/
def leading : Nat → Nat → Cursor → List Char × Nat × Cursor
  | 0, deepest, c => ([], deepest, c)
  | n + 1, deepest, c =>
      let c := c.skipSpaces
      let deepest := max deepest c.column
      match c.lineBreak? with
      | none => ([], deepest, c)
      | some (x, next) =>
          let (more, deepest, last) := leading n deepest next
          (x :: more, deepest, last)

def skipIndent (indent : Nat) (c : Cursor) : Cursor :=
  let spaces := c.rest.takeWhile (· == ' ')
  c.advanceBy (min spaces.length (indent - c.column))

def breaks (indent : Nat) : Nat → Cursor → List Char × Cursor
  | 0, c => ([], c)
  | n + 1, c =>
      let c := skipIndent indent c
      match c.lineBreak? with
      | none => ([], c)
      | some (x, next) =>
          let (more, last) := breaks indent n next
          (x :: more, last)

def startsBlank (c : Cursor) : Bool := c.peek == some ' ' || c.peek == some '\t'

/-- The end of a line before a further line: a folded one becomes a space unless
blank lines follow or one of the two lines is indented deeper. -/
def lineEnd (style : Style) (ending : Option Char) (blank nextBlank : Bool) (more : List Char) :
    List Char :=
  if style == .folded && ending == some '\n' && !blank && !nextBlank then
    if more.isEmpty then [' '] else []
  else ending.toList

/-- The lines of a block scalar, `before` being the blank lines before the next
one, with the line end and blank lines that remain after the last. -/
def lines (style : Style) (indent : Nat) :
    Nat → List Char → Cursor → List Char × Option Char × List Char × Cursor
  | 0, before, c => ([], none, before, c)
  | n + 1, before, c =>
      let (line, after) := c.span (!isBreak ·)
      let (ending, next) := match after.lineBreak? with
        | some (x, next) => (some x, next)
        | none => (none, after)
      let (more, next) := breaks indent next.bound next
      if next.column == indent && next.peek.isSome then
        let joint := lineEnd style ending (startsBlank c) (startsBlank next) more
        let (text, last) := lines style indent n more next
        (before ++ line ++ joint ++ text, last)
      else (before ++ line, ending, more, next)

def read (style : Style) (outer : Int) (c : Cursor) : Except Fault (List Char × Cursor) := do
  let (h, c) ← head c.advance
  let least := (max (outer + 1) 1).toNat
  let (before, indent, c) := match h.increment with
    | none =>
        let (before, deepest, c) := leading c.bound 0 c
        (before, max least deepest, c)
    | some n =>
        let (before, c) := breaks (least + n - 1) c.bound c
        (before, least + n - 1, c)
  let (text, ending, more, c) :=
    if c.column == indent && c.peek.isSome then lines style indent c.bound before c
    else ([], none, before, c)
  match h.chomping with
  | .strip => return (text, c)
  | .clip => return (text ++ ending.toList, c)
  | .keep => return (text ++ ending.toList ++ more, c)

end Brainfuck.Document.Block
