import Brainfuck.Document.Cursor

/-!
Plain scalars: words up to a colon with a blank after it, a comment, or, inside
flow collections, one of their marks. A plain scalar goes on over line ends while
the next line is indented deeper than the block around it.
-/
namespace Brainfuck.Document.Plain

def isFlowMark (c : Char) : Bool := c == ',' || c == '[' || c == ']' || c == '\x7b' || c == '\x7d'

def wordEnds (flow : Bool) (c : Char) (next : Option Char) : Bool :=
  endsWord (some c) ||
    (c == ':' && (endsWord next || (flow && next.any isFlowMark))) ||
    (flow && (c == '?' || isFlowMark c))

def word (flow : Bool) : List Char → List Char
  | [] => []
  | c :: rest => if wordEnds flow c rest.head? then [] else c :: word flow rest

/-- The blank lines after the end of a line; none at all if a document separator
begins one of them. -/
def breaks : Nat → Cursor → Option (List Char) × Cursor
  | 0, c => (some [], c)
  | n + 1, c =>
      if c.atSeparator then (none, c)
      else
        let c := c.skipSpaces
        match c.lineBreak? with
        | none => (some [], c)
        | some (x, next) =>
            let (more, last) := breaks n next
            (more.map (x :: ·), last)

structure Gap where
  text : List Char
  newLine : Bool
  next : Cursor

def gap (c : Cursor) : Gap :=
  let (run, next) := c.span (· == ' ')
  match next.lineBreak? with
  | none => ⟨run, false, next⟩
  | some (x, after) =>
      match breaks after.bound after with
      | (none, last) => ⟨[], true, last⟩
      | (some more, last) => ⟨joinLines x more, true, last⟩

structure Scalar where
  text : List Char
  /-- Whether a line end was read, so that a key may begin after the scalar. -/
  newLine : Bool
  next : Cursor

/-- The words of a scalar whose block ends left of column `indent`; `before` is
the gap in front of the next word. -/
def words (flow : Bool) (indent : Int) : Nat → List Char → Bool → Cursor → Scalar
  | 0, _, newLine, c => ⟨[], newLine, c⟩
  | n + 1, before, newLine, c =>
      let w := word flow c.rest
      if c.peek == some '#' || w.isEmpty then ⟨[], newLine, c⟩
      else
        let g := gap (c.advanceBy w.length)
        if g.text.isEmpty || g.next.peek == some '#' || (!flow && g.next.column < indent) then
          ⟨before ++ w, g.newLine, g.next⟩
        else
          let more := words flow indent n g.text g.newLine g.next
          ⟨before ++ w ++ more.text, more.newLine, more.next⟩

def read (flow : Bool) (indent : Int) (c : Cursor) : Scalar :=
  words flow indent c.bound [] false c

end Brainfuck.Document.Plain
