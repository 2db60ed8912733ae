import Brainfuck.Document.Token.Block
import Brainfuck.Document.Token.Plain
import Brainfuck.Document.Token.Quoted
import Brainfuck.Document.Token.Tag

/-!
From text to tokens. Outside flow collections the column of a line decides which
blocks it continues and which it ends. A mapping key is recognised only at the
colon after it, so the place where it began is remembered and its tokens are put
in there.
-/
namespace Brainfuck.Document

/-- A place where a mapping key may have begun. One that begins a line of a block
mapping has to be a key. -/
structure KeyStart where
  token : Nat
  required : Bool
  index : Nat
  line : Nat
  column : Nat

/-- A key lies on one line and within this many characters. -/
def longestKey : Nat := 1024

structure Lexer where
  cursor : Cursor
  tokens : Array Token := #[]
  /-- The column of the innermost block, and those of the blocks around it. -/
  indent : Int := -1
  outer : List Int := []
  depth : Nat := 0
  keyAllowed : Bool := true
  /-- The places where keys may have begun, one for each flow collection and one
  outside all of them, innermost first. -/
  keys : List (Option KeyStart) := [none]

namespace Lexer

def inFlow (l : Lexer) : Bool := l.depth != 0

def emit (l : Lexer) (token : Token) : Lexer := { l with tokens := l.tokens.push token }

def column (l : Lexer) : Int := l.cursor.column

def dropKey (l : Lexer) : Except Fault Lexer :=
  match l.keys with
  | some start :: rest =>
      if start.required then .error .malformed else .ok { l with keys := none :: rest }
  | _ => .ok l

def saveKey (l : Lexer) : Except Fault Lexer :=
  if l.keyAllowed then do
    let l ← l.dropKey
    let start : KeyStart := {
      token := l.tokens.size
      required := !l.inFlow && l.indent == l.column
      index := l.cursor.index
      line := l.cursor.line
      column := l.cursor.column }
    return { l with keys := some start :: l.keys.drop 1 }
  else .ok l

def isStale (l : Lexer) (start : KeyStart) : Bool :=
  start.line != l.cursor.line || longestKey < l.cursor.index - start.index

/-- Forgets the places from which no key can reach to here. -/
def dropStale (l : Lexer) : Except Fault Lexer :=
  let stale : Option KeyStart → Bool := fun start => start.any l.isStale
  if l.keys.any fun start => stale start && start.any (·.required) then .error .malformed
  else .ok { l with keys := l.keys.map fun start => if stale start then none else start }

def endBlocks (column : Int) (tokens : Array Token) (indent : Int) :
    List Int → Array Token × Int × List Int
  | [] => (tokens, indent, [])
  | next :: outer =>
      if column < indent then endBlocks column (tokens.push .blockEnd) next outer
      else (tokens, indent, next :: outer)

def unwind (l : Lexer) (column : Int) : Lexer :=
  if l.inFlow then l
  else
    let (tokens, indent, outer) := endBlocks column l.tokens l.indent l.outer
    { l with tokens, indent, outer }

def insertAt (l : Lexer) (place : Nat) (tokens : List Token) : Lexer :=
  let before := l.tokens.extract 0 place
  let after := l.tokens.extract place l.tokens.size
  { l with tokens := before ++ tokens.toArray ++ after }

/-- Begins a block at a column right of the innermost one, by the token `start`
put in at `place`. -/
def beginBlock (l : Lexer) (column : Int) (place : Nat) (start : Token) : Lexer :=
  if l.indent < column then
    { l.insertAt place [start] with indent := column, outer := l.indent :: l.outer }
  else l

def move (l : Lexer) (n : Nat) : Lexer := { l with cursor := l.cursor.advanceBy n }

/-- Skips blanks, comments and line ends. A key may begin on a new line. -/
def skipToToken : Nat → Lexer → Lexer
  | 0, l => l
  | n + 1, l =>
      let c := l.cursor.skipSpaces.skipComment
      match c.lineBreak? with
      | none => { l with cursor := c }
      | some (_, next) =>
          skipToToken n { l with cursor := next, keyAllowed := l.keyAllowed || !l.inFlow }

def skipMark (l : Lexer) : Lexer :=
  if l.cursor.index == 0 && l.cursor.peek == some byteOrderMark then l.move 1 else l

def leaveBlocks (l : Lexer) : Except Fault Lexer := do
  let l ← (l.unwind (-1)).dropKey
  return { l with keyAllowed := false }

def separator (l : Lexer) (token : Token) : Except Fault Lexer := do
  let l ← l.leaveBlocks
  return (l.emit token).move 3

def directive (l : Lexer) : Except Fault Lexer := do
  let l ← l.leaveBlocks
  let (d, next) ← readDirective l.cursor
  return { l.emit (.directive d) with cursor := next }

def flowStart (l : Lexer) (token : Token) : Except Fault Lexer := do
  let l ← l.saveKey
  return { (l.emit token).move 1 with
    depth := l.depth + 1, keys := none :: l.keys, keyAllowed := true }

/-- A flow collection that was never begun cannot end. -/
def flowEnd (l : Lexer) (token : Token) : Except Fault Lexer := do
  if !l.inFlow then throw .malformed
  let l ← l.dropKey
  return { (l.emit token).move 1 with
    depth := l.depth - 1, keys := l.keys.drop 1, keyAllowed := false }

def flowEntry (l : Lexer) : Except Fault Lexer := do
  let l ← l.dropKey
  return { (l.emit .flowEntry).move 1 with keyAllowed := true }

def blockEntry (l : Lexer) : Except Fault Lexer := do
  if !l.inFlow && !l.keyAllowed then throw .malformed
  let l := if l.inFlow then l else l.beginBlock l.column l.tokens.size .blockSequenceStart
  let l ← l.dropKey
  return { (l.emit .blockEntry).move 1 with keyAllowed := true }

def marked (l : Lexer) (token : Token) : Except Fault Lexer := do
  if !l.inFlow && !l.keyAllowed then throw .malformed
  let l := if l.inFlow then l else l.beginBlock l.column l.tokens.size .blockMappingStart
  let l ← l.dropKey
  return { (l.emit token).move 1 with keyAllowed := !l.inFlow }

/-- The colon of a value. If a key may have begun before it, it did. -/
def value (l : Lexer) : Except Fault Lexer :=
  match l.keys with
  | some start :: rest =>
      -- Behind the start of its block, which is put in at the same place afterwards.
      let l := l.insertAt start.token [.key]
      let l := if l.inFlow then l else l.beginBlock start.column start.token .blockMappingStart
      .ok { (l.emit .value).move 1 with keys := none :: rest, keyAllowed := false }
  | _ => l.marked .value

def aliasOf (l : Lexer) : Except Fault Lexer := do
  let l ← l.saveKey
  let (name, next) ← readAnchor l.cursor
  return { l.emit (.aliasOf name) with cursor := next, keyAllowed := false }

def anchor (l : Lexer) : Except Fault Lexer := do
  let l ← l.saveKey
  let (name, next) ← readAnchor l.cursor
  return { l.emit (.anchor name) with cursor := next, keyAllowed := false }

def tag (l : Lexer) : Except Fault Lexer := do
  let l ← l.saveKey
  let (text, next) ← readTag l.cursor
  return { l.emit (.tag text) with cursor := next, keyAllowed := false }

def block (l : Lexer) (style : Block.Style) : Except Fault Lexer := do
  let l ← l.dropKey
  let (text, next) ← Block.read style l.indent l.cursor
  return { l.emit (.scalar false (Text.ofChars text)) with cursor := next, keyAllowed := true }

def quoted (l : Lexer) (style : Quoted.Style) : Except Fault Lexer := do
  let l ← l.saveKey
  let (text, next) ← Quoted.read style l.cursor
  return { l.emit (.scalar false text) with cursor := next, keyAllowed := false }

def plain (l : Lexer) : Except Fault Lexer := do
  let l ← l.saveKey
  let s := Plain.read l.inFlow (l.indent + 1) l.cursor
  return { l.emit (.scalar true (Text.ofChars s.text)) with
    cursor := s.next, keyAllowed := s.newLine }

def indicators : List Char :=
  Text.singleQuote :: Text.doubleQuote :: "-?:,[]\x7b\x7d#&*!|>%@\x60".toList

def startsPlain (l : Lexer) (c : Char) : Bool :=
  !(endsWord (some c) || indicators.contains c) ||
    (!endsWord (l.cursor.peekAt 1) && (c == '-' || (!l.inFlow && (c == '?' || c == ':'))))

def fetch (l : Lexer) (c : Char) : Except Fault Lexer :=
  let lineStart := l.cursor.column == 0
  let setOff := endsWord (l.cursor.peekAt 1)
  if c == '%' && lineStart then l.directive
  else if c == '-' && lineStart && l.cursor.atSeparator then l.separator .documentStart
  else if c == '.' && lineStart && l.cursor.atSeparator then l.separator .documentEnd
  else if c == '[' then l.flowStart .flowSequenceStart
  else if c == '\x7b' then l.flowStart .flowMappingStart
  else if c == ']' then l.flowEnd .flowSequenceEnd
  else if c == '\x7d' then l.flowEnd .flowMappingEnd
  else if c == ',' then l.flowEntry
  else if c == '-' && setOff then l.blockEntry
  else if c == '?' && (l.inFlow || setOff) then l.marked .key
  else if c == ':' && (l.inFlow || setOff) then l.value
  else if c == '*' then l.aliasOf
  else if c == '&' then l.anchor
  else if c == '!' then l.tag
  else if c == '|' && !l.inFlow then l.block .literal
  else if c == '>' && !l.inFlow then l.block .folded
  else if c == Text.singleQuote then l.quoted .single
  else if c == Text.doubleQuote then l.quoted .double
  -- No mark of any other kind, or one that is not set off.
  else if l.startsPlain c then l.plain
  else .error .malformed

/-- Goes to the next token: blanks are skipped, stale keys forgotten and blocks
ended. -/
def prepare (l : Lexer) : Except Fault Lexer := do
  let l ← (skipToToken l.cursor.bound l.skipMark).dropStale
  return l.unwind l.column

/-- The tokens whose place is settled: none of them can still turn out to begin a
key, before which others would be put in. -/
def settled (l : Lexer) : Array Token :=
  let starts := l.keys.filterMap fun start =>
    start.bind fun s => if l.isStale s then none else some s.token
  l.tokens.extract 0 (starts.foldl min l.tokens.size)

def next (l : Lexer) : Except Fault (Lexer × Bool) := do
  let l ← l.prepare
  match l.cursor.peek with
  | none =>
      let l ← l.leaveBlocks
      return (l.emit .streamEnd, true)
  | some c => return (← l.fetch c, false)

/-- The tokens of a text. If a fault stops their reading, only those are given that
were settled before the part of the text with the fault. -/
def run : Nat → Lexer → Array Token × Option Fault
  | 0, l => (l.settled, some .malformed)
  | n + 1, l =>
      match l.next with
      | .error fault => (l.settled, some fault)
      | .ok (l, true) => (l.tokens, none)
      | .ok (l, false) => run n l

end Lexer

def tokens (text : List Char) : Array Token × Option Fault :=
  if text.all isAllowed then
    let cursor : Cursor := { rest := text }
    Lexer.run cursor.bound { cursor }
  else (#[], some .malformed)

end Brainfuck.Document
