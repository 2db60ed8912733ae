import Brainfuck.Document.Cursor
import Brainfuck.Document.Fault
import Brainfuck.Document.Token

/-!
Tags, anchors and directive lines.
-/
namespace Brainfuck.Document

/-- The characters of a tag beside letters and digits, the escape mark apart. -/
def tagMarks : List Char :=
  Text.singleQuote :: "-;/?:@&=+$,_.!~*()[]".toList

def isTagChar (c : Char) : Bool := c.isAlphanum || tagMarks.contains c

/-- Bytes written as a percent sign and two digits in base sixteen. -/
def escapedBytes : Nat → Cursor → Except Fault (List UInt8 × Cursor)
  | 0, c => .ok ([], c)
  | n + 1, c =>
      if c.peek == some '%' then do
        let digits := ((c.rest.drop 1).take 2).filterMap (Numeral.digitIn? 16)
        if digits.length < 2 then throw .malformed
        let (more, last) ← escapedBytes n (c.advanceBy 3)
        return (UInt8.ofNat (Numeral.ofDigits 16 digits) :: more, last)
      else .ok ([], c)

/-- The name of a tag; escaped bytes in it are those of encoded characters. -/
def tagPieces : Nat → Cursor → Except Fault (List Char × Cursor)
  | 0, c => .ok ([], c)
  | n + 1, c => do
      let (run, c) := c.span isTagChar
      if c.peek == some '%' then
        let (bytes, c) ← escapedBytes c.bound c
        match String.fromUTF8? ⟨bytes.toArray⟩ with
        | none => throw .malformed
        | some text =>
            let (more, last) ← tagPieces n c
            return (run ++ text.toList ++ more, last)
      else return (run, c)

def tagName (c : Cursor) : Except Fault (List Char × Cursor) := do
  let (name, next) ← tagPieces c.bound c
  if next.index == c.index then throw .malformed
  return (name, next)

/-- A handle is one exclamation mark, or a name between two. -/
def tagHandle (c : Cursor) : Except Fault (List Char × Cursor) :=
  if c.peek != some '!' then .error .malformed
  else if c.peekAt 1 == some ' ' then .ok (['!'], c.advance)
  else
    let (name, next) := c.advance.span isNameChar
    if next.peek == some '!' then .ok ('!' :: name ++ ['!'], next.advance) else .error .malformed

def readTag (c : Cursor) : Except Fault (TagText × Cursor) := do
  let (text, next) ←
    if c.peekAt 1 == some '<' then do
      let (name, next) ← tagName (c.advanceBy 2)
      if next.peek != some '>' then throw .malformed
      pure (TagText.whole name, next.advance)
    else if endsWord (c.peekAt 1) then
      pure (TagText.whole ['!'], c.advance)
    else if ((c.rest.drop 1).takeWhile fun x => !endsSpaced (some x)).contains '!' then do
      let (handle, next) ← tagHandle c
      let (suffix, next) ← tagName next
      pure (TagText.handled handle suffix, next)
    else do
      let (suffix, next) ← tagName c.advance
      pure (TagText.handled ['!'] suffix, next)
  if endsSpaced next.peek then return (text, next) else throw .malformed

def anchorEnds : List Char := "?:,]\x7d%@\x60".toList

def readAnchor (c : Cursor) : Except Fault (List Char × Cursor) :=
  let (name, next) := c.advance.span isNameChar
  if !name.isEmpty && (endsWord next.peek || next.peek.any anchorEnds.contains) then
    .ok (name, next)
  else .error .malformed

def readNumber (c : Cursor) : Except Fault (Int × Cursor) :=
  let (digits, next) := c.span Char.isDigit
  if digits.isEmpty then .error .malformed
  else match Numeral.readInteger 10 (Text.ofChars digits) with
    | .ok n => .ok (n, next)
    | .error cause => .error (.integer cause)

def readVersion (c : Cursor) : Except Fault (Directive × Cursor) := do
  let (major, c) ← readNumber c.skipSpaces
  if c.peek != some '.' then throw .malformed
  let (minor, c) ← readNumber c.advance
  if endsSpaced c.peek then return (.version major minor, c) else throw .malformed

def readTagDirective (c : Cursor) : Except Fault (Directive × Cursor) := do
  let (handle, c) ← tagHandle c.skipSpaces
  if c.peek != some ' ' then throw .malformed
  let (target, c) ← tagName c.skipSpaces
  if endsSpaced c.peek then return (.tag handle target, c) else throw .malformed

def readDirective (c : Cursor) : Except Fault (Directive × Cursor) := do
  let (name, c) := c.advance.span isNameChar
  if name.isEmpty || !endsSpaced c.peek then throw .malformed
  let (directive, c) ←
    if name == "YAML".toList then readVersion c
    else if name == "TAG".toList then readTagDirective c
    else pure (.other, c.skip (!isBreak ·))
  match c.restOfLine? with
  | some next => return (directive, next)
  | none => throw .malformed

end Brainfuck.Document
