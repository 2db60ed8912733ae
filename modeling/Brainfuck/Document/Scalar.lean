import Brainfuck.Document.Tag
import Brainfuck.Document.Timestamp
import Brainfuck.Text.Base64
import Brainfuck.Text.Lower

/-!
The kinds of scalars. A plain scalar takes the first kind whose form it has:
truth word, real, integer, merge mark, nothing, timestamp, default mark; otherwise it
is text. A line feed at its end does not count. Numbers may be grouped by underscores,
and colons separate sixties.
-/
namespace Brainfuck.Document

namespace Scalar

def splitAtMark {α : Type} [BEq α] (mark : α) : List α → List (List α)
  | [] => [[]]
  | c :: rest =>
      match splitAtMark mark rest with
      | part :: parts => if c == mark then [] :: part :: parts else (c :: part) :: parts
      | [] => [[]]

def isGrouped (c : Char) : Bool := c.isDigit || c == '_'

def isOctal (c : Char) : Bool := '0' ≤ c && c ≤ '7'

/-- A part after a colon: a number below sixty. -/
def isSixtieth : List Char → Bool
  | [d] => d.isDigit
  | [t, d] => '0' ≤ t && t ≤ '5' && d.isDigit
  | _ => false

def startsWithDigit (text : List Char) : Bool := text.head?.any Char.isDigit

def isInteger (text : List Char) : Bool :=
  match (Numeral.splitSign text).2 with
  | '0' :: 'b' :: rest => !rest.isEmpty && rest.all fun c => c == '0' || c == '1' || c == '_'
  | '0' :: 'x' :: rest =>
      !rest.isEmpty && rest.all fun c => (Numeral.digitIn? 16 c).isSome || c == '_'
  | '0' :: rest => rest.all fun c => isOctal c || c == '_'
  | body =>
      startsWithDigit body && match splitAtMark ':' body with
        | first :: parts => first.all isGrouped && parts.all isSixtieth
        | [] => false

/-- An exponent has a sign, so that one digit follows it at least. -/
def isExponent : List Char → Bool
  | [] => true
  | mark :: sign :: rest =>
      (mark == 'e' || mark == 'E') && (sign == '-' || sign == '+') && !rest.isEmpty &&
        rest.all Char.isDigit
  | _ => false

def isFraction (text : List Char) : Bool := isExponent (text.dropWhile isGrouped)

def isReal (text : List Char) : Bool :=
  let body := (Numeral.splitSign text).2
  let whole := body.takeWhile (· != '.')
  let fraction := body.dropWhile (· != '.')
  let numeric := match splitAtMark ':' whole, fraction with
    | [first], '.' :: after => startsWithDigit first && first.all isGrouped && isFraction after
    | first :: parts, '.' :: after =>
        startsWithDigit first && first.all isGrouped && parts.all isSixtieth && after.all isGrouped
    | _, _ => false
  let bare := match text with
    | '.' :: after => startsWithDigit after && isFraction after
    | _ => false
  numeric || bare || [".inf", ".Inf", ".INF"].contains (String.ofList body) ||
    [".nan", ".NaN", ".NAN"].contains (String.ofList text)

/-- Truth words are written in small letters, in capitals, or with one capital. -/
def truthWords : List (String × Bool) :=
  [("yes", true), ("no", false), ("true", true), ("false", false), ("on", true), ("off", false)]

def truthValue? (word : Text) : Option Bool :=
  (truthWords.find? fun (name, _) => Text.ofString name == word).map Prod.snd

def capitalized : List Char → List Char
  | [] => []
  | c :: rest => c.toUpper :: rest

def isTruth (text : List Char) : Bool :=
  truthWords.any fun (word, _) =>
    text == word.toList || text == capitalized word.toList || text == word.toList.map Char.toUpper

def isNull (text : List Char) : Bool :=
  ["", "~", "null", "Null", "NULL"].contains (String.ofList text)

/-- A text without the line feed at its end, unless it is nothing else. -/
def dropLineFeed (text : List Char) : List Char :=
  match text.reverse with
  | '\n' :: c :: before => (c :: before).reverse
  | _ => text

def kindOfChars (text : List Char) : Tag :=
  if isTruth text then .truth
  else if isReal text then .real
  else if isInteger text then .integer
  else if text == ['<', '<'] then .merge
  else if isNull text then .null
  else if Timestamp.isPlain text then .timestamp
  else if text == ['='] then .default
  else if [['!'], ['&'], ['*']].contains text then .unknown
  else .text

def kind (text : Text) : Tag :=
  match text.chars? with
  | some chars => kindOfChars (dropLineFeed chars)
  | none => .text

def ungrouped (text : Text) : Text := text.filter (· != .char '_')

def splitSign : Text → Bool × Text
  | .char '-' :: rest => (true, rest)
  | .char '+' :: rest => (false, rest)
  | text => (false, text)

def colon : Letter := .char ':'

def readPart (base : Nat) (text : Text) : Except Fault Int :=
  match Numeral.readInteger base text with
  | .ok n => .ok n
  | .error cause => .error (.integer cause)

def readRealPart (text : Text) : Except Fault Float :=
  match Numeral.readReal text with
  | .ok x => .ok x
  | .error cause => .error (.real cause)

def integerMagnitude (body : Text) : Except Fault Int :=
  match body with
  | [] => .error .emptyNumber
  | [.char '0'] => .ok 0
  | .char '0' :: .char 'b' :: rest => readPart 2 rest
  | .char '0' :: .char 'x' :: rest => readPart 16 rest
  | .char '0' :: _ => readPart 8 body
  | _ =>
      if body.contains colon then do
        let parts ← (splitAtMark colon body).mapM (readPart 10)
        return parts.foldl (fun value part => value * 60 + part) 0
      else readPart 10 body

def readInteger (text : Text) : Except Fault Int :=
  match ungrouped text with
  | [] => .error .emptyNumber
  | digits => do
      let (negative, body) := splitSign digits
      let n ← integerMagnitude body
      return if negative then -n else n

/-- Adds parts in sixties to a sum, the smallest first, `unit` being the next power. -/
def addSixties (sum : Float) (unit : Nat) : List Float → Except Fault Float
  | [] => .ok sum
  | part :: parts =>
      if unit.toFloat.isInf then .error .sixtiesSize
      else addSixties (sum + part * unit.toFloat) (unit * 60) parts

def realMagnitude (body : Text) : Except Fault Value :=
  if body == Text.ofString ".inf" then .ok (.real (1.0 / 0.0))
  else if body == Text.ofString ".nan" then .ok .nan
  else if body.contains colon then do
    let parts ← (splitAtMark colon body).mapM readRealPart
    return .real (← addSixties 0.0 1 parts.reverse)
  else (readRealPart body).map .real

def negate : Value → Value
  | .real x => .real (-x)
  | value => value

def readReal (text : Text) : Except Fault Value :=
  match Text.lower (ungrouped text) with
  | [] => .error .emptyNumber
  | digits => do
      let (negative, body) := splitSign digits
      let value ← realMagnitude body
      return if negative then negate value else value

def readTruth (text : Text) : Except Fault Value :=
  let word := Text.lower text
  match truthValue? word with
  | some b => .ok (.bool b)
  | none => .error (.truthWord word)

/-- Bytes are written in seven-bit characters. -/
def readBytes (text : Text) : Except Fault Value :=
  match text.chars? with
  | some chars =>
      if chars.all fun c => c.toNat < 128 then
        match Text.Base64.decode? chars with
        | some bytes => .ok (.bytes bytes)
        | none => .error .malformed
      else .error .malformed
  | none => .error .malformed

def readTimestamp (text : Text) : Except Fault Value :=
  match text.chars?.bind fun chars => Timestamp.read? (dropLineFeed chars) with
  | none => .error .notTimestamp
  | some stamp => match stamp.toValue with
    | .ok value => .ok value
    | .error cause => .error (.calendar cause)

/-- The value of a scalar of a kind. The marks of merging and of defaults have no
value of their own. -/
def read (tag : Tag) (text : Text) : Except Fault Value :=
  match tag with
  | .null => .ok .null
  | .truth => readTruth text
  | .integer => (readInteger text).map .int
  | .real => readReal text
  | .binary => readBytes text
  | .timestamp => readTimestamp text
  | .text => .ok (.text text)
  | .merge | .default | .sequence | .mapping | .set | .orderedMapping | .pairs | .unknown =>
      .error .malformed

end Scalar

end Brainfuck.Document
