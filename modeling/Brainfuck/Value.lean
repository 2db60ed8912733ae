import Brainfuck.Calendar
import Brainfuck.Numeral.Shortest

/-!
Untyped values, as a settings file or a caller supplies them. A mapping keeps its
entries in the order in which their keys first came; a repeated key takes the last
value. Numbers that are equal are one key, whatever their kind. A collection may
stand inside itself; there its place is held by a mark.
-/
namespace Brainfuck

inductive Value where
  | null
  | bool (b : Bool)
  | int (n : Int)
  | real (x : Float)
  /-- The constant for no number. As a key it equals itself, which a real that is no
  number does not. -/
  | nan
  | text (s : Text)
  | bytes (bs : List UInt8)
  | date (d : Date)
  | moment (m : Moment)
  | pair (first second : Value)
  | list (items : List Value)
  | set (items : List Value)
  | mapping (entries : List (Value × Value))
  /-- A list that this place lies inside of. -/
  | outerList
  /-- A mapping that this place lies inside of. -/
  | outerMapping

namespace Value

abbrev Entries := List (Value × Value)

def ofString (s : String) : Value := .text (Text.ofString s)

def braced (body : String) : String := "\x7b" ++ body ++ "\x7d"

mutual

def render : Value → String
  | .null => "None"
  | .bool true => "True"
  | .bool false => "False"
  | .int n => Numeral.intText n
  | .real x => Numeral.floatText x
  | .nan => "nan"
  | .text s => Text.quote s
  | .bytes bs => Text.quoteBytes bs
  | .date d => d.render
  | .moment m => m.render
  | .pair first second => "(" ++ render first ++ ", " ++ render second ++ ")"
  | .list items => "[" ++ Text.commaSeparated (renderItems items) ++ "]"
  | .set [] => "set()"
  | .set (item :: items) => braced (Text.commaSeparated (render item :: renderItems items))
  | .mapping entries => braced (Text.commaSeparated (renderEntries entries))
  | .outerList => "[...]"
  | .outerMapping => braced "..."

def renderItems : List Value → List String
  | [] => []
  | item :: rest => render item :: renderItems rest

def renderEntries : List (Value × Value) → List String
  | [] => []
  | (key, value) :: rest => (render key ++ ": " ++ render value) :: renderEntries rest

end

mutual

/-- Whether a value has a text: none of its integers is too long. -/
def isWritable : Value → Bool
  | .int n => Numeral.isWritable n
  | .pair first second => isWritable first && isWritable second
  | .list items | .set items => areWritable items
  | .mapping entries => haveText entries
  | .null | .bool _ | .real _ | .nan | .text _ | .bytes _ | .date _ | .moment _ | .outerList
  | .outerMapping => true

def areWritable : List Value → Bool
  | [] => true
  | item :: rest => isWritable item && areWritable rest

def haveText : List (Value × Value) → Bool
  | [] => true
  | (key, value) :: rest => isWritable key && isWritable value && haveText rest

end

/-- Whether a value counts as not given: nothing, false, zero or empty. -/
def isVacant : Value → Bool
  | .null => true
  | .bool b => !b
  | .int n => n == 0
  | .real x => x == 0.0
  | .text s => s.isEmpty
  | .bytes bs => bs.isEmpty
  | .list items | .set items => items.isEmpty
  | .mapping entries => entries.isEmpty
  | .nan | .date _ | .moment _ | .pair .. | .outerList | .outerMapping => false

/-- A number that is an integer: truth values count as one and zero. -/
def toInteger? : Value → Option Int
  | .bool b => some (if b then 1 else 0)
  | .int n => some n
  | .real x => (Numeral.Double.ofFloat x).toInt?
  | _ => none

/-- Equality of keys. Collections are no keys. -/
def sameKey : Value → Value → Bool
  | .null, .null => true
  | .nan, .nan => true
  | .text s, .text t => s == t
  | .bytes bs, .bytes cs => bs == cs
  | .date d, .date e => d == e
  | .moment m, .moment n => m.sameAs n
  | .real x, .real y => x == y
  | a, b => match a.toInteger?, b.toInteger? with
    | some m, some n => m == n
    | _, _ => false

/-- Puts an entry: a new key goes to the end, a known one keeps its place. -/
def putBy {κ ν : Type} (same : κ → κ → Bool) (key : κ) (value : ν) : List (κ × ν) → List (κ × ν)
  | [] => [(key, value)]
  | (k, v) :: rest =>
      if same k key then (k, value) :: rest else (k, v) :: putBy same key value rest

def put (key value : Value) (entries : Entries) : Entries := putBy sameKey key value entries

def ofPairs (pairs : Entries) : Entries :=
  pairs.foldl (fun entries (key, value) => put key value entries) []

def lookup? {ν : Type} (name : String) : List (Value × ν) → Option ν
  | [] => none
  | (.text s, v) :: rest => if s == Text.ofString name then some v else lookup? name rest
  | _ :: rest => lookup? name rest

end Value

end Brainfuck
