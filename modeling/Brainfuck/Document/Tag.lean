/-!
The tags of nodes. A tag is a name; the names that have a meaning begin with a
common part, which tags written with two exclamation marks leave out.
-/
namespace Brainfuck.Document

inductive Tag where
  | null
  | truth
  | integer
  | real
  | binary
  | timestamp
  | text
  | merge
  | default
  | sequence
  | mapping
  | set
  | orderedMapping
  | pairs
  | unknown
deriving DecidableEq

namespace Tag

/-- What the names of all tags with a meaning begin with. -/
def coreNames : List Char := "tag:yaml.org,2002:".toList

def shortNames : List (String × Tag) := [
  ("null", .null), ("bool", .truth), ("int", .integer), ("float", .real), ("binary", .binary),
  ("timestamp", .timestamp), ("str", .text), ("merge", .merge), ("value", .default),
  ("seq", .sequence), ("map", .mapping), ("set", .set), ("omap", .orderedMapping),
  ("pairs", .pairs)]

def ofName (name : List Char) : Tag :=
  match shortNames.find? fun (short, _) => coreNames ++ short.toList == name with
  | some (_, tag) => tag
  | none => .unknown

def isCollection : Tag → Bool
  | .sequence | .mapping | .set | .orderedMapping | .pairs => true
  | _ => false

/-- The handles that a document need not declare, with what they stand for. -/
def handles : List (List Char × List Char) := [(['!'], ['!']), (['!', '!'], coreNames)]

end Tag

end Brainfuck.Document
