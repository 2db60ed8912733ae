import Brainfuck.Document.Grammar
import Brainfuck.Settings.Basic

/-!
Settings from a file, a YAML document. It holds a mapping of settings, or one that
has them in its section for the interpreter; an empty file means the defaults.
-/
namespace Brainfuck.Settings

inductive FileError where
  | missing
  | undecodable
  | document (fault : Document.Fault)
  | notMapping
  | sectionNotMapping
  | rejected (cause : Rejection)

/-- A missing file and one that is no text are not described further. -/
def FileError.message? : FileError → Option Text
  | .missing => none
  | .undecodable => none
  | .document fault => some (Text.ofString fault.message)
  | .notMapping => some (Text.ofString "Unsupported config structure; expected a mapping")
  | .sectionNotMapping => some (Text.ofString "'interpreter' section must be a mapping")
  | .rejected cause => some cause.message

def sectionName : String := "interpreter"

/-- What decides how a value is used for settings: nothing, a mapping, or another
value, which may count as not given. -/
inductive Outline (α : Type) where
  | null
  | mapping (entries : List (Value × α))
  | other (vacant : Bool)

/-- How to look at what settings are made from, without looking at all of it. -/
structure Source (α : Type) where
  outline : α → Outline α
  reveal : α → Value

namespace Source

variable {α : Type}

def ofMapping (source : Source α) (entries : List (Value × α)) : Except FileError Settings :=
  match ofKeyed source.reveal entries with
  | .ok settings => .ok settings
  | .error cause => .error (.rejected cause)

/-- The section for the interpreter; a vacant one has no entries. -/
def ofSection (source : Source α) (item : α) : Except FileError Settings :=
  match source.outline item with
  | .null | .other true => source.ofMapping []
  | .mapping entries => source.ofMapping entries
  | .other false => .error .sectionNotMapping

def settings (source : Source α) (root : α) : Except FileError Settings :=
  match source.outline root with
  | .null => .ok defaults
  | .mapping entries => match Value.lookup? sectionName entries with
    | some item => source.ofSection item
    | none => source.ofMapping entries
  | .other _ => .error .notMapping

end Source

def valueOutline : Value → Outline Value
  | .null => .null
  | .mapping entries => .mapping entries
  | value => .other value.isVacant

/-- Values, which are there as a whole. -/
def Source.values : Source Value := ⟨valueOutline, id⟩

def ofValue (value : Value) : Except FileError Settings := Source.values.settings value

def objectOutline (built : Document.Built) (n : Nat) : Outline Nat :=
  match built.object n with
  | .scalar .null => .null
  | .scalar value => .other value.isVacant
  | .list items | .set items => .other items.isEmpty
  | .pairs items => .other items.isEmpty
  | .mapping entries => .mapping (entries.map fun (key, value) => (built.value key, value))

/-- The nodes of a document, of which only the settings are turned into values. -/
def Source.nodes (built : Document.Built) : Source Nat := ⟨objectOutline built, built.value⟩

def ofDocument (built : Document.Built) : Except FileError Settings :=
  (Source.nodes built).settings built.root

/-- Carriage returns, with or without a line feed, end lines. -/
def unifyLines : List Char → List Char
  | [] => []
  | '\r' :: '\n' :: rest => '\n' :: unifyLines rest
  | '\r' :: rest => '\n' :: unifyLines rest
  | c :: rest => c :: unifyLines rest

def ofText (text : List Char) : Except FileError Settings :=
  match Document.read (unifyLines text) with
  | .ok (some built) => ofDocument built
  | .ok none => .ok defaults
  | .error fault => .error (.document fault)

def ofFile : Option ByteArray → Except FileError Settings
  | none => .error .missing
  | some bytes => match String.fromUTF8? bytes with
    | none => .error .undecodable
    | some text => ofText text.toList

end Brainfuck.Settings
