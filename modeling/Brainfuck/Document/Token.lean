import Brainfuck.Text.Letter

/-!
The tokens of a settings document, which is written in YAML. Indentation shows as
tokens that open and end block collections.
-/
namespace Brainfuck.Document

/-- How a tag was written: with its name in full, or with a handle and the rest. -/
inductive TagText where
  | whole (name : List Char)
  | handled (handle suffix : List Char)
deriving DecidableEq

inductive Directive where
  | version (major minor : Int)
  | tag (handle target : List Char)
  | other
deriving DecidableEq

inductive Token where
  | directive (d : Directive)
  | documentStart
  | documentEnd
  | streamEnd
  | blockSequenceStart
  | blockMappingStart
  | blockEnd
  | flowSequenceStart
  | flowSequenceEnd
  | flowMappingStart
  | flowMappingEnd
  | blockEntry
  | flowEntry
  | key
  | value
  | aliasOf (name : List Char)
  | anchor (name : List Char)
  | tag (text : TagText)
  | scalar (plain : Bool) (text : Text)
deriving DecidableEq

end Brainfuck.Document
