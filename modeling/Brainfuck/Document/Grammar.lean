import Brainfuck.Document.Build
import Brainfuck.Document.Token.Lexer

/-!
From tokens to a graph. A stream holds at most one document. An anchor names a node
as soon as it begins, and an alias stands for the node of its anchor.
-/
namespace Brainfuck.Document

structure Stream where
  tokens : List Token
  /-- What stopped the reading of tokens, told when they run out. -/
  fault : Fault
  handles : List (List Char × List Char) := []
  anchors : List (List Char × Nat) := []
  graph : Graph := #[]
  depth : Nat := 0

abbrev Parse := StateT Stream (Except Fault)

namespace Parse

def peek : Parse Token := do
  match (← get).tokens with
  | token :: _ => return token
  | [] => throw (← get).fault

def skip : Parse Unit := modify fun s => { s with tokens := s.tokens.drop 1 }

def malformed {α : Type} : Parse α := throw .malformed

def expect (token : Token) : Parse Unit := do
  if (← peek) == token then skip else malformed

/-- The tag that is meant; the lone mark means the tag of a plain scalar. A handle
stands for what the document declares, before what it always stands for. -/
def resolve : TagText → Parse (Option Tag)
  | .whole name => return if name == ['!'] then none else some (Tag.ofName name)
  | .handled handle suffix => do
      match ((← get).handles ++ Tag.handles).lookup handle with
      | some target => return some (Tag.ofName (target ++ suffix))
      | none => malformed

structure Properties where
  anchor : Option (List Char) := none
  tag : Option TagText := none

/-- An anchor and a tag in either order. -/
def properties : Parse Properties := do
  match ← peek with
  | .anchor name => do
      skip
      match ← peek with
      | .tag text => skip; return ⟨some name, some text⟩
      | _ => return ⟨some name, none⟩
  | .tag text => do
      skip
      match ← peek with
      | .anchor name => skip; return ⟨some name, some text⟩
      | _ => return ⟨none, some text⟩
  | _ => return {}

def add (node : Node) : Parse Nat := do
  let n := (← get).graph.size
  modify fun s => { s with graph := s.graph.push node }
  return n

def absent : Parse Nat := add Node.absent

/-- Adds a node and names it; a name is given only once. -/
def begin (anchor : Option (List Char)) (node : Node) : Parse Nat := do
  match anchor with
  | none => add node
  | some name =>
      if ((← get).anchors.lookup name).isSome then malformed
      else
        let n ← add node
        modify fun s => { s with anchors := (name, n) :: s.anchors }
        return n

/-- A scalar. One without a tag of its own is resolved if it is plain or has the
lone mark. -/
def scalarNode (props : Properties) (tag : Option Tag) (plain : Bool) (text : Text) : Parse Nat :=
  let resolved := if plain || props.tag.isSome then Scalar.kind text else .text
  begin props.anchor ⟨tag.getD resolved, .scalar text⟩

/-- A node may be left out behind an anchor or a tag. -/
def leftOut (props : Properties) (tag : Option Tag) : Parse Nat :=
  if props.anchor.isNone && props.tag.isNone then malformed
  else scalarNode props tag true []

/-- The number of collections that may lie inside one another. -/
def deepest : Nat := 490

def inside {α : Type} (parts : Parse α) : Parse α := do
  let depth := (← get).depth
  if deepest ≤ depth then throw .tooDeep
  modify fun s => { s with depth := depth + 1 }
  let found ← parts
  modify fun s => { s with depth }
  return found

def sequenceNode (props : Properties) (tag : Option Tag) (items : Parse (List Nat)) :
    Parse Nat := do
  -- Named before its items are read, so that they may refer to it.
  let n ← begin props.anchor ⟨tag.getD .sequence, .sequence []⟩
  let items ← inside items
  modify fun s => { s with graph := s.graph.setContent n (.sequence items) }
  return n

def mappingNode (props : Properties) (tag : Option Tag) (entries : Parse (List (Nat × Nat))) :
    Parse Nat := do
  let n ← begin props.anchor ⟨tag.getD .mapping, .mapping []⟩
  let entries ← inside entries
  modify fun s => { s with graph := s.graph.setContent n (.mapping entries) }
  return n

def startsEntry (token : Token) : Bool := token == .blockEntry || token == .blockEnd

def startsPair (token : Token) : Bool := token == .key || token == .value || token == .blockEnd

mutual

/-- A node. Block collections are allowed if `block`, and sequences without
indentation of their own if `indentless`. -/
def node (block indentless : Bool) : Nat → Parse Nat
  | 0 => malformed
  | n + 1 => do
      match ← peek with
      | .aliasOf target =>
          skip
          match (← get).anchors.lookup target with
          | some found => return found
          | none => malformed
      | _ =>
          let props ← properties
          let tag ← match props.tag with
            | some text => resolve text
            | none => pure none
          match ← peek with
          | .scalar plain text =>
              skip
              scalarNode props tag plain text
          | .flowSequenceStart => sequenceNode props tag do skip; flowItems true n
          | .flowMappingStart => mappingNode props tag do skip; flowEntries true n
          | .blockEntry =>
              if indentless then sequenceNode props tag (indentlessItems n) else leftOut props tag
          | .blockSequenceStart =>
              if block then sequenceNode props tag do skip; blockItems n else leftOut props tag
          | .blockMappingStart =>
              if block then mappingNode props tag do skip; blockEntries n else leftOut props tag
          | _ => leftOut props tag

def blockItems : Nat → Parse (List Nat)
  | 0 => malformed
  | n + 1 => do
      match ← peek with
      | .blockEnd => skip; return []
      | .blockEntry =>
          skip
          let item ← if startsEntry (← peek) then absent else node true false n
          return item :: (← blockItems n)
      | _ => malformed

def indentlessItems : Nat → Parse (List Nat)
  | 0 => malformed
  | n + 1 => do
      match ← peek with
      | .blockEntry =>
          skip
          let token ← peek
          let item ←
            if token == .blockEntry || startsPair token then absent else node true false n
          return item :: (← indentlessItems n)
      | _ => return []

def blockEntries : Nat → Parse (List (Nat × Nat))
  | 0 => malformed
  | n + 1 => do
      match ← peek with
      | .blockEnd => skip; return []
      | .key =>
          skip
          let key ← if startsPair (← peek) then absent else node true true n
          let value ←
            if (← peek) == .value then do
              skip
              if startsPair (← peek) then absent else node true true n
            else absent
          return (key, value) :: (← blockEntries n)
      | _ => malformed

/-- The key and value of a pair inside a flow collection that ends with `stop`. -/
def flowPair (stop : Token) : Nat → Parse (Nat × Nat)
  | 0 => malformed
  | n + 1 => do
      expect .key
      let ends := fun (token : Token) => token == .flowEntry || token == stop
      let token ← peek
      let key ← if token == .value || ends token then absent else node false false n
      let value ←
        if (← peek) == .value then do
          skip
          if ends (← peek) then absent else node false false n
        else absent
      return (key, value)

/-- The items of a flow sequence; a pair in it is a mapping of its own. -/
def flowItems (first : Bool) : Nat → Parse (List Nat)
  | 0 => malformed
  | n + 1 => do
      if (← peek) == .flowSequenceEnd then skip; return []
      if !first then expect .flowEntry
      match ← peek with
      | .flowSequenceEnd => skip; return []
      | .key =>
          let item ← mappingNode {} none do return [← flowPair .flowSequenceEnd n]
          return item :: (← flowItems false n)
      | _ =>
          let item ← node false false n
          return item :: (← flowItems false n)

/-- The entries of a flow mapping; a key alone has no value. -/
def flowEntries (first : Bool) : Nat → Parse (List (Nat × Nat))
  | 0 => malformed
  | n + 1 => do
      if (← peek) == .flowMappingEnd then skip; return []
      if !first then expect .flowEntry
      match ← peek with
      | .flowMappingEnd => skip; return []
      | .key =>
          let pair ← flowPair .flowMappingEnd n
          return pair :: (← flowEntries false n)
      | _ =>
          let key ← node false false n
          let value ← absent
          return (key, value) :: (← flowEntries false n)

end

/-- The directives before a document: one version at most, and each handle once. -/
def directives : Nat → Bool → Parse Unit
  | 0, _ => malformed
  | n + 1, versioned => do
      match ← peek with
      | .directive d =>
          skip
          match d with
          | .version major _ =>
              if versioned || major != 1 then malformed else directives n true
          | .tag handle target =>
              if ((← get).handles.lookup handle).isSome then malformed
              else
                modify fun s => { s with handles := (handle, target) :: s.handles }
                directives n versioned
          | .other => directives n versioned
      | _ => return ()

def skipEnds : Nat → Parse Unit
  | 0 => malformed
  | n + 1 => do
      if (← peek) == .documentEnd then
        skip
        skipEnds n
      else return ()

def isDocumentBoundary : Token → Bool
  | .directive _ | .documentStart | .documentEnd | .streamEnd => true
  | _ => false

def documentHead (n : Nat) : Parse Unit := do
  modify fun s => { s with handles := [] }
  directives n false
  expect .documentStart

def explicitDocument (n : Nat) : Parse Nat := do
  documentHead n
  if isDocumentBoundary (← peek) then absent else node true false n

/-- The one document of a stream, nothing if there is none. A second document is
refused after its head. -/
def document (n : Nat) : Parse (Option Nat) := do
  match ← peek with
  | .streamEnd => return none
  | token =>
      let found ← match token with
        | .directive _ | .documentStart => explicitDocument n
        | _ => node true false n
      skipEnds n
      if (← peek) == .streamEnd then return some found
      -- A fault in the head of the second document comes first.
      documentHead n
      malformed

end Parse

def parse (text : List Char) : Except Fault (Graph × Option Nat) := do
  let (tokens, fault) := tokens text
  let stream : Stream := { tokens := tokens.toList, fault := fault.getD .malformed }
  -- More fuel than there can be calls inside one another.
  let (root, stream) ← (Parse.document (4 * tokens.size + 4)).run stream
  return (stream.graph, root)

def read (text : List Char) : Except Fault (Option Built) := do
  match ← parse text with
  | (_, none) => return none
  | (graph, some root) => some <$> graph.build root

end Brainfuck.Document
