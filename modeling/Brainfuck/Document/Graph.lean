import Brainfuck.Document.Scalar

/-!
Documents as graphs. Nodes are numbered, and a collection refers to its parts by
their numbers. An alias is a second reference to a node; as a node may be named
before it is complete, a collection can refer to itself.
-/
namespace Brainfuck.Document

inductive Content where
  | scalar (text : Text)
  | sequence (items : List Nat)
  | mapping (entries : List (Nat × Nat))

structure Node where
  tag : Tag
  content : Content

def Node.absent : Node := ⟨.null, .scalar []⟩

abbrev Graph := Array Node

namespace Graph

def tag (g : Graph) (n : Nat) : Tag :=
  match g[n]? with
  | some node => node.tag
  | none => .unknown

def content (g : Graph) (n : Nat) : Content :=
  match g[n]? with
  | some node => node.content
  | none => .scalar []

def entries (g : Graph) (n : Nat) : List (Nat × Nat) :=
  match g.content n with
  | .mapping entries => entries
  | .scalar _ | .sequence _ => []

def isMapping (g : Graph) (n : Nat) : Bool :=
  match g.content n with
  | .mapping _ => true
  | .scalar _ | .sequence _ => false

def setTag (g : Graph) (n : Nat) (tag : Tag) : Graph := g.modify n fun node => { node with tag }

def setContent (g : Graph) (n : Nat) (content : Content) : Graph :=
  g.modify n fun node => { node with content }

def entryCount (g : Graph) : Nat :=
  (List.range g.size).foldl (fun count n => count + (g.entries n).length) 0

/-- The text of a scalar. A mapping with a default value has the text of that value;
one step for each node is enough unless the values lead back. -/
def textFrom (g : Graph) : Nat → Nat → Except Fault Text
  | 0, _ => .error .tooDeep
  | fuel + 1, n =>
      match g.content n with
      | .scalar text => .ok text
      | .sequence _ => .error .malformed
      | .mapping entries =>
          match entries.find? fun (key, _) => g.tag key == .default with
          | some (_, value) => textFrom g fuel value
          | none => .error .malformed

def text (g : Graph) (n : Nat) : Except Fault Text := g.textFrom (g.size + 1) n

def scalar (g : Graph) (n : Nat) : Except Fault Value := do
  let tag := g.tag n
  if tag == .merge || tag == .default || tag == .unknown then throw .malformed
  let text ← g.text n
  if tag == .timestamp && g.isMapping n then throw .timestampMapping
  Scalar.read tag text

end Graph

end Brainfuck.Document
