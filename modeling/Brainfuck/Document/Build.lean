import Brainfuck.Document.Merge
import Brainfuck.Value.SetOrder

/-!
From the nodes of a document to objects. Scalars are read where they are met.
Collections are first made empty and filled level by level, so that a collection may
hold itself; their faults are noticed only when their turn comes.
-/
namespace Brainfuck.Document

/-- What a node stands for. The parts of a collection are given by their nodes. -/
inductive Object where
  | scalar (value : Value)
  | list (items : List Nat)
  | pairs (items : List (Nat × Nat))
  | set (items : List Nat)
  | mapping (entries : List (Nat × Nat))

def Object.empty : Tag → Object
  | .mapping => .mapping []
  | .set => .set []
  | .orderedMapping | .pairs => .pairs []
  | _ => .list []

structure Builder where
  graph : Graph
  objects : Array (Option Object)
  /-- The collections still to be filled, the latest first. -/
  pending : List Nat := []

abbrev Build := StateT Builder (Except Fault)

namespace Build

def object? (n : Nat) : Build (Option Object) := return ((← get).objects[n]?).join

def put (n : Nat) (object : Object) : Build Unit :=
  modify fun b => { b with objects := b.objects.modify n fun _ => some object }

def make (n : Nat) : Build Unit := do
  if (← object? n).isSome then return
  let graph := (← get).graph
  let tag := graph.tag n
  if tag.isCollection then
    -- It is there before its parts are, which may lead back to it.
    put n (.empty tag)
    modify fun b => { b with pending := n :: b.pending }
  else put n (.scalar (← graph.scalar n))

def makeKey (n : Nat) : Build Unit := do
  make n
  match ← object? n with
  | some (.scalar _) => return
  | _ => throw .malformed

/-- Whether two nodes are one key: the same node, or equal values. -/
def sameKey (objects : Array (Option Object)) (m n : Nat) : Bool :=
  m == n || match (objects[m]?).join, (objects[n]?).join with
    | some (.scalar v), some (.scalar w) => v.sameKey w
    | _, _ => false

/-- The entries of a mapping, merged, with each key once. -/
def entries (n : Nat) : Build (List (Nat × Nat)) := do
  if !(← get).graph.isMapping n then throw .malformed
  let graph ← (← get).graph.merge n
  modify fun b => { b with graph }
  (graph.entries n).foldlM (fun found (key, value) => do
    makeKey key
    make value
    return Value.putBy (sameKey (← get).objects) key value found) []

def pairs : List Nat → Build (List (Nat × Nat))
  | [] => return []
  | item :: rest => do
      match (← get).graph.entries item with
      | [(key, value)] =>
          make key
          make value
          return (key, value) :: (← pairs rest)
      | _ => throw .malformed

def items (n : Nat) : Build (List Nat) := do
  match (← get).graph.content n with
  | .sequence items => return items
  | .scalar _ | .mapping _ => throw .malformed

def fill (n : Nat) : Build Unit := do
  match (← get).graph.tag n with
  | .mapping => put n (.mapping (← entries n))
  | .set => put n (.set ((← entries n).map Prod.fst))
  | .orderedMapping | .pairs => put n (.pairs (← pairs (← items n)))
  | _ =>
      let items ← items n
      items.forM make
      put n (.list items)

/-- Fills the pending collections, and those that come up meanwhile after them. -/
def fillAll : Nat → Build Unit
  | 0 => return
  | fuel + 1 => do
      let level := (← get).pending.reverse
      if level.isEmpty then return
      modify fun b => { b with pending := [] }
      level.forM fill
      fillAll fuel

/-- Makes the objects of all nodes that a node leads to. Each node is filled once, so
that there are no more levels than nodes. -/
def all (root levels : Nat) : Build Unit := do
  make root
  fillAll levels

end Build

structure Built where
  objects : Array (Option Object)
  root : Nat

def Graph.build (g : Graph) (root : Nat) : Except Fault Built := do
  let start : Builder := { graph := g, objects := Array.replicate g.size none }
  let (_, done) ← (Build.all root (g.size + 1)).run start
  return ⟨done.objects, root⟩

namespace Built

def object (b : Built) (n : Nat) : Object :=
  match (b.objects[n]?).join with
  | some object => object
  | none => .scalar .null

/-- The value of a node inside the nodes `path`. A collection inside itself is only
marked; one step for each node is enough. -/
def valueFrom (b : Built) : Nat → List Nat → Nat → Value
  | 0, _, _ => .null
  | fuel + 1, path, n =>
      let part := valueFrom b fuel (n :: path)
      match b.object n with
      | .scalar value => value
      | .list items => if path.contains n then .outerList else .list (items.map part)
      | .pairs items =>
          if path.contains n then .outerList
          else .list (items.map fun (first, second) => .pair (part first) (part second))
      | .set items => .set (Value.SetOrder.arrange (items.map part))
      | .mapping entries =>
          if path.contains n then .outerMapping
          else .mapping (entries.map fun (key, value) => (part key, part value))

def value (b : Built) (n : Nat) : Value := b.valueFrom (b.objects.size + 1) [] n

end Built

end Brainfuck.Document
