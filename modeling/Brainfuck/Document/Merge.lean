import Brainfuck.Document.Graph

/-!
Merging. A merge mark as a key stands for the entries of other mappings: of the
mapping behind it, or of several, of which the earlier ones win. The entries taken
over go in front of the mapping's own, in the order of the marks. As a key, the
default mark is text.
-/
namespace Brainfuck.Document.Graph

def isMergeMark (g : Graph) (entry : Nat × Nat) : Bool := g.tag entry.1 == .merge

def sources (g : Graph) (n : Nat) : Except Fault (List Nat) :=
  match g.content n with
  | .mapping _ => .ok [n]
  | .sequence items => if items.all g.isMapping then .ok items else .error .malformed
  | .scalar _ => .error .malformed

def settleDefaults (g : Graph) (entries : List (Nat × Nat)) : Graph :=
  entries.foldl (fun g (key, _) => if g.tag key == .default then g.setTag key .text else g) g

/-- Carries out the merge marks of a mapping, `taken` being what earlier ones gave. A
mark is removed before its mappings are merged themselves, so that a mapping which
leads back to itself is met without the mark. Each step removes a mark. -/
def mergeFrom : Nat → List (Nat × Nat) → Graph → Nat → Except Fault Graph
  | 0, _, _, _ => .error .malformed
  | fuel + 1, taken, g, n =>
      match (g.entries n).find? g.isMergeMark with
      | none =>
          let own := g.entries n
          .ok ((g.settleDefaults own).setContent n (.mapping (taken ++ own)))
      | some mark => do
          let (before, rest) := (g.entries n).span (!g.isMergeMark ·)
          let g := g.setContent n (.mapping (before ++ rest.drop 1))
          -- Earlier sources go last: of equal keys the last one wins.
          let (g, given) ← (← g.sources mark.2).foldlM (fun (g, given) source => do
            let g ← mergeFrom fuel [] g source
            return (g, g.entries source ++ given)) (g, [])
          mergeFrom fuel (taken ++ given) g n

def merge (g : Graph) (n : Nat) : Except Fault Graph := mergeFrom (g.entryCount + 1) [] g n

end Brainfuck.Document.Graph
