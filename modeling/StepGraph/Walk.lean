import StepGraph.Attempt
import StepGraph.Graph.Route

/-!
Walking a graph. A walk starts behind the start marker, visits one node after the other and takes
the edge of the handle that a visit returns. What a visit does is a parameter; the walk ends where
no edge leads on, where a visit fails, or at the limit of visits.
-/
namespace StepGraph

structure Walked where
  visited : List String
  outcome : Except Fault Unit

namespace Walked

def arrived : Walked := ⟨[], .ok ()⟩

def stopped (f : Fault) : Walked := ⟨[], .error f⟩

def after (id : String) (w : Walked) : Walked := { w with visited := id :: w.visited }

end Walked

namespace Graph

variable {σ κ : Type}

def walkFrom (nodes : Entries (Node κ)) (edges : EdgeMap) (visit : Step κ → Attempt σ String)
    (limit : Int) : Nat → Option String → StateM σ Walked
  | _, none => pure .arrived
  | 0, some _ => pure (.stopped (.visitCap limit))
  | left + 1, some id =>
    match Entries.get? nodes id with
    | none => pure .arrived
    | some (.start s) =>
      (Walked.after s.id) <$>
        walkFrom nodes edges visit limit left (edges.next? s.id defaultHandle)
    | some (.step s) => do
      match ← (visit s).run with
      | .ok handle =>
        (Walked.after s.id) <$> walkFrom nodes edges visit limit left (edges.next? s.id handle)
      | .error f => pure (.after s.id (.stopped f))

def walk (g : Graph κ) (visit : Step κ → Attempt σ String) (limit : Int) : StateM σ Walked :=
  match g.start with
  | .error f => pure (.stopped f)
  | .ok s =>
    let edges := EdgeMap.ofEdges g.edges
    walkFrom g.nodes edges visit limit limit.toNat (edges.next? s.id defaultHandle)

end Graph

end StepGraph
