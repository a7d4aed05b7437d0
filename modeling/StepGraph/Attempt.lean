import StepGraph.Fault

/-!
Programs that may fail. What a program did to its state before a fault stays done. `Attempt.retry`
runs a program again after a fault that calls for it.
-/
namespace StepGraph

/-- A program over a state that ends with a result or a fault. -/
abbrev Attempt (σ α : Type) := ExceptT Fault (StateM σ) α

namespace Attempt

variable {σ α : Type}

def of (r : Except Fault α) : Attempt σ α := ExceptT.mk (pure r)

def caught (body : Attempt σ α) : Attempt σ (Except Fault α) :=
  ExceptT.mk fun s =>
    let r := body.run s
    (.ok r.1, r.2)

/-- How often a body may be run again when it may be run `limit` times; once it always runs. -/
def further (limit : Int) : Nat := (limit - 1).toNat

/-- Runs a body, and up to `more` times again after a fault that calls for it. The last fault
stays. -/
def retry (again : Fault → Bool) (body : Attempt σ α) : Nat → Attempt σ α
  | 0 => body
  | more + 1 => ExceptT.mk fun s =>
    match body.run s with
    | (.ok x, s') => (.ok x, s')
    | (.error f, s') => if again f then (retry again body more).run s' else (.error f, s')

end Attempt

end StepGraph
