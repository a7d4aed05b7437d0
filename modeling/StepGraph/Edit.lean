import StepGraph.Attempt
import StepGraph.Context

/-!
Changes to shared containers. An `Edit` reads and writes the store and nothing else; what it wrote
before a fault stays.
-/
namespace StepGraph

abbrev Edit (α : Type) := Attempt Store α

namespace Edit

variable {α : Type}

def of (r : Except Fault α) : Edit α := Attempt.of r

def run' (f : Store → Store × α) : Edit α := ExceptT.mk fun s => (.ok (f s).2, (f s).1)

def attempt (f : Store → Store × Except Fault α) : Edit α := ExceptT.mk fun s => ((f s).2, (f s).1)

def read (i : Item) : Edit Value := do of ((← get).read i)

def plant (v : Value) : Edit Item := run' fun s => s.plant v

def newObject (es : Entries Item) : Edit Item := run' fun s => s.alloc (.object es)

def newList (xs : List Item) : Edit Item := run' fun s => s.alloc (.list xs)

def set (c : Item) (k : String) (x : Item) : Edit Unit := run' fun s => (Context.set s c k x, ())

def setPath (target : Item) (path : Value) (x : Item) : Edit (Option String) :=
  match path with
  | .text p => attempt fun s => s.setPath target p x
  | _ => throw .wrongKind

/-- The item at a path; null when there is none or the path is no text. -/
def lookup (root : Item) (path : Value) : Edit Item := do
  match path with
  | .text p => return (← get).lookup root p
  | _ => return .null

def keyOf : Value → Except Fault String
  | .list _ => .error .wrongKind
  | .object _ => .error .wrongKind
  | v => v.display

end Edit

end StepGraph
