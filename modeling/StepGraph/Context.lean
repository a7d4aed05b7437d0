import StepGraph.Scope
import StepGraph.Text.Search

/-!
The context of a run: an object of shared containers that every step reads and writes. Writes
through any entry are seen by all who hold the same container; a snapshot is a tree and stays as
it is.
-/
namespace StepGraph.Context

/-- A context with the entries of an object; the object itself is not shared. -/
def create (s : Store) (initial : Entries Item) : Store × Item := s.alloc (.object initial)

def get (s : Store) (c : Item) (k : String) : Item := s.field c k

def set (s : Store) (c : Item) (k : String) (x : Item) : Store := s.putField c k x

def has (s : Store) (c : Item) (k : String) : Bool := Entries.has (s.entries c) k

def keys (s : Store) (c : Item) : List String := Entries.keys (s.entries c)

def size (s : Store) (c : Item) : Nat := (s.entries c).length

def update (s : Store) (c : Item) (later : Entries Item) : Store :=
  s.setLayer c (.object (Entries.merge (s.entries c) later))

def delete (s : Store) (c : Item) (k : String) : Store × Bool :=
  if has s c k then (s.setLayer c (.object (Entries.erase (s.entries c) k)), true) else (s, false)

def copy (s : Store) (c : Item) : Store × Item := s.alloc (.object (s.entries c))

def setPath (s : Store) (c : Item) (path : String) (x : Item) :
    Store × Except Fault (Option String) := s.setPath c path x

def placeIn? (size : Nat) (i : Int) : Option Nat :=
  let place := if i < 0 then i + size else i
  if 0 ≤ place && place < size then some place.toNat else none

/-- Any leaf can name an entry; one that is no text does so by its long text. -/
def entryName : Scalar → String
  | .text t => t
  | a => Value.scalarDisplay a

def assignWithin (s : Store) (c : Item) (k : String) (name : Value) (x : Item) :
    Store × Except Fault Unit :=
  let target := get s c k
  match s.layer target, name with
  | .object _, .scalar a => (s.putField target (entryName a) x, .ok ())
  | .list xs, .int i =>
    match placeIn? xs.length i with
    | some n => (s.setLayer target (.list (xs.set n x)), .ok ())
    | none => (s, .error (.misuse .outOfRange))
  | _, _ => (s, .error .wrongKind)

def extractedKey : String := "extractedData"

def extracted? (s : Store) (c : Item) : Option Item :=
  let x := get s c extractedKey
  if s.isObject x then some x else none

/-- The extracted data; anything else in its place gives way to an empty object. -/
def ensureExtracted (s : Store) (c : Item) : Store × Item :=
  match extracted? s c with
  | some x => (s, x)
  | none =>
    let made := s.alloc (.object [])
    (set made.1 c extractedKey made.2, made.2)

def scope (s : Store) (c : Item) : Scope := Scope.ofItem s c

def snapshot (s : Store) (c : Item) : Except Fault Value := s.read c

def summary (s : Store) (c : Item) : String :=
  "<ContextManager(keys=[" ++ Text.join ", " ((keys s c).map Text.quoted) ++ "], size=" ++
    toString (size s c) ++ ")>"

end StepGraph.Context
