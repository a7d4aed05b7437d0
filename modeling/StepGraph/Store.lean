import StepGraph.Path.Write

/-!
Shared containers. A `Store` holds containers by identity; an `Item` is a leaf or the identity of
a container, so one container may be reached from many places and a write through one of them is
seen from all. `Store.read?` is the tree that an item stands for, `Store.plant` puts a tree into
new containers of its own.
-/
namespace StepGraph

inductive Item where
  | leaf (s : Scalar)
  | cell (id : Nat)
  deriving BEq, Inhabited

inductive Cell where
  | list (items : List Item)
  | object (entries : Entries Item)
  deriving Inhabited

structure Store where
  cells : Array Cell := #[]
  deriving Inhabited

namespace Item

@[match_pattern] abbrev null : Item := .leaf .null
@[match_pattern] abbrev text (s : String) : Item := .leaf (.text s)
@[match_pattern] abbrev bool (b : Bool) : Item := .leaf (.bool b)
@[match_pattern] abbrev int (i : Int) : Item := .leaf (.int i)

def isNull : Item → Bool
  | .null => true
  | _ => false

def ofOption : Option Item → Item
  | some i => i
  | none => null

def ofText? : Option String → Item
  | some s => .text s
  | none => null

end Item

def Cell.layer : Cell → Layer Item
  | .list xs => .list xs
  | .object es => .object es

namespace Store

def layer (s : Store) : Item → Layer Item
  | .leaf a => .scalar a
  | .cell id =>
    match s.cells[id]? with
    | some c => c.layer
    | none => .scalar .null

def view (s : Store) : View Item := ⟨s.layer, .leaf⟩

def alloc (s : Store) (c : Cell) : Store × Item := (⟨s.cells.push c⟩, .cell s.cells.size)

def setCell (s : Store) (id : Nat) (c : Cell) : Store := ⟨s.cells.setIfInBounds id c⟩

def setLayer (s : Store) (i : Item) (l : Layer Item) : Store :=
  match i, l with
  | .cell id, .list xs => s.setCell id (.list xs)
  | .cell id, .object es => s.setCell id (.object es)
  | _, _ => s

mutual

def plant (s : Store) : Value → Store × Item
  | .scalar a => (s, .leaf a)
  | .list xs =>
    let r := plantItems s xs
    r.1.alloc (.list r.2)
  | .object es =>
    let r := plantEntries s es
    r.1.alloc (.object r.2)

def plantItems (s : Store) : List Value → Store × List Item
  | [] => (s, [])
  | x :: rest =>
    let a := plant s x
    let b := plantItems a.1 rest
    (b.1, a.2 :: b.2)

def plantEntries (s : Store) : List (String × Value) → Store × Entries Item
  | [] => (s, [])
  | (k, x) :: rest =>
    let a := plant s x
    let b := plantEntries a.1 rest
    (b.1, (k, a.2) :: b.2)

end

def readEntry {α : Type} (f : Item → Option α) (e : String × Item) : Option (String × α) :=
  (f e.2).map fun v => (e.1, v)

/-- The tree below an item, down to a depth; a tree deeper than that has none. -/
def readTo (s : Store) : Nat → Item → Option Value
  | 0, _ => none
  | depth + 1, i =>
    match s.layer i with
    | .scalar a => some (.scalar a)
    | .list xs => (xs.mapM (readTo s depth)).map .list
    | .object es => (es.mapM (readEntry (readTo s depth))).map .object

/-- The tree that an item stands for; none when a container holds itself. -/
def read? (s : Store) (i : Item) : Option Value := s.readTo (s.cells.size + 1) i

def read (s : Store) (i : Item) : Except Fault Value :=
  match s.read? i with
  | some v => .ok v
  | none => .error (.misuse .tooDeep)

def lookup (s : Store) (root : Item) (path : String) : Item :=
  .ofOption (Path.lookup s.view root path)

def field (s : Store) (i : Item) (k : String) : Item := s.view.field i k

def isContainer (s : Store) (i : Item) : Bool := (s.layer i).isContainer

def isObject (s : Store) (i : Item) : Bool := s.view.isObject i

def entries (s : Store) (i : Item) : Entries Item :=
  match s.layer i with
  | .object es => es
  | _ => []

def assign (s : Store) (i : Item) (part : String) (x : Item) : Store × Option Fault :=
  match (s.layer i).assign .null part x with
  | .ok l => (s.setLayer i l, none)
  | .error f => (s, some f)

def putField (s : Store) (i : Item) (k : String) (x : Item) : Store :=
  match s.layer i with
  | .object es => s.setLayer i (.object (Entries.put es k x))
  | _ => s

def allocLayer (s : Store) : Layer Item → Store × Item
  | .scalar a => (s, .leaf a)
  | .list xs => s.alloc (.list xs)
  | .object es => s.alloc (.object es)

def writeAt (s : Store) (i : Item) : List String → Item → Store × Option Fault
  | [], _ => (s, none)
  | [last], x => s.assign i last x
  | part :: next :: rest, x =>
    match (s.layer i).child? part with
    | .error f => (s, some f)
    | .ok c =>
      match c.filter s.isContainer with
      | some j => s.writeAt j (next :: rest) x
      | none =>
        let made := s.allocLayer (Layer.fresh next)
        match made.1.assign i part made.2 with
        | (s', none) => s'.writeAt made.2 (next :: rest) x
        | (s', some f) => (s', some f)

def setPath (s : Store) (i : Item) (path : String) (x : Item) :
    Store × Except Fault (Option String) :=
  let parts := Path.places path
  match s.writeAt i parts x with
  | (s', none) => (s', .ok parts.getLast?)
  | (s', some f) => (s', .error f)

def fanOut : List String → Store → Item → Item → Store × Option Fault
  | [], s, _, _ => (s, none)
  | [last], s, i, x => s.assign i last x
  | part :: next :: rest, s, i, x =>
    match s.layer i with
    | .object es =>
      let below := Item.ofOption (Entries.get? es part)
      match s.layer below with
      | .list items =>
        let branch (s : Store) (j : Item) := if s.isObject j then (fanOut (next :: rest) s j x).1 else s
        (items.foldl branch s, none)
      | .object _ => fanOut (next :: rest) s below x
      | .scalar _ =>
        let made := s.alloc (.object [])
        fanOut (next :: rest) (made.1.putField i part made.2) made.2 x
    | _ => (s, some .noSuchMember)

def setField (s : Store) (i : Item) (path : String) (x : Item) : Store × Option Fault :=
  fanOut (Value.fieldPlaces path) s i x

end Store

end StepGraph
