import StepGraph.Fields

/-!
Tables of records. Ids are whole numbers; a new record has the one behind the largest id in use.
Asking a table that was dropped is a fault, and so is a number that the records cannot hold.
-/
namespace StepGraph

class Numbered (ρ : Type) where
  id : ρ → Int

structure Table (ρ : Type) where
  rows : List ρ := []
  present : Bool := true

namespace Table

variable {ρ : Type}

def all (t : Table ρ) : Except Fault (List ρ) :=
  if t.present then .ok t.rows else .error (.misuse .missingTable)

def keep (t : Table ρ) (wanted : ρ → Bool) : Table ρ := { t with rows := t.rows.filter wanted }

def drop (t : Table ρ) : Table ρ := { t with rows := [], present := false }

section Numbered

variable [Numbered ρ]

def largest : List ρ → Option Int
  | [] => none
  | r :: rest =>
    match largest rest with
    | none => some (Numbered.id r)
    | some n => some (max n (Numbered.id r))

def nextId (t : Table ρ) : Int := ((largest t.rows).map (· + 1)).getD 1

def insert (t : Table ρ) (make : Int → ρ) : Table ρ × ρ :=
  let r := make t.nextId
  ({ t with rows := t.rows ++ [r] }, r)

def get? (t : Table ρ) (id : Int) : Option ρ := t.rows.find? fun r => Numbered.id r == id

def update (t : Table ρ) (id : Int) (f : ρ → ρ) : Table ρ :=
  { t with rows := t.rows.map fun r => if Numbered.id r == id then f r else r }

def erase (t : Table ρ) (id : Int) : Table ρ :=
  { t with rows := t.rows.filter fun r => Numbered.id r != id }

def sorted (t : Table ρ) : List ρ := t.rows.mergeSort fun a b => Numbered.id a ≤ Numbered.id b

end Numbered

end Table

def fitsRecord (i : Int) : Bool := -(twoTo 63) ≤ i && i < twoTo 63

def held (i : Int) : Except Fault Int :=
  if fitsRecord i then .ok i else .error (.misuse .tooLarge)

def heldAll (is : List (Option Int)) : Except Fault Unit :=
  if is.all fun i => i.all fitsRecord then .ok () else .error (.misuse .tooLarge)

def Table.find {ρ : Type} [Numbered ρ] (t : Table ρ) (id : Int) : Except Fault (Option ρ) := do
  let _ ← t.all
  let id ← held id
  return t.get? id

namespace Column

/-! Columns of a stored record; a column that is absent or null has the default of its kind. -/

def text? (es : Entries Value) (k : String) : Option String := (Entries.get? es k).bind Value.text?

def text (es : Entries Value) (k : String) (default : String := "") : String :=
  (text? es k).getD default

def int? (es : Entries Value) (k : String) : Option Int :=
  match Entries.get? es k with
  | some (.int i) => some i
  | _ => none

def int (es : Entries Value) (k : String) (default : Int := 0) : Int := (int? es k).getD default

def flag (es : Entries Value) (k : String) (default : Bool) : Bool :=
  match Entries.get? es k with
  | some (.bool b) => b
  | some (.int i) => i != 0
  | _ => default

def number? (es : Entries Value) (k : String) : Option Float :=
  match Entries.get? es k with
  | some (.float x) => some x
  | some (.int i) => Decimal.ofInt? i
  | _ => none

def document (es : Entries Value) (k : String) : Value := (Entries.get? es k).getD .null

def ofInt? : Option Int → Value
  | some i => .int i
  | none => .null

def ofMoment? : Option Time.Moment → Value
  | some t => .text t.iso
  | none => .null

end Column

end StepGraph
