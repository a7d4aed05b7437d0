/-!
Ordered maps with text keys. Assigning a key again keeps its place; a key that was erased and
assigned again goes last.
-/
namespace StepGraph

/-- Entries of an object in the order in which their keys were first assigned. -/
abbrev Entries (α : Type) := List (String × α)

namespace Entries

variable {α β : Type}

def get? : Entries α → String → Option α
  | [], _ => none
  | (k', v) :: rest, k => if k = k' then some v else get? rest k

def has (es : Entries α) (k : String) : Bool := (es.get? k).isSome

def keys (es : Entries α) : List String := es.map Prod.fst

def put : Entries α → String → α → Entries α
  | [], k, v => [(k, v)]
  | (k', v') :: rest, k, v => if k = k' then (k', v) :: rest else (k', v') :: put rest k v

def erase (es : Entries α) (k : String) : Entries α := es.filter (·.1 != k)

def merge (es later : Entries α) : Entries α := later.foldl (fun acc e => acc.put e.1 e.2) es

def mapValues (f : α → β) (es : Entries α) : Entries β := es.map fun e => (e.1, f e.2)

theorem get?_put_self (es : Entries α) (k : String) (v : α) : (es.put k v).get? k = some v := by
  induction es with
  | nil => simp [put, get?]
  | cons e rest ih => by_cases h : k = e.1 <;> simp [put, get?, h, ih]

theorem get?_put_of_ne {k k' : String} (h : k' ≠ k) (es : Entries α) (v : α) :
    (es.put k v).get? k' = es.get? k' := by
  induction es with
  | nil => simp [put, get?, h]
  | cons e rest ih =>
    by_cases h₀ : k = e.1
    · simp [put, get?, ← h₀, h]
    · simp [put, get?, h₀, ih]

end Entries

/-! Settings that come from outside the program, each by its name. -/

abbrev Environment := Entries String

def Environment.given? (env : Environment) (name : String) : Option String :=
  (env.get? name).filter (!·.isEmpty)

end StepGraph
