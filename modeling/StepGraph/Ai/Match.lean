import StepGraph.Ai.Completion
import StepGraph.Template
import StepGraph.Text.LetterCase

/-!
Matching a source record to one of several candidates. The provider names a candidate by its place
and repeats some of its fields; when the two disagree, the fields win, if some candidate has
enough of them.
-/
namespace StepGraph.Match

open Text

def resolveSource (fields : Value) (scope : Scope) : Except Fault (Entries Value) := do
  let add (es : Entries Value) (f : Value) : Except Fault (Entries Value) := do
    let label := f.field "label"
    let value := f.field "value"
    if !label.truthy || !value.truthy then return es
    let text ← Template.resolve scope value
    match label with
    | .list _ => throw .wrongKind
    | .object _ => throw .wrongKind
    | l => return es.put (← l.display) (.text text)
  (← fields.optionalParts).foldlM add []

section Candidates

variable {α : Type} (v : View α)

def listed (x : α) : List α :=
  match v.layer x with
  | .list xs => xs
  | _ => [x]

def candidates (response : α) (path : Value) : Except Fault (List α) :=
  match path with
  | .text p =>
    if isBlankText p then .ok (listed v response)
    else
      match Path.lookup v response p with
      | some x => .ok (if v.isNull x then [] else listed v x)
      | none => .ok []
  | .bytes b => .ok (if b.size == 0 then listed v response else [])
  | p => if p.truthy then .error .noSuchMember else .ok (listed v response)

end Candidates

def keyCount : Nat := 3

def holdsText : Value → Bool
  | .text s => !s.isEmpty
  | _ => false

def identifiers (candidate : Value) : List String :=
  ((candidate.entries.filter fun e => holdsText e.2).map Prod.fst).take keyCount

def normal (v : Value) : Except Fault String := do
  return trim (lower (← (v.orElse (.text "")).display))

def agrees (candidate : Value) (fields : Entries Value) (key : String) : Except Fault Bool := do
  return (← normal (candidate.field key)) == (← normal ((fields.get? key).getD .null))

def agreement (fields : Entries Value) (keys : List String) (candidate : Value) :
    Except Fault Nat := do
  if candidate.isObject then
    return ((← keys.mapM (agrees candidate fields)).filter id).length
  else return 0

/-- The first place from `i` on whose candidate agrees in at least `least` keys. -/
def firstAgreeing (fields : Entries Value) (keys : List String) (least : Nat) :
    Nat → List Value → Except Fault (Option Nat)
  | _, [] => .ok none
  | i, c :: rest => do
    if least ≤ (← agreement fields keys c) then return some i
    else firstAgreeing fields keys least (i + 1) rest

def reasonText (result : Entries Value) : Except Fault String :=
  (((result.get? "reason").getD .null).orElse (.text "")).display

def corrected (result : Entries Value) (place : Int) (found : Nat) (how : String) :
    Except Fault (Entries Value) := do
  let note := " [Index corrected from " ++ toString place ++ " to " ++ toString found ++ how ++ "]"
  return (result.put "matchIndex" (.ofNat found)).put "reason"
    (.text ((← reasonText result) ++ note))

/-- Moves the place to the first candidate that has all repeated fields, or else to the first one
that has all but one of them. -/
def search (result fields : Entries Value) (candidates : List Value) (keys : List String)
    (place : Int) : Except Fault (Entries Value) := do
  match ← firstAgreeing fields keys keys.length 0 candidates with
  | some i => corrected result place i ""
  | none =>
    match ← firstAgreeing fields keys (max 1 (keys.length - 1)) 0 candidates with
    | some i => corrected result place i " via partial match"
    | none => return result

def relocate (result fields : Entries Value) (candidates : List Value) (keys : List String)
    (place : Int) : Except Fault (Entries Value) := do
  if place < 0 || (candidates.length : Int) ≤ place then return result
  let here ← agreement fields keys (candidates.getD place.toNat .null)
  if here == keys.length then return result else search result fields candidates keys place

def verify (result : Entries Value) (candidates : List Value) (keys : List String) :
    Except Fault (Entries Value) :=
  match result.get? "matchIndex", result.get? "matchedFields" with
  | none, _ => .error (.misuse .missingKey)
  | some place, some (.object fields) =>
    if keys.isEmpty then .ok result
    else
      match place with
      | .int i => relocate result fields candidates keys i
      | .bool b => relocate result fields candidates keys (if b then 1 else 0)
      | .float x =>
        if 0 ≤ x && x < candidates.length.toFloat then .error .wrongKind else .ok result
      | _ => .error .wrongKind
  | some _, _ => .ok result

def numberedEntry (i : Nat) (candidate : Value) : Value :=
  match candidate with
  | .object es => .object (Entries.merge [("_index", .ofNat i)] es)
  | c => .object [("_index", .ofNat i), ("value", c)]

def numbered (i : Nat) : List Value → List Value
  | [] => []
  | c :: rest => numberedEntry i c :: numbered (i + 1) rest

def fieldsRule (keys : List String) : String :=
  if keys.isEmpty then ""
  else
    "   - \"matchedFields\": an object with the EXACT values of these fields " ++
      "copied from the chosen candidate: " ++
      join ", " (keys.map fun k => "\"" ++ k ++ "\"") ++ "\n"

def prompt (source : Entries Value) (candidates : List Value) (keys : List String)
    (instruction : Value) : Except Fault String := do
  let sourceText ← (Value.object source).json Json.indented
  let candidatesText ← (Value.list (numbered 0 candidates)).json Json.indented
  let guidance ←
    if instruction.truthy then do
      pure ("MATCHING INSTRUCTIONS:\n" ++ (← instruction.display) ++ "\n")
    else pure ""
  return "You are a data matching assistant. You MUST return exactly ONE match from the " ++
    "candidate list.\n\n" ++
    "Each candidate has an \"_index\" field showing its position. Use this to determine the " ++
    "matchIndex.\n\n" ++
    "SOURCE RECORD (the record we want to match):\n" ++ sourceText ++ "\n\n" ++
    "CANDIDATE RECORDS (" ++ toString candidates.length ++ " total):\n" ++ candidatesText ++
    "\n\n" ++ guidance ++
    "RULES:\n" ++
    "- You MUST select exactly ONE candidate. Never return multiple matches.\n" ++
    "- If multiple candidates match equally well, select the FIRST one (lowest index).\n" ++
    "- The \"matchIndex\" MUST equal the \"_index\" value of the chosen candidate.\n" ++
    "- Return ONLY a valid JSON object with exactly these fields:\n" ++
    "   - \"matchIndex\": the \"_index\" value of the single best matching candidate (integer)\n" ++
    "   - \"confidence\": a number from 0 to 100 indicating match confidence\n" ++
    "   - \"reason\": a brief explanation of why this candidate was chosen\n" ++
    fieldsRule keys ++
    "If no candidate is a reasonable match, return:\n" ++
    "   \x7b\"matchIndex\": -1, \"confidence\": 0, \"reason\": \"No suitable match found\"\x7d\n\n" ++
    "Return ONLY the JSON object, no markdown formatting, no code blocks, no extra text."

end StepGraph.Match
