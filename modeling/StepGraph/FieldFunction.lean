import StepGraph.Condition
import StepGraph.Template
import StepGraph.Value.Cast
import StepGraph.Text.LetterCase

/-!
Functions that compute a field of a record. A function is a document that names its kind; its
result is a text, or a part of the document itself. Lookups of addresses ask the AI provider and
are evaluated elsewhere; here they have no result.
-/
namespace StepGraph.Text

/-- A place in a text of `n` characters; negative places count from the end. -/
def bound (i : Int) (n : Nat) : Nat :=
  if i < 0 then (i + n).toNat else min i.toNat n

def sliceFrom (start : Int) (cs : List Char) : List Char := cs.drop (bound start cs.length)

def slice (start stop : Int) (cs : List Char) : List Char :=
  let first := bound start cs.length
  (cs.drop first).take (bound stop cs.length - first)

end StepGraph.Text

namespace StepGraph.FieldFunction

/-- A part of the function's document is passed on as it is, not copied. -/
inductive Result (α : Type) where
  | text (s : String)
  | part (x : α)

variable {α : Type} (a : Access α)

def textAt (record : Scope) (path : Value) : Except Fault String := do
  (← record.findPath path).textOrEmpty

def keyText (v : Value) : Except Fault String := do
  return Text.lower (Text.trim (← v.textOrEmpty))

/-- Text with placeholders is resolved, missing values left out; any other value is passed on. -/
def literal (record : Scope) (x : α) : Except Fault (Result α) :=
  match a.layer x with
  | .scalar (.text s) =>
    if Template.hasPlaceholders s then .text <$> Template.resolveText record s id (some "")
    else .ok (.part x)
  | _ => .ok (.part x)

def template (doc : α) (record : Scope) : Except Fault (Result α) := do
  let t ← a.tree (a.orElse (a.field doc "template") (a.leaf (.text "")))
  .text <$> Template.resolveWith record t id (some "")

def concatenate (doc : α) (record : Scope) : Except Fault (Result α) := do
  let fields ← a.optionalParts (a.field doc "fields")
  let texts ← fields.mapM fun f => do textAt record (← a.tree f)
  let kept := texts.filter (!·.isEmpty)
  match a.layer (a.field doc "separator") with
  | .scalar .null => return .text (Text.join " " kept)
  | .scalar (.text sep) => return .text (Text.join sep kept)
  | .scalar (.bytes _) => throw .wrongKind
  | _ => throw .noSuchMember

def firstHolding (record : Scope) (default : α) : List α → Except Fault (Result α)
  | [] => literal a record default
  | c :: rest => do
    let path ← a.tree (a.orElse (← a.member c "field") (a.leaf (.text "")))
    let actual ← record.findPath path
    let op ← a.tree (a.orElse (a.field c "operator") (a.leaf (.text "equals")))
    if ← Condition.test actual op (← a.tree (a.field c "value")) then
      literal a record (a.field c "result")
    else firstHolding record default rest

def conditional (doc : α) (record : Scope) : Except Fault (Result α) := do
  let conditions ← a.optionalParts (a.field doc "conditions")
  firstHolding a record (a.field doc "defaultValue") conditions

def mapPairs (mappings : α) : Except Fault (List (α × α)) :=
  match a.layer mappings with
  | .object es => .ok (es.map fun e => (a.leaf (.text e.1), e.2))
  | _ => do
    let items ← a.optionalParts mappings
    return (items.filter a.isObject).map fun m => (a.field m "from", a.field m "to")

def firstMatching (key : String) : List (α × α) → Except Fault (Option α)
  | [] => .ok none
  | (source, target) :: rest => do
    if (← keyText (← a.tree source)) == key then return some target else firstMatching key rest

def valueMap (doc : α) (record : Scope) : Except Fault (Result α) := do
  let path ← a.tree (a.orElse (a.field doc "field") (a.leaf (.text "")))
  let key ← keyText (← record.findPath path)
  let found ← firstMatching a key (← mapPairs a (a.field doc "mappings"))
  match found.filter (!a.isNull ·) with
  | some target => return .part target
  | none => return .part (a.field doc "defaultValue")

def fieldText (doc : α) (record : Scope) : Except Fault String := do
  let path ← a.tree (a.orElse (a.field doc "field") (a.leaf (.text "")))
  textAt record path

def isNoLength (x : α) : Bool :=
  match a.layer x with
  | .scalar .null => true
  | .scalar (.text s) => s.isEmpty
  | _ => false

def substring (doc : α) (record : Scope) : Except Fault (Result α) := do
  let text := (← fieldText a doc record).toList
  let start ← (← a.tree (a.orElse (a.field doc "start") (a.leaf (.int 0)))).whole
  let length := a.field doc "length"
  if isNoLength a length then return .text (String.ofList (Text.sliceFrom start text))
  else
    let n ← (← a.tree length).whole
    return .text (String.ofList (Text.slice start (start + n) text))

def kind? (doc : α) : Except Fault (Option String) :=
  if a.truthy doc then do
    match a.layer (← a.member doc "type") with
    | .scalar (.text t) => return some t
    | _ => return none
  else .ok none

/-- Evaluates a function that needs no AI provider; an unknown kind has no result. -/
def evaluate (doc : α) (record : Scope) : Except Fault (Result α) := do
  match ← kind? a doc with
  | some "template" => template a doc record
  | some "concatenate" => concatenate a doc record
  | some "conditional" => conditional a doc record
  | some "value_map" => valueMap a doc record
  | some "substring" => substring a doc record
  | some "uppercase" => return .text (Text.upper (← fieldText a doc record))
  | some "lowercase" => return .text (Text.lower (← fieldText a doc record))
  | _ => return .part a.null

def lookupKinds : List (String × String) :=
  [("postal_code", "the postal / ZIP code"), ("city", "the city name"),
   ("state", "the state or province (two-letter code where one exists)"),
   ("country", "the country (ISO 3166-1 alpha-2 code)"),
   ("full_address", "the complete, normalized single-line postal address")]

def address (doc : α) (record : Scope) : Except Fault String := do
  let fields ← a.optionalParts (a.field doc "addressFields")
  let texts ← fields.mapM fun f => do return Text.trim (← textAt record (← a.tree f))
  return Text.join ", " (texts.filter (!·.isEmpty))

def lookupPrompt (address wanted : String) : String :=
  "Given this address:\n" ++ address ++ "\n\nDetermine " ++ wanted ++
    ".\nReturn ONLY a JSON object of the form \x7b\"value\": \"...\"\x7d. " ++
    "Use \x7b\"value\": null\x7d if it cannot be determined. No markdown, no extra text."

/-- What is asked for; an unknown kind asks for the postal code. Containers are refused, and so is a
number that cannot be written. -/
def wanted (doc : α) : Except Fault String :=
  let kind := a.orElse (a.field doc "lookupType") (a.leaf (.text "postal_code"))
  match a.layer kind with
  | .scalar (.text k) => .ok ((lookupKinds.lookup k).getD "the postal / ZIP code")
  | .scalar (.int i) => (Value.intText i).map fun _ => "the postal / ZIP code"
  | .scalar _ => .ok "the postal / ZIP code"
  | _ => .error .wrongKind

end StepGraph.FieldFunction
