import StepGraph.Scope

/-!
Templates with placeholders. `Template.parse` cuts a text into plain characters and holes in one
pass from the left; `Template.fill` puts a text into every hole and never looks at it again. A
hole that has no value keeps the text it was written with.
-/
namespace StepGraph

/-- A stretch of a template: a character that stands for itself, or a hole with its body and the
text it was written with. -/
inductive Piece where
  | plain (c : Char)
  | hole (body written : List Char)
  deriving DecidableEq, Repr

abbrev Template := List Piece

structure Marks where
  opening : List Char
  closing : List Char

/-- The kinds of hole that a text may have; the first kind that fits at a place is taken. -/
abbrev Dialect := List Marks

namespace Dialect

def doubleBrace : Marks := ⟨['{', '{'], ['}', '}']⟩
def singleBrace : Marks := ⟨['{'], ['}']⟩
def dollarBrace : Marks := ⟨['$', '{'], ['}']⟩

def step : Dialect := [doubleBrace]

def summary : Dialect := [singleBrace]

def pathVariable : Dialect := [singleBrace, dollarBrace]

def query : Dialect := [doubleBrace, dollarBrace]

end Dialect

def Marks.hole? (m : Marks) (cs : List Char) : Option (List Char) :=
  if m.opening.isPrefixOf cs then
    let rest := cs.drop m.opening.length
    let body := rest.takeWhile (· != '}')
    if !body.isEmpty && m.closing.isPrefixOf (rest.drop body.length) then some body else none
  else none

def Dialect.hole? (d : Dialect) (cs : List Char) : Option (List Char × Nat) :=
  d.findSome? fun m =>
    (m.hole? cs).map fun body => (body, m.opening.length + body.length + m.closing.length)

namespace Template

/-- Pieces of a text whose first `skip` characters belong to a hole already seen. -/
def scan (d : Dialect) : Nat → List Char → Template
  | _, [] => []
  | skip + 1, _ :: rest => scan d skip rest
  | 0, c :: rest =>
    match d.hole? (c :: rest) with
    | some (body, size) => .hole body ((c :: rest).take size) :: scan d (size - 1) rest
    | none => .plain c :: scan d 0 rest

def parse (d : Dialect) (s : String) : Template := scan d 0 s.toList

def hasHole (t : Template) : Bool :=
  t.any fun p => match p with
    | .hole _ _ => true
    | .plain _ => false

def fill (look : List Char → Except Fault (Option String)) (missing : Option String) :
    Template → Except Fault (List Char)
  | [] => .ok []
  | .plain c :: rest => (c :: ·) <$> fill look missing rest
  | .hole body written :: rest =>
    match look body with
    | .error f => .error f
    | .ok found =>
      let inserted :=
        match found, missing with
        | some text, _ => text.toList
        | none, some text => text.toList
        | none, none => written
      (inserted ++ ·) <$> fill look missing rest

abbrev Escape := List Char → List Char

def doubleQuotes : Escape
  | [] => []
  | c :: rest => if c == '\'' then '\'' :: '\'' :: doubleQuotes rest else c :: doubleQuotes rest

def escaped (e : Escape) (s : String) : String := String.ofList (e s.toList)

def trimmedLook (scope : Scope) (e : Escape) (body : List Char) : Except Fault (Option String) :=
  (Option.map (escaped e)) <$> scope.textAt (Text.trim (String.ofList body))

def exactLook (scope : Scope) (e : Escape) (body : List Char) : Except Fault (Option String) :=
  (Option.map (escaped e)) <$> scope.textAt (String.ofList body)

def run (d : Dialect) (look : List Char → Except Fault (Option String)) (missing : Option String)
    (s : String) : Except Fault String :=
  String.ofList <$> fill look missing (parse d s)

def resolveText (scope : Scope) (s : String) (e : Escape) (missing : Option String) :
    Except Fault String :=
  run Dialect.step (trimmedLook scope e) missing s

def resolveWith (scope : Scope) (template : Value) (e : Escape) (missing : Option String) :
    Except Fault String :=
  match template with
  | .null => .ok ""
  | .text s => resolveText scope s e missing
  | v => v.asText

def resolve (scope : Scope) (template : Value) : Except Fault String :=
  resolveWith scope template id none

def hasPlaceholders (s : String) : Bool := (parse Dialect.step s).hasHole

/-- Resolves a summary for the user; the plain template when a value cannot be put into text. -/
def resolveSummary (scope : Scope) (template : String) : Except Fault String :=
  match run Dialect.summary (trimmedLook scope id) none template with
  | .error (.invalid _) => .ok template
  | .error (.misuse .wrongKind) => .ok template
  | r => r

def resolvePath (scope : Scope) (path : String) : Except Fault String :=
  run Dialect.pathVariable (exactLook scope id) none path

def resolveQuery (scope : Scope) (value : String) (escapeQuotes : Bool) : Except Fault String :=
  run Dialect.query (exactLook scope (if escapeQuotes then doubleQuotes else id)) none value

end Template

end StepGraph
