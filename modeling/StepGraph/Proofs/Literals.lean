import StepGraph.Proofs.Placeholders

/-!
Values inside quoted literals. In a text with literals two quotes inside of one are a quote, and a
single quote opens or closes one. A value whose quotes are written twice stays in the literal that
its hole was in, whatever it holds, and no literal begins or ends elsewhere.
-/
namespace StepGraph.Template

def quote : Piece := .plain '\''

def lead (front : Template) : List Template → List Template
  | [] => [front]
  | part :: parts => (front ++ part) :: parts

/-- The parts of a text from outside or inside of a literal on, in turn what stands outside and what
a literal holds. A hole counts as a character that is no quote. -/
def parts : Bool → Template → List Template
  | _, [] => [[]]
  | false, .plain '\'' :: rest => [] :: parts true rest
  | false, p :: rest => lead [p] (parts false rest)
  | true, .plain '\'' :: .plain '\'' :: rest => lead [quote] (parts true rest)
  | true, .plain '\'' :: rest => [] :: parts false rest
  | true, p :: rest => lead [p] (parts true rest)

def alternate : Bool → List Template → List Template
  | _, [] => []
  | true, part :: rest => part :: alternate false rest
  | false, _ :: rest => alternate true rest

/-- What stands before, between and behind the literals of a text. -/
def outside (t : Template) : List Template := alternate true (parts false t)

def filled (texts : List Char → String) (t : Template) : Template :=
  t.flatMap fun p => match p with
    | .plain c => [.plain c]
    | .hole body _ => plainly (texts body).toList

variable {texts : List Char → String} {t : Template} {inside : Bool}

end StepGraph.Template
