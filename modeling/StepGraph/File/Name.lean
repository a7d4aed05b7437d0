import StepGraph.Ai.Completion
import StepGraph.Template
import StepGraph.Text.LetterCase

/-!
The kinds of file that a run handles, the scanned document and three formats of its data, and file
names made from templates. A name keeps every character that a file system takes, loses one
extension of a known kind, and finds its placeholders in the context first and in the last API
response second.
-/
namespace StepGraph

inductive FileKind where
  | pdf
  | csv
  | json
  | xml
  deriving DecidableEq, Repr

namespace FileKind

def all : List FileKind := [pdf, csv, json, xml]

def extension : FileKind → String
  | pdf => "pdf"
  | csv => "csv"
  | json => "json"
  | xml => "xml"

def ofExtension? (s : String) : Option FileKind := all.find? fun k => k.extension == s

def ofFormat (format : String) : FileKind :=
  match ofExtension? (Text.lower format) with
  | some csv => csv
  | some xml => xml
  | _ => json

def contentType : FileKind → String
  | pdf => "application/pdf"
  | csv => "text/csv"
  | json => "application/json"
  | xml => "application/xml"

end FileKind

end StepGraph

namespace StepGraph.FileName

open Text

def isIllegal (c : Char) : Bool :=
  c.toNat < 0x20 || ['<', '>', ':', '"', '/', '\\', '|', '?', '*'].contains c

def sanitized (s : String) : String := trim (String.ofList (s.toList.filter (!isIllegal ·)))

def endings : List (List Char) := FileKind.all.map fun k => '.' :: k.extension.toList

def hasEnding (cs : List Char) : Bool :=
  endings.any fun e => e.isSuffixOf (cs.map Completion.foldTag)

def endingLength (cs : List Char) : Nat :=
  ((endings.find? fun e => e.isSuffixOf (cs.map Completion.foldTag)).map List.length).getD 0

def dropEnding (cs : List Char) : List Char := cs.take (cs.length - endingLength cs)

/-- Drops one known extension; a line break may stand behind it. -/
def withoutExtension (s : String) : String :=
  let cs := s.toList
  if hasEnding cs then String.ofList (dropEnding cs)
  else if ['\n'].isSuffixOf cs then String.ofList (dropEnding cs.dropLast ++ ['\n'])
  else s

def responseMark : String := "response."

/-- Looks into the context, then into the last API response; a marked path means the response
only. -/
def scope (context response : Scope) : Scope :=
  ⟨fun path =>
    if startsWith path responseMark then response.find (dropFront responseMark.length path)
    else do
      let v ← context.find path
      if v.isNull then response.find path else return v⟩

def resolve (context response : Scope) (template : Value) : Except Fault String :=
  match template.orElse (.text "") with
  | .text t => Template.resolveText (scope context response) t id none
  | _ => .error .wrongKind

end StepGraph.FileName
