import StepGraph.Json.Reader
import StepGraph.View
import StepGraph.Text.Charset
import StepGraph.Text.Search

/-!
Completions of an AI provider. A completion is a document, bare or inside a code fence; the fence
and the blanks around it do not count.
-/
namespace StepGraph.Completion

open Text

def fence : List Char := ['\x60', '\x60', '\x60']

/-- The long form of the letter counts as an `s`. -/
def foldTag (c : Char) : Char := if c.toNat == 0x17F then 's' else c.toLower

def withoutOpening (cs : List Char) : List Char :=
  if fence.isPrefixOf cs then
    let rest := cs.drop fence.length
    if (rest.take 4).map foldTag == ['j', 's', 'o', 'n'] then dropBlanks (rest.drop 4)
    else dropBlanks rest
  else cs

def withoutClosing (cs : List Char) : List Char :=
  if fence.isSuffixOf cs then cs.take (cs.length - fence.length) else cs

def trimChars (cs : List Char) : List Char := dropBlanks (dropBlanks cs.reverse).reverse

def withoutFences (s : String) : String :=
  String.ofList (trimChars (withoutClosing (withoutOpening (trimChars s.toList))))

def read (s : String) (output : Value) : Except Fault Value :=
  match Json.parse (withoutFences s) with
  | .ok v => .ok v
  | .error (.tooManyDigits n) => .error (.invalid (Json.tooManyDigitsText n))
  | .error .tooDeep => .error (.misuse .tooDeep)
  | .error f => .error (.stepFault (.reply s) ("Failed to parse AI response: " ++ f.message) output)

end StepGraph.Completion
