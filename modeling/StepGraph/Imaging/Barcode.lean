import StepGraph.Ai.Completion
import StepGraph.Text.LetterCase

/-!
Barcodes name a document type and a detail line. A pattern either fixes the type as the first
piece, or places type and detail line among the pieces of a template; the last place of a template
takes all pieces that are left.
-/
namespace StepGraph.Barcode

structure Pattern where
  id : Option Int
  template : Option String := none
  separator : Option String := some "-"
  fixedType : Option String := none
  bucket : Option Int := none
  deriving DecidableEq, Repr, Inhabited

structure Match where
  documentType : String
  detailLine : String
  bucket : Option Int
  pattern : Option Int
  deriving DecidableEq, Repr

def typePlace : String := "\x7bdocumentType\x7d"

def detailPlace : String := "\x7bdetailLineId\x7d"

def given (s : Option String) (default : String) : String :=
  match s with
  | some t => if t.isEmpty then default else t
  | none => default

/-- A fixed type matches the first piece exactly; the rest is the detail line. -/
def matchFixed? (p : Pattern) (type sep : String) (pieces : List String) : Option Match :=
  let detail := Text.join sep (pieces.drop 1)
  if pieces.head? == some type && !detail.isEmpty then some ⟨type, detail, p.bucket, p.id⟩ else none

def knows (types : List String) (type : String) : Bool :=
  types.any fun t => Text.lower t == Text.lower type

def matchTemplate? (p : Pattern) (sep : String) (types pieces : List String) : Option Match :=
  let places := Text.split (p.template.getD "") sep
  match places.idxOf? typePlace, places.idxOf? detailPlace with
  | some typeAt, some detailAt =>
    let type := pieces.getD typeAt ""
    let detail :=
      if detailAt + 1 == places.length then Text.join sep (pieces.drop detailAt)
      else pieces.getD detailAt ""
    if pieces.length ≤ max typeAt detailAt || type.isEmpty || detail.isEmpty || !knows types type
    then none
    else some ⟨type, detail, p.bucket, p.id⟩
  | _, _ => none

def Pattern.match? (p : Pattern) (types : List String) (barcode : String) : Option Match :=
  let sep := given p.separator "-"
  let pieces := Text.split barcode sep
  if pieces.length < 2 then none
  else
    match p.fixedType with
    | some type =>
      if type.isEmpty then matchTemplate? p sep types pieces else matchFixed? p type sep pieces
    | none => matchTemplate? p sep types pieces

def listed (reply : String) : Except Fault (List String) :=
  match Completion.read reply .null with
  | .ok (.list items) => .ok ((items.filterMap Value.text?).filter (!·.isEmpty))
  | .ok _ => .ok []
  | .error (.step _) => .ok []
  | .error f => .error f

end StepGraph.Barcode
