/-! Finding, replacing and joining pieces of text, as lists of characters. -/
namespace StepGraph.Text

def occursIn (needle : List Char) : List Char → Bool
  | [] => needle.isEmpty
  | c :: rest => needle.isPrefixOf (c :: rest) || occursIn needle rest

/-- Scans from the left; `skip` characters belong to an occurrence already taken. -/
def replaceFrom (old new : List Char) : Nat → List Char → List Char
  | _, [] => []
  | skip + 1, _ :: rest => replaceFrom old new skip rest
  | 0, c :: rest =>
    if old.isPrefixOf (c :: rest) then new ++ replaceFrom old new (old.length - 1) rest
    else c :: replaceFrom old new 0 rest

def replace (s old new : String) : String :=
  if old.isEmpty then s else String.ofList (replaceFrom old.toList new.toList 0 s.toList)

/-- Pieces between the occurrences of a non-empty separator, with the piece being read in
`done`, nearest character first. -/
def splitFrom (sep : List Char) : Nat → List Char → List Char → List (List Char)
  | _, done, [] => [done.reverse]
  | skip + 1, done, _ :: rest => splitFrom sep skip done rest
  | 0, done, c :: rest =>
    if sep.isPrefixOf (c :: rest) then done.reverse :: splitFrom sep (sep.length - 1) [] rest
    else splitFrom sep 0 (c :: done) rest

def split (s sep : String) : List String :=
  (splitFrom sep.toList 0 [] s.toList).map String.ofList

def join (sep : String) (pieces : List String) : String := sep.intercalate pieces

def startsWith (s mark : String) : Bool := mark.toList.isPrefixOf s.toList

def endsWith (s mark : String) : Bool := mark.toList.isSuffixOf s.toList

def dropFront (n : Nat) (s : String) : String := String.ofList (s.toList.drop n)

def dropBack (n : Nat) (s : String) : String := String.ofList (s.toList.take (s.length - n))

def stripLeft (c : Char) (s : String) : String := String.ofList (s.toList.dropWhile (· == c))

def stripRight (c : Char) (s : String) : String :=
  String.ofList (s.toList.reverse.dropWhile (· == c)).reverse

end StepGraph.Text
