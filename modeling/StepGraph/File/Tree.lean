import StepGraph.View
import StepGraph.Text.Search

/-!
File storage: buckets of files under one root. A key may climb, and even leave the root when it comes
back by the names of the root; where a path leads is decided by its text alone. Writing a file makes
the directories above it.
-/
namespace StepGraph

abbrev FilePath := List String

/-- A name that no key spells. -/
def unspoken : String := "\x00"

structure FileTree where
  files : List (FilePath × ByteArray) := []
  /-- Directories that were made on the way to a file. -/
  dirs : List FilePath := []
  /-- Where the root itself stands on the whole file system. -/
  root : FilePath := [unspoken]

namespace FileTree

inductive Trouble where
  | missing
  | occupied
  | notDirectory
  | isDirectory
  | nameTooLong
  deriving DecidableEq, Repr

def Trouble.text : Trouble → String
  | missing => "[Errno 2] No such file or directory"
  | occupied => "[Errno 17] File exists"
  | notDirectory => "[Errno 20] Not a directory"
  | isDirectory => "[Errno 21] Is a directory"
  | nameTooLong => "[Errno 36] File name too long"

def rootName : String := "<root>"

def shown (p : FilePath) : String := Text.join "/" (rootName :: p)

def Trouble.message (t : Trouble) (p : FilePath) : String :=
  t.text ++ ": " ++ Text.quoted (shown p)

/-- Walks the names of a path, nearest name first; none when it climbs above the root. -/
def walk : FilePath → List String → Option FilePath
  | done, [] => some done.reverse
  | done, name :: rest =>
    if name.isEmpty || name == "." then walk done rest
    else if name == ".." then
      match done with
      | [] => none
      | _ :: above => walk above rest
    else walk (name :: done) rest

/-- A bucket that starts with a slash is not below the root. -/
def resolve? (bucket key : String) : Option FilePath :=
  if Text.startsWith bucket "/" then none
  else walk [] (Text.split bucket "/" ++ Text.split (Text.stripLeft '/' key) "/")

def place (bucket key : String) : Except Fault FilePath :=
  if bucket.toList.contains '\x00' || key.toList.contains '\x00' then
    .error (.invalid "embedded null byte")
  else
    match resolve? bucket key with
    | some (name :: rest) => .ok (name :: rest)
    | _ => .error (.external ("Storage key escapes storage root: " ++ key))

def climb : FilePath → List String → FilePath
  | done, [] => done.reverse
  | done, name :: rest =>
    if name.isEmpty || name == "." then climb done rest
    else if name == ".." then climb done.tail rest
    else climb (name :: done) rest

/-- Where a key of a bucket leads on the whole file system. A bucket that starts with a slash starts
at the top. -/
def landing (root : FilePath) (bucket key : String) : FilePath :=
  climb (if Text.startsWith bucket "/" then [] else root.reverse)
    (Text.split bucket "/" ++ Text.split (Text.stripLeft '/' key) "/")

/-- Where a key of a bucket leads; it has to end below the root. One that leaves the root may come
back by the names of the root. -/
def locate (root : FilePath) (bucket key : String) : Except Fault FilePath :=
  match place bucket key with
  | .error (.external message) =>
    let path := landing root bucket key
    if root.isPrefixOf path && path != root then .ok (path.drop root.length)
    else .error (.external message)
  | found => found

def content? (t : FileTree) (p : FilePath) : Option ByteArray := t.files.lookup p

def isFile (t : FileTree) (p : FilePath) : Bool := (t.content? p).isSome

def isDirectory (t : FileTree) (p : FilePath) : Bool :=
  p.isEmpty || t.dirs.contains p || t.files.any fun f => p.isPrefixOf f.1 && p != f.1

def prefixes (p : FilePath) : List FilePath := (List.range p.length).map fun i => p.take (i + 1)

def longestName : Nat := 255

def tooLong (name : String) : Bool := longestName < name.utf8ByteSize

def underFile (t : FileTree) (p : FilePath) : Bool := (prefixes p.dropLast).any t.isFile

def addDirectories (t : FileTree) (p : FilePath) : FileTree :=
  { t with dirs := t.dirs ++ (prefixes p).filter (!t.isDirectory ·) }

def makeDirectories (t : FileTree) (p : FilePath) : FileTree × Option (Trouble × FilePath) :=
  if t.isFile p then (t, some (.occupied, p))
  else if t.underFile p then (t, some (.notDirectory, p))
  else
    match p.findIdx? tooLong with
    | none => (t.addDirectories p, none)
    | some i =>
      let above := p.take i
      if t.isDirectory above then (t, some (.nameTooLong, p))
      else (t.addDirectories above, some (.nameTooLong, p.take (i + 1)))

def setContent (t : FileTree) (p : FilePath) (b : ByteArray) : FileTree :=
  if t.isFile p then { t with files := t.files.map fun f => if f.1 == p then (p, b) else f }
  else { t with files := t.files ++ [(p, b)] }

def write (t : FileTree) (p : FilePath) (b : ByteArray) :
    FileTree × Option (Trouble × FilePath) :=
  match t.makeDirectories p.dropLast with
  | (t', some trouble) => (t', some trouble)
  | (t', none) =>
    if t'.isDirectory p then (t', some (.isDirectory, p))
    else if p.any tooLong then (t', some (.nameTooLong, p))
    else (t'.setContent p b, none)

def read (t : FileTree) (p : FilePath) : Except (Trouble × FilePath) ByteArray :=
  match t.content? p with
  | some b => .ok b
  | none =>
    if t.isDirectory p then .error (.isDirectory, p)
    else if t.underFile p then .error (.notDirectory, p)
    else
      match p.findIdx? tooLong with
      | some i =>
        if t.isDirectory (p.take i) then .error (.nameTooLong, p) else .error (.missing, p)
      | none => .error (.missing, p)

def report (what bucket key : String) (trouble : Trouble × FilePath) : Fault :=
  .external ("Storage " ++ what ++ " failed for " ++ bucket ++ "/" ++ key ++ ": " ++
    trouble.1.message trouble.2)

end FileTree

end StepGraph
