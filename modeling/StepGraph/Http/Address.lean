import StepGraph.Decimal.Read
import StepGraph.Fault
import StepGraph.Text.Quoted
import StepGraph.Text.LetterCase
import StepGraph.Text.Search

/-!
Addresses in the form in which they are requested: scheme and host in lower case, no default port,
no dot segments, and every character that a part may not hold written by its number. An address
without scheme and host stands for a path on a host that nobody named. Other characters of a host
are written in letters, digits and hyphens (RFC 3492): the ASCII characters stand first; then each
other character, lowest first, is written as its distance from the one before.
-/
namespace StepGraph.Text.Punycode

def digit (n : Nat) : Char := Char.ofNat (if n < 26 then 'a'.toNat + n else '0'.toNat + n - 26)

def scaleDown (k delta : Nat) : Nat :=
  if delta ≤ 455 then k + 36 * delta / (delta + 38) else scaleDown (k + 36) (delta / 35)
termination_by delta
decreasing_by omega

/-- The bias follows the distances written so far; the first one counts for less. -/
def adapted (delta points : Nat) (first : Bool) : Nat :=
  let delta := if first then delta / 700 else delta / 2
  scaleDown 0 (delta + delta / points)

def threshold (k bias : Nat) : Nat := min 26 (max 1 (k - bias))

theorem one_le_threshold (k bias : Nat) : 1 ≤ threshold k bias := by
  unfold threshold
  omega

def distance (bias k q : Nat) : List Char :=
  let t := threshold k bias
  if q < t then [digit q]
  else digit (t + (q - t) % (36 - t)) :: distance bias (k + 36) ((q - t) / (36 - t))
termination_by q
decreasing_by
  have h := Nat.div_le_self (q - threshold k bias) (36 - threshold k bias)
  have := one_le_threshold k bias
  omega

structure Progress where
  written : List Char
  next : Nat := 128
  delta : Nat := 0
  bias : Nat := 72
  handled : Nat

def pass (basic point : Nat) (p : Progress) (c : Nat) : Progress :=
  if c < point then { p with delta := p.delta + 1 }
  else if c == point then
    { p with
      written := p.written ++ distance p.bias 36 p.delta
      bias := adapted p.delta (p.handled + 1) (p.handled == basic)
      delta := 0
      handled := p.handled + 1 }
  else p

def writePoint (basic : Nat) (cs : List Nat) (p : Progress) (point : Nat) : Progress :=
  let start := { p with delta := p.delta + (point - p.next) * (p.handled + 1) }
  let done := cs.foldl (pass basic point) start
  { done with delta := done.delta + 1, next := point + 1 }

def encode (s : String) : String :=
  let cs := s.toList.map Char.toNat
  let basic := s.toList.filter (·.toNat < 128)
  let points := ((cs.filter (128 ≤ ·)).mergeSort fun a b => decide (a ≤ b)).eraseDups
  let start : Progress :=
    { written := if basic.isEmpty then [] else basic ++ ['-'], handled := basic.length }
  String.ofList (points.foldl (writePoint basic.length cs) start).written

end StepGraph.Text.Punycode

namespace StepGraph.Http

open Text

structure Address where
  scheme : String := ""
  userinfo : String := ""
  /-- Without the brackets of a numeric address. -/
  host : String := ""
  portNumber : Option Int := none
  path : String := ""
  query : Option String := none
  fragment : Option String := none
  deriving DecidableEq, Repr

namespace Address

def invalid : Fault := .misuse (.other "InvalidURL")

def maxLength : Nat := 65536

def isVisible (c : Char) : Bool := ' ' ≤ c && c ≤ '~'

def safeBut (refused : String) (c : Char) : Bool := isVisible c && !refused.toList.contains c

def fragmentSafe : Char → Bool := safeBut " \"<>\x60"

def querySafe : Char → Bool := safeBut " \"#<>"

def pathSafe : Char → Bool := safeBut " \"#<>?\x60\x7b\x7d"

def userinfoSafe : Char → Bool := safeBut " \"#<>?\x60\x7b\x7d/;=@[\\]^|"

def hostSafe (c : Char) : Bool :=
  isUnreserved c || "!$&'()*+,;=\"\x60\x7b\x7d%|\\".toList.contains c

def isSchemeChar (c : Char) : Bool := c.isAlphanum || ['+', '.', '-'].contains c

def takeScheme (cs : List Char) : List Char × List Char :=
  let name := cs.takeWhile isSchemeChar
  match cs.dropWhile isSchemeChar with
  | ':' :: rest =>
    match name with
    | [] => ([], rest)
    | c :: _ => if c.isAlpha then (name, rest) else ([], cs)
  | _ => ([], cs)

def upTo (marks : List Char) (cs : List Char) : List Char × List Char :=
  cs.span fun c => !marks.contains c

def takeAuthority : List Char → List Char × List Char
  | '/' :: '/' :: rest => upTo ['/', '?', '#'] rest
  | cs => ([], cs)

def behind (mark : Char) : List Char → Option (List Char)
  | [] => none
  | c :: rest => if c == mark then some rest else none

def splitLast (mark : Char) (cs : List Char) : Option (List Char × List Char) :=
  if cs.contains mark then
    let tail := (cs.reverse.takeWhile (· != mark)).reverse
    some (cs.take (cs.length - tail.length - 1), tail)
  else none

/-- A numeric host stands in brackets; any other ends at a colon. -/
def takeHost (cs : List Char) : List Char × List Char :=
  match cs, splitLast ']' cs with
  | '[' :: _, some (host, rest) => (host ++ [']'], rest)
  | _, _ => upTo [':'] cs

def isQuad (s : String) : Bool :=
  let fields := split s "."
  fields.length == 4 && fields.all fun f =>
    !f.isEmpty && f.toList.all Char.isDigit && (f == "0" || !startsWith f "0") &&
      Nat.ofDigitChars 10 f.toList 0 < 256

/-- Hosts that look like four numbers have to be such. -/
def looksNumeric (s : String) : Bool :=
  let fields := split s "."
  fields.length == 4 && fields.all fun f => !f.isEmpty && f.toList.all Char.isDigit

def hostLabel (s : String) : String :=
  if s.toList.all (·.toNat < 0x80) then s else "xn--" ++ Punycode.encode s

def readHost (s : String) : Except Fault String :=
  if looksNumeric s then (if isQuad s then .ok s else .error invalid)
  else if startsWith s "[" && endsWith s "]" then .ok (dropBack 1 (dropFront 1 s))
  else
    let s := lower s
    if s.toList.all (·.toNat < 0x80) then .ok (percentWith hostSafe s)
    else .ok (join "." ((split s ".").map hostLabel))

def defaultPorts : Entries Int :=
  [("ftp", 21), ("http", 80), ("https", 443), ("ws", 80), ("wss", 443)]

def readPort (scheme s : String) : Except Fault (Option Int) :=
  if s.isEmpty then .ok none
  else
    match Decimal.readWhole s with
    | .value i => .ok (if defaultPorts.get? scheme == some i then none else some i)
    | _ => .error invalid

def withoutDots (path : String) : String :=
  let step (done : List String) (s : String) : List String :=
    if s == "." then done
    else if s == ".." then (if done.isEmpty || done == [""] then done else done.dropLast)
    else done ++ [s]
  let segments := split path "/"
  if segments.any fun s => s == "." || s == ".." then join "/" (segments.foldl step []) else path

def hasAuthority (a : Address) : Bool :=
  !a.userinfo.isEmpty || !a.host.isEmpty || a.portNumber.isSome

/-- A path begins with one slash behind a host, and not with two slashes or a colon where there
is neither scheme nor host. -/
def checkPath (a : Address) : Except Fault Unit :=
  if a.hasAuthority then
    if a.path.isEmpty || startsWith a.path "/" then .ok () else .error invalid
  else if a.scheme.isEmpty && (startsWith a.path "//" || startsWith a.path ":") then .error invalid
  else .ok ()

def read (s : String) : Except Fault Address := do
  if maxLength < s.length || s.toList.any (fun c => c.toNat < 0x80 && !isVisible c) then
    throw invalid
  let (scheme, rest) := takeScheme s.toList
  let (authority, rest) := takeAuthority rest
  let (path, rest) := upTo ['?', '#'] rest
  let (query, rest) := upTo ['#'] rest
  let (userinfo, hostAndPort) := (splitLast '@' authority).getD ([], authority)
  let (host, port) := takeHost hostAndPort
  let scheme := String.ofList scheme
  let text := String.ofList
  let a : Address :=
    { scheme := lower scheme
      userinfo := percentWith userinfoSafe (text userinfo)
      host := ← readHost (text host)
      portNumber := ← readPort scheme (text ((behind ':' port).getD port))
      path := text path
      query := (behind '?' query).map fun q => percentWith querySafe (text q)
      fragment := (behind '#' rest).map fun f => percentWith fragmentSafe (text f) }
  checkPath a
  let path := if a.scheme.isEmpty && !a.hasAuthority then a.path else withoutDots a.path
  return { a with path := percentWith pathSafe path }

def isRelative (a : Address) : Bool := a.scheme.isEmpty || a.host.isEmpty

/-- A relative address keeps its path and query only. -/
def requested (a : Address) : Address :=
  if a.isRelative then { path := "/" ++ stripLeft '/' a.path, query := a.query } else a

def hostText (a : Address) : String :=
  if a.host.toList.contains ':' then "[" ++ a.host ++ "]" else a.host

def authority (a : Address) : String :=
  (if a.userinfo.isEmpty then "" else a.userinfo ++ "@") ++ a.hostText ++
    a.portNumber.elim "" fun n => ":" ++ toString n

def text (a : Address) : String :=
  (if a.scheme.isEmpty then "" else a.scheme ++ ":") ++
    (if a.hasAuthority then "//" ++ a.authority else "") ++ a.path ++
    a.query.elim "" ("?" ++ ·) ++ a.fragment.elim "" ("#" ++ ·)

end Address

end StepGraph.Http
