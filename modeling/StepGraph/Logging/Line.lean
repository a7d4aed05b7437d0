import StepGraph.Logging.Message
import StepGraph.Text.Search

/-!
Lines of the running log. A line says when, how serious, who and what; it also carries the ids of
the request and of the run that it belongs to, so that it can be joined to their records.
-/
namespace StepGraph.Logging

open Time (Moment padded)

inductive Form where
  | json
  | standard
  deriving DecidableEq, Repr

structure Line where
  created : Moment
  level : String
  logger : String
  message : String
  requestId : Option String := none
  executionLog : Option Int := none
  /-- What the writer added, less the names that every line has. -/
  extra : Entries Value := []

def yearAt (seconds : Int) : Int :=
  let cycle : Int := 146097
  let days := seconds.fdiv 86400 + 719162
  (Time.yearOfDay ((days.fmod cycle).toNat + 1)).1 + 400 * days.fdiv cycle

/-- What is said of a count of seconds that no date has: the year it would lie in, as long as the
year itself can be counted. -/
def outsideCalendar (seconds : Int) : Fault :=
  let year := yearAt seconds
  if twoTo 63 ≤ seconds.natAbs then .misuse .tooLarge
  else if twoTo 31 ≤ (year - 1900).natAbs then .misuse (.other "OSError")
  else .invalid ("year " ++ toString year ++ " is out of range")

def momentAt (seconds micros : Int) : Except Fault Moment :=
  match Moment.ofTicks? (Moment.epoch + seconds * Time.second + micros) none with
  | some t => .ok t
  | none => .error (outsideCalendar (seconds + micros.fdiv Time.second))

/-- Microseconds of a fraction of a second. The product is a double before it is rounded, and a
half goes to the even neighbour. -/
def microsOf (num den : Nat) : Nat :=
  match Decimal.Reading.ofFloat (Decimal.nearest false (num * 1000000) den) with
  | .finite d => Decimal.roundQuotient d.fraction.1 d.fraction.2
  | _ => 0

def readTime : Value → Except Fault Moment
  | .int i => momentAt i 0
  | .bool b => momentAt (if b then 1 else 0) 0
  | .float x =>
    match Decimal.Reading.ofFloat x with
    | .finite d =>
      momentAt d.truncate (d.signed (microsOf (d.fraction.1 % d.fraction.2) d.fraction.2))
    | .nan => .error (.invalid "Invalid value NaN (not a number)")
    | .infinite _ => .error (.misuse .tooLarge)
  | _ => .error .wrongKind

/-- Names that every line has; what is added under one of them does not count as extra. -/
def ownNames : List String :=
  ["args", "asctime", "created", "exc_info", "exc_text", "filename", "funcName", "levelname",
   "levelno", "lineno", "message", "module", "msecs", "msg", "name", "pathname", "process",
   "processName", "relativeCreated", "stack_info", "thread", "threadName"]

def extraOnly (es : Entries Value) : Entries Value := es.filter fun e => !ownNames.contains e.1

namespace Line

def yearText (t : Moment) : String := toString t.year

def dateText (t : Moment) : String :=
  yearText t ++ "-" ++ padded 2 t.month ++ "-" ++ padded 2 t.day

def ids (l : Line) : Entries Value :=
  ((l.requestId.filter (!·.isEmpty)).toList.map fun r => ("request_id", Value.text r)) ++
    l.executionLog.toList.map fun i => ("execution_log_id", Value.int i)

def document (l : Line) : Entries Value :=
  let time := dateText l.created ++ "T" ++ l.created.timeText ++ "." ++ padded 6 l.created.micro
  [("timestamp", .text (time ++ "Z")), ("level", .text l.level), ("logger", .text l.logger),
    ("message", .text l.message)] ++ l.ids ++
    (if l.extra.isEmpty then [] else [("context", .object l.extra)])

def levelText (s : String) : String :=
  String.ofList (s.toList ++ List.replicate (8 - s.length) ' ')

def standard (l : Line) : Except Fault String := do
  let ids ← l.ids.mapM fun e => do return e.1 ++ "=" ++ (← e.2.display)
  return "[" ++ dateText l.created ++ " " ++ l.created.timeText ++ "] " ++ levelText l.level ++
    " - " ++ l.logger ++ " - " ++ l.message ++
    (if ids.isEmpty then "" else " (" ++ Text.join ", " ids ++ ")")

def render (l : Line) : Form → Except Fault String
  | .json => (Value.object l.document).json Json.spaced
  | .standard => l.standard

end Line

end StepGraph.Logging
