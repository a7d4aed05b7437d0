import StepGraph.Entries
import StepGraph.Logging.Line
import StepGraph.Text.LetterCase

/-! Where log lines go, in which form, and from which level on. The environment comes first. -/
namespace StepGraph.Logging

structure Wish where
  level : String := "INFO"
  json : String := "False"
  file : Option String := none

inductive Target where
  | stream
  | file (path : String)
  deriving DecidableEq, Repr

structure Setup where
  level : Nat
  form : Form
  targets : List Target
  deriving DecidableEq, Repr

def levels : Entries Nat :=
  [("CRITICAL", 50), ("FATAL", 50), ("ERROR", 40), ("WARNING", 30), ("WARN", 30), ("INFO", 20),
   ("DEBUG", 10), ("NOTSET", 0)]

def defaultLevel : Nat := 20

/-- Letter case does not matter; an unknown name stands for the default. -/
def levelOf (name : String) : Nat := (levels.get? (Text.upper name)).getD defaultLevel

def isOn (s : String) : Bool := Text.lower s == "true"

def setup (env : Environment) (w : Wish) : Setup :=
  let file := ((env.get? "LOG_FILE").or w.file).filter (!·.isEmpty)
  { level := levelOf ((env.get? "LOG_LEVEL").getD w.level),
    form := if isOn ((env.get? "JSON_LOGS").getD w.json) then .json else .standard,
    targets := .stream :: file.toList.map .file }

end StepGraph.Logging
