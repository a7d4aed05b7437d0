/-! Faults of document text, each with the place where reading stopped. -/
namespace StepGraph.Json

inductive Complaint where
  | value
  | name
  | colon
  | comma
  | unterminated
  | control
  | escape
  | unicodeEscape
  | extra
  | byteOrderMark
  deriving DecidableEq, Repr

def Complaint.text : Complaint → String
  | .value => "Expecting value"
  | .name => "Expecting property name enclosed in double quotes"
  | .colon => "Expecting ':' delimiter"
  | .comma => "Expecting ',' delimiter"
  | .unterminated => "Unterminated string starting at"
  | .control => "Invalid control character at"
  | .escape => "Invalid \\escape"
  | .unicodeEscape => "Invalid \\uXXXX escape"
  | .extra => "Extra data"
  | .byteOrderMark => "Unexpected UTF-8 BOM (decode using utf-8-sig)"

/-- Why a text is no document. Places count characters from zero, lines and columns from one. -/
inductive SyntaxFault where
  | complaint (c : Complaint) (place line column : Nat)
  | tooManyDigits (count : Nat)
  | tooDeep
  deriving DecidableEq, Repr

def digitLimitText : String :=
  "use sys.set_int_max_str_digits() to increase the limit"

def tooManyDigitsText (count : Nat) : String :=
  "Exceeds the limit (4300 digits) for integer string conversion: value has " ++
    toString count ++ " digits; " ++ digitLimitText

def tooManyDigitsToWrite : String :=
  "Exceeds the limit (4300 digits) for integer string conversion; " ++ digitLimitText

def SyntaxFault.ofPlace (c : Complaint) (text : List Char) (place : Nat) : SyntaxFault :=
  let before := text.take place
  .complaint c place (before.count '\n' + 1) ((before.reverse.takeWhile (· != '\n')).length + 1)

def SyntaxFault.message : SyntaxFault → String
  | .complaint c place line column =>
    c.text ++ ": line " ++ toString line ++ " column " ++ toString column ++
      " (char " ++ toString place ++ ")"
  | .tooManyDigits n => tooManyDigitsText n
  | .tooDeep => ""

end StepGraph.Json
