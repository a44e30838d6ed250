import CycleChart.Binary.Shortest
import CycleChart.Report.Total
import CycleChart.Text.Quoted

namespace CycleChart.Reading

open Binary (Double)

/-- What was there in place of what was expected. -/
inductive Found where
  | null
  | boolean (b : Bool)
  | integer (i : Int)
  | decimal (d : Double)
  | text (s : String)
  | sequence
  | map
deriving DecidableEq

def Found.message : Found → String
  | .null => "null"
  | .boolean b => "boolean `" ++ (if b then "true" else "false") ++ "`"
  | .integer i => "integer `" ++ toString i ++ "`"
  | .decimal d => "floating point `" ++ d.text ++ "`"
  | .text s => "string " ++ Text.quoted s
  | .sequence => "sequence"
  | .map => "map"

inductive Expected where
  | report
  | map
  | count
deriving DecidableEq

def Expected.message : Expected → String
  | .report => "struct RawReport"
  | .map => "a map"
  | .count => "u64"

inductive Reason where
  | endInValue
  | endInObject
  | endInList
  | endInString
  | keyExpected
  | colonExpected
  | commaOrBrace
  | commaOrBracket
  | trailingComma
  | trailingCharacters
  | valueExpected
  | wordExpected
  | invalidNumber
  | numberOutOfRange
  | controlCharacter
  | invalidEscape
  | loneSurrogate
  | missingSurrogate
  | duplicate (m : Member)
  | wrongType (found : Found) (expected : Expected)
  | negativeCount (i : Int)
  | wrongLength (n : Nat)
deriving DecidableEq

def Reason.message : Reason → String
  | .endInValue => "EOF while parsing a value"
  | .endInObject => "EOF while parsing an object"
  | .endInList => "EOF while parsing a list"
  | .endInString => "EOF while parsing a string"
  | .keyExpected => "key must be a string"
  | .colonExpected => "expected `:`"
  | .commaOrBrace => "expected `,` or `\x7d`"
  | .commaOrBracket => "expected `,` or `]`"
  | .trailingComma => "trailing comma"
  | .trailingCharacters => "trailing characters"
  | .valueExpected => "expected value"
  | .wordExpected => "expected ident"
  | .invalidNumber => "invalid number"
  | .numberOutOfRange => "number out of range"
  | .controlCharacter => "control character (\\u0000-\\u001F) found while parsing a string"
  | .invalidEscape => "invalid escape"
  | .loneSurrogate => "lone leading surrogate in hex escape"
  | .missingSurrogate => "unexpected end of hex escape"
  | .duplicate m => "duplicate field `" ++ m.name ++ "`"
  | .wrongType found expected =>
    "invalid type: " ++ found.message ++ ", expected " ++ expected.message
  | .negativeCount i =>
    "invalid value: " ++ (Found.integer i).message ++ ", expected " ++ Expected.count.message
  | .wrongLength n =>
    "invalid length " ++ toString n ++ ", expected " ++ Expected.report.message ++ " with " ++
      toString Member.all.length ++ " elements"

/-- Where reading stops and why: `ahead` bytes into what is left, or at its end. -/
structure Halt where
  reason : Reason
  rest : List Char
  ahead : Nat
deriving DecidableEq

def stopAt {α : Type} (reason : Reason) (rest : List Char) (ahead : Nat) : Except Halt α :=
  .error ⟨reason, rest, ahead⟩

def bytesOf (text : List Char) : List UInt8 := text.flatMap String.utf8EncodeChar

/-- A place in a text. Lines count from one, columns are bytes after the last line feed. -/
structure Position where
  line : Nat
  column : Nat
deriving DecidableEq

def Position.behind (bytes : List UInt8) : Position :=
  ⟨bytes.count 10 + 1, (bytes.reverse.takeWhile (· ≠ 10)).length⟩

/-- The place in `text` where reading stops. -/
def Halt.position (h : Halt) (text : List Char) : Position :=
  let all := bytesOf text
  .behind (all.take (all.length - (bytesOf h.rest).length + h.ahead))

end CycleChart.Reading
