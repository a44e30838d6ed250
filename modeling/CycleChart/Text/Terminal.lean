namespace CycleChart.Text

/-- Where a terminal is in a control sequence, if it is in one. -/
inductive Sequence where
  | text
  | escape
  | escapeInner
  | control
  | device
  | deviceParameters
  | deviceInner
  | string
  | system
deriving DecidableEq

namespace Sequence

/-- The byte that ends a string, in whatever character it stands. -/
def terminator : UInt8 := 0x9C

/-- Where a character leads. The escape character starts a sequence anew, and two control characters end any. -/
def next (s : Sequence) (c : Char) : Sequence :=
  let within (first last : Char) : Bool := first ≤ c && c ≤ last
  if c = '\x1b' then escape
  else if c = '\x18' || c = '\x1a' then text
  else
    match s with
    | text => text
    | escape =>
      if within ' ' '/' then escapeInner
      else if c = '[' then control
      else if c = ']' then system
      else if c = 'P' then device
      else if c = 'X' || c = '^' || c = '_' then string
      else if within '0' '~' then text
      else escape
    | escapeInner => if within '0' '~' then text else escapeInner
    | control => if within '@' '~' then text else control
    | device =>
      if within ' ' '/' then deviceInner
      else if within '0' '?' then deviceParameters
      else if within '@' '~' then string
      else device
    | deviceParameters =>
      if within ' ' '/' then deviceInner
      else if within '<' '~' then string
      else deviceParameters
    | deviceInner => if within '0' '~' then string else deviceInner
    | string => if terminator ∈ c.toString.toUTF8.toList then text else string
    | system => if c = '\x07' then text else system

def showsBlanks : Sequence → Bool
  | text | escape | escapeInner | control => true
  | device | deviceParameters | deviceInner | string | system => false

end Sequence

/-- Whether a control character only moves the place of the next one. -/
def isBlankControl (c : Char) : Bool := c = '\t' || c = '\n' || c = '\x0c' || c = '\r'

def isPlain (c : Char) : Bool := isBlankControl c || ' ' ≤ c && c ≠ '\x7f'

structure Terminal where
  sequence : Sequence
  /-- Characters are shown after a blank in a sequence. -/
  resumed : Bool

namespace Terminal

def start : Terminal := ⟨.text, false⟩

def shows (t : Terminal) (c : Char) : Bool :=
  if t.resumed || t.sequence = .text then isPlain c else isBlankControl c && t.sequence.showsBlanks

/-- The terminal after a character. A shown character leaves the sequence open, unless it is beyond ASCII. -/
def step (t : Terminal) (c : Char) : Terminal :=
  if t.shows c then if '\x7f' < c then start else ⟨t.sequence, true⟩
  else ⟨t.sequence.next c, false⟩

def shown : Terminal → List Char → List Char
  | _, [] => []
  | t, c :: rest => if t.shows c then c :: (t.step c).shown rest else (t.step c).shown rest

end Terminal

/-- What is left of a text without control sequences, and without control characters other than blanks. -/
def stripped (s : String) : String := String.ofList (Terminal.start.shown s.toList)

end CycleChart.Text
