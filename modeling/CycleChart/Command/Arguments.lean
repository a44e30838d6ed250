import CycleChart.Path.Basic
import CycleChart.Text.Terminal
import CycleChart.Text.Utf8

namespace CycleChart.Command

/-- An argument that takes a value. -/
inductive Setting where
  | reports
  | charts
deriving DecidableEq

/-- An argument that takes none. -/
inductive Flag where
  | quiet
  | help
deriving DecidableEq

namespace Setting

def name : Setting → String
  | reports => "input-dir"
  | charts => "output-dir"

def shown : Setting → String
  | reports => "--input-dir <INPUT_DIR>"
  | charts => "--output-dir <OUTPUT_DIR>"

def named? (s : String) : Option Setting := [reports, charts].find? (·.name = s)

end Setting

namespace Flag

def name : Flag → String
  | quiet => "quiet"
  | help => "help"

def letter : Flag → Char
  | quiet => 'q'
  | help => 'h'

def shown (f : Flag) : String := "--" ++ f.name

def named? (s : String) : Option Flag := [quiet, help].find? (·.name = s)
def lettered? (c : Char) : Option Flag := [quiet, help].find? (·.letter = c)

end Flag

inductive Refusal where
  | valueMissing (s : Setting)
  | repeated (shown : String)
  | valueUnexpected (f : Flag) (value : String)
  | unknown (argument : String)
deriving DecidableEq

/-- What is said of a refusal. What was given is shown without control sequences. -/
def Refusal.message : Refusal → String
  | valueMissing s => "a value is required for '" ++ s.shown ++ "' but none was supplied"
  | repeated shown => "the argument '" ++ shown ++ "' cannot be used multiple times"
  | valueUnexpected f value =>
    "unexpected value '" ++ Text.stripped value ++ "' for '" ++ f.shown ++ "' found; no more were expected"
  | unknown argument => "unexpected argument '" ++ Text.stripped argument ++ "' found"

/-- The settings read so far, and the one whose value is still to be taken. -/
structure Given where
  quiet : Bool
  reports : Option Path
  charts : Option Path
  waiting : Option (Setting × Option (List UInt8))

namespace Given

def none : Given := ⟨false, .none, .none, .none⟩

def get? (g : Given) : Setting → Option Path
  | .reports => g.reports
  | .charts => g.charts

def set (g : Given) (p : Path) : Setting → Given
  | .reports => { g with reports := some p }
  | .charts => { g with charts := some p }

/-- Gives a setting its value, once and not empty. -/
def assign (g : Given) (s : Setting) (value : List UInt8) : Except Refusal Given :=
  if (g.get? s).isSome then .error (.repeated s.shown)
  else if value = [] then .error (.valueMissing s)
  else .ok (g.set ⟨value⟩ s)

def settle (g : Given) : Except Refusal Given :=
  match g.waiting with
  | .none => .ok g
  | some (s, .none) => .error (.valueMissing s)
  | some (s, some value) => { g with waiting := .none }.assign s value

/-- Sets a flag, or yields nothing if the flag asks for help. -/
def raise (g : Given) (f : Flag) : Except Refusal (Option Given) := do
  let g ← g.settle
  match f with
  | .help => return .none
  | .quiet => if g.quiet then throw (.repeated f.shown) else return some { g with quiet := true }

def takeLong (g : Given) (body : List UInt8) : Except Refusal (Option Given) :=
  let equals : UInt8 := 0x3D
  let name := Text.readable (body.takeWhile (· ≠ equals))
  let value? := (body.dropWhile (· ≠ equals)).tail?
  match Flag.named? name, Setting.named? name, value? with
  | some f, _, some value => .error (.valueUnexpected f (Text.readable value))
  | some f, _, .none => g.raise f
  | .none, some s, some value => do return some (← (← g.settle).assign s value)
  | .none, some s, .none => do return some { ← g.settle with waiting := some (s, .none) }
  | .none, .none, _ => .error (.unknown ("--" ++ name))

/-- Takes the letters after a single dash. -/
def takeLetters (g : Given) : List Text.Piece → Except Refusal (Option Given)
  | [] => .ok (some g)
  | .broken bytes :: rest =>
    .error (.unknown (String.ofList ('-' :: (Text.Piece.broken bytes :: rest).map Text.Piece.shown)))
  | .char c :: rest =>
    match Flag.lettered? c with
    | .none => .error (.unknown (String.ofList ['-', c]))
    | some f => do
      match ← g.raise f with
      | .none => return .none
      | some g => takeLetters g rest

end Given

inductive Request where
  | help
  | charts (quiet : Bool) (reports charts : Option Path)
deriving DecidableEq

/-- Reads arguments from the first to the last. A fault in an argument comes before a fault in the value that it
leaves behind. -/
def readArguments : List (List UInt8) → Given → Except Refusal Request
  | [], g => do
    let g ← g.settle
    return .charts g.quiet g.reports g.charts
  | argument :: rest, g =>
    let next (taken : Except Refusal (Option Given)) : Except Refusal Request :=
      match taken with
      | .error refusal => .error refusal
      | .ok .none => .ok .help
      | .ok (some g) => readArguments rest g
    match argument, rest with
    | [0x2D, 0x2D], [] => do
      let g ← g.settle
      return .charts g.quiet g.reports g.charts
    | [0x2D, 0x2D], other :: _ => .error (.unknown (Text.readable other))
    | 0x2D :: 0x2D :: body, _ => next (g.takeLong body)
    | 0x2D :: b :: body, _ => next (g.takeLetters (Text.pieces (b :: body)))
    | value, _ =>
      match g.waiting with
      | some (s, .none) => readArguments rest { g with waiting := some (s, some value) }
      | _ => .error (.unknown (Text.readable value))

def Request.ofArguments (arguments : List (List UInt8)) : Except Refusal Request :=
  readArguments arguments .none

end CycleChart.Command
