import CycleChart.Command.Program

namespace CycleChart.Machine

/-- Why the operating system refuses something. -/
def fileError : IO.Error → FileError
  | .noFileOrDirectory .. => .noEntry
  | .alreadyExists .. => .alreadyExists
  | .inappropriateType _ code text =>
    if code = 20 then .notDirectory else if code = 21 then .isDirectory else .other text
  | .permissionDenied _ code text => if code = 13 then .accessDenied else .other text
  | .invalidArgument _ code text =>
    if code = 36 then .nameTooLong else if code = 40 then .tooManyLinks else .other text
  | .resourceExhausted _ code text =>
    if code = 36 then .nameTooLong else if code = 27 then .fileTooLarge else .other text
  | e => .other (toString e)

def file (p : Path) := System.mkFilePath [Text.readable p.bytes]

def act {α : Type} (action : IO α) : ExceptT FileError IO α :=
  ExceptT.mk do
    match ← action.toBaseIO with
    | .ok a => return .ok a
    | .error e => return .error (fileError e)

instance : Host IO where
  isDirectory p := (file p).isDir
  isFile p := do
    match ← (file p).metadata.toBaseIO with
    | .ok found => return found.type == .file
    | .error _ => return false
  names p := do return (← act (file p).readDir).toList.map fun e => (Path.ofString e.fileName).bytes
  read p := do return (← act (IO.FS.readBinFile (file p))).data.toList
  makeDirectory p := act (IO.FS.createDir (file p))
  write p content := act (IO.FS.writeBinFile (file p) content.toByteArray)
  say
    | .output line => IO.println line
    | .error line => IO.eprintln line

/-- No typeface is at hand here, so texts leave nothing. -/
instance : Drawing.Typeface := .blank

end CycleChart.Machine

def main (arguments : List String) : IO UInt32 := do
  let status : CycleChart.Command.Status ←
    CycleChart.Command.program (arguments.map fun a => (CycleChart.Path.ofString a).bytes)
  return status.code
