import CycleChart.Canvas.Png
import CycleChart.Files.Error
import CycleChart.Path.Basic

namespace CycleChart

abbrev Name := List UInt8

/-- What a file holds. As bytes a picture is a PNG. -/
inductive Content where
  | bytes (b : List UInt8)
  | picture (c : Canvas)
deriving DecidableEq

def Content.toByteArray : Content → ByteArray
  | bytes b => ⟨b.toArray⟩
  | picture c => Png.encode c

def Content.toBytes (c : Content) : List UInt8 := c.toByteArray.data.toList

inductive Message where
  | output (line : String)
  | error (line : String)
deriving DecidableEq

/-- What a program finds around it. -/
class Host (m : Type → Type) where
  isDirectory : Path → m Bool
  isFile : Path → m Bool
  names : Path → ExceptT FileError m (List Name)
  read : Path → ExceptT FileError m (List UInt8)
  makeDirectory : Path → ExceptT FileError m Unit
  /-- Makes a file or empties it, and then fills it. If that fails, a beginning may be left. -/
  write : Path → Content → ExceptT FileError m Unit
  say : Message → m Unit

namespace Host

variable {m : Type → Type} [Monad m] [Host m]

/-- Makes a directory that may be there already. -/
def ensureDirectory (p : Path) : ExceptT FileError m Unit :=
  try makeDirectory p
  catch e => unless ← (isDirectory p : m Bool) do throw e

/-- Makes a directory, and first the directories that it lies in, up to so many of them. -/
def makeDirectoriesUpTo : (count : Nat) → Path → ExceptT FileError m Unit
  | 0, p => ensureDirectory p
  | count + 1, p => do
    if p.bytes = [] then return
    try makeDirectory p
    catch
      | .noEntry =>
        match p.parent? with
        | some parent =>
          makeDirectoriesUpTo count parent
          ensureDirectory p
        | none => throw (.other "failed to create whole tree")
      | e => unless ← (isDirectory p : m Bool) do throw e

def makeDirectories (p : Path) : ExceptT FileError m Unit := makeDirectoriesUpTo (p.components.length + 1) p

end Host
end CycleChart
