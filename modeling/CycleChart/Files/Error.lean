namespace CycleChart

inductive FileError where
  | noEntry
  | alreadyExists
  | notDirectory
  | isDirectory
  | nameTooLong
  | accessDenied
  | tooManyLinks
  | fileTooLarge
  | zeroByte
  | notText
  | other (text : String)
deriving DecidableEq

def FileError.message : FileError → String
  | noEntry => "No such file or directory (os error 2)"
  | alreadyExists => "File exists (os error 17)"
  | notDirectory => "Not a directory (os error 20)"
  | isDirectory => "Is a directory (os error 21)"
  | nameTooLong => "File name too long (os error 36)"
  | accessDenied => "Permission denied (os error 13)"
  | tooManyLinks => "Too many levels of symbolic links (os error 40)"
  | fileTooLarge => "File too large (os error 27)"
  | zeroByte => "file name contained an unexpected NUL byte"
  | notText => "stream did not contain valid UTF-8"
  | other text => text

end CycleChart
