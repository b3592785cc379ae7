/-!
What can keep a run from its report, and a file from being read.
-/

namespace CallAtlas

inductive Fault where
  | notFound
  | notDirectory
  | isDirectory
  | tooManyLinks
  | notText
  | other (reason : String)
  deriving DecidableEq

def Fault.message : Fault → String
  | .notFound => "No such file or directory (os error 2)"
  | .notDirectory => "Not a directory (os error 20)"
  | .isDirectory => "Is a directory (os error 21)"
  | .tooManyLinks => "Too many levels of symbolic links (os error 40)"
  | .notText => "stream did not contain valid UTF-8"
  | .other reason => reason

inductive RunError where
  | unreadableSettings (path : String)
  | invalidSettings (path : String)
  | notDirectory (path : String)
  | unreadable (path : String)
  | unwritable (path : String)
  deriving DecidableEq

def RunError.message : RunError → String
  | .unreadableSettings path => "Failed to read config " ++ path
  | .invalidSettings path => "Invalid config " ++ path
  | .notDirectory path => path ++ " is not a directory"
  | .unreadable path => "Failed to read " ++ path
  | .unwritable path => "Failed to write " ++ path

end CallAtlas
