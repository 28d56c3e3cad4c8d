/-!
What can go wrong, and how it is told.
-/
namespace StepTrace

/-- Why a file or a stream could not be used. -/
inductive FileFault where
  | notFound
  | alreadyExists
  | notDirectory
  | isDirectory
  | nameTooLong
  | notText
  | nulInName
  | noTree
  | other (message : String)
deriving DecidableEq, Repr, Inhabited

namespace FileFault

def message : FileFault → String
  | notFound => "No such file or directory (os error 2)"
  | alreadyExists => "File exists (os error 17)"
  | notDirectory => "Not a directory (os error 20)"
  | isDirectory => "Is a directory (os error 21)"
  | nameTooLong => "File name too long (os error 36)"
  | notText => "stream did not contain valid UTF-8"
  | nulInName => "file name contained an unexpected NUL byte"
  | noTree => "failed to create whole tree"
  | other m => m

end FileFault

inductive Failure where
  | file (cause : FileFault)
  | json (message : String)
  | parse (file : String) (line column : Nat) (message : String)
  | emit (file message : String)
  | invalidArgument (message : String)
  | store (path message : String)
deriving DecidableEq, Repr, Inhabited

namespace Failure

def message : Failure → String
  | file cause => "io error: " ++ cause.message
  | json m => "json error: " ++ m
  | parse f l c m =>
    f ++ ":" ++ toString l ++ ":" ++ toString c ++ ": parse error: " ++ m
  | emit f m => "failed to emit code for " ++ f ++ ": " ++ m
  | invalidArgument m => "invalid argument: " ++ m
  | store p m => "store error at " ++ p ++ ": " ++ m

end Failure
end StepTrace
