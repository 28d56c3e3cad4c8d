import StepTrace.Text.Blank

/-!
Names of suites and tests as names of directories. Every run of characters that a directory name should
not hold becomes one underscore.
-/
namespace StepTrace.Store

/-- Characters that mean something in a path, blanks, and control characters. -/
def isUnsafe (c : Char) : Bool :=
  "/\\:.*?\"<>|".toList.contains c || Text.isWhiteSpace c || Text.isControl c

/-- Replaces runs of unsafe characters; `inRun` says that one is under way. -/
def collapse (inRun : Bool) : List Char → List Char
  | [] => []
  | c :: r =>
    if isUnsafe c then
      if inRun then collapse true r else '_' :: collapse true r
    else c :: collapse false r

/-- The directory name for a name; the empty name becomes an underscore too. -/
def segment (name : String) : String :=
  match collapse false name.toList with
  | [] => "_"
  | cs => String.ofList cs

end StepTrace.Store
