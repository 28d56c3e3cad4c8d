/-!
Texts of a fixed width in a column.
-/
namespace StepTrace.Text

/-- At least `width` characters, with blanks in front. -/
def alignRight (width : Nat) (s : String) : String :=
  String.ofList (List.replicate (width - s.length) ' ') ++ s

/-- At least `width` characters, with blanks behind. -/
def alignLeft (width : Nat) (s : String) : String :=
  s ++ String.ofList (List.replicate (width - s.length) ' ')

end StepTrace.Text
