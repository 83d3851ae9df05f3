/-! Texts filled up with spaces to a column.
A width counts characters, and a text wider than its column is left as it is.
-/

namespace BenchLog.Text

def filling (width : Nat) (s : String) : String :=
  String.ofList (List.replicate (width - s.length) ' ')

def alignRight (width : Nat) (s : String) : String :=
  filling width s ++ s

def alignLeft (width : Nat) (s : String) : String :=
  s ++ filling width s

end BenchLog.Text
