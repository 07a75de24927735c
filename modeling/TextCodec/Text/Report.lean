/-!
# Records as text

An error is reported by its name, followed by the numbers that explain it.
-/

namespace TextCodec.Report

/-- A name alone, or a name and its labelled numbers between braces. -/
def record (name : String) : List (String × Int) → String
  | [] => name
  | fields =>
    name ++ " \x7b " ++
      ", ".intercalate (fields.map fun f => f.1 ++ ": " ++ toString f.2) ++ " \x7d"

/-- A name around the text of what it groups. -/
def group (name inner : String) : String := name ++ "(" ++ inner ++ ")"

end TextCodec.Report
