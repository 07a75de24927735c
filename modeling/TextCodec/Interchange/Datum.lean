/-!
# Data for interchange

The form in which values leave a program and come back: what a JSON document can hold, without
fractions.
-/

namespace TextCodec.Interchange

/-- A datum. -/
inductive Datum where
  | null
  | bool (b : Bool)
  | integer (n : Int)
  | string (s : String)
  | list (items : List Datum)
  | object (fields : List (String × Datum))

end TextCodec.Interchange
