import TextCodec.Failure
import TextCodec.Interchange.Datum
import TextCodec.Text.Quoted
/-!
# Errors of interchange

What is wrong with a datum that should have been a value, and how it is told.
-/

namespace TextCodec.Interchange

/-- What a datum is called where it was not expected. -/
def Datum.describe : Datum → String
  | null => "null"
  | bool b => "boolean `" ++ toString b ++ "`"
  | integer n => "integer `" ++ toString n ++ "`"
  | string s => "string " ++ Quoted.quote s
  | list _ => "sequence"
  | object _ => "map"

/-- Why a datum is not the value that was asked for. -/
inductive Error where
  /-- The datum is of another kind. -/
  | wrongType (found : Datum) (expected : String)
  /-- The datum is of the right kind, but not of the right form. -/
  | wrongForm (found : Datum) (expected : String)
  | wrongLength (length : Nat) (expected : String)
  /-- An object lacks a field. -/
  | missingField (name : String)
  /-- A name is not one of those that a choice has. -/
  | unknownChoice (name : String) (choices : List String)
  /-- A string is not the text of a value. -/
  | refused (cause : Failure)

/-- A name between backquotes. -/
def quoteName (name : String) : String := "`" ++ name ++ "`"

def Error.text : Error → String
  | wrongType found expected => "invalid type: " ++ found.describe ++ ", expected " ++ expected
  | wrongForm found expected => "invalid value: " ++ found.describe ++ ", expected " ++ expected
  | wrongLength length expected =>
    "invalid length " ++ toString length ++ ", expected " ++ expected
  | missingField name => "missing field " ++ quoteName name
  | unknownChoice name choices =>
    "unknown variant " ++ quoteName name ++ ", expected " ++
      " or ".intercalate (choices.map quoteName)
  | refused cause => cause.text

end TextCodec.Interchange
