import TextCodec.Text.Unprintable
/-!
# Quoted strings

A string between quotation marks, on one line. Quotation marks and backslashes take a backslash;
tab, line feed, carriage return and the zero character have letters of their own; other characters
that cannot be seen are written as numbers.
-/

namespace TextCodec.Quoted

/-- A character by its number, in lower case hexadecimal digits between braces. -/
def escapeNumber (c : Char) : List Char :=
  ['\\', 'u', '\x7b'] ++ Nat.toDigits 16 c.toNat ++ ['\x7d']

/-- A character between quotation marks. -/
def escape (c : Char) : List Char :=
  if c = '"' ∨ c = '\\' then ['\\', c]
  else if c = '\t' then ['\\', 't']
  else if c = '\n' then ['\\', 'n']
  else if c = '\r' then ['\\', 'r']
  else if c = '\x00' then ['\\', '0']
  else if isUnprintable c then escapeNumber c
  else [c]

/-- A string between quotation marks. -/
def quote (s : String) : String := String.ofList ('"' :: s.toList.flatMap escape ++ ['"'])

end TextCodec.Quoted
