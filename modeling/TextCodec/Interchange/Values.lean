import TextCodec.Base64.Decoder
import TextCodec.Interchange.Format
/-!
# Values as data

Calendar values go out as their canonical texts, in any format, and come back from any text that
denotes them. Settings go out as objects with one field per choice. They come back from such an
object, whatever other fields it has, or from a list of the choices in order.
-/

namespace TextCodec.Interchange

open Calendar Iso8601 Base64

/-! ## Calendar values -/

/-- Types of values that are interchanged as texts. -/
class Textual (α : Type) extends IsoText α where
  /-- What is expected where a value of the type should stand. -/
  expectation : String

instance : Textual Date where
  expectation := "a formatted date string"

instance : Textual Time where
  expectation := "a formatted time string"

instance : Textual DateTime where
  expectation := "a formatted datetime string"

instance : Textual ZonedDate where
  expectation := "a formatted date string with an optional timezone"

instance : Textual ZonedTime where
  expectation := "a formatted time string with an optional timezone"

instance : Textual ZonedDateTime where
  expectation := "a formatted datetime string with an optional timezone"

section Documents

variable {α : Type}

/-- The document of a value, in any format. -/
def Format.ofValue [IsoText α] (F : Format) (value : α) : Except F.WriteError F.Document :=
  F.write (display value)

/-- The value of a document, in any format. -/
def Format.toValue [Textual α] (F : Format) (document : F.Document) : Except F.Error α := do
  let s ← F.find (Textual.expectation α) document
  (parse (Bytes.ofString s)).mapError F.refused

/-- The datum of a value. -/
def ofValue [IsoText α] (value : α) : Datum :=
  match Datum.format.ofValue value with
  | .ok datum => datum
  | .error e => nomatch e

/-- The value of a datum. -/
def toValue [Textual α] (datum : Datum) : Except Error α := Datum.format.toValue datum

end Documents

/-! ## Truth values and choices -/

def toBool : Datum → Except Error Bool
  | .bool b => .ok b
  | d => .error (.wrongType d "a boolean")

def alphabetName : Alphabet → String
  | .basic => "Basic"
  | .url => "Url"

def alphabetOfName (name : String) : Except Error Alphabet :=
  match [Alphabet.basic, .url].find? (alphabetName · = name) with
  | some a => .ok a
  | none => .error (.unknownChoice name [alphabetName .basic, alphabetName .url])

def ofAlphabet (a : Alphabet) : Datum := .string (alphabetName a)

/-- The alphabet of a datum: its name, or an object with that name and nothing under it. -/
def toAlphabet : Datum → Except Error Alphabet
  | .string name => alphabetOfName name
  | .object [(name, content)] => do
    let a ← alphabetOfName name
    match content with
    | .null => return a
    | _ => throw (.wrongType content "unit")
  | .object fields => .error (.wrongForm (.object fields) "map with a single key")
  | d => .error (.wrongType d "string or map")

/-! ## Settings -/

variable {α : Type}

/-- What an object has under a name, if it has it. -/
def field? (read : Datum → Except Error α) (fields : List (String × Datum)) (name : String) :
    Except Error (Option α) :=
  match fields.lookup name with
  | some d => some <$> read d
  | none => .ok none

/-- A field that an object must have. -/
def required (name : String) : Option α → Except Error α
  | some a => .ok a
  | none => .error (.missingField name)

/-- The item of a list at a position. -/
def itemAt (read : Datum → Except Error α) (items : List Datum) (i : Nat) (expected : String) :
    Except Error α :=
  match items[i]? with
  | some d => read d
  | none => .error (.wrongLength items.length expected)

/-- Refuses lists with more than `n` items. -/
def checkItems (items : List Datum) (n : Nat) : Except Error Unit :=
  if n < items.length then .error (.wrongLength items.length "fewer elements in array") else .ok ()

/-- The datum of the options of a decoder. -/
def ofOptions (o : Options) : Datum :=
  .object [("alphabet", ofAlphabet o.alphabet), ("is_padded", .bool o.isPadded),
    ("is_unrecognized_an_error", .bool o.isStrict)]

/-- The options of a decoder from a datum. The fields that are there are read before one that is not
is missed. -/
def toOptions : Datum → Except Error Options
  | .object fields => do
    let alphabet ← field? toAlphabet fields "alphabet"
    let isPadded ← field? toBool fields "is_padded"
    let isStrict ← field? toBool fields "is_unrecognized_an_error"
    return {
      alphabet := ← required "alphabet" alphabet
      isPadded := ← required "is_padded" isPadded
      isStrict := ← required "is_unrecognized_an_error" isStrict }
  | .list items => do
    let expected := "struct Base64DecoderOptions with 3 elements"
    let alphabet ← itemAt toAlphabet items 0 expected
    let isPadded ← itemAt toBool items 1 expected
    let isStrict ← itemAt toBool items 2 expected
    checkItems items 3
    return { alphabet, isPadded, isStrict }
  | d => .error (.wrongType d "struct Base64DecoderOptions")

def ofStyle (style : Style) : Datum :=
  .object [("use_z_abbreviation_for_utc", .bool style.abbreviatesUtc)]

def toStyle : Datum → Except Error Style
  | .object fields => do
    let choice ← field? toBool fields "use_z_abbreviation_for_utc"
    return ⟨← required "use_z_abbreviation_for_utc" choice⟩
  | .list items => do
    let choice ← itemAt toBool items 0 "struct Iso8601Config with 1 element"
    checkItems items 1
    return ⟨choice⟩
  | d => .error (.wrongType d "struct Iso8601Config")

end TextCodec.Interchange
