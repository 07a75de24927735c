import TextCodec.Interchange.Error
/-!
# Formats of interchange

A format keeps strings in documents. What reads a document says what it expects, is handed the
string of the document, and may refuse it for a cause of its own.
-/

namespace TextCodec.Interchange

/-- A format. -/
structure Format where
  Document : Type
  /-- Why a string cannot be written. -/
  WriteError : Type
  /-- Why a document is not what was asked for. -/
  Error : Type
  /-- The document of a string. -/
  write : String → Except WriteError Document
  /-- The string of a document, where a certain one is expected. -/
  find : (expectation : String) → Document → Except Error String
  /-- The error of a string that is refused. -/
  refused : Failure → Error

/-- Any string can be written, and is found in its document whatever is expected. -/
def Format.Carries (F : Format) : Prop :=
  ∀ s, ∃ document, F.write s = .ok document ∧ ∀ expectation, F.find expectation document = .ok s

/-- Data as documents. A string is written as it is. -/
def Datum.format : Format where
  Document := Datum
  WriteError := Empty
  Error := Interchange.Error
  write s := .ok (.string s)
  find
    | _, .string s => .ok s
    | expectation, d => .error (.wrongType d expectation)
  refused := .refused

theorem Datum.carries_format : Datum.format.Carries := fun s => ⟨.string s, rfl, fun _ => rfl⟩

end TextCodec.Interchange
