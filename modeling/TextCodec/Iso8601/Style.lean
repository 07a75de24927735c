/-!
# Styles

How a text is written where the format leaves a choice.
-/

namespace TextCodec.Iso8601

structure Style where
  /-- Whether an offset of zero is written `Z` and not `+00:00`. -/
  abbreviatesUtc : Bool := false
deriving DecidableEq, Repr

instance : Inhabited Style := ⟨{}⟩

/-- The style with another choice for an offset of zero. -/
def Style.withAbbreviatedUtc (style : Style) (choice : Bool) : Style :=
  { style with abbreviatesUtc := choice }

end TextCodec.Iso8601
