/-!
# Byte strings

Texts are lists of bytes, and so are the buffers that they are written to. A buffer keeps its
length: writing replaces bytes at its front.
-/

namespace TextCodec

/-- A byte string. -/
abbrev Bytes := List UInt8

namespace Bytes

def ofString (s : String) : Bytes := s.toUTF8.data.toList

/-- The string whose characters have the given byte values. -/
def toAscii (text : Bytes) : String :=
  String.ofList (text.map fun b => Char.ofNat b.toNat)

/-- An ASCII character takes one byte. -/
theorem utf8EncodeChar_ofNat {b : UInt8} (h : b.toNat < 128) :
    String.utf8EncodeChar (Char.ofNat b.toNat) = [b] := by
  have hv : (Char.ofNat b.toNat).val.toNat = b.toNat := by
    have : b.toNat.isValidChar := Or.inl (by omega)
    rw [Char.ofNat, dif_pos this]
    rfl
  rw [String.utf8EncodeChar_eq_singleton]
  · congr 1
    apply UInt8.toNat_inj.1
    rw [UInt32.toNat_toUInt8, hv]
    omega
  · rw [Char.utf8Size_eq_one_iff, UInt32.le_iff_toNat_le, hv]
    have : (127 : UInt32).toNat = 127 := rfl
    omega

theorem ofString_toAscii {text : Bytes} (h : ∀ b ∈ text, b.toNat < 128) :
    ofString (toAscii text) = text := by
  unfold ofString toAscii
  rw [String.toUTF8_eq_toByteArray, String.toByteArray_ofList, List.utf8Encode,
    List.data_toByteArray, List.toList_toArray]
  induction text with
  | nil => rfl
  | cons b text ih =>
    rw [List.map_cons, List.flatMap_cons, utf8EncodeChar_ofNat (h b (by simp)),
      List.singleton_append, ih fun b hb => h b (by simp [hb])]

/-- A buffer with `text` at its front, cut where the buffer ends. -/
def overwrite (buffer text : Bytes) : Bytes :=
  text.take buffer.length ++ buffer.drop text.length

theorem overwrite_of_length_le {buffer text : Bytes} (h : text.length ≤ buffer.length) :
    overwrite buffer text = text ++ buffer.drop text.length := by
  rw [overwrite, List.take_of_length_le h]

end Bytes

end TextCodec
